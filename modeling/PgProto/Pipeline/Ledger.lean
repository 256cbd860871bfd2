import PgProto.Codec.Frames
import PgProto.Grammar.Backend

/-!
# Ledger — the bounded operation pipeline

The payload-free ledger of `src/pipeline.rs`.  It records one `Operation` per accepted frontend
message, projects frontend messages against a request state and backend messages against the
response state of the ledger head, and tells its caller what to do with each message.

Names follow the source.  Three points differ in form only:

* a `&mut self` method takes the pipeline and returns the pipeline it leaves behind;
* `unreachable!` and `expect` are values of `Panic`, so that "this call never panics" is a
  statement about the model;
* the `changed` notification handle is left out: it wakes waiting tasks and carries no data.
-/

namespace PgProto

open Backend (RuntimeState)

/-! ## Policies -/

/-- `OperationId(u64)`: only compared, never computed with outside the ledger. -/
abbrev OperationId := Nat

/-- `PipelineConfigError`: "pipeline operation limit must be non-zero". -/
inductive PipelineConfigError
  | zeroLimit
  deriving DecidableEq, Repr

/-- A bounded pipeline carries the proof that its limit is usable. -/
structure BoundedPipeline where
  maxOperations : Nat
  nonZero : 0 < maxOperations
  deriving DecidableEq, Repr

def BoundedPipeline.new (maxOperations : Nat) : Except PipelineConfigError BoundedPipeline :=
  if h : maxOperations = 0 then
    .error .zeroLimit
  else
    .ok { maxOperations := maxOperations, nonZero := Nat.pos_of_ne_zero h }

inductive PipelinePolicy
  | noPipeline
  | bounded (limit : BoundedPipeline)
  deriving DecidableEq, Repr

def PipelinePolicy.operationLimit : PipelinePolicy → Nat
  | .noPipeline => 1
  | .bounded limit => limit.maxOperations

theorem PipelinePolicy.operationLimit_pos (policy : PipelinePolicy) :
    0 < policy.operationLimit := by
  cases policy with
  | noPipeline => exact Nat.one_pos
  | bounded limit => exact limit.nonZero

/-! ## Actions and failures -/

inductive FrontendHandling
  | forward
  | «local»
  deriving DecidableEq, Repr

inductive FrontendAction
  | forward (id : OperationId) (message : FrontendMessage)
  | discard (id : OperationId)
  deriving DecidableEq, Repr

inductive FrontendAdmission
  | immediate (action : FrontendAction)
  | waiting (action : FrontendAction)
  deriving DecidableEq, Repr

/-- What happens to the message of an accepted record. -/
def FrontendHandling.action (handling : FrontendHandling) (discarded : Bool) (id : OperationId)
    (message : FrontendMessage) : FrontendAction :=
  match handling, discarded with
  | .forward, false => .forward id message
  | _, _ => .discard id

/-- An accepted message waits when other records are ahead of it. -/
def FrontendAdmission.behind (waiting : Bool) (action : FrontendAction) : FrontendAdmission :=
  if waiting then .waiting action else .immediate action

def FrontendAdmission.intoAction : FrontendAdmission → FrontendAction
  | .immediate action | .waiting action => action

/-- Public summary of the projected state. -/
inductive PipelineState
  | ready
  | extended
  | extendedError
  | copyIn
  | copyOut
  | copyBoth
  | terminated
  deriving DecidableEq, Repr

inductive FrontendProjectionError
  | capacity (message : FrontendMessage)
  | illegal (state : PipelineState) (message : FrontendMessage)
  deriving DecidableEq, Repr

inductive BackendAction
  | emit (message : BackendMessage)
  | deferred (message : BackendMessage)
  deriving DecidableEq, Repr

structure BackendProjectionError where
  state : PipelineState
  message : BackendMessage
  deriving DecidableEq, Repr

inductive BackendSequenceError
  | cardinality (expected actual : Nat)
  | source (message : BackendMessage)
  | replacement (message : BackendMessage)
  | differentSpan
  deriving DecidableEq, Repr

/-- The `unreachable!` arms and `expect` calls of the ledger. -/
inductive Panic
  /-- "COPY phase must belong to Query or Execute" -/
  | copyPhaseOwner
  /-- "non-accepting frontend phase cannot be prepared" -/
  | nonAcceptingPhase
  /-- "Sync is classified before discard" -/
  | syncDiscard
  /-- "phase-typed frontend replacement has a ledger classification" -/
  | unclassifiedFrontend
  /-- "response was validated against its generated backend phase" -/
  | unprojectedResponse
  /-- "projected backend event has a generated transition" -/
  | missingTransition
  deriving DecidableEq, Repr

/-! ## Ledger records -/

inductive RequestState
  | ready
  | extended (bound : Bool)
  | extendedError
  | copyIn
  | copyOut
  | copyBoth
  | terminated
  deriving DecidableEq, Repr

instance : Fintype RequestState :=
  Fintype.ofList
    [.ready, .extended false, .extended true, .extendedError, .copyIn, .copyOut, .copyBoth,
     .terminated]
    (by
      intro s
      cases s with
      | extended bound => cases bound <;> decide
      | _ => decide)

def RequestState.public : RequestState → PipelineState
  | .ready => .ready
  | .extended _ => .extended
  | .extendedError => .extendedError
  | .copyIn => .copyIn
  | .copyOut => .copyOut
  | .copyBoth => .copyBoth
  | .terminated => .terminated

inductive Origin
  | forwarded
  | «local»
  deriving DecidableEq, Repr

inductive OperationKind
  | query
  | functionCall
  | parse
  | bind
  | describe
  | execute
  | close
  | flush
  | sync
  | copyData
  | copyDone
  | copyFail
  | terminate
  deriving DecidableEq, Repr

instance : Fintype OperationKind :=
  Fintype.ofList
    [.query, .functionCall, .parse, .bind, .describe, .execute, .close, .flush, .sync, .copyData,
     .copyDone, .copyFail, .terminate]
    (by intro k; cases k <;> decide)

inductive FrontendPhase
  | ready
  | building
  | extendedError
  | simpleCopyIn
  | extendedCopyIn
  | simpleCopyBoth
  | extendedCopyBoth
  deriving DecidableEq, Repr

structure PreparedFrontend where
  phase : FrontendPhase
  requestState : RequestState
  deriving DecidableEq, Repr

structure Operation where
  id : OperationId
  kind : OperationKind
  origin : Origin
  discarded : Bool
  responseState : RuntimeState
  deriving DecidableEq, Repr

inductive PreparedResponse
  | asynchronous
  | emit (head : Operation) (responseState : RuntimeState)
  | deferred
  | illegal
  deriving DecidableEq, Repr

structure Pipeline where
  policy : PipelinePolicy
  operations : List Operation
  requestState : RequestState
  responseState : Option PipelineState
  nextId : Nat
  deriving DecidableEq, Repr

/-! ## Classification -/

def generatedRequestState : RequestState → RuntimeState
  | .ready => .ready
  | .extended _ => .building
  | .extendedError => .extendedError
  | .copyIn => .extendedCopyIn
  | .copyOut => .extendedCopyOut
  | .copyBoth => .extendedCopyBoth
  | .terminated => .terminated

def classifyDiscard : FrontendVariant → Except Panic (Option OperationKind)
  | .parse => .ok (some .parse)
  | .bind => .ok (some .bind)
  | .describe => .ok (some .describe)
  | .execute => .ok (some .execute)
  | .close => .ok (some .close)
  | .flush => .ok (some .flush)
  | .query => .ok (some .query)
  | .functionCall => .ok (some .functionCall)
  | .copyData => .ok (some .copyData)
  | .copyDone => .ok (some .copyDone)
  | .copyFail => .ok (some .copyFail)
  | .terminate => .ok (some .terminate)
  | .passwordResponse => .ok none
  | .sync => .error .syncDiscard

def classifyFrontend (state : RequestState) (message : FrontendVariant) :
    Except Panic (Option (OperationKind × RequestState)) :=
  match state, message with
  | .ready, .query => .ok (some (.query, .ready))
  | .ready, .functionCall => .ok (some (.functionCall, .ready))
  | .ready, .parse => .ok (some (.parse, .extended false))
  | .ready, .bind | .extended _, .bind => .ok (some (.bind, .extended true))
  | .ready, .describe => .ok (some (.describe, .extended false))
  | .ready, .execute | .extended _, .execute => .ok (some (.execute, .extended true))
  | .ready, .close => .ok (some (.close, .extended false))
  | .ready, .terminate => .ok (some (.terminate, .terminated))
  | .extended bound, .parse => .ok (some (.parse, .extended bound))
  | .extended bound, .describe => .ok (some (.describe, .extended bound))
  | .extended bound, .close => .ok (some (.close, .extended bound))
  | .extended bound, .flush => .ok (some (.flush, .extended bound))
  | .extended _, .sync | .extendedError, .sync => .ok (some (.sync, .ready))
  | .extendedError, m => do
    match ← classifyDiscard m with
    | some kind => return some (kind, .extendedError)
    | none => return none
  | .copyIn, .copyData => .ok (some (.copyData, .copyIn))
  | .copyIn, .copyDone => .ok (some (.copyDone, .extended true))
  | .copyIn, .copyFail => .ok (some (.copyFail, .extendedError))
  | .copyBoth, .copyData => .ok (some (.copyData, .copyBoth))
  | .copyBoth, .copyDone => .ok (some (.copyDone, .copyBoth))
  | _, _ => .ok none

def projectFrontend (state : RequestState) (message : FrontendVariant) :
    Except Panic (Option (OperationKind × RequestState)) :=
  match Backend.projectExternal (generatedRequestState state) message with
  | none => .ok none
  | some _ => classifyFrontend state message

def frontendPhase (state : RequestState) (responseHead : Option OperationKind) :
    Except Panic FrontendPhase :=
  match state, responseHead with
  | .ready, _ => .ok .ready
  | .extended _, _ => .ok .building
  | .extendedError, _ => .ok .extendedError
  | .copyIn, some .query => .ok .simpleCopyIn
  | .copyIn, some .execute => .ok .extendedCopyIn
  | .copyBoth, some .query => .ok .simpleCopyBoth
  | .copyBoth, some .execute => .ok .extendedCopyBoth
  | .copyIn, _ | .copyBoth, _ => .error .copyPhaseOwner
  | .copyOut, _ | .terminated, _ => .error .nonAcceptingPhase

def initialResponseState : OperationKind → RuntimeState
  | .query => .simple
  | .functionCall => .functionResponse
  | .parse => .parseResponse
  | .bind => .bindResponse
  | .describe => .describeResponse
  | .execute => .executeResponse
  | .close => .closeResponse
  | .sync => .syncResponse
  | .flush | .copyData | .copyDone | .copyFail | .terminate => .terminated

def responseFits (operation : Operation) (message : BackendVariant) : Bool :=
  (Backend.projectInternal operation.responseState message).isSome

def responseIsTerminal (kind : OperationKind) (message : BackendVariant) : Bool :=
  match kind with
  | .query | .functionCall | .sync => decide (message = .readyForQuery)
  | .parse => [BackendVariant.parseComplete, .errorResponse].contains message
  | .bind => [BackendVariant.bindComplete, .errorResponse].contains message
  | .describe => [BackendVariant.rowDescription, .noData, .errorResponse].contains message
  | .execute => [BackendVariant.commandComplete, .portalSuspended, .errorResponse].contains message
  | .close => [BackendVariant.closeComplete, .errorResponse].contains message
  | .copyDone => [BackendVariant.copyDone, .commandComplete, .errorResponse].contains message
  | .copyFail => decide (message = .errorResponse)
  | .flush | .copyData | .terminate => true

def isExtendedKind : OperationKind → Bool
  | .query | .functionCall | .terminate => false
  | _ => true

def responseCopyState : RuntimeState → Option RequestState
  | .simpleCopyIn | .extendedCopyIn => some .copyIn
  | .simpleCopyOut | .extendedCopyOut => some .copyOut
  | .simpleCopyBoth | .simpleCopyBothClientDone | .simpleCopyBothServerDone
  | .extendedCopyBoth | .extendedCopyBothClientDone | .extendedCopyBothServerDone => some .copyBoth
  | _ => none

/-! ## Queue updates -/

/-- Kinds that owe no response; `remove_inert_heads` drops them once they reach the head. -/
def isInertKind : OperationKind → Bool
  | .flush | .copyData | .copyDone | .copyFail | .terminate => true
  | _ => false

def Operation.isInert (operation : Operation) : Bool :=
  isInertKind operation.kind || operation.discarded

def Operation.isLiveSync (operation : Operation) : Bool :=
  decide (operation.kind = .sync) && !operation.discarded

def Operation.discard (operation : Operation) : Operation :=
  { operation with discarded := true }

/-- Discards the first record that satisfies `p`. -/
def discardFirst (p : Operation → Bool) : List Operation → List Operation
  | [] => []
  | o :: os => if p o then o.discard :: os else o :: discardFirst p os

/-- The `iter_mut().rev().find(..)` update of `commit_frontend`: the newest live Sync. -/
def cancelLastSync (operations : List Operation) : List Operation :=
  (discardFirst Operation.isLiveSync operations.reverse).reverse

/-- PostgreSQL ignores the Sync that began an extended execution once the execution enters COPY IN;
the Sync sent after CopyDone or CopyFail is the recovery barrier. -/
def cancelSyncFor (requestState : RequestState) (kind : OperationKind)
    (operations : List Operation) : List Operation :=
  if requestState = .copyIn ∧ (kind = .copyDone ∨ kind = .copyFail) then
    cancelLastSync operations
  else
    operations

/-- The record `commit_frontend` appends.  It is born discarded when the request state it leads to
is `ExtendedError`, unless it is a Sync. -/
def Operation.admitted (id : OperationId) (kind : OperationKind) (nextState : RequestState)
    (handling : FrontendHandling) : Operation :=
  { id := id
    kind := kind
    origin :=
      match handling with
      | .forward => .forwarded
      | .local => .local
    discarded := decide (nextState = .extendedError) && decide (kind ≠ .sync)
    responseState := initialResponseState kind }

/-- The loop of `enter_extended_error` and `project_deferred_local_error`: discards records up to
the first Sync record and reports whether there is one. -/
def discardUntilSync : List Operation → List Operation × Bool
  | [] => ([], false)
  | o :: os =>
    if o.kind = .sync then
      (o :: os, true)
    else
      let rest := discardUntilSync os
      (o.discard :: rest.1, rest.2)

/-- Replaces the response state of the front record. -/
def setHeadState (state : RuntimeState) : List Operation → List Operation
  | [] => []
  | o :: os => { o with responseState := state } :: os

/-- A frontend message moves the response state of the front record when it maps from it. -/
def advanceHead (message : FrontendVariant) : List Operation → List Operation
  | [] => []
  | o :: os =>
    match Backend.projectExternal o.responseState message with
    | none => o :: os
    | some event =>
      match Backend.transition o.responseState event with
      | none => o :: os
      | some edge => { o with responseState := edge.target } :: os

namespace Pipeline

/-! ## Construction and queries -/

def new (policy : PipelinePolicy) : Pipeline :=
  { policy := policy
    operations := []
    requestState := .ready
    responseState := none
    nextId := 0 }

def state (p : Pipeline) : PipelineState :=
  p.responseState.getD p.requestState.public

def nextOperationId (p : Pipeline) : OperationId := p.nextId

def removeInertHeads (p : Pipeline) : Pipeline :=
  { p with operations := p.operations.dropWhile Operation.isInert }

def enterExtendedError (p : Pipeline) : Pipeline :=
  let scan := discardUntilSync p.operations
  { p with
    responseState := none
    operations := scan.1
    requestState := if scan.2 then p.requestState else .extendedError }

/-! ## Frontend messages -/

def prepareFrontend (p : Pipeline) (message : FrontendMessage) :
    Except Panic (Except FrontendProjectionError PreparedFrontend) :=
  if p.operations.length = p.policy.operationLimit ∧
      p.requestState ≠ .copyIn ∧ p.requestState ≠ .copyBoth then
    .ok (.error (.capacity message))
  else
    match projectFrontend p.requestState message.variant with
    | .error panic => .error panic
    | .ok none => .ok (.error (.illegal p.state message))
    | .ok (some _) =>
      match frontendPhase p.requestState (p.operations.head?.map Operation.kind) with
      | .error panic => .error panic
      | .ok phase => .ok (.ok { phase := phase, requestState := p.requestState })

/-- The ledger update of `commit_frontend` once the message is classified. -/
def commitClassified (p : Pipeline) (requestState : RequestState) (kind : OperationKind)
    (nextState : RequestState) (message : FrontendMessage) (handling : FrontendHandling) :
    FrontendAdmission × Pipeline :=
  let cancelled := cancelSyncFor requestState kind p.operations
  let waiting := !cancelled.isEmpty
  let record := Operation.admitted p.nextId kind nextState handling
  let admission :=
    FrontendAdmission.behind waiting (handling.action record.discarded p.nextId message)
  let committed : Pipeline :=
    { p with
      nextId := saturatingSucc p.nextId
      requestState := nextState
      operations := advanceHead message.variant cancelled ++ [record] }
  (admission, committed.removeInertHeads)

def commitFrontend (p : Pipeline) (prepared : PreparedFrontend) (message : FrontendMessage)
    (handling : FrontendHandling) : Except Panic (FrontendAdmission × Pipeline) :=
  match classifyFrontend prepared.requestState message.variant with
  | .error panic => .error panic
  | .ok none => .error .unclassifiedFrontend
  | .ok (some (kind, nextState)) =>
    .ok (p.commitClassified prepared.requestState kind nextState message handling)

def acceptFrontend (p : Pipeline) (message : FrontendMessage) (handling : FrontendHandling) :
    Except Panic (Except FrontendProjectionError FrontendAdmission × Pipeline) :=
  match p.prepareFrontend message with
  | .error panic => .error panic
  | .ok (.error error) => .ok (.error error, p)
  | .ok (.ok prepared) =>
    match p.commitFrontend prepared message handling with
    | .error panic => .error panic
    | .ok (admission, next) => .ok (.ok admission, next)

/-! ## Backend messages -/

/-- The last part of `prepare_response`, once the origin of the front record agrees with the
caller. -/
def prepareFor (head : Operation) (rest : List Operation) (message : BackendVariant) :
    PreparedResponse :=
  if head.discarded || !responseFits head message then
    if rest.any fun o => responseFits o message then .deferred else .illegal
  else
    .emit head head.responseState

def prepareResponse (p : Pipeline) (localId : Option OperationId) (message : BackendMessage) :
    PreparedResponse :=
  if isAsynchronous message then
    .asynchronous
  else
    match p.operations, localId with
    | [], _ => .illegal
    | head :: rest, some id =>
      if head.id ≠ id then .deferred
      else if head.origin ≠ .local then .illegal
      else prepareFor head rest message.variant
    | head :: rest, none =>
      if head.origin = .local then
        if rest.any fun o =>
            decide (o.origin = .forwarded) && responseFits o message.variant then
          .deferred
        else
          .illegal
      else
        prepareFor head rest message.variant

/-- The ledger update of `commit_response` once the next response state is known. -/
def commitEmit (p : Pipeline) (head : Operation) (nextResponseState : RuntimeState)
    (message : BackendVariant) : Pipeline :=
  let terminal := responseIsTerminal head.kind message
  let copyState := responseCopyState nextResponseState
  let popped : Pipeline :=
    if terminal then
      let rest : Pipeline := { p with operations := p.operations.tail }
      if message = .errorResponse ∧ isExtendedKind head.kind then rest.enterExtendedError else rest
    else
      { p with
        operations := setHeadState nextResponseState p.operations
        responseState := copyState.map RequestState.public }
  let copied : Pipeline :=
    match copyState with
    | some .copyIn => { popped with requestState := .copyIn }
    | some .copyBoth => { popped with requestState := .copyBoth }
    | _ => popped
  let settled : Pipeline := if terminal then { copied with responseState := none } else copied
  settled.removeInertHeads

def commitResponse (p : Pipeline) (prepared : PreparedResponse) (message : BackendMessage) :
    Except Panic (Except BackendProjectionError BackendAction × Pipeline) :=
  match prepared with
  | .asynchronous => .ok (.ok (.emit message), p)
  | .deferred => .ok (.ok (.deferred message), p)
  | .illegal => .ok (.error { state := p.state, message := message }, p)
  | .emit head responseState =>
    match Backend.projectInternal responseState message.variant with
    | none => .error .unprojectedResponse
    | some event =>
      match Backend.transition responseState event with
      | none => .error .missingTransition
      | some edge => .ok (.ok (.emit message), p.commitEmit head edge.target message.variant)

/-- Discards what follows the rejected operation, up to the first Sync record. -/
def projectDeferredLocalError (p : Pipeline) (id : OperationId) : Pipeline :=
  match p.operations.findIdx? (fun o => decide (o.id = id)) with
  | none => p
  | some rejected =>
    match p.operations.drop rejected with
    | [] => p
    | o :: rest =>
      if o.origin ≠ .local ∨ isExtendedKind o.kind = false then
        p
      else
        let scan := discardUntilSync rest
        { p with
          operations := p.operations.take rejected ++ o :: scan.1
          requestState := if scan.2 then p.requestState else .extendedError }

def acceptResponse (p : Pipeline) (localId : Option OperationId) (message : BackendMessage) :
    Except Panic (Except BackendProjectionError BackendAction × Pipeline) :=
  let prepared : PreparedResponse := p.prepareResponse localId message
  let projected : Pipeline :=
    match localId with
    | some id =>
      if prepared = .deferred ∧ message.variant = .errorResponse then
        p.projectDeferredLocalError id
      else
        p
    | none => p
  projected.commitResponse prepared message

def acceptBackend (p : Pipeline) (message : BackendMessage) :
    Except Panic (Except BackendProjectionError BackendAction × Pipeline) :=
  p.acceptResponse none message

def tryEmitLocal (p : Pipeline) (id : OperationId) (message : BackendMessage) :
    Except Panic (Except BackendProjectionError BackendAction × Pipeline) :=
  p.acceptResponse (some id) message

end Pipeline
end PgProto
