import PgProto.Pipeline.Recovery

/-!
# Typed — dispatch through phase-typed middleware

The typed entry points of `src/pipeline.rs`.  They check a message as the plain ones do, hand it to
the middleware hook of its phase, and commit what the hook returns.  A hook can only return a
message of the set that the grammar generates for the phase.

* `ExternalMessage`, `InternalMessage` — the generated message sets, each value with the proof that
  its phase has a transition for it;
* `Pipeline.acceptFrontendTyped`, `Pipeline.acceptResponseTyped` — the typed entry points;
* `Pipeline.typedCall_eq_iff` — with the identity middleware a typed call is the plain call, but for
  the rejection of a local operation that has to wait.
-/

namespace PgProto

open Backend (RuntimeState)
open Lib
open Backend (projectExternal)

/-! ## Generated message sets -/

/-- `<Phase>ExternalMessage`: a client message for which the phase has a transition. -/
structure ExternalMessage (state : RuntimeState) where
  intoWire : FrontendMessage
  legal : (Backend.projectExternal state intoWire.variant).isSome = true

/-- `<Phase>InternalMessage`: a server message for which the phase has a transition. -/
structure InternalMessage (state : RuntimeState) where
  intoWire : BackendMessage
  legal : (Backend.projectInternal state intoWire.variant).isSome = true

structure AsynchronousBackendMessage where
  intoWire : BackendMessage
  legal : isAsynchronous intoWire = true

/-- The generated `TryFrom`; the refusal returns the message. -/
def ExternalMessage.tryFrom (state : RuntimeState) (message : FrontendMessage) :
    Except FrontendMessage (ExternalMessage state) :=
  if h : (Backend.projectExternal state message.variant).isSome = true then
    .ok ⟨message, h⟩
  else
    .error message

def InternalMessage.tryFrom (state : RuntimeState) (message : BackendMessage) :
    Except BackendMessage (InternalMessage state) :=
  if h : (Backend.projectInternal state message.variant).isSome = true then
    .ok ⟨message, h⟩
  else
    .error message

def AsynchronousBackendMessage.tryFrom (message : BackendMessage) :
    Except BackendMessage AsynchronousBackendMessage :=
  if h : isAsynchronous message = true then .ok ⟨message, h⟩ else .error message

/-- The phase of the grammar whose message set a frontend hook takes. -/
def FrontendPhase.state : FrontendPhase → RuntimeState
  | .ready => .ready
  | .building => .building
  | .extendedError => .extendedError
  | .simpleCopyIn => .simpleCopyIn
  | .extendedCopyIn => .extendedCopyIn
  | .simpleCopyBoth => .simpleCopyBoth
  | .extendedCopyBoth => .extendedCopyBoth

/-- The phases listed in `backend_pipeline_phases`, those with a backend hook. -/
def backendPipelinePhases : List RuntimeState :=
  [.simple, .simpleError, .parseResponse, .bindResponse, .describeResponse, .executeResponse,
   .closeResponse, .syncResponse, .functionResponse, .functionReady, .simpleCopyInDone,
   .simpleCopyInFailed, .simpleCopyOut, .simpleCopyOutDone, .simpleCopyReady, .extendedCopyInDone,
   .extendedCopyInFailed, .extendedCopyOut, .extendedCopyOutDone, .simpleCopyBoth,
   .simpleCopyBothClientDone, .simpleCopyBothDone, .simpleCopyBothFailed, .extendedCopyBoth,
   .extendedCopyBothClientDone, .extendedCopyBothDone, .extendedCopyBothFailed]

/-! ## Middleware -/

/-- The hooks of `FrontendPipelineMiddleware`: a hook may fail and may change the shared state. -/
structure FrontendPipelineMiddleware (σ ε : Type) where
  hook : (phase : FrontendPhase) → σ → ExternalMessage phase.state →
    Except ε (ExternalMessage phase.state) × σ

/-- The hooks of `BackendPipelineMiddleware`. -/
structure BackendPipelineMiddleware (σ ε : Type) where
  asynchronous : σ → AsynchronousBackendMessage → Except ε AsynchronousBackendMessage × σ
  hook : (state : RuntimeState) → σ → InternalMessage state → Except ε (InternalMessage state) × σ

/-- `Identity` as frontend middleware; its error type has no values. -/
def FrontendPipelineMiddleware.identity (σ : Type) : FrontendPipelineMiddleware σ Empty :=
  { hook := fun _ s message => (.ok message, s) }

/-- `Identity` as backend middleware. -/
def BackendPipelineMiddleware.identity (σ : Type) : BackendPipelineMiddleware σ Empty :=
  { asynchronous := fun s message => (.ok message, s)
    hook := fun _ s message => (.ok message, s) }

inductive PipelineMiddlewareError (ε π : Type)
  | middleware (error : ε)
  | projection (error : π)
  deriving DecidableEq, Repr

/-- The panics of the typed entry points: those of the ledger and their own `unreachable!` arms. -/
inductive TypedPanic
  | ledger (panic : Panic)
  /-- "frontend message was prevalidated for pipeline phase" -/
  | prevalidatedFrontend
  /-- "asynchronous response was prevalidated" -/
  | prevalidatedAsynchronous
  /-- "response phase has no backend-selected transition" -/
  | noBackendTransition
  deriving DecidableEq, Repr

/-- `to_frame` succeeds on the message of the call. -/
def Call.isReconstructable : Call → Bool
  | .frontend message _ => message.isReconstructable
  | .backend message => message.isReconstructable
  | .emitLocal _ message => message.isReconstructable

namespace Pipeline

/-! ## Typed entry points -/

section Typed

variable {σ ε : Type}

def interceptFrontend (middleware : FrontendPipelineMiddleware σ ε) (phase : FrontendPhase) (s : σ)
    (message : FrontendMessage) : Except TypedPanic (Except ε FrontendMessage × σ) :=
  match ExternalMessage.tryFrom phase.state message with
  | .error _ => .error .prevalidatedFrontend
  | .ok typed =>
    let passed := middleware.hook phase s typed
    .ok (passed.1.map ExternalMessage.intoWire, passed.2)

def acceptFrontendTyped (p : Pipeline) (middleware : FrontendPipelineMiddleware σ ε) (s : σ)
    (message : FrontendMessage) (handling : FrontendHandling) :
    Except TypedPanic
      (Except (PipelineMiddlewareError ε FrontendProjectionError) FrontendAdmission ×
        Pipeline × σ) :=
  match p.prepareFrontend message with
  | .error panic => .error (.ledger panic)
  | .ok (.error error) => .ok (.error (.projection error), p, s)
  | .ok (.ok prepared) =>
    match interceptFrontend middleware prepared.phase s message with
    | .error panic => .error panic
    | .ok (.error error, s) => .ok (.error (.middleware error), p, s)
    | .ok (.ok message, s) =>
      if message.isReconstructable then
        match p.commitFrontend prepared message handling with
        | .error panic => .error (.ledger panic)
        | .ok (admission, next) => .ok (.ok admission, next, s)
      else
        .ok (.error (.projection (.illegal p.state message)), p, s)

/-- The dispatch of an emittable response; a response its phase does not know is returned. -/
def interceptBackend (middleware : BackendPipelineMiddleware σ ε) (state : RuntimeState) (s : σ)
    (message : BackendMessage) :
    Except TypedPanic (Except (Except BackendMessage ε) BackendMessage × σ) :=
  if backendPipelinePhases.contains state then
    match InternalMessage.tryFrom state message with
    | .error message => .ok (.error (.error message), s)
    | .ok typed =>
      let passed := middleware.hook state s typed
      match passed.1 with
      | .error error => .ok (.error (.ok error), passed.2)
      | .ok typed => .ok (.ok typed.intoWire, passed.2)
  else
    .error .noBackendTransition

/-- The dispatch of an asynchronous response. -/
def interceptAsynchronous (middleware : BackendPipelineMiddleware σ ε) (s : σ)
    (message : BackendMessage) : Except TypedPanic (Except ε BackendMessage × σ) :=
  match AsynchronousBackendMessage.tryFrom message with
  | .error _ => .error .prevalidatedAsynchronous
  | .ok typed =>
    let passed := middleware.asynchronous s typed
    .ok (passed.1.map AsynchronousBackendMessage.intoWire, passed.2)

/-- The end of `accept_response_typed`: what the hook returned is checked and committed. -/
def commitTyped (p : Pipeline) (prepared : PreparedResponse) (s : σ) (message : BackendMessage) :
    Except TypedPanic
      (Except (PipelineMiddlewareError ε BackendProjectionError) BackendAction × Pipeline × σ) :=
  if message.isReconstructable then
    match p.commitResponse prepared message with
    | .error panic => .error (.ledger panic)
    | .ok (.error error, next) => .ok (.error (.projection error), next, s)
    | .ok (.ok action, next) => .ok (.ok action, next, s)
  else
    .ok (.error (.projection { state := p.state, message := message }), p, s)

def acceptResponseTyped (p : Pipeline) (localId : Option OperationId)
    (middleware : BackendPipelineMiddleware σ ε) (s : σ) (message : BackendMessage) :
    Except TypedPanic
      (Except (PipelineMiddlewareError ε BackendProjectionError) BackendAction × Pipeline × σ) :=
  match p.prepareResponse localId message with
  | .deferred => .ok (.ok (.deferred message), p, s)
  | .illegal => .ok (.error (.projection { state := p.state, message := message }), p, s)
  | .asynchronous =>
    match interceptAsynchronous middleware s message with
    | .error panic => .error panic
    | .ok (.error error, s) => .ok (.error (.middleware error), p, s)
    | .ok (.ok message, s) => p.commitTyped .asynchronous s message
  | .emit head responseState =>
    match interceptBackend middleware responseState s message with
    | .error panic => .error panic
    | .ok (.error (.error message), s) =>
      .ok (.error (.projection { state := p.state, message := message }), p, s)
    | .ok (.error (.ok error), s) => .ok (.error (.middleware error), p, s)
    | .ok (.ok message, s) => p.commitTyped (.emit head responseState) s message

def acceptBackendTyped (p : Pipeline) (middleware : BackendPipelineMiddleware σ ε) (s : σ)
    (message : BackendMessage) :
    Except TypedPanic
      (Except (PipelineMiddlewareError ε BackendProjectionError) BackendAction × Pipeline × σ) :=
  p.acceptResponseTyped none middleware s message

def tryEmitLocalTyped (p : Pipeline) (middleware : BackendPipelineMiddleware σ ε) (s : σ)
    (id : OperationId) (message : BackendMessage) :
    Except TypedPanic
      (Except (PipelineMiddlewareError ε BackendProjectionError) BackendAction × Pipeline × σ) :=
  p.acceptResponseTyped (some id) middleware s message

end Typed

/-! ## Dispatch with the identity -/

/-- The request state has one phase for COPY IN and one for COPY BOTH; the grammar has two of each,
for the simple and for the extended protocol, with the same client messages. -/
theorem frontendPhase_projectExternal {state : RequestState} {head : Option OperationKind}
    {phase : FrontendPhase} (h : frontendPhase state head = .ok phase) (message : FrontendVariant) :
    projectExternal phase.state message =
      projectExternal (generatedRequestState state) message := by
  have htwins : ∀ variant,
      projectExternal .simpleCopyIn variant =
          projectExternal .extendedCopyIn variant ∧
        projectExternal .simpleCopyBoth variant =
          projectExternal .extendedCopyBoth variant := by
    decide +kernel
  unfold frontendPhase at h
  split at h <;> cases h <;> first | rfl | exact (htwins message).1 | exact (htwins message).2

variable {p : Pipeline} {message : FrontendMessage} {prepared : PreparedFrontend}

/-- What `prepare_frontend` has checked when it admits a message. -/
theorem prepareFrontend_inv (h : p.prepareFrontend message = .ok (.ok prepared)) :
    (projectExternal (generatedRequestState p.requestState) message.variant).isSome = true ∧
      frontendPhase p.requestState (p.operations.head?.map Operation.kind) = .ok prepared.phase ∧
      prepared.requestState = p.requestState := by
  unfold prepareFrontend at h
  split at h
  · cases h
  · cases hproject : projectFrontend p.requestState message.variant with
    | error panic =>
      simp [hproject] at h
    | ok classified =>
      rcases classified with _ | result
      · simp [hproject] at h
      · cases hphase : frontendPhase p.requestState (p.operations.head?.map Operation.kind) with
        | error panic =>
          simp [hproject, hphase] at h
        | ok phase =>
          simp only [hproject, hphase, Except.ok.injEq] at h
          subst h
          refine ⟨?_, rfl, rfl⟩
          unfold projectFrontend at hproject
          split at hproject
          · cases hproject
          · rename_i hevent
            simp [hevent]

/-- The message that `prepare_frontend` admits belongs to the set of its phase. -/
theorem prepareFrontend_legal (h : p.prepareFrontend message = .ok (.ok prepared)) :
    (projectExternal prepared.phase.state message.variant).isSome = true := by
  rcases prepareFrontend_inv h with ⟨hlegal, hphase, -⟩
  rw [frontendPhase_projectExternal hphase]
  exact hlegal

theorem interceptFrontend_identity {σ : Type} {phase : FrontendPhase} {s : σ}
    (hlegal : (projectExternal phase.state message.variant).isSome = true) :
    interceptFrontend (.identity σ) phase s message = .ok (.ok message, s) := by
  simp [interceptFrontend, ExternalMessage.tryFrom, hlegal, FrontendPipelineMiddleware.identity,
    Except.map]

theorem mem_backendPipelinePhases {state : RuntimeState} {message : BackendVariant}
    (h : (Backend.projectInternal state message).isSome = true) :
    backendPipelinePhases.contains state = true := by
  rw [← Backend.respond_isSome] at h
  rcases Option.isSome_iff_exists.1 h with ⟨next, hnext⟩
  exact Backend.respond_rule (by decide +kernel) hnext

theorem interceptBackend_identity {σ : Type} {state : RuntimeState} {s : σ}
    {message : BackendMessage}
    (hlegal : (Backend.projectInternal state message.variant).isSome = true) :
    interceptBackend (.identity σ) state s message = .ok (.ok message, s) := by
  unfold interceptBackend
  rw [if_pos (mem_backendPipelinePhases hlegal)]
  simp [InternalMessage.tryFrom, hlegal, BackendPipelineMiddleware.identity]

theorem interceptAsynchronous_identity {σ : Type} {s : σ} {message : BackendMessage}
    (hlegal : isAsynchronous message = true) :
    interceptAsynchronous (.identity σ) s message = .ok (.ok message, s) := by
  simp [interceptAsynchronous, AsynchronousBackendMessage.tryFrom, hlegal,
    BackendPipelineMiddleware.identity, Except.map]

/-! ## Typed runs -/

/-- With middleware that cannot fail, only the ledger refuses. -/
def projectionError {π : Type} : PipelineMiddlewareError Empty π → π
  | .projection error => error

/-- A call through the typed entry points, with the identity middleware. -/
def typedCall (p : Pipeline) : Call → Except TypedPanic (Reply × Pipeline)
  | .frontend message handling =>
    (p.acceptFrontendTyped (.identity Unit) () message handling).map fun r =>
      (Reply.frontend (r.1.mapError projectionError), r.2.1)
  | .backend message =>
    (p.acceptBackendTyped (.identity Unit) () message).map fun r =>
      (Reply.backend (r.1.mapError projectionError), r.2.1)
  | .emitLocal id message =>
    (p.tryEmitLocalTyped (.identity Unit) () id message).map fun r =>
      (Reply.backend (r.1.mapError projectionError), r.2.1)

abbrev TypedStep : Pipeline → Call → Reply → Pipeline → Prop := Calls typedCall

/-- Marks that the rejection of a local operation of the extended protocol has still to set: on a
record between it and the next Sync, or, without a Sync, on the request state. -/
def OwesMarks (p : Pipeline) (id : OperationId) : Prop :=
  ∃ before o rest, p.operations = before ++ o :: rest ∧ (∀ x ∈ before, x.id ≠ id) ∧ o.id = id ∧
    o.origin = .local ∧ isExtendedKind o.kind = true ∧
    ((∃ x ∈ beforeSync rest, x.discarded = false) ∨
      (fromSync rest = [] ∧ p.requestState ≠ .extendedError))

/-- An ErrorResponse for the operation has to wait: another record is at the front, or the operation
is at the front in a phase without an ErrorResponse and a later record could take one. -/
def RejectionWaits (p : Pipeline) (id : OperationId) : Prop :=
  ∃ head rest, p.operations = head :: rest ∧
    (head.id ≠ id ∨
      (head.discarded = true ∨ responseFits head .errorResponse = false) ∧
        ∃ x ∈ rest, responseFits x .errorResponse = true)

/-- The call rejects a local operation whose response has to wait, and the rejection has still marks
to set. -/
def DefersRejection (p : Pipeline) (call : Call) : Prop :=
  ∃ id message, call = .emitLocal id message ∧ message.variant = .errorResponse ∧
    p.RejectionWaits id ∧ p.OwesMarks id

/-! ## The deferred rejection -/

/-- The error of a local operation with marks to set is deferred exactly when it has to wait. -/
theorem OwesMarks.prepareResponse_eq_deferred_iff {id : OperationId} (howes : p.OwesMarks id)
    {message : BackendMessage} (herror : message.variant = .errorResponse) :
    p.prepareResponse (some id) message = .deferred ↔ p.RejectionWaits id := by
  rcases howes with ⟨before, o, rest, hops, hbefore, hid, horigin, -, -⟩
  have hasync : isAsynchronous message = false := by
    rw [isAsynchronous, herror]
    rfl
  unfold prepareResponse RejectionWaits
  rw [if_neg (by simp [hasync]), hops, herror]
  cases before with
  | nil =>
    -- The operation is at the front: it waits behind its own phase.
    simp only [List.nil_append, hid, ne_eq, not_true_eq_false, if_false, horigin, prepareFor]
    by_cases hfit : o.discarded || !responseFits o .errorResponse
    · by_cases hlater : rest.any fun x => responseFits x .errorResponse
      · simp_all
      · simp_all
    · simp_all
  | cons x before =>
    have hx : x.id ≠ id := hbefore x (by simp)
    simp [hx]

theorem projectDeferredLocalError_eq {id : OperationId} {before rest : List Operation}
    {o : Operation} (hops : p.operations = before ++ o :: rest) (hbefore : ∀ x ∈ before, x.id ≠ id)
    (hid : o.id = id) (horigin : o.origin = .local) (hextended : isExtendedKind o.kind = true) :
    p.projectDeferredLocalError id =
      { p with
        operations := before ++ o :: (discardUntilSync rest).1
        requestState := if (discardUntilSync rest).2 then p.requestState else .extendedError } := by
  have hnone : before.findIdx? (fun o => decide (o.id = id)) = none := by
    simpa using hbefore
  have hidx : p.operations.findIdx? (fun o => decide (o.id = id)) = some before.length := by
    simp [hops, List.findIdx?_append, hnone, List.findIdx?_cons, hid]
  have hdrop : p.operations.drop before.length = o :: rest := by
    simp [hops]
  have htake : p.operations.take before.length = before := by
    simp [hops]
  unfold projectDeferredLocalError
  simp only [hidx, hdrop, htake, horigin, hextended]
  simp

/-- Discarding is visible exactly on records that are not discarded yet. -/
theorem discardUntilSync_eq_self_iff (os : List Operation) :
    (discardUntilSync os).1 = os ↔ ∀ x ∈ beforeSync os, x.discarded = true := by
  have hsplit : beforeSync os ++ fromSync os = os := List.takeWhile_append_dropWhile
  have hself : ∀ x : Operation, x.discard = x ↔ x.discarded = true := by
    intro x
    cases x
    simp [Operation.discard, eq_comm]
  have hscan : (discardUntilSync os).1 = (beforeSync os).map Operation.discard ++ fromSync os := by
    rw [discardUntilSync_eq]
  calc (discardUntilSync os).1 = os
      ↔ (beforeSync os).map Operation.discard ++ fromSync os = beforeSync os ++ fromSync os := by
        rw [hscan, hsplit]
    _ ↔ (beforeSync os).map Operation.discard = (beforeSync os).map id := by
        rw [List.append_cancel_right_eq, List.map_id]
    _ ↔ ∀ x ∈ beforeSync os, x.discard = x := List.map_inj_left
    _ ↔ ∀ x ∈ beforeSync os, x.discarded = true := by
        simp only [hself]

theorem projectDeferredLocalError_eq_self_iff (p : Pipeline) (id : OperationId) :
    p.projectDeferredLocalError id = p ↔ ¬p.OwesMarks id := by
  constructor
  · rintro hself ⟨before, o, rest, hops, hbefore, hid, horigin, hextended, hmarks⟩
    rw [projectDeferredLocalError_eq hops hbefore hid horigin hextended] at hself
    have hqueue := congrArg Pipeline.operations hself
    have hstate := congrArg Pipeline.requestState hself
    simp only [hops, List.append_cancel_left_eq, List.cons.injEq, true_and] at hqueue
    rcases hmarks with ⟨x, hx, hlive⟩ | ⟨hsync, hready⟩
    · have := (discardUntilSync_eq_self_iff rest).1 hqueue x hx
      simp [hlive] at this
    · simp only [discardUntilSync_eq, hsync, List.isEmpty_nil, Bool.not_true, Bool.false_eq_true,
        if_false] at hstate
      exact hready hstate.symm
  · intro hnone
    rcases p.projectDeferredLocalError_cases id with
      hself | ⟨before, o, rest, hops, hbefore, hid, horigin, hextended, heq⟩
    · exact hself
    · have hdiscarded : ∀ x ∈ beforeSync rest, x.discarded = true := by
        intro x hx
        by_contra hlive
        exact hnone ⟨before, o, rest, hops, hbefore, hid, horigin, hextended,
          Or.inl ⟨x, hx, by simpa using hlive⟩⟩
      have hstate : fromSync rest = [] → p.requestState = .extendedError := by
        intro hsync
        by_contra hready
        exact hnone ⟨before, o, rest, hops, hbefore, hid, horigin, hextended,
          Or.inr ⟨hsync, hready⟩⟩
      rw [heq, (discardUntilSync_eq_self_iff rest).2 hdiscarded, ← hops]
      by_cases hsync : fromSync rest = []
      · simp [discardUntilSync_eq, hsync, ← hstate hsync]
      · simp [discardUntilSync_eq, hsync]

/-! ## Agreement -/

theorem typedCall_frontend (p : Pipeline) (handling : FrontendHandling)
    (hframe : message.isReconstructable = true) :
    p.typedCall (.frontend message handling) =
      (p.call (.frontend message handling)).mapError .ledger := by
  simp only [typedCall, call, acceptFrontendTyped, acceptFrontend]
  cases hprepare : p.prepareFrontend message with
  | error panic => rfl
  | ok result =>
    rcases result with error | prepared
    · rfl
    · simp only [interceptFrontend_identity (prepareFrontend_legal hprepare), hframe, if_true]
      cases p.commitFrontend prepared message handling with
      | error panic | ok committed => rfl

/-- A typed response call with the identity commits what was prepared. -/
theorem acceptResponseTyped_identity (p : Pipeline) (localId : Option OperationId)
    {message : BackendMessage} (hframe : message.isReconstructable = true) :
    (p.acceptResponseTyped localId (.identity Unit) () message).map (fun r =>
        (Reply.backend (r.1.mapError projectionError), r.2.1)) =
      ((p.commitResponse (p.prepareResponse localId message) message).map fun r =>
        (Reply.backend r.1, r.2)).mapError .ledger := by
  have hcommit : ∀ prepared,
      (p.commitTyped (ε := Empty) prepared () message).map (fun r =>
          (Reply.backend (r.1.mapError projectionError), r.2.1)) =
        ((p.commitResponse prepared message).map fun r =>
          (Reply.backend r.1, r.2)).mapError .ledger := by
    intro prepared
    rw [commitTyped, if_pos hframe]
    cases p.commitResponse prepared message with
    | error panic => rfl
    | ok committed =>
      rcases committed with ⟨error | action, next⟩
      · rfl
      · rfl
  unfold acceptResponseTyped
  cases hprepare : p.prepareResponse localId message with
  | deferred | illegal => rfl
  | asynchronous =>
    have hlegal := prepareResponse_eq_asynchronous.1 hprepare
    simp only [interceptAsynchronous_identity hlegal]
    exact hcommit .asynchronous
  | emit head state =>
    rcases prepareResponse_eq_emit.1 hprepare with ⟨-, -, -, -, hfits, rfl⟩
    simp only [interceptBackend_identity hfits]
    exact hcommit (.emit head head.responseState)

/-- A typed call with the identity is the plain call exactly when it does not defer a rejection. -/
theorem typedCall_eq_iff (p : Pipeline) {c : Call} (hframe : c.isReconstructable = true) :
    p.typedCall c = (p.call c).mapError .ledger ↔ ¬p.DefersRejection c := by
  cases c with
  | frontend message handling =>
    refine iff_of_true (p.typedCall_frontend handling hframe) ?_
    rintro ⟨id, response, hcall, -⟩
    cases hcall
  | backend message =>
    refine iff_of_true (p.acceptResponseTyped_identity none hframe) ?_
    rintro ⟨id, response, hcall, -⟩
    cases hcall
  | emitLocal id message =>
    have htyped : p.typedCall (.emitLocal id message) = _ :=
      p.acceptResponseTyped_identity (some id) hframe
    rw [htyped]
    have hplain : p.DefersRejection (.emitLocal id message) ↔
        (p.prepareResponse (some id) message = .deferred ∧ message.variant = .errorResponse) ∧
          p.OwesMarks id := by
      constructor
      · rintro ⟨id', message', hcall, herror, hwaits, howes⟩
        cases hcall
        exact ⟨⟨(howes.prepareResponse_eq_deferred_iff herror).2 hwaits, herror⟩, howes⟩
      · rintro ⟨⟨hdeferred, herror⟩, howes⟩
        exact ⟨id, message, rfl, herror,
          (howes.prepareResponse_eq_deferred_iff herror).1 hdeferred, howes⟩
    by_cases hdefer : p.prepareResponse (some id) message = .deferred ∧
        message.variant = .errorResponse
    · -- The plain call marks the ledger before it defers; the typed one does not.
      have hcall : p.call (.emitLocal id message) =
          .ok (.backend (.ok (.deferred message)), p.projectDeferredLocalError id) := by
        simp [call, tryEmitLocal, acceptResponse, hdefer, commitResponse, Except.map]
      rw [hcall, hplain, and_iff_right hdefer, ← projectDeferredLocalError_eq_self_iff]
      simp [hdefer.1, commitResponse, Except.map, Except.mapError, eq_comm]
    · have hcall : p.call (.emitLocal id message) =
          (p.commitResponse (p.prepareResponse (some id) message) message).map fun r =>
            (Reply.backend r.1, r.2) := by
        simp only [call, tryEmitLocal, acceptResponse, if_neg hdefer]
      refine iff_of_true (by rw [hcall]) ?_
      intro hrejects
      exact hdefer (hplain.1 hrejects).1

/-- **Typed and plain pipelines agree.**  The calls of a run, made through the typed entry points
with the identity middleware, give the same results and the same ledgers at every step, exactly when
no call of the run defers the rejection of a local operation that has marks to set. -/
theorem typed_run_iff {policy : PipelinePolicy} {h : List LedgerEntry} {p : Pipeline}
    (hrun : Run policy h p) (hframes : ∀ e ∈ h, e.input.isReconstructable = true) :
    History TypedStep (new policy) h p ↔ ∀ e ∈ h, ¬e.before.DefersRejection e.input := by
  rw [hrun.transfer_iff]
  refine forall₂_congr fun e he => ?_
  rcases hrun.mem_split he with ⟨-, -, -, -, hstep, -⟩
  have hcall : e.before.call e.input = .ok (e.output, e.after) := hstep
  rw [← typedCall_eq_iff e.before (hframes e he), hcall]
  rfl

/-- Deferring a rejection that changes nothing is not a difference. -/
theorem not_defersRejection {c : Call}
    (h : ∀ id message, c = .emitLocal id message → p.projectDeferredLocalError id = p) :
    ¬p.DefersRejection c := by
  rintro ⟨id, message, hcall, -, -, howes⟩
  exact (projectDeferredLocalError_eq_self_iff p id).1 (h id message hcall) howes

/-- A Describe is rejected while the Parse before it is outstanding and its Sync is queued: the
deferred rejection has nothing to mark. -/
theorem typed_run_iff_sync_queued :
    ∃ h p, Run (.bounded ⟨8, by decide⟩) h p ∧ h.length = 4 ∧
      (∀ e ∈ h, ¬e.before.DefersRejection e.input) ∧
      History TypedStep (new (.bounded ⟨8, by decide⟩)) h p := by
  obtain ⟨h, p, hr, hlength, hframes, hmarks⟩ :
      ∃ h p, Run (.bounded ⟨8, by decide⟩) h p ∧ h.length = 4 ∧
        (∀ e ∈ h, e.input.isReconstructable = true) ∧
        ∀ e ∈ h, e.input.request?.isSome = true ∨
          (e.input = .emitLocal 1 (.errorResponse ⟨[]⟩) ∧
            e.before.projectDeferredLocalError 1 = e.before) := by
    exact ⟨_, _, .of_exec [.frontend (.parse ⟨[], [], []⟩) .forward,
        .frontend (.describe ⟨.portal, []⟩) .local, .frontend .sync .forward,
        .emitLocal 1 (.errorResponse ⟨[]⟩)] rfl, rfl, by decide +kernel, by decide +kernel⟩
  have hagree : ∀ e ∈ h, ¬e.before.DefersRejection e.input := by
    intro e he
    apply not_defersRejection
    intro id message hcall
    rcases hmarks e he with hrequest | ⟨hinput, hmarked⟩
    · rw [hcall] at hrequest
      cases hrequest
    · cases hinput.symm.trans hcall
      exact hmarked
  exact ⟨h, p, hr, hlength, hagree, (typed_run_iff hr hframes).2 hagree⟩

/-- A Describe is rejected while the Parse before it is outstanding.  The plain ledger discards the
Bind behind it; the typed one forwards it. -/
theorem typed_rejection_forwards_bind :
    ∃ inputs h p h' p', (∀ c ∈ inputs, c.isReconstructable = true) ∧
      exec call (new (.bounded ⟨8, by decide⟩)) inputs = .ok (h, p) ∧
      exec typedCall (new (.bounded ⟨8, by decide⟩)) inputs = .ok (h', p') ∧
      (h.map Entry.output).getLast? = some (.frontend (.ok (.waiting (.discard 2)))) ∧
      (h'.map Entry.output).getLast? =
        some (.frontend (.ok (.waiting (.forward 2 (.bind ⟨[], [], [], [], []⟩))))) ∧
      p.requestState = .extendedError ∧ p'.requestState = .extended true :=
  ⟨[.frontend (.parse ⟨[], [], []⟩) .forward, .frontend (.describe ⟨.portal, []⟩) .local,
    .emitLocal 1 (.errorResponse ⟨[]⟩), .frontend (.bind ⟨[], [], [], [], []⟩) .forward],
   _, _, _, _, by decide +kernel, rfl, rfl, rfl, rfl, rfl, rfl⟩

/-! ## Replacements -/

theorem classifyFrontend_replacement : ∀ state variant,
    (projectExternal (generatedRequestState state) variant).isSome = true →
      ((classifyFrontend state variant).toOption.join.isSome = true ↔
        ¬(state = .extendedError ∧ variant = .passwordResponse) ∧
          ¬(state = .copyBoth ∧ variant = .copyFail)) := by
  decide +kernel

/-- A commit returns exactly when the message is classified. -/
theorem commitFrontend_ok_iff (p : Pipeline) (prepared : PreparedFrontend)
    (message : FrontendMessage) (handling : FrontendHandling) :
    (∃ admission next, p.commitFrontend prepared message handling = .ok (admission, next)) ↔
      (classifyFrontend prepared.requestState message.variant).toOption.join.isSome = true := by
  unfold commitFrontend
  cases classifyFrontend prepared.requestState message.variant with
  | error panic => simp [Except.toOption]
  | ok classified =>
    rcases classified with _ | ⟨kind, next⟩
    · simp [Except.toOption]
    · simp [Except.toOption, commitClassified]

/-- **Phase-typed replacements.**  A replacement from the message set of the selected phase is
committed, unless it is a PasswordResponse in ExtendedError or a CopyFail in COPY BOTH. -/
theorem replacement_committed_iff {p : Pipeline} {message : FrontendMessage}
    {prepared : PreparedFrontend} (hprepare : p.prepareFrontend message = .ok (.ok prepared))
    (replacement : ExternalMessage prepared.phase.state) (handling : FrontendHandling) :
    (∃ admission next,
        p.commitFrontend prepared replacement.intoWire handling = .ok (admission, next)) ↔
      ¬(p.requestState = .extendedError ∧ replacement.intoWire.variant = .passwordResponse) ∧
        ¬(p.requestState = .copyBoth ∧ replacement.intoWire.variant = .copyFail) := by
  rcases prepareFrontend_inv hprepare with ⟨-, hphase, hstate⟩
  have hlegal := replacement.legal
  rw [frontendPhase_projectExternal hphase] at hlegal
  rw [commitFrontend_ok_iff, hstate]
  exact classifyFrontend_replacement _ _ hlegal

/-- In ExtendedError, after a failed Parse, a Bind may be replaced by a Sync. -/
theorem replacement_committed_iff_sync :
    ∃ h p prepared, Run (.bounded ⟨8, by decide⟩) h p ∧
      p.prepareFrontend (.bind ⟨[], [], [], [], []⟩) = .ok (.ok prepared) ∧
      ∃ replacement : ExternalMessage prepared.phase.state, replacement.intoWire = .sync ∧
        ∃ admission next,
          p.commitFrontend prepared replacement.intoWire .forward = .ok (admission, next) := by
  obtain ⟨h, p, hr, hprepare⟩ : ∃ h p, Run (.bounded ⟨8, by decide⟩) h p ∧
      p.prepareFrontend (.bind ⟨[], [], [], [], []⟩) =
        .ok (.ok { phase := .extendedError, requestState := .extendedError }) := by
    exact ⟨_, _, .of_exec [.frontend (.parse ⟨[], [], []⟩) .forward,
        .backend (.errorResponse ⟨[]⟩)] rfl, rfl⟩
  exact ⟨h, p, _, hr, hprepare, ⟨.sync, by decide⟩, rfl,
    (replacement_committed_iff hprepare ⟨.sync, by decide⟩ .forward).2
      (by simp [FrontendMessage.variant])⟩

/-- The two gaps of the classification, both on reachable ledgers. -/
theorem legal_replacements_panic :
    (∃ h p prepared, Run (.bounded ⟨8, by decide⟩) h p ∧
      p.prepareFrontend (.bind ⟨[], [], [], [], []⟩) = .ok (.ok prepared) ∧
      ∃ replacement : ExternalMessage prepared.phase.state,
        replacement.intoWire.isReconstructable = true ∧
          p.commitFrontend prepared replacement.intoWire .forward = .error .unclassifiedFrontend) ∧
      ∃ h p prepared, Run .noPipeline h p ∧
        p.prepareFrontend (.copyData []) = .ok (.ok prepared) ∧
        ∃ replacement : ExternalMessage prepared.phase.state,
          replacement.intoWire.isReconstructable = true ∧
            p.commitFrontend prepared replacement.intoWire .forward =
              .error .unclassifiedFrontend :=
  ⟨⟨_, _, { phase := .extendedError, requestState := .extendedError },
      .of_exec [.frontend (.parse ⟨[], [], []⟩) .forward, .backend (.errorResponse ⟨[]⟩)] rfl,
      rfl, ⟨.passwordResponse [], by decide⟩, by decide +kernel, rfl⟩,
    ⟨_, _, { phase := .simpleCopyBoth, requestState := .copyBoth },
      .of_exec [.frontend (.query []) .forward, .backend (.copyBothResponse ⟨0, []⟩)] rfl,
      rfl, ⟨.copyFail [], by decide⟩, by decide +kernel, rfl⟩⟩

end Pipeline
end PgProto
