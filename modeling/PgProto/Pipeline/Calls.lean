import PgProto.Lib.History
import PgProto.Pipeline.Queue

/-!
# Calls — runs of the ledger

The three entry points through which a connection drives the ledger, as one step function, and the
finite runs they generate from `Pipeline.new`.

* `Pipeline.Wf` — what holds of every reachable ledger;
* `Pipeline.Effect` — everything a call can do to a well-formed ledger, guards included;
* `Pipeline.effect_of_step` — the inversion of a call; later invariants are proved from it and
  never from the bodies of the functions.
-/

namespace PgProto

open Backend (RuntimeState transitions respond request)
open Lib

/-! ## Calls and replies -/

inductive Call
  | frontend (message : FrontendMessage) (handling : FrontendHandling)
  | backend (message : BackendMessage)
  | emitLocal (id : OperationId) (message : BackendMessage)
  deriving DecidableEq, Repr

inductive Reply
  | frontend (result : Except FrontendProjectionError FrontendAdmission)
  | backend (result : Except BackendProjectionError BackendAction)
  deriving DecidableEq

/-- A frontend message was accepted. -/
def Reply.isAdmission : Reply → Bool
  | .frontend (.ok _) => true
  | _ => false

namespace Call

/-- The backend message a call offers to the ledger. -/
def response? : Call → Option BackendMessage
  | .frontend _ _ => none
  | .backend message => some message
  | .emitLocal _ message => some message

/-- The frontend message a call offers to the ledger. -/
def request? : Call → Option FrontendMessage
  | .frontend message _ => some message
  | .backend _ => none
  | .emitLocal _ _ => none

theorem request?_of_response? {call : Call} {message : BackendMessage}
    (h : call.response? = some message) : call.request? = none := by
  cases call with
  | frontend _ _ => cases h
  | backend _ | emitLocal _ _ => rfl

/-- The call speaks for this record: the server for forwarded ones, `try_emit_local` for the local
one it names. -/
def Addresses : Call → Operation → Prop
  | .frontend _ _, _ => False
  | .backend _, o => o.origin = .forwarded
  | .emitLocal id _, o => o.origin = .local ∧ o.id = id

/-- A frontend message is handed on, not answered locally. -/
def Forwards : Call → Prop
  | .frontend _ handling => handling = .forward
  | _ => True

instance : DecidablePred Forwards
  | .frontend _ handling => inferInstanceAs (Decidable (handling = .forward))
  | .backend _ => .isTrue trivial
  | .emitLocal _ _ => .isTrue trivial

end Call

variable {result : Except FrontendProjectionError FrontendAdmission}

namespace Pipeline

def call (p : Pipeline) : Call → Except Panic (Reply × Pipeline)
  | .frontend message handling =>
    (p.acceptFrontend message handling).map fun r => (Reply.frontend r.1, r.2)
  | .backend message =>
    (p.acceptBackend message).map fun r => (Reply.backend r.1, r.2)
  | .emitLocal id message =>
    (p.tryEmitLocal id message).map fun r => (Reply.backend r.1, r.2)

abbrev Step : Pipeline → Call → Reply → Pipeline → Prop := Calls call

section Step

variable {p next : Pipeline}

theorem step_frontend {message : FrontendMessage} {handling : FrontendHandling}
    (haccept : p.acceptFrontend message handling = .ok (result, next)) :
    Step p (.frontend message handling) (.frontend result) next := by
  simp [Step, Calls, call, haccept, Except.map]

variable {result : Except BackendProjectionError BackendAction}

theorem step_backend {message : BackendMessage}
    (haccept : p.acceptBackend message = .ok (result, next)) :
    Step p (.backend message) (.backend result) next := by
  simp [Step, Calls, call, haccept, Except.map]

theorem step_emitLocal {id : OperationId} {message : BackendMessage}
    (hemit : p.tryEmitLocal id message = .ok (result, next)) :
    Step p (.emitLocal id message) (.backend result) next := by
  simp [Step, Calls, call, hemit, Except.map]

end Step

/-- One call of a run, with the ledger before and after it. -/
abbrev LedgerEntry := Entry Pipeline Call Reply

/-- The finite runs of a fresh ledger. -/
abbrev Run (policy : PipelinePolicy) (h : List LedgerEntry) (p : Pipeline) : Prop :=
  History Step (new policy) h p

end Pipeline

/-! ## Well-formed ledgers -/

/-- The request state after a response: entering COPY IN or COPY BOTH takes it over. -/
def copyRequest (next : RuntimeState) (requestState : RequestState) : RequestState :=
  match responseCopyState next with
  | some .copyIn => .copyIn
  | some .copyBoth => .copyBoth
  | _ => requestState

namespace Pipeline

/-- What holds of every reachable ledger. -/
structure Wf (p : Pipeline) : Prop where
  headLive : ∀ {o os}, p.operations = o :: os → o.isInert = false
  owned : ∀ o ∈ p.operations, o.responseState ∈ ownedStates o.kind
  waiting : ∀ o ∈ p.operations.tail, o.responseState = initialResponseState o.kind
  copyIn : p.requestState = .copyIn →
    ∃ o os, p.operations = o :: os ∧ isCopyInState o.responseState = true
  notCopyOut : p.requestState ≠ .copyOut

/-- Everything a call can do to a well-formed ledger. -/
inductive Effect (p : Pipeline) : Call → Reply → Pipeline → Prop
  /-- The frontend message exceeds the capacity or is illegal. -/
  | refused {message handling error} :
      (p.operations.length = p.policy.operationLimit ∧
        p.requestState ≠ .copyIn ∧ p.requestState ≠ .copyBoth) ∨
        projectFrontend p.requestState message.variant = .ok none →
      Effect p (.frontend message handling) (.frontend (.error error)) p
  | accepted {message handling kind next phase} :
      (p.operations.length = p.policy.operationLimit →
        p.requestState = .copyIn ∨ p.requestState = .copyBoth) →
      projectFrontend p.requestState message.variant = .ok (some (kind, next)) →
      frontendPhase p.requestState (p.operations.head?.map Operation.kind) = .ok phase →
      Effect p (.frontend message handling)
        (.frontend (.ok (.behind (!p.operations.isEmpty)
          (handling.action (Operation.admitted p.nextId kind next handling).discarded p.nextId
            message))))
        { p with
          nextId := saturatingSucc p.nextId
          requestState := next
          operations := enqueue message.variant p.requestState
            (Operation.admitted p.nextId kind next handling) p.operations }
  | asynchronous {call message} :
      call.response? = some message → isAsynchronous message = true →
      Effect p call (.backend (.ok (.emit message))) p
  | deferred {call message} :
      call.response? = some message → isAsynchronous message = false →
      Effect p call (.backend (.ok (.deferred message))) p
  /-- The rejection of a local request of the extended protocol that is not yet at the front. -/
  | deferredError {id message before o rest} :
      message.variant = .errorResponse → p.operations = before ++ o :: rest →
      (∀ x ∈ before, x.id ≠ id) → o.id = id → o.origin = .local →
      isExtendedKind o.kind = true →
      Effect p (.emitLocal id message) (.backend (.ok (.deferred message)))
        { p with
          operations := before ++ o :: (discardUntilSync rest).1
          requestState := if (discardUntilSync rest).2 then p.requestState else .extendedError }
  | illegal {call message} :
      call.response? = some message → isAsynchronous message = false →
      Effect p call (.backend (.error { state := p.state, message := message })) p
  /-- A response that leaves its operation in progress. -/
  | continued {call message head rest next} :
      call.response? = some message → call.Addresses head →
      p.operations = head :: rest → respond head.responseState message.variant = some next →
      responseIsTerminal head.kind message.variant = false →
      Effect p call (.backend (.ok (.emit message)))
        { p with
          operations := { head with responseState := next } :: rest
          requestState := copyRequest next p.requestState
          responseState := (responseCopyState next).map RequestState.public }
  /-- The last response of an operation, other than an error in the extended protocol. -/
  | completed {call message head rest next} :
      call.response? = some message → call.Addresses head →
      p.operations = head :: rest → respond head.responseState message.variant = some next →
      responseIsTerminal head.kind message.variant = true →
      ¬(message.variant = .errorResponse ∧ isExtendedKind head.kind = true) →
      Effect p call (.backend (.ok (.emit message)))
        { p with
          operations := rest.dropWhile Operation.isInert
          responseState := none }
  /-- An error that ends an operation of the extended protocol. -/
  | failed {call message head rest next} :
      call.response? = some message → call.Addresses head →
      p.operations = head :: rest → respond head.responseState message.variant = some next →
      responseIsTerminal head.kind message.variant = true →
      message.variant = .errorResponse → isExtendedKind head.kind = true →
      Effect p call (.backend (.ok (.emit message)))
        { p with
          operations := (discardUntilSync rest).1.dropWhile Operation.isInert
          requestState := if (discardUntilSync rest).2 then p.requestState else .extendedError
          responseState := none }

/-! ## Inversion of the frontend call -/

variable {p p' : Pipeline} {localId : Option OperationId} {message : FrontendMessage}

theorem Wf.cancelSyncFor_cons (hwf : p.Wf) {o : Operation} {os : List Operation}
    (hops : p.operations = o :: os) (kind : OperationKind) :
    cancelSyncFor p.requestState kind (o :: os) = o :: cancelSyncFor p.requestState kind os := by
  by_cases hcopy : p.requestState = .copyIn ∧ (kind = .copyDone ∨ kind = .copyFail)
  · -- In COPY IN the front record is the copying Query or Execute, so it is not the Sync.
    rcases hwf.copyIn hcopy.1 with ⟨head, rest, hhead, hstate⟩
    rw [hops] at hhead
    cases hhead
    have howned := hwf.owned o (by simp [hops])
    have hkind : o.kind ≠ .sync := by
      rcases owned_copyIn o.kind o.responseState howned hstate with hk | hk <;> simp [hk]
    simp [cancelSyncFor, hcopy, cancelLastSync_cons hkind]
  · simp [cancelSyncFor, hcopy]

theorem Wf.commitClassified_eq (hwf : p.Wf) (kind : OperationKind) (next : RequestState)
    (message : FrontendMessage) (handling : FrontendHandling) :
    p.commitClassified p.requestState kind next message handling =
      (.behind (!p.operations.isEmpty)
        (handling.action (Operation.admitted p.nextId kind next handling).discarded p.nextId
          message),
       { p with
         nextId := saturatingSucc p.nextId
         requestState := next
         operations := enqueue message.variant p.requestState
           (Operation.admitted p.nextId kind next handling) p.operations }) := by
  cases hops : p.operations with
  | nil =>
    have hcancel : cancelSyncFor p.requestState kind [] = [] := by
      simp [cancelSyncFor, cancelLastSync, discardFirst]
    by_cases hinert : (Operation.admitted p.nextId kind next handling).isInert <;>
      simp [commitClassified, hops, hcancel, advanceHead, enqueue, removeInertHeads, hinert]
  | cons o os =>
    have hhead : o.isInert = false := hwf.headLive hops
    have hlive : (o.advance message.variant).isInert = false := hhead
    have hcancel := hwf.cancelSyncFor_cons hops kind
    have hkind : (Operation.admitted p.nextId kind next handling).kind = kind := rfl
    simp [commitClassified, hops, hcancel, advanceHead_cons, enqueue, removeInertHeads, hlive,
      hkind]

theorem intoAction_behind (waiting : Bool) (action : FrontendAction) :
    (FrontendAdmission.behind waiting action).intoAction = action := by
  cases waiting <;> rfl

theorem Wf.effect_frontend (hwf : p.Wf) {handling : FrontendHandling}
    (h : p.acceptFrontend message handling = .ok (result, p')) :
    p.Effect (.frontend message handling) (.frontend result) p' := by
  unfold acceptFrontend prepareFrontend at h
  by_cases hfull : p.operations.length = p.policy.operationLimit ∧
      p.requestState ≠ .copyIn ∧ p.requestState ≠ .copyBoth
  · rw [if_pos hfull] at h
    cases h
    exact Effect.refused (Or.inl hfull)
  · rw [if_neg hfull] at h
    have hroom : p.operations.length = p.policy.operationLimit →
        p.requestState = .copyIn ∨ p.requestState = .copyBoth := by
      intro hlen
      by_contra hcopy
      rw [not_or] at hcopy
      exact hfull ⟨hlen, hcopy⟩
    cases hproject : projectFrontend p.requestState message.variant with
    | error panic =>
      simp [hproject] at h
    | ok classified =>
      rcases classified with _ | ⟨kind, next⟩
      · simp only [hproject, Except.ok.injEq, Prod.mk.injEq] at h
        rcases h with ⟨rfl, rfl⟩
        exact Effect.refused (Or.inr hproject)
      · cases hphase : frontendPhase p.requestState (p.operations.head?.map Operation.kind) with
        | error panic =>
          simp [hproject, hphase] at h
        | ok phase =>
          -- `project_frontend` ends in `classify_frontend`, so the commit classifies alike.
          have hclass := projectFrontend_classify hproject
          simp only [hproject, hphase, commitFrontend, hclass,
            hwf.commitClassified_eq kind next message handling, Except.ok.injEq,
            Prod.mk.injEq] at h
          rcases h with ⟨rfl, rfl⟩
          exact Effect.accepted hroom hproject hphase

theorem Effect.local_action {admission : FrontendAdmission}
    (h : p.Effect (.frontend message .local) (.frontend (.ok admission)) p') :
    admission.intoAction = .discard p.nextId := by
  cases h with
  | accepted _ _ _ =>
    rw [intoAction_behind]
    rfl

/-- A message that is classified within the capacity and finds its phase is accepted. -/
theorem Wf.acceptFrontend_eq (hwf : p.Wf) {kind : OperationKind} {next : RequestState}
    {phase : FrontendPhase} (hroom : p.operations.length = p.policy.operationLimit →
      p.requestState = .copyIn ∨ p.requestState = .copyBoth)
    (hproject : projectFrontend p.requestState message.variant = .ok (some (kind, next)))
    (hphase : frontendPhase p.requestState (p.operations.head?.map Operation.kind) = .ok phase)
    (handling : FrontendHandling) :
    p.acceptFrontend message handling =
      .ok (.ok (.behind (!p.operations.isEmpty)
        (handling.action (Operation.admitted p.nextId kind next handling).discarded p.nextId
          message)),
       { p with
         nextId := saturatingSucc p.nextId
         requestState := next
         operations := enqueue message.variant p.requestState
           (Operation.admitted p.nextId kind next handling) p.operations }) := by
  have hfull : ¬(p.operations.length = p.policy.operationLimit ∧
      p.requestState ≠ .copyIn ∧ p.requestState ≠ .copyBoth) := by
    rintro ⟨hlen, hin, hboth⟩
    rcases hroom hlen with h | h
    · exact hin h
    · exact hboth h
  have hclass : classifyFrontend p.requestState message.variant = .ok (some (kind, next)) :=
    projectFrontend_classify hproject
  simp only [acceptFrontend, prepareFrontend, if_neg hfull, hproject, hphase, commitFrontend,
    hclass, hwf.commitClassified_eq kind next message handling]

/-! ## Inversion of the response calls -/

variable {head : Operation} {rest : List Operation} {message : BackendMessage} {next : RuntimeState}

theorem prepareFor_eq_emit {o : Operation} {message : BackendVariant} {state : RuntimeState} :
    prepareFor head rest message = .emit o state ↔
      head.discarded = false ∧ responseFits head message = true ∧ o = head ∧
        state = head.responseState := by
  unfold prepareFor
  by_cases hfit : head.discarded || !responseFits head message
  · rw [if_pos hfit]
    constructor
    · intro h
      split at h <;> cases h
    · rintro ⟨hlive, hfits, -, -⟩
      simp [hlive, hfits] at hfit
  · rw [if_neg hfit]
    have hfit' : head.discarded = false ∧ responseFits head message = true := by
      simpa using hfit
    constructor
    · intro h
      cases h
      exact ⟨hfit'.1, hfit'.2, rfl, rfl⟩
    · rintro ⟨-, -, rfl, rfl⟩
      rfl

theorem prepareFor_ne_asynchronous (head : Operation) (rest : List Operation)
    (message : BackendVariant) : prepareFor head rest message ≠ .asynchronous := by
  unfold prepareFor
  split
  · split <;> simp
  · simp

/-- The record a call may speak for. -/
def OriginFits (localId : Option OperationId) (head : Operation) : Prop :=
  match localId with
  | none => head.origin = .forwarded
  | some id => head.origin = .local ∧ head.id = id

/-- `prepare_response` attributes a message to the front record only. -/
theorem prepareResponse_eq_emit {state : RuntimeState} :
    p.prepareResponse localId message = .emit head state ↔
      isAsynchronous message = false ∧ (∃ rest, p.operations = head :: rest) ∧
        OriginFits localId head ∧ head.discarded = false ∧
        responseFits head message.variant = true ∧ state = head.responseState := by
  unfold prepareResponse OriginFits
  by_cases hasync : isAsynchronous message
  · simp [hasync]
  · rw [if_neg hasync]
    rcases hops : p.operations with _ | ⟨o, os⟩
    · simp
    · rcases localId with _ | id
      -- A server response is never attributed to a local record.
      · cases horigin : o.origin with
        | «local» =>
          simp only [horigin, if_true]
          constructor
          · intro h
            split at h <;> cases h
          · rintro ⟨-, ⟨rest, hcons⟩, hfwd, -⟩
            cases hcons
            simp [horigin] at hfwd
        | forwarded =>
          simp only [horigin, reduceCtorEq, if_false, prepareFor_eq_emit]
          constructor
          · rintro ⟨hlive, hfits, rfl, rfl⟩
            exact ⟨by simpa using hasync, ⟨os, rfl⟩, horigin, hlive, hfits, rfl⟩
          · rintro ⟨-, ⟨rest, hcons⟩, -, hlive, hfits, hstate⟩
            cases hcons
            exact ⟨hlive, hfits, rfl, hstate⟩
      -- A local response has to name the record at the front.
      · by_cases hid : o.id = id
        · cases horigin : o.origin with
          | forwarded =>
            simp only [hid, horigin, ne_eq, not_true_eq_false, reduceCtorEq, if_false,
              not_false_eq_true, if_true, false_iff]
            rintro ⟨-, ⟨rest, hcons⟩, hfwd, -⟩
            cases hcons
            simp [horigin] at hfwd
          | «local» =>
            simp only [hid, horigin, ne_eq, not_true_eq_false, if_false, prepareFor_eq_emit]
            constructor
            · rintro ⟨hlive, hfits, rfl, rfl⟩
              exact ⟨by simpa using hasync, ⟨os, rfl⟩, ⟨horigin, hid⟩, hlive, hfits, rfl⟩
            · rintro ⟨-, ⟨rest, hcons⟩, -, hlive, hfits, hstate⟩
              cases hcons
              exact ⟨hlive, hfits, rfl, hstate⟩
        · simp only [ne_eq, hid, not_false_eq_true, if_true, reduceCtorEq, false_iff]
          rintro ⟨-, ⟨rest, hcons⟩, hfits, -⟩
          cases hcons
          exact hid hfits.2

theorem prepareResponse_eq_asynchronous :
    p.prepareResponse localId message = .asynchronous ↔ isAsynchronous message = true := by
  unfold prepareResponse
  by_cases hasync : isAsynchronous message
  · simp [hasync]
  · simp only [hasync, if_false, iff_false, Bool.false_eq_true]
    rcases p.operations with _ | ⟨o, os⟩
    · simp
    · rcases localId with _ | id
      · dsimp only
        split
        · split <;> simp
        · exact prepareFor_ne_asynchronous o os message.variant
      · dsimp only
        split
        · simp
        · split
          · simp
          · exact prepareFor_ne_asynchronous o os message.variant

theorem not_asynchronous_of_prepareResponse {prepared : PreparedResponse}
    (h : p.prepareResponse localId message = prepared) (hne : prepared ≠ .asynchronous) :
    isAsynchronous message = false := by
  by_contra hasync
  exact hne (h.symm.trans (prepareResponse_eq_asynchronous.2 (by simpa using hasync)))

theorem commitEmit_continue {message : BackendVariant} (hops : p.operations = head :: rest)
    (hlive : head.isInert = false) (hmore : responseIsTerminal head.kind message = false) :
    p.commitEmit head next message =
      { p with
        operations := { head with responseState := next } :: rest
        requestState := copyRequest next p.requestState
        responseState := (responseCopyState next).map RequestState.public } := by
  have hlive' : ({ head with responseState := next } : Operation).isInert = false := hlive
  unfold commitEmit copyRequest
  cases hcopy : responseCopyState next with
  | none =>
    simp [hmore, hops, setHeadState, removeInertHeads, hlive']
  | some state =>
    cases state <;> simp [hmore, hops, setHeadState, removeInertHeads, hlive']

theorem commitEmit_complete {message : BackendVariant} (hops : p.operations = head :: rest)
    (hcopy : responseCopyState next = none) (hlast : responseIsTerminal head.kind message = true)
    (hplain : ¬(message = .errorResponse ∧ isExtendedKind head.kind = true)) :
    p.commitEmit head next message =
      { p with
        operations := rest.dropWhile Operation.isInert
        responseState := none } := by
  unfold commitEmit
  simp only [hlast, hcopy, hops, if_true, List.tail_cons, if_neg hplain, removeInertHeads]

theorem commitEmit_fail {message : BackendVariant} (hops : p.operations = head :: rest)
    (hcopy : responseCopyState next = none) (hlast : responseIsTerminal head.kind message = true)
    (herror : message = .errorResponse) (hext : isExtendedKind head.kind = true) :
    p.commitEmit head next message =
      { p with
        operations := (discardUntilSync rest).1.dropWhile Operation.isInert
        requestState := if (discardUntilSync rest).2 then p.requestState else .extendedError
        responseState := none } := by
  unfold commitEmit
  simp only [hlast, hcopy, hops, if_true, List.tail_cons, if_pos (And.intro herror hext),
    removeInertHeads, enterExtendedError]

theorem Wf.effect_emit (hwf : p.Wf) {call : Call} (hcall : call.response? = some message)
    (haddr : call.Addresses head) (hops : p.operations = head :: rest)
    (hstep : respond head.responseState message.variant = some next) :
    p.Effect call (.backend (.ok (.emit message))) (p.commitEmit head next message.variant) := by
  have howned : head.responseState ∈ ownedStates head.kind := hwf.owned head (by simp [hops])
  cases hlast : responseIsTerminal head.kind message.variant with
  | false =>
    rw [commitEmit_continue hops (hwf.headLive hops) hlast]
    exact Effect.continued hcall haddr hops hstep hlast
  | true =>
    have hcopy : responseCopyState next = none := responseCopyState_terminal hstep howned hlast
    by_cases hfail : message.variant = .errorResponse ∧ isExtendedKind head.kind = true
    · rw [commitEmit_fail hops hcopy hlast hfail.1 hfail.2]
      exact Effect.failed hcall haddr hops hstep hlast hfail.1 hfail.2
    · rw [commitEmit_complete hops hcopy hlast hfail]
      exact Effect.completed hcall haddr hops hstep hlast hfail

/-- `commit_response` of an attributed message: both `expect`s succeed. -/
theorem commitResponse_emit (hfits : responseFits head message.variant = true) :
    ∃ next, respond head.responseState message.variant = some next ∧
      p.commitResponse (.emit head head.responseState) message =
        .ok (.ok (.emit message), p.commitEmit head next message.variant) := by
  rcases Option.isSome_iff_exists.1 hfits with ⟨event, hevent⟩
  have hevent' : transitions.projectInternal head.responseState message.variant = some event :=
    hevent
  rcases Option.isSome_iff_exists.1 (Table.transition_isSome_of_projectInternal hevent') with
    ⟨edge, hedge⟩
  have hedge' : Backend.transition head.responseState event = some edge := hedge
  refine ⟨edge.target, ?_, ?_⟩
  · simp [respond, Table.stepInternal, hevent', hedge]
  · simp [commitResponse, hevent, hedge']

theorem projectDeferredLocalError_cases (p : Pipeline) (id : OperationId) :
    p.projectDeferredLocalError id = p ∨
      ∃ before o rest, p.operations = before ++ o :: rest ∧ (∀ x ∈ before, x.id ≠ id) ∧
        o.id = id ∧ o.origin = .local ∧ isExtendedKind o.kind = true ∧
        p.projectDeferredLocalError id =
          { p with
            operations := before ++ o :: (discardUntilSync rest).1
            requestState :=
              if (discardUntilSync rest).2 then p.requestState else .extendedError } := by
  unfold projectDeferredLocalError
  cases hidx : p.operations.findIdx? (fun o => decide (o.id = id)) with
  | none => exact Or.inl rfl
  | some rejected =>
    rcases List.findIdx?_eq_some_iff_getElem.1 hidx with ⟨hlt, hid, hbefore⟩
    have hdrop : p.operations.drop rejected =
        p.operations[rejected] :: p.operations.drop (rejected + 1) :=
      List.drop_eq_getElem_cons hlt
    simp only [hdrop]
    split
    · exact Or.inl rfl
    · rename_i hlocal
      rw [not_or] at hlocal
      right
      refine ⟨p.operations.take rejected, p.operations[rejected],
        p.operations.drop (rejected + 1), ?_, ?_, ?_, ?_, ?_, rfl⟩
      · rw [← hdrop, List.take_append_drop]
      · intro x hx
        rcases List.mem_take_iff_getElem.1 hx with ⟨j, hj, rfl⟩
        have hj' : j < rejected := by omega
        simpa using hbefore j hj'
      · simpa using hid
      · simpa using hlocal.1
      · simpa using hlocal.2

/-- The inversion of `accept_response` and of its two public callers. -/
theorem Wf.effect_response (hwf : p.Wf) {call : Call}
    {result : Except BackendProjectionError BackendAction} (hcall : call.response? = some message)
    (haddr : ∀ head, OriginFits localId head → call.Addresses head)
    (hlocal : ∀ id, localId = some id → call = .emitLocal id message)
    (h : p.acceptResponse localId message = .ok (result, p')) :
    p.Effect call (.backend result) p' := by
  unfold acceptResponse at h
  cases hprep : p.prepareResponse localId message with
  | asynchronous =>
    have hasync := prepareResponse_eq_asynchronous.1 hprep
    have hkeep : result = .ok (.emit message) ∧ p' = p := by
      rcases localId with _ | id <;> simp [hprep, commitResponse] at h <;> simp [h]
    rcases hkeep with ⟨rfl, rfl⟩
    exact Effect.asynchronous hcall hasync
  | illegal =>
    have hasync : isAsynchronous message = false :=
      not_asynchronous_of_prepareResponse hprep (by simp)
    have hkeep : result = .error { state := p.state, message := message } ∧ p' = p := by
      rcases localId with _ | id <;> simp only [hprep, commitResponse, reduceCtorEq, false_and,
        if_false, Except.ok.injEq, Prod.mk.injEq] at h <;> exact ⟨h.1.symm, h.2.symm⟩
    rcases hkeep with ⟨rfl, rfl⟩
    exact Effect.illegal hcall hasync
  | deferred =>
    have hasync : isAsynchronous message = false :=
      not_asynchronous_of_prepareResponse hprep (by simp)
    rcases localId with _ | id
    · simp only [hprep, commitResponse, Except.ok.injEq, Prod.mk.injEq] at h
      rcases h with ⟨rfl, rfl⟩
      exact Effect.deferred hcall hasync
    -- A deferred local error discards what follows its record, if the ledger has that record.
    · by_cases herror : message.variant = .errorResponse
      · simp only [hprep, herror, commitResponse, Except.ok.injEq, Prod.mk.injEq, and_self,
          if_true] at h
        rcases h with ⟨rfl, rfl⟩
        rcases p.projectDeferredLocalError_cases id with
          hkeep | ⟨before, o, rest, hops, hbefore, hid, horigin, hext, hproj⟩
        · rw [hkeep]
          exact Effect.deferred hcall hasync
        · rw [hproj, hlocal id rfl]
          exact Effect.deferredError herror hops hbefore hid horigin hext
      · simp only [hprep, herror, commitResponse, Except.ok.injEq, Prod.mk.injEq, and_false,
          if_false] at h
        rcases h with ⟨rfl, rfl⟩
        exact Effect.deferred hcall hasync
  | emit head state =>
    rcases prepareResponse_eq_emit.1 hprep with ⟨-, ⟨rest, hops⟩, horigin, -, hfits, rfl⟩
    rcases commitResponse_emit (p := p) hfits with ⟨next, hstep, hcommit⟩
    have hkeep : result = .ok (.emit message) ∧ p' = p.commitEmit head next message.variant := by
      rcases localId with _ | id <;> simp [hprep, hcommit] at h <;> simp [h]
    rcases hkeep with ⟨rfl, rfl⟩
    exact hwf.effect_emit hcall (haddr head horigin) hops hstep

theorem exists_of_map_eq_ok {A : Type} {m : Except Panic (A × Pipeline)} {f : A → Reply}
    {reply : Reply} (h : m.map (fun r => (f r.1, r.2)) = .ok (reply, p')) :
    ∃ result, m = .ok (result, p') ∧ f result = reply := by
  cases m with
  | error panic => cases h
  | ok r =>
    cases h
    exact ⟨r.1, rfl, rfl⟩

theorem Wf.effect_of_step {call : Call} {reply : Reply} (hwf : p.Wf) (h : Step p call reply p') :
    p.Effect call reply p' := by
  cases call with
  | frontend message handling =>
    obtain ⟨result, hresult, rfl⟩ := exists_of_map_eq_ok h
    exact hwf.effect_frontend hresult
  | backend message | emitLocal id message =>
    obtain ⟨result, hresult, rfl⟩ := exists_of_map_eq_ok h
    refine hwf.effect_response rfl ?_ (by simp) hresult
    exact fun _ horigin => horigin

theorem call_of_fits {call : Call} (hops : p.operations = head :: rest)
    (hlive : head.discarded = false) (hcall : call.response? = some message)
    (haddr : call.Addresses head) (hfits : responseFits head message.variant = true) :
    ∃ next, respond head.responseState message.variant = some next ∧
      p.call call =
        .ok (.backend (.ok (.emit message)), p.commitEmit head next message.variant) := by
  rcases commitResponse_emit (p := p) hfits with ⟨next, hstep, hcommit⟩
  have hsync : isAsynchronous message = false := respond_not_asynchronous hstep
  refine ⟨next, hstep, ?_⟩
  cases call with
  | frontend _ _ => cases hcall
  | backend m =>
    cases hcall
    have hprep : p.prepareResponse none message = .emit head head.responseState :=
      prepareResponse_eq_emit.2 ⟨hsync, ⟨rest, hops⟩, haddr, hlive, hfits, rfl⟩
    simp [Pipeline.call, acceptBackend, acceptResponse, hprep, hcommit, Except.map]
  | emitLocal id m =>
    cases hcall
    have hprep : p.prepareResponse (some id) message = .emit head head.responseState :=
      prepareResponse_eq_emit.2 ⟨hsync, ⟨rest, hops⟩, haddr, hlive, hfits, rfl⟩
    simp [Pipeline.call, tryEmitLocal, acceptResponse, hprep, hcommit, Except.map]

/-- The response calls never panic. -/
theorem acceptResponse_ok (p : Pipeline) (localId : Option OperationId)
    (message : BackendMessage) : ∃ r, p.acceptResponse localId message = .ok r := by
  unfold acceptResponse
  cases hprep : p.prepareResponse localId message with
  | asynchronous | deferred | illegal => exact ⟨_, rfl⟩
  | emit head state =>
    rcases prepareResponse_eq_emit.1 hprep with ⟨-, -, -, -, hfits, rfl⟩
    have hcommit : ∀ q : Pipeline, ∃ r,
        q.commitResponse (.emit head head.responseState) message = .ok r := by
      intro q
      rcases commitResponse_emit (p := q) hfits with ⟨next, -, hok⟩
      exact ⟨_, hok⟩
    exact hcommit _

end Pipeline
end PgProto
