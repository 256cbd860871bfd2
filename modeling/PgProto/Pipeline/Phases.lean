import PgProto.Pipeline.Ledger

/-!
# Phases — response phases of ledger records

Which phases of the `backend` grammar a record of each kind can be in, and what a message does to
them.  The functions involved look at message variants only, so the facts here are checked by
enumerating the grammar; every later argument about response phases uses them by name.

* `respond` / `request` — one message of the server, one message of the client;
* `ownedStates` — the phases a record of a given kind passes through;
* `respond_owned`, `request_owned` — a record stays within its phases until its last response.
-/

namespace PgProto

open Backend (RuntimeState transitions)
open Lib

namespace Backend

/-- Phase after a message sent by the server. -/
def respond (state : RuntimeState) (message : BackendVariant) : Option RuntimeState :=
  transitions.stepInternal state message

/-- Phase after a message sent by the client. -/
def request (state : RuntimeState) (message : FrontendVariant) : Option RuntimeState :=
  transitions.stepExternal state message

theorem transitions_deterministic : transitions.Deterministic := by
  decide +kernel

@[elab_as_elim]
theorem respond_rule {P : RuntimeState → BackendVariant → RuntimeState → Prop}
    (hedges : ∀ e ∈ transitions, ∀ m, e.guard.acceptsInternal m = true → P e.source m e.target)
    {state next : RuntimeState} {message : BackendVariant}
    (h : respond state message = some next) : P state message next := by
  rcases Table.exists_edge_of_stepInternal transitions_deterministic h with ⟨e, he, rfl, hm, rfl⟩
  exact hedges e he message hm

@[elab_as_elim]
theorem request_rule {P : RuntimeState → FrontendVariant → RuntimeState → Prop}
    (hedges : ∀ e ∈ transitions, ∀ m, e.guard.acceptsExternal m = true → P e.source m e.target)
    {state next : RuntimeState} {message : FrontendVariant}
    (h : request state message = some next) : P state message next := by
  rcases Table.exists_edge_of_stepExternal transitions_deterministic h with ⟨e, he, rfl, hm, rfl⟩
  exact hedges e he message hm

theorem respond_isSome (state : RuntimeState) (message : BackendVariant) :
    (respond state message).isSome = (projectInternal state message).isSome :=
  Table.stepInternal_isSome

theorem request_isSome (state : RuntimeState) (message : FrontendVariant) :
    (request state message).isSome = (projectExternal state message).isSome :=
  Table.stepExternal_isSome

end Backend

open Backend (respond request)

/-! ## Phases of a record -/

/-- The phases a record of the given kind passes through before its last response. -/
def ownedStates : OperationKind → List RuntimeState
  | .query =>
    [.simple, .simpleError, .simpleCopyIn, .simpleCopyInDone, .simpleCopyInFailed,
     .simpleCopyOut, .simpleCopyOutDone, .simpleCopyReady, .simpleCopyBoth,
     .simpleCopyBothClientDone, .simpleCopyBothServerDone, .simpleCopyBothDone,
     .simpleCopyBothFailed]
  | .functionCall => [.functionResponse, .functionReady]
  | .parse => [.parseResponse]
  | .bind => [.bindResponse]
  | .describe => [.describeResponse]
  | .execute =>
    [.executeResponse, .extendedCopyIn, .extendedCopyInDone, .extendedCopyInFailed,
     .extendedCopyOut, .extendedCopyOutDone, .extendedCopyBoth, .extendedCopyBothClientDone,
     .extendedCopyBothServerDone, .extendedCopyBothDone, .extendedCopyBothFailed]
  | .close => [.closeResponse]
  | .sync => [.syncResponse]
  | .flush | .copyData | .copyDone | .copyFail | .terminate => [.terminated]

/-- The phases in which the server reads COPY data. -/
def isCopyInState : RuntimeState → Bool
  | .simpleCopyIn | .extendedCopyIn => true
  | _ => false

/-- Phases outside COPY IN and COPY BOTH. -/
def isPlain : RuntimeState → Bool
  | .simpleCopyIn | .simpleCopyInDone | .simpleCopyInFailed
  | .extendedCopyIn | .extendedCopyInDone | .extendedCopyInFailed
  | .simpleCopyBoth | .simpleCopyBothClientDone | .simpleCopyBothServerDone
  | .simpleCopyBothDone | .simpleCopyBothFailed
  | .extendedCopyBoth | .extendedCopyBothClientDone | .extendedCopyBothServerDone
  | .extendedCopyBothDone | .extendedCopyBothFailed => false
  | _ => true

theorem initialResponseState_mem_owned (kind : OperationKind) :
    initialResponseState kind ∈ ownedStates kind := by
  cases kind <;> decide

/-! ## The edges of the grammar

One pass over the transitions for each sender.  A record of no kind is ever in the phases between
operations, so the kind is quantified last, where most edges leave nothing to check. -/

variable {kind : OperationKind} {state next : RuntimeState} {message : BackendVariant}

theorem respond_edges (hstep : respond state message = some next) :
    isCopyInState state = false ∧ message.isAsynchronous = false ∧
    (isPlain state = true → message ≠ .copyInResponse ∧ message ≠ .copyBothResponse →
      isPlain next = true) ∧
    ∀ kind, state ∈ ownedStates kind → isInertKind kind = false ∧
      (responseIsTerminal kind message = false → next ∈ ownedStates kind) ∧
      (responseIsTerminal kind message = true →
        next ∈ [RuntimeState.ready, .building, .extendedError]) :=
  Backend.respond_rule (by decide +kernel) hstep

theorem request_edges {message : FrontendVariant} (hstep : request state message = some next) :
    ∀ kind, state ∈ ownedStates kind → next ∈ ownedStates kind ∧ isPlain state = false :=
  Backend.request_rule (by decide +kernel) hstep

/-! ## Responses and requests of a record -/

/-- A response that does not end the operation keeps the record within its phases. -/
theorem respond_owned (hstep : respond state message = some next)
    (howned : state ∈ ownedStates kind) (hmore : responseIsTerminal kind message = false) :
    next ∈ ownedStates kind :=
  ((respond_edges hstep).2.2.2 kind howned).2.1 hmore

/-- A response that ends the operation leads back to a phase between operations. -/
theorem respond_terminal (hstep : respond state message = some next)
    (howned : state ∈ ownedStates kind) (hlast : responseIsTerminal kind message = true) :
    next ∈ [RuntimeState.ready, .building, .extendedError] :=
  ((respond_edges hstep).2.2.2 kind howned).2.2 hlast

theorem responseCopyState_terminal (hstep : respond state message = some next)
    (howned : state ∈ ownedStates kind) (hlast : responseIsTerminal kind message = true) :
    responseCopyState next = none := by
  have hbetween := respond_terminal hstep howned hlast
  simp only [List.mem_cons, List.not_mem_nil, or_false] at hbetween
  rcases hbetween with rfl | rfl | rfl <;> rfl

theorem responseFits_of_respond {o : Operation}
    (hstep : respond o.responseState message = some next) : responseFits o message = true := by
  rw [responseFits, ← Backend.respond_isSome, hstep]
  rfl

theorem request_owned {message : FrontendVariant} (hstep : request state message = some next)
    (howned : state ∈ ownedStates kind) : next ∈ ownedStates kind :=
  (request_edges hstep kind howned).1

/-- Records that owe no response accept none. -/
theorem respond_inert (hstep : respond state message = some next)
    (howned : state ∈ ownedStates kind) : isInertKind kind = false :=
  ((respond_edges hstep).2.2.2 kind howned).1

/-- While the server reads COPY data it sends nothing that belongs to the operation. -/
theorem respond_copyIn (hstep : respond state message = some next) :
    isCopyInState state = false :=
  (respond_edges hstep).1

theorem respond_not_asynchronous (hstep : respond state message = some next) :
    message.isAsynchronous = false :=
  (respond_edges hstep).2.1

theorem isCopyInState_iff_responseCopyState (state : RuntimeState) :
    isCopyInState state = true ↔ responseCopyState state = some .copyIn := by
  cases state <;> decide

/-- Only a Query or an Execute is ever in a COPY IN phase. -/
theorem owned_copyIn : ∀ kind, ∀ state ∈ ownedStates kind,
    isCopyInState state = true → kind = .query ∨ kind = .execute := by
  decide

/-! ## Phases without COPY IN and COPY BOTH -/

theorem initialResponseState_plain (kind : OperationKind) :
    isPlain (initialResponseState kind) = true := by
  cases kind <;> rfl

theorem respond_plain (hstep : respond state message = some next) (hplain : isPlain state = true)
    (hmessage : message ≠ .copyInResponse ∧ message ≠ .copyBothResponse) : isPlain next = true :=
  (respond_edges hstep).2.2.1 hplain hmessage

theorem request_plain (message : FrontendVariant) (howned : state ∈ ownedStates kind)
    (hplain : isPlain state = true) : request state message = none := by
  cases hstep : request state message with
  | none => rfl
  | some next =>
    rw [(request_edges hstep kind howned).2] at hplain
    cases hplain

/-! ## Classification -/

/-- `classify_frontend` reaches neither of its panicking arms. -/
theorem classifyFrontend_ok : ∀ state message,
    ∃ result, classifyFrontend state message = .ok result := by
  intro state message
  cases state <;> cases message <;> exact ⟨_, rfl⟩

theorem projectFrontend_classify {state : RequestState} {message : FrontendVariant}
    {result : OperationKind × RequestState}
    (h : projectFrontend state message = .ok (some result)) :
    classifyFrontend state message = .ok (some result) := by
  unfold projectFrontend at h
  split at h
  · cases h
  · exact h

end PgProto
