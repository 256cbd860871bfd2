import PgProto.Pipeline.Calls

/-!
# Sequences — spans of messages against a ledger snapshot

The part of `src/pipeline.rs` which the intermediary connection uses on whole sequences: the
preflight of an ordered frontend sequence, the one-to-one replacement of a held backend span, and
the attribution of backend messages to operations.  Each works on a copy of the ledger, which the
connection then installs or throws away.

* `Pipeline.prepareFrontendSequence_exec` — a preflighted sequence is the run of its admissions;
* `Pipeline.prepareBackendReplacements_iff` — a prepared span is the run of its replacements.
-/

namespace PgProto

open Backend (RuntimeState)
open Lib

/-! ## Data -/

/-- A transition of the `backend` table; the source spells it `backend.<source>.<event>`. -/
structure TransitionId where
  source : RuntimeState
  event : Backend.Event
  deriving DecidableEq, Repr

structure FrontendSequenceItem where
  transition : Option TransitionId
  admission : FrontendAdmission
  deriving DecidableEq

/-- The message an action hands on, with its operation. -/
def FrontendAction.forwarded? : FrontendAction → Option (OperationId × FrontendMessage)
  | .forward id message => some (id, message)
  | .discard _ => none

namespace Pipeline

/-! ## Transitions and attribution -/

def frontendTransitionId (p : Pipeline) (message : FrontendMessage) : Option TransitionId := do
  let state := generatedRequestState p.requestState
  let event ← Backend.projectExternal state message.variant
  let edge ← Backend.transition state event
  return { source := edge.source, event := edge.event }

def backendTransitionId (p : Pipeline) (message : BackendMessage) : Option TransitionId :=
  match p.prepareResponse none message with
  | .emit _ responseState => do
    let event ← Backend.projectInternal responseState message.variant
    let edge ← Backend.transition responseState event
    return { source := edge.source, event := edge.event }
  | _ => none

def backendOperationId (p : Pipeline) (message : BackendMessage) : Option OperationId :=
  if isAsynchronous message then
    none
  else
    (p.operations.find? fun o =>
      decide (o.origin = .forwarded) && !o.discarded && responseFits o message.variant).map
      Operation.id

def backendOperationIds (p : Pipeline) :
    List BackendMessage → Except Panic (List (Option OperationId))
  | [] => .ok []
  | message :: messages =>
    let id := p.backendOperationId message
    match p.acceptBackend message with
    | .error panic => .error panic
    | .ok (_, next) =>
      match next.backendOperationIds messages with
      | .error panic => .error panic
      | .ok ids => .ok (id :: ids)

theorem backendOperationIds_ok (p : Pipeline) (messages : List BackendMessage) :
    ∃ ids, p.backendOperationIds messages = .ok ids := by
  induction messages generalizing p with
  | nil => exact ⟨[], rfl⟩
  | cons message messages ih =>
    obtain ⟨⟨result, next⟩, haccept⟩ := p.acceptResponse_ok none message
    obtain ⟨ids, hids⟩ := ih next
    have haccept' : p.acceptBackend message = .ok (result, next) := haccept
    exact ⟨p.backendOperationId message :: ids, by simp [backendOperationIds, haccept', hids]⟩

/-! ## Backend spans -/

/-- Projects a span in order; stops at the first message that fails `check` or is not emitted. -/
def projectSpan (check : BackendMessage → Bool) (p : Pipeline) :
    List BackendMessage → Except Panic (Except BackendMessage Pipeline)
  | [] => .ok (.ok p)
  | message :: messages =>
    if check message then
      match p.acceptBackend message with
      | .error panic => .error panic
      | .ok (.ok (.emit _), next) => next.projectSpan check messages
      | .ok (.ok (.deferred refused), _) => .ok (.error refused)
      | .ok (.error refusal, _) => .ok (.error refusal.message)
    else
      .ok (.error message)

def prepareBackendReplacements (p : Pipeline) (sources replacements : List BackendMessage) :
    Except Panic (Except BackendSequenceError Pipeline) :=
  if sources.length ≠ replacements.length then
    .ok (.error (.cardinality sources.length replacements.length))
  else
    match p.projectSpan (fun _ => true) sources with
    | .error panic => .error panic
    | .ok (.error message) => .ok (.error (.source message))
    | .ok (.ok sourceProjection) =>
      match p.projectSpan BackendMessage.isReconstructable replacements with
      | .error panic => .error panic
      | .ok (.error message) => .ok (.error (.replacement message))
      | .ok (.ok replacementProjection) =>
        if sourceProjection.operations ≠ replacementProjection.operations ∨
            sourceProjection.requestState ≠ replacementProjection.requestState ∨
            sourceProjection.responseState ≠ replacementProjection.responseState then
          .ok (.error .differentSpan)
        else
          .ok (.ok replacementProjection)

/-! ## Frontend sequences -/

def prepareFrontendSequence (p : Pipeline) (handling : FrontendHandling) :
    List FrontendMessage →
      Except Panic (Except FrontendProjectionError (List FrontendSequenceItem × Pipeline))
  | [] => .ok (.ok ([], p))
  | message :: messages =>
    if message.isReconstructable then
      let transition := p.frontendTransitionId message
      match p.acceptFrontend message handling with
      | .error panic => .error panic
      | .ok (.error refusal, _) => .ok (.error refusal)
      | .ok (.ok admission, next) =>
        match next.prepareFrontendSequence handling messages with
        | .error panic => .error panic
        | .ok (.error refusal) => .ok (.error refusal)
        | .ok (.ok (items, final)) =>
          .ok (.ok ({ transition := transition, admission := admission } :: items, final))
    else
      .ok (.error (.illegal p.state message))

/-! ## Spans as runs of the ledger -/

/-- The steps of the ledger on a list of calls, none if one of them panics. -/
def entries (p : Pipeline) (calls : List Call) : List LedgerEntry :=
  match exec call p calls with
  | .ok (h, _) => h
  | .error _ => []

variable {p q : Pipeline} {message : BackendMessage} {messages : List BackendMessage}

theorem entries_eq {calls : List Call} {h : List LedgerEntry}
    (hexec : exec call p calls = .ok (h, q)) : p.entries calls = h := by
  simp [entries, hexec]

theorem commitResponse_message {prepared : PreparedResponse} {action : BackendAction}
    (hcommit : p.commitResponse prepared message = .ok (.ok action, q)) :
    action = .emit message ∨ action = .deferred message := by
  cases prepared with
  | asynchronous =>
    cases hcommit
    exact Or.inl rfl
  | deferred =>
    cases hcommit
    exact Or.inr rfl
  | illegal => cases hcommit
  | emit head state =>
    simp only [commitResponse] at hcommit
    split at hcommit
    · cases hcommit
    · split at hcommit
      · cases hcommit
      · cases hcommit
        exact Or.inl rfl

theorem acceptResponse_message {localId : Option OperationId} {action : BackendAction}
    (haccept : p.acceptResponse localId message = .ok (.ok action, q)) :
    action = .emit message ∨ action = .deferred message :=
  commitResponse_message haccept

/-- Folding `accept_backend` over the messages emits every one of them and ends in `q`. -/
def EmitsSpan (p : Pipeline) (messages : List BackendMessage) (q : Pipeline) : Prop :=
  ∃ h, exec call p (messages.map .backend) = .ok (h, q) ∧
    h.map Entry.output = messages.map fun m => Reply.backend (.ok (.emit m))

theorem emitsSpan_nil : p.EmitsSpan [] q ↔ p = q := by
  constructor
  · rintro ⟨h, hexec, -⟩
    cases hexec
    rfl
  · rintro rfl
    exact ⟨[], rfl, rfl⟩

theorem emitsSpan_cons :
    p.EmitsSpan (message :: messages) q ↔
      ∃ next, p.acceptBackend message = .ok (.ok (.emit message), next) ∧
        next.EmitsSpan messages q := by
  constructor
  · rintro ⟨h, hexec, houtputs⟩
    obtain ⟨reply, next, h', hcall, hrest, rfl⟩ := exec_cons_iff.1 hexec
    simp only [List.map_cons, List.cons.injEq] at houtputs
    obtain ⟨rfl, houtputs⟩ := houtputs
    refine ⟨next, ?_, h', hrest, houtputs⟩
    cases haccept : p.acceptBackend message with
    | error panic => simp [call, haccept, Except.map] at hcall
    | ok r =>
      simp only [call, haccept, Except.map, Except.ok.injEq, Prod.mk.injEq,
        Reply.backend.injEq] at hcall
      rw [← hcall.1, ← hcall.2]
  · rintro ⟨next, haccept, h, hexec, houtputs⟩
    refine ⟨⟨p, .backend message, .backend (.ok (.emit message)), next⟩ :: h, ?_, ?_⟩
    · simp [exec, call, haccept, hexec, Except.map]
    · simp [houtputs]

theorem projectSpan_iff {check : BackendMessage → Bool} :
    p.projectSpan check messages = .ok (.ok q) ↔
      (∀ m ∈ messages, check m = true) ∧ p.EmitsSpan messages q := by
  induction messages generalizing p with
  | nil =>
    rw [emitsSpan_nil]
    simp [projectSpan]
  | cons message messages ih =>
    rw [emitsSpan_cons, List.forall_mem_cons]
    unfold projectSpan
    cases hcheck : check message with
    | false => simp
    | true =>
      rcases haccept : p.acceptBackend message with panic | ⟨refusal | emitted | deferred, next⟩
      · simp
      · simp
      · have hemit : emitted = message := by
          rcases acceptResponse_message haccept with h | h <;> cases h
          rfl
        subst hemit
        simp [ih]
      · simp

/-- Both spans are emitted completely, every replacement encodes, and the two leave the same records
in the same states; the replacements end in `q`. -/
def SpansAs (p : Pipeline) (sources replacements : List BackendMessage) (q : Pipeline) : Prop :=
  sources.length = replacements.length ∧
    (∀ m ∈ replacements, m.isReconstructable = true) ∧
    p.EmitsSpan replacements q ∧
    ∃ r, p.EmitsSpan sources r ∧ r.operations = q.operations ∧
      r.requestState = q.requestState ∧ r.responseState = q.responseState

/-- **A replacement is accepted exactly when it spans what it replaces.** -/
theorem prepareBackendReplacements_iff {sources replacements : List BackendMessage} :
    p.prepareBackendReplacements sources replacements = .ok (.ok q) ↔
      p.SpansAs sources replacements q := by
  unfold prepareBackendReplacements
  constructor
  · intro hprepared
    split at hprepared
    · cases hprepared
    · rename_i hlength
      rcases hsources : p.projectSpan (fun _ => true) sources with panic | refused | r
      · simp [hsources] at hprepared
      · simp [hsources] at hprepared
      · rcases hspan : p.projectSpan BackendMessage.isReconstructable replacements with
          panic | refused | q'
        · simp [hsources, hspan] at hprepared
        · simp [hsources, hspan] at hprepared
        · simp only [hsources, hspan] at hprepared
          split at hprepared
          · cases hprepared
          · rename_i hsame
            cases hprepared
            obtain ⟨hencodes, hemits⟩ := projectSpan_iff.1 hspan
            push Not at hsame
            exact ⟨not_not.1 hlength, hencodes, hemits, r, (projectSpan_iff.1 hsources).2, hsame⟩
  · rintro ⟨hlength, hencodes, hemits, r, hsources, hops, hrequest, hresponse⟩
    have hspan : p.projectSpan (fun _ => true) sources = .ok (.ok r) :=
      projectSpan_iff.2 ⟨fun _ _ => rfl, hsources⟩
    rw [if_neg (not_not_intro hlength), hspan, projectSpan_iff.2 ⟨hencodes, hemits⟩]
    simp [hops, hrequest, hresponse]

theorem prepareFrontendSequence_exec {handling : FrontendHandling} {messages : List FrontendMessage}
    {items : List FrontendSequenceItem}
    (hprepared : p.prepareFrontendSequence handling messages = .ok (.ok (items, q))) :
    ∃ h, exec call p (messages.map fun m => .frontend m handling) = .ok (h, q) ∧
      h.map Entry.output = items.map fun item => Reply.frontend (.ok item.admission) := by
  induction messages generalizing p items with
  | nil =>
    simp only [prepareFrontendSequence, Except.ok.injEq, Prod.mk.injEq] at hprepared
    rcases hprepared with ⟨rfl, rfl⟩
    exact ⟨[], rfl, rfl⟩
  | cons message messages ih =>
    unfold prepareFrontendSequence at hprepared
    split at hprepared
    · cases haccept : p.acceptFrontend message handling with
      | error panic => simp [haccept] at hprepared
      | ok r =>
        rcases r with ⟨result, next⟩
        rcases result with refusal | admission
        · simp [haccept] at hprepared
        · cases hrest : next.prepareFrontendSequence handling messages with
          | error panic => simp [haccept, hrest] at hprepared
          | ok restResult =>
            rcases restResult with refusal | ⟨rest, final⟩
            · simp [haccept, hrest] at hprepared
            · simp only [haccept, hrest, Except.ok.injEq, Prod.mk.injEq] at hprepared
              rcases hprepared with ⟨rfl, rfl⟩
              rcases ih hrest with ⟨h, hexec, houtputs⟩
              refine ⟨⟨p, .frontend message handling, .frontend (.ok admission), next⟩ :: h,
                ?_, ?_⟩
              · simp [exec, call, haccept, hexec, Except.map]
              · simp [houtputs]
    · simp at hprepared

end Pipeline
end PgProto
