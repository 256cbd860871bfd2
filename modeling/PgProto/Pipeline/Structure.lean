import PgProto.Pipeline.Exchanges

/-!
# Structure — the shape of every reachable ledger

What the results on ordering and safety rest on, in one place: how identities run along the queue,
which records can be at its front and behind it, and in which phases.  A record leaves the ledger
just before it would enter a phase between operations, so none is ever found in one.
-/

namespace PgProto

open Backend (RuntimeState respond)
open Lib

/-- The phases between operations. -/
def betweenOperations : List RuntimeState := [.ready, .building, .extendedError]

theorem ownedStates_not_between : ∀ kind, ∀ state ∈ ownedStates kind,
    state ∉ betweenOperations := by
  decide

/-- The table of last responses against the grammar: a response is the last one of its operation
exactly if it leads to a phase between operations. -/
theorem responseIsTerminal_iff {kind : OperationKind} {state next : RuntimeState}
    {message : BackendVariant} (hstep : respond state message = some next)
    (howned : state ∈ ownedStates kind) :
    responseIsTerminal kind message = true ↔ next ∈ betweenOperations := by
  constructor
  · exact respond_terminal hstep howned
  · intro hbetween
    -- a response in the middle of an operation stays within the phases of its kind
    cases hlast : responseIsTerminal kind message with
    | true => rfl
    | false =>
      have hnext : next ∈ ownedStates kind := respond_owned hstep howned hlast
      exact absurd hbetween (ownedStates_not_between kind next hnext)

theorem copyIn_phase : ∀ kind, ∀ state ∈ ownedStates kind, isCopyInState state = true →
    kind = .query ∧ state = .simpleCopyIn ∨ kind = .execute ∧ state = .extendedCopyIn := by
  decide

namespace Pipeline

/-- The record at the front reads COPY data. -/
def FrontCopiesIn (p : Pipeline) : Prop :=
  ∃ o os, p.operations = o :: os ∧
    (o.kind = .query ∧ o.responseState = .simpleCopyIn ∨
      o.kind = .execute ∧ o.responseState = .extendedCopyIn)

theorem Wf.frontCopiesIn {p : Pipeline} (hwf : p.Wf) (hstate : p.requestState = .copyIn) :
    p.FrontCopiesIn := by
  obtain ⟨o, os, hops, hcopy⟩ := hwf.copyIn hstate
  have howned : o.responseState ∈ ownedStates o.kind := hwf.owned o (by simp [hops])
  exact ⟨o, os, hops, copyIn_phase o.kind o.responseState howned hcopy⟩

theorem CopyInReads.copyIn {p : Pipeline} (hinv : p.CopyInReads) (h : p.FrontCopiesIn) :
    p.requestState = .copyIn := by
  obtain ⟨o, os, hops, hphase⟩ := h
  refine hinv o os hops ?_
  rcases hphase with ⟨-, hstate⟩ | ⟨-, hstate⟩ <;> rw [hstate] <;> rfl

/-- The response a call emits belongs to the front record, and is its last one exactly if its
transition leads to a phase between operations. -/
def EmitsByPhase (e : LedgerEntry) : Prop :=
  ∀ message, e.output = .backend (.ok (.emit message)) → isAsynchronous message = false →
    ∃ head rest next, e.before.operations = head :: rest ∧
      respond head.responseState message.variant = some next ∧
      (responseIsTerminal head.kind message.variant = true ↔ next ∈ betweenOperations)

theorem Wf.emitsByPhase {p p' : Pipeline} {call : Call} {reply : Reply} (hwf : p.Wf)
    (heff : p.Effect call reply p') : EmitsByPhase ⟨p, call, reply, p'⟩ := by
  have hfront : ∀ {head rest next} {message : BackendMessage}, p.operations = head :: rest →
      respond head.responseState message.variant = some next →
      (responseIsTerminal head.kind message.variant = true ↔ next ∈ betweenOperations) := by
    intro head rest next message hops hstep
    exact responseIsTerminal_iff hstep (hwf.owned head (by simp [hops]))
  intro message houtput hasync
  cases heff with
  | asynchronous _ hasync' =>
    cases houtput
    rw [hasync] at hasync'
    cases hasync'
  | continued _ _ hops hstep _ | completed _ _ hops hstep _ _ | failed _ _ hops hstep _ _ _ =>
    cases houtput
    exact ⟨_, _, _, hops, hstep, hfront hops hstep⟩
  | refused _ | accepted _ _ _ | deferred _ _ | deferredError _ _ _ _ _ _ | illegal _ _ =>
    cases houtput

theorem Run.emitsByPhase {policy : PipelinePolicy} {h : List LedgerEntry} {p : Pipeline}
    (hr : Run policy h p) : ∀ e ∈ h, EmitsByPhase e := by
  induction hr with
  | nil =>
    intro e he
    cases he
  | @snoc h s s' i o hr hs ih =>
    intro e he
    rcases List.mem_append.1 he with he | he
    · exact ih e he
    · rw [List.mem_singleton.1 he]
      have hwf := Run.wf hr
      exact hwf.emitsByPhase (hwf.effect_of_step hs)

/-- Every ledger that calls lead to.  The last part also holds when the server opens COPY BOTH. -/
theorem ledger_structure {policy : PipelinePolicy} {h : List LedgerEntry} {p : Pipeline}
    (hr : Run policy h p) (hcount : admissions h < 2 ^ 64) :
    (p.operations.map Operation.id).Pairwise (· < ·) ∧
    (∀ o ∈ p.operations, o.id < p.nextId) ∧
    (∀ o os, p.operations = o :: os → o.discarded = false ∧
      o.kind ∉ [OperationKind.flush, .copyData, .copyDone, .copyFail, .terminate]) ∧
    (∀ o ∈ p.operations.tail, o.responseState = initialResponseState o.kind) ∧
    (∀ o ∈ p.operations, o.responseState ∉ betweenOperations) ∧
    (∀ e ∈ h, EmitsByPhase e) ∧
    (ForwardOnly h → (p.requestState = .copyIn ↔ p.FrontCopiesIn)) := by
  have hwf : p.Wf := Run.wf hr
  have hord : p.Ordered := (Run.trail hr hcount).ordered
  refine ⟨?_, fun o ho => hord.lt_nextId ho, ?_, hwf.waiting, ?_, Run.emitsByPhase hr, ?_⟩
  · have hpair := (List.pairwise_append.1 hord).1
    rwa [keys, List.map_map] at hpair
  · intro o os hops
    obtain ⟨hkind, hmark⟩ := Operation.isInert_eq_false.1 (hwf.headLive hops)
    refine ⟨hmark, ?_⟩
    intro hmem
    cases hk : o.kind <;> simp [hk, isInertKind] at hkind hmem
  · intro o ho
    exact ownedStates_not_between o.kind o.responseState (hwf.owned o ho)
  · intro hfwd
    exact ⟨hwf.frontCopiesIn, (Run.copyInReads hr hfwd).copyIn⟩

/-- A Query that the server answers with CopyInResponse, with COPY data behind it. -/
theorem ledger_structure_copy_in :
    ∃ h p, Run (.bounded ⟨4, by decide⟩) h p ∧ p.operations.length = 2 ∧
      (∀ e ∈ h, EmitsByPhase e) ∧ p.requestState = .copyIn ∧ p.FrontCopiesIn := by
  obtain ⟨h, p, hr, hlength, hstate, hcount, hfwd⟩ :
      ∃ h p, Run (.bounded ⟨4, by decide⟩) h p ∧ p.operations.length = 2 ∧
        p.requestState = .copyIn ∧ admissions h < 2 ^ 64 ∧ ForwardOnly h := by
    exact ⟨_, _, .of_exec [.frontend (.query []) .forward, .backend (.copyInResponse ⟨0, []⟩),
        .frontend (.copyData []) .forward] rfl, rfl, rfl, by decide, by decide⟩
  obtain ⟨-, -, -, -, -, hemits, hcopy⟩ := ledger_structure hr hcount
  exact ⟨h, p, hr, hlength, hemits, hstate, (hcopy hfwd).1 hstate⟩

end Pipeline
end PgProto
