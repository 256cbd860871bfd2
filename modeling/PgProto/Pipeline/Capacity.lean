import PgProto.Pipeline.Invariant

/-!
# Capacity — how many records a ledger holds

`prepare_frontend` compares the number of records with the limit of the policy by equality, and not
at all in COPY IN and COPY BOTH.  A stream of COPY messages therefore takes the ledger past its
limit, and from then on the comparison never holds again.

* `Pipeline.recordsOf` — the records of the selected kinds, discarded ones included;
* `Pipeline.Run.recordsOf_le` — a bound that every admission respects holds throughout a run;
* `Pipeline.outstanding_le`, `Pipeline.inertRecords_le` — the bounds, and the runs that have them.
-/

namespace PgProto

open Lib

/-- COPY admits COPY messages only. -/
theorem projectFrontend_copy_kind {state next : RequestState} {message : FrontendVariant}
    {kind : OperationKind} (h : projectFrontend state message = .ok (some (kind, next)))
    (hcopy : state = .copyIn ∨ state = .copyBoth) :
    kind = .copyData ∨ kind = .copyDone ∨ kind = .copyFail := by
  have hclass := projectFrontend_classify h
  rcases hcopy with rfl | rfl <;> cases message <;> cases hclass <;> simp

namespace Pipeline

/-! ## Counting records -/

/-- The number of records whose kind is selected. -/
def recordsOf (select : OperationKind → Bool) (p : Pipeline) : Nat :=
  p.keys.countP fun key => select key.2

/-- Records of a kind that owes a response. -/
def outstanding (p : Pipeline) : Nat :=
  p.recordsOf fun kind => !isInertKind kind

/-- Records of a kind that owes no response. -/
def inertRecords (p : Pipeline) : Nat :=
  p.recordsOf isInertKind

theorem recordsOf_le_length (select : OperationKind → Bool) (p : Pipeline) :
    p.recordsOf select ≤ p.operations.length := by
  calc p.recordsOf select ≤ p.keys.length := List.countP_le_length
    _ = p.operations.length := List.length_map _

variable {p : Pipeline}

theorem Effect.recordsOf_le {p' : Pipeline} {call : Call} {reply : Reply}
    (h : p.Effect call reply p') (select : OperationKind → Bool) :
    p'.recordsOf select ≤ p.recordsOf select ∨
      p'.recordsOf select ≤ p.recordsOf select + 1 ∧
        ∃ kind next, p.Offers call kind next ∧ p.HasRoom ∧ select kind = true := by
  rcases h.keys_suffix with ⟨-, -, hkeys⟩ | ⟨kind, next, hoffers, hroom, -, -, hkeys⟩
  · exact Or.inl (hkeys.sublist.countP_le)
  · have hgrown := hkeys.sublist.countP_le (p := fun key => select key.2)
    rw [List.countP_append, List.countP_singleton] at hgrown
    by_cases hselect : select kind = true
    · rw [if_pos hselect] at hgrown
      exact Or.inr ⟨hgrown, kind, next, hoffers, hroom, hselect⟩
    · rw [if_neg hselect] at hgrown
      exact Or.inl hgrown

/-- The selected records stay within the limit, if one of them is offered only while they are below
it, or outside COPY while the whole ledger is within it: there the equality test refuses a full
ledger. -/
theorem Run.recordsOf_le {policy : PipelinePolicy} {h : List LedgerEntry} (hr : Run policy h p)
    (select : OperationKind → Bool)
    (hbelow : ∀ e ∈ h, ∀ kind next, e.before.Offers e.input kind next → select kind = true →
      e.before.recordsOf select ≤ policy.operationLimit →
      e.before.recordsOf select < policy.operationLimit ∨
        e.before.operations.length ≤ policy.operationLimit ∧
          ¬(e.before.requestState = .copyIn ∨ e.before.requestState = .copyBoth)) :
    p.recordsOf select ≤ policy.operationLimit := by
  induction hr with
  | nil => exact Nat.zero_le _
  | @snoc h s s' i o hr hs ih =>
    have hbefore := ih fun e he => hbelow e (List.mem_append_left _ he)
    rcases ((Run.wf hr).effect_of_step hs).recordsOf_le select with
      hkeep | ⟨hgrow, kind, next, hoffers, hroom, hselect⟩
    · exact hkeep.trans hbefore
    · refine hgrow.trans ?_
      rcases hbelow ⟨s, i, o, s'⟩ (by simp) kind next hoffers hselect hbefore with
        hfew | ⟨hshort, hplain⟩
      · exact hfew
      · have hpolicy : s.policy = policy := Run.policy_eq hr
        have hne : s.operations.length ≠ policy.operationLimit := by
          rw [← hpolicy]
          exact fun hfull => hplain (hroom hfull)
        exact (recordsOf_le_length _ _).trans_lt (lt_of_le_of_ne hshort hne)

/-! ## Records that owe a response -/

/-- **Bounded outstanding work.**  The records that owe a response stay within the limit of the
policy, if a message that owes one is offered only while fewer records owe one, or while the ledger
holds no more records than the limit. -/
theorem outstanding_le {policy : PipelinePolicy} {h : List LedgerEntry} {p : Pipeline}
    (hr : Run policy h p)
    (hfull : ∀ e ∈ h, ∀ kind next, e.before.Offers e.input kind next → isInertKind kind = false →
      e.before.outstanding < policy.operationLimit ∨
        e.before.operations.length ≤ policy.operationLimit) :
    p.outstanding ≤ policy.operationLimit := by
  apply hr.recordsOf_le
  intro e he kind next hoffers howes _
  have hlive : isInertKind kind = false := by simpa using howes
  refine (hfull e he kind next hoffers hlive).imp_right fun hshort => ⟨hshort, fun hcopy => ?_⟩
  rcases hoffers with ⟨message, handling, -, hproject⟩
  rcases projectFrontend_copy_kind hproject hcopy with rfl | rfl | rfl <;> cases hlive

/-- A COPY IN of a Query within the limit, and a Parse pipelined behind it. -/
theorem outstanding_le_copy_in :
    ∃ h p, Run (.bounded ⟨4, by decide⟩) h p ∧ p.operations.length = 4 ∧ p.outstanding = 2 ∧
      p.outstanding ≤ 4 := by
  obtain ⟨h, p, hr, hlength, houtstanding, hshort⟩ :
      ∃ h p, Run (.bounded ⟨4, by decide⟩) h p ∧ p.operations.length = 4 ∧ p.outstanding = 2 ∧
        ∀ e ∈ h, e.before.operations.length ≤ 4 := by
    exact ⟨_, _, .of_exec [.frontend (.query []) .forward, .backend (.copyInResponse ⟨0, []⟩),
        .frontend (.copyData []) .forward, .frontend .copyDone .forward,
        .frontend (.parse ⟨[], [], []⟩) .forward] rfl, rfl, rfl, by decide⟩
  exact ⟨h, p, hr, hlength, houtstanding, outstanding_le hr fun e he _ _ _ _ => .inr (hshort e he)⟩

/-- With a limit of one record, a COPY IN leaves three records behind, and two Parse messages are
accepted on top of the Query that is still outstanding. -/
theorem outstanding_exceeds_limit :
    ∃ h p, Run .noPipeline h p ∧ p.outstanding = 3 ∧
      PipelinePolicy.noPipeline.operationLimit = 1 :=
  ⟨_, _, .of_exec [.frontend (.query []) .forward, .backend (.copyInResponse ⟨0, []⟩),
    .frontend (.copyData []) .forward, .frontend .copyDone .forward,
    .frontend (.parse ⟨[], [], []⟩) .forward, .frontend (.parse ⟨[], [], []⟩) .forward] rfl,
    rfl, rfl⟩

/-! ## Records that owe none -/

/-- A COPY message is offered in COPY only while the ledger is below its limit. -/
def CopyWithinLimit (limit : Nat) (e : LedgerEntry) : Prop :=
  ∀ kind next, e.before.Offers e.input kind next →
    e.before.requestState = .copyIn ∨ e.before.requestState = .copyBoth →
      e.before.operations.length < limit

theorem Run.length_le {policy : PipelinePolicy} {h : List LedgerEntry} (hr : Run policy h p)
    (hcopy : ∀ e ∈ h, CopyWithinLimit policy.operationLimit e) :
    p.operations.length ≤ policy.operationLimit := by
  have hlength : ∀ q : Pipeline, q.recordsOf (fun _ => true) = q.operations.length := by
    intro q
    simp [recordsOf, keys]
  rw [← hlength]
  apply hr.recordsOf_le
  intro e he kind next hoffers _ hle
  rw [hlength] at hle ⊢
  by_cases hstate : e.before.requestState = .copyIn ∨ e.before.requestState = .copyBoth
  · exact Or.inl (hcopy e he kind next hoffers hstate)
  · exact Or.inr ⟨hle, hstate⟩

/-- A message that owes no response is offered in COPY only while the ledger holds fewer such records
than the limit, and outside of COPY also while it holds no more records than the limit. -/
def InertWithinLimit (limit : Nat) (e : LedgerEntry) : Prop :=
  ∀ kind next, e.before.Offers e.input kind next → isInertKind kind = true →
    e.before.inertRecords < limit ∨
      e.before.operations.length ≤ limit ∧
        ¬(e.before.requestState = .copyIn ∨ e.before.requestState = .copyBoth)

/-- **COPY in bounded space.**  The records that owe no response stay within the limit of the
policy, if COPY messages, too, are offered only while the ledger is below its limit, or only while
the records that owe no response are. -/
theorem inertRecords_le {policy : PipelinePolicy} {h : List LedgerEntry} {p : Pipeline}
    (hr : Run policy h p)
    (hcopy : (∀ e ∈ h, CopyWithinLimit policy.operationLimit e) ∨
      ∀ e ∈ h, InertWithinLimit policy.operationLimit e) :
    p.inertRecords ≤ policy.operationLimit := by
  rcases hcopy with hlength | hinert
  · exact (recordsOf_le_length isInertKind p).trans (hr.length_le hlength)
  · exact hr.recordsOf_le isInertKind fun e he kind next hoffers howes _ =>
      hinert e he kind next hoffers howes

/-- A COPY IN takes a ledger of limit two past its limit, and not the records that owe nothing. -/
theorem inertRecords_le_copy_in :
    ∃ h p, Run (.bounded ⟨2, by decide⟩) h p ∧ p.operations.length = 3 ∧ p.inertRecords = 2 ∧
      p.inertRecords ≤ 2 := by
  obtain ⟨h, p, hr, hlength, hinert, hfew⟩ :
      ∃ h p, Run (.bounded ⟨2, by decide⟩) h p ∧ p.operations.length = 3 ∧ p.inertRecords = 2 ∧
        ∀ e ∈ h, e.before.inertRecords < 2 := by
    exact ⟨_, _, .of_exec [.frontend (.query []) .forward, .backend (.copyInResponse ⟨0, []⟩),
        .frontend (.copyData []) .forward, .frontend (.copyData []) .forward] rfl, rfl, rfl,
      by decide⟩
  exact ⟨h, p, hr, hlength, hinert, inertRecords_le hr (.inr fun e he _ _ _ _ => .inl (hfew e he))⟩

/-- A CopyData that is accepted in COPY IN adds a record that stays until the COPY ends. -/
theorem Wf.accept_copyData (hwf : p.Wf) (hstate : p.requestState = .copyIn) (data : Bytes) :
    ∃ reply p', Step p (.frontend (.copyData data) .forward) reply p' ∧
      p'.requestState = .copyIn ∧ p'.inertRecords = p.inertRecords + 1 := by
  rcases hwf.copyIn hstate with ⟨o, os, hops, -⟩
  have hproject : projectFrontend .copyIn (FrontendMessage.copyData data).variant =
      .ok (some (.copyData, .copyIn)) := rfl
  have haccept := hwf.acceptFrontend_copyIn hstate hproject .forward
  refine ⟨_, _, step_frontend haccept, rfl, ?_⟩
  have hcancel : cancelSyncFor .copyIn .copyData os = os := by
    simp [cancelSyncFor]
  have hkind : (Operation.admitted p.nextId .copyData .copyIn .forward).kind = .copyData := rfl
  simp [inertRecords, recordsOf, keys, hops, enqueue, hkind, hcancel, Operation.key,
    Operation.advance, List.countP_cons, isInertKind]
  omega

/-- A COPY IN of any length: every CopyData leaves a record behind. -/
theorem exists_run_inertRecords (n : Nat) :
    ∃ h p, Run .noPipeline h p ∧ p.requestState = .copyIn ∧ p.inertRecords = n := by
  induction n with
  | zero =>
    exact ⟨_, _, .of_exec [.frontend (.query []) .forward,
      .backend (.copyInResponse ⟨0, []⟩)] rfl, rfl, rfl⟩
  | succ n ih =>
    rcases ih with ⟨h, p, hr, hstate, hn⟩
    rcases (Run.wf hr).accept_copyData hstate [] with ⟨reply, p', hstep, hstate', hn'⟩
    exact ⟨_, p', hr.snoc hstep, hstate', by rw [hn', hn]⟩

/-- No function of the limit bounds the records of an open COPY IN. -/
theorem copy_space_unbounded :
    ¬∃ bound : Nat → Nat, ∀ policy h p, Run policy h p →
      p.inertRecords ≤ bound policy.operationLimit := by
  rintro ⟨bound, hbound⟩
  rcases exists_run_inertRecords (bound 1 + 1) with ⟨h, p, hr, -, hn⟩
  have hle : p.inertRecords ≤ bound 1 := hbound .noPipeline h p hr
  omega

end Pipeline
end PgProto
