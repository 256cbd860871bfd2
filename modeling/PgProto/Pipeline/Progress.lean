import PgProto.Pipeline.Capacity
import PgProto.Pipeline.Readiness
import PgProto.Pipeline.Sequences

/-!
# Progress — backpressure and output the server owes

A refused client message waits until the ledger has room, and the ledger gets room only from server
output.  PostgreSQL answers a Query, a FunctionCall and a Sync on its own, and the other messages of
the extended protocol only after a Flush or a Sync.  A full ledger from which the server owes
nothing is a deadlock: the client cannot send the Sync that would resolve it.

* `owesOutput` — the server owes output without further client input;
* `Pipeline.Progressing` — the invariant: a ledger that is full past a mark owes output;
* `Pipeline.refused_owesOutput` — the runs in which a refusal is never a deadlock.
-/

namespace PgProto

open Lib

/-! ## Output the server owes -/

/-- The record was sent to the server and is in force. -/
def Operation.isSent (o : Operation) : Bool :=
  decide (o.origin = .forwarded) && !o.discarded

/-- Kinds whose responses PostgreSQL holds back until a Flush or a Sync. -/
def waitsForFlush : OperationKind → Bool
  | .parse | .bind | .describe | .execute | .close => true
  | _ => false

/-- The queue holds a request that the server answers on its own, or a Flush behind a request whose
responses wait for one. -/
def owesOutput : List Operation → Bool
  | [] => false
  | o :: os =>
    o.isSent && (endsInReady o.kind ||
      waitsForFlush o.kind && os.any fun f => f.isSent && decide (f.kind = .flush)) ||
    owesOutput os

theorem endsInReady_or_waitsForFlush {kind : OperationKind} (h : isInertKind kind = false) :
    endsInReady kind = true ∨ waitsForFlush kind = true := by
  cases kind <;> simp_all [isInertKind, endsInReady, waitsForFlush]

variable {os : List Operation} {o : Operation}

theorem owesOutput_snoc (record : Operation) (h : owesOutput os = true) :
    owesOutput (os ++ [record]) = true := by
  induction os with
  | nil => cases h
  | cons o os ih =>
    simp only [owesOutput, Bool.or_eq_true, Bool.and_eq_true] at h
    simp only [List.cons_append, owesOutput, List.any_append, Bool.or_eq_true, Bool.and_eq_true]
    rcases h with ⟨hsent, hends | ⟨hwaits, hflush⟩⟩ | hrest
    · exact Or.inl ⟨hsent, Or.inl hends⟩
    · exact Or.inl ⟨hsent, Or.inr ⟨hwaits, Or.inl hflush⟩⟩
    · exact Or.inr (ih hrest)

theorem owesOutput_of_mem (ho : o ∈ os) (hsent : o.isSent = true)
    (hends : endsInReady o.kind = true) : owesOutput os = true := by
  induction os with
  | nil => cases ho
  | cons x os ih =>
    rcases List.mem_cons.1 ho with rfl | ho
    · simp [owesOutput, hsent, hends]
    · simp [owesOutput, ih ho]

/-- A Flush makes the server answer whatever record is at the front. -/
theorem owesOutput_flush {f : Operation} (os : List Operation) (hsent : o.isSent = true)
    (howes : isInertKind o.kind = false) (hflush : f.isSent = true) (hkind : f.kind = .flush) :
    owesOutput (o :: (os ++ [f])) = true := by
  rcases endsInReady_or_waitsForFlush howes with hends | hwaits
  · simp [owesOutput, hsent, hends]
  · simp [owesOutput, hsent, hwaits, hflush, hkind]

/-- Every rest of the queue that begins with a record in force and is longer than `mark` owes
output.  A response takes the queue to such a rest. -/
def owesPast (mark : Nat) : List Operation → Bool
  | [] => true
  | o :: os => (o.isInert || decide (os.length < mark) || owesOutput (o :: os)) && owesPast mark os

variable {mark : Nat}

theorem owesPast_cons : owesPast mark (o :: os) = true ↔
    (o.isInert = false → mark ≤ os.length → owesOutput (o :: os) = true) ∧
      owesPast mark os = true := by
  simp only [owesPast, Bool.and_eq_true, Bool.or_eq_true, decide_eq_true_eq]
  rw [or_iff_not_imp_left, not_or, Bool.not_eq_true, Nat.not_lt, and_imp]

theorem owesPast_of_suffix {os' : List Operation} (hsuffix : os' <:+ os)
    (h : owesPast mark os = true) : owesPast mark os' = true := by
  induction os with
  | nil =>
    rw [List.suffix_nil.1 hsuffix]
    rfl
  | cons o os ih =>
    rcases List.suffix_cons_iff.1 hsuffix with rfl | hsuffix
    · exact h
    · exact ih hsuffix (owesPast_cons.1 h).2

theorem owesPast_of_length (h : os.length ≤ mark) : owesPast mark os = true := by
  induction os with
  | nil => rfl
  | cons o os ih =>
    rw [List.length_cons] at h
    exact owesPast_cons.2 ⟨fun _ hlong => by omega, ih (by omega)⟩

theorem owesPast_snoc (record : Operation) (h : owesPast mark os = true) :
    owesPast (mark + 1) (os ++ [record]) = true := by
  induction os with
  | nil => simp [owesPast]
  | cons o os ih =>
    rcases owesPast_cons.1 h with ⟨hfront, hrest⟩
    rw [List.cons_append]
    refine owesPast_cons.2 ⟨fun hlive hlong => ?_, ih hrest⟩
    rw [List.length_append, List.length_singleton] at hlong
    exact owesOutput_snoc record (hfront hlive (by omega))

theorem mem_cancelSyncFor_live {state : RequestState} {kind : OperationKind}
    (ho : o ∈ cancelSyncFor state kind os) (hlive : o.isInert = false) : o ∈ os := by
  have hfirst : ∀ {os : List Operation} {o : Operation}, o ∈ discardFirst Operation.isLiveSync os →
      o.isInert = false → o ∈ os := by
    intro os o ho hlive
    induction os with
    | nil => cases ho
    | cons x os ih =>
      unfold discardFirst at ho
      split at ho
      · rcases List.mem_cons.1 ho with rfl | ho
        · simp [Operation.isInert, Operation.discard] at hlive
        · exact List.mem_cons_of_mem _ ho
      · rcases List.mem_cons.1 ho with rfl | ho
        · exact List.mem_cons_self
        · exact List.mem_cons_of_mem _ (ih ho)
  unfold cancelSyncFor cancelLastSync at ho
  split at ho
  · exact List.mem_reverse.1 (hfirst (List.mem_reverse.1 ho) hlive)
  · exact ho

namespace Pipeline

/-! ## The invariant -/

/-- A message after which the server has output to send: a Query, FunctionCall, Sync or Flush that
is not discarded. -/
def prompts (kind : OperationKind) (next : RequestState) : Bool :=
  (endsInReady kind || decide (kind = .flush)) &&
    !(Operation.admitted 0 kind next .forward).discarded

/-- A message that prompts no output is offered only below the mark; or below the limit, and the
server owes output anyway, now and whenever the ledger is still at the mark, not counting a Sync that
the message cancels; or it owes no response itself and the server answers every record that does on
its own. -/
def KeepsProgress (mark : Nat) (e : LedgerEntry) : Prop :=
  ∀ kind next, e.before.Offers e.input kind next → e.before.HasRoom → prompts kind next = false →
    e.before.operations.length < mark ∨
    (0 < mark ∧ e.before.operations.length < e.before.policy.operationLimit ∧
      owesPast (mark - 1)
        (cancelSyncFor e.before.requestState kind e.before.operations) = true) ∨
    ((Operation.admitted 0 kind next .forward).isInert = true ∧
      ∀ o ∈ e.before.operations, o.isInert = false → endsInReady o.kind = true)

instance (mark : Nat) : DecidablePred (KeepsProgress mark) := fun e =>
  inferInstanceAs (Decidable (∀ kind next, e.before.Offers e.input kind next → _ → _ → _ ∨ _ ∨ _))

/-- A ledger within its limit that owes output past the mark, or a ledger all of whose outstanding
requests are answered without a Flush. -/
def Progressing (mark : Nat) (p : Pipeline) : Prop :=
  (p.operations.length ≤ p.policy.operationLimit ∧ owesPast mark p.operations = true) ∨
    ∀ o ∈ p.operations, o.isInert = false → endsInReady o.kind = true

variable {p p' : Pipeline} {message refused : FrontendMessage} {handling : FrontendHandling}

theorem isSent_of_live (hall : p.AllForwarded) {o : Operation} (ho : o ∈ p.operations)
    (hlive : o.isInert = false) : o.isSent = true := by
  have hdiscarded : o.discarded = false := (Operation.isInert_eq_false.1 hlive).2
  simp [Operation.isSent, hall o ho, hdiscarded]

theorem Progressing.owesOutput (hinv : p.Progressing mark) (hwf : p.Wf) (hall : p.AllForwarded)
    (hpast : mark < p.operations.length) : owesOutput p.operations = true := by
  cases hops : p.operations with
  | nil => simp [hops] at hpast
  | cons o os =>
    have hmem : o ∈ p.operations := by simp [hops]
    have hlive := hwf.headLive hops
    rcases hinv with ⟨-, howes⟩ | hends
    · rw [hops] at howes hpast
      exact (owesPast_cons.1 howes).1 hlive (Nat.le_of_lt_succ hpast)
    · exact owesOutput_of_mem List.mem_cons_self (isSent_of_live hall hmem hlive)
        (hends o hmem hlive)

theorem Progressing.of_suffix (hinv : p.Progressing mark) {head : Operation}
    {rest : List Operation} (hops : p.operations = head :: rest) (hsuffix : p'.operations <:+ rest)
    (hpolicy : p'.policy = p.policy) : p'.Progressing mark := by
  have hsuffix' : p'.operations <:+ p.operations := hops ▸ hsuffix.trans (List.suffix_cons _ _)
  rcases hinv with ⟨hle, howes⟩ | hends
  · left
    rw [hpolicy]
    exact ⟨hsuffix'.length_le.trans hle, owesPast_of_suffix hsuffix' howes⟩
  · right
    intro o ho
    exact hends o (hsuffix'.subset ho)

/-! ## Admissions -/

theorem endsInReady_enqueue {message : FrontendVariant} {state : RequestState} {record : Operation}
    (hends : ∀ o ∈ os, o.isInert = false → endsInReady o.kind = true)
    (hrecord : record.isInert = false → endsInReady record.kind = true) :
    ∀ x ∈ enqueue message state record os, x.isInert = false → endsInReady x.kind = true := by
  intro x hx hlive
  cases os with
  | nil =>
    simp only [enqueue] at hx
    split at hx
    · cases hx
    · rw [List.mem_singleton.1 hx] at hlive ⊢
      exact hrecord hlive
  | cons o os =>
    rcases List.mem_cons.1 hx with rfl | hx
    · exact hends o List.mem_cons_self hlive
    · rcases List.mem_append.1 hx with hx | hx
      · exact hends x (List.mem_cons_of_mem _ (mem_cancelSyncFor_live hx hlive)) hlive
      · rw [List.mem_singleton.1 hx] at hlive ⊢
        exact hrecord hlive

/-- What the server owes without the Sync that the message cancels, it still owes afterwards. -/
theorem Wf.owesPast_enqueue (hwf : p.Wf) (message : FrontendVariant) {record : Operation}
    (howes : owesPast mark (cancelSyncFor p.requestState record.kind p.operations) = true) :
    owesPast (mark + 1) (enqueue message p.requestState record p.operations) = true := by
  cases hops : p.operations with
  | nil =>
    refine owesPast_of_length (Nat.le_trans ?_ (Nat.le_add_left 1 mark))
    simpa using length_enqueue_le message p.requestState record []
  | cons o os =>
    rw [hops, hwf.cancelSyncFor_cons hops] at howes
    exact owesPast_snoc record (owesPast_cons.2 (owesPast_cons.1 howes))

theorem owesPast_of_prompts {id : OperationId} {kind : OperationKind} {next : RequestState}
    (hprompts : prompts kind next = true) (hsent : ∀ o ∈ os, o.isInert = false → o.isSent = true) :
    owesPast mark (os ++ [Operation.admitted id kind next .forward]) = true := by
  rw [prompts, Bool.and_eq_true, Bool.or_eq_true, Bool.not_eq_true'] at hprompts
  have hrecord : (Operation.admitted id kind next .forward).isSent = true := by
    have hdiscarded : (Operation.admitted id kind next .forward).discarded = false := hprompts.2
    simp [Operation.isSent, hdiscarded]
    rfl
  induction os with
  | nil =>
    refine owesPast_cons.2 ⟨fun hlive _ => ?_, rfl⟩
    rcases hprompts.1 with hends | hflush
    · exact owesOutput_of_mem List.mem_cons_self hrecord hends
    · have hkind : kind = .flush := by simpa using hflush
      subst hkind
      cases hlive
  | cons o os ih =>
    refine owesPast_cons.2 ⟨fun hlive _ => ?_, ih fun o ho => hsent o (List.mem_cons_of_mem _ ho)⟩
    rcases hprompts.1 with hends | hflush
    · -- A request that is answered on its own is in the queue.
      exact owesOutput_of_mem (by simp) hrecord hends
    · -- A Flush stands behind the front record.
      have hkind : kind = .flush := by simpa using hflush
      subst hkind
      exact owesOutput_flush os (hsent o List.mem_cons_self hlive)
        (Operation.isInert_eq_false.1 hlive).1 hrecord rfl

theorem owesPast_enqueue_of_prompts {message : FrontendVariant} {state : RequestState}
    {id : OperationId} {kind : OperationKind} {next : RequestState}
    (hprompts : prompts kind next = true)
    (hsent : ∀ x ∈ enqueue message state (Operation.admitted id kind next .forward) os,
      x.isInert = false → x.isSent = true) :
    owesPast mark (enqueue message state (Operation.admitted id kind next .forward) os) = true := by
  cases os with
  | nil =>
    simp only [enqueue]
    split
    · rfl
    · rw [← List.nil_append [_]]
      refine owesPast_of_prompts hprompts ?_
      simp
  | cons o os =>
    rw [enqueue, ← List.cons_append] at hsent ⊢
    exact owesPast_of_prompts hprompts fun x hx => hsent x (List.mem_append_left _ hx)

theorem Progressing.of_accepted (hinv : p.Progressing mark) (hwf : p.Wf) (hall : p'.AllForwarded)
    {kind : OperationKind} {next : RequestState} {reply : Reply} (hroom : p.HasRoom)
    (hmark : mark ≤ p.policy.operationLimit)
    (hproject : projectFrontend p.requestState message.variant = .ok (some (kind, next)))
    (hkeeps : KeepsProgress mark ⟨p, .frontend message .forward, reply, p'⟩)
    (hpolicy : p'.policy = p.policy) (hops' : p'.operations = enqueue message.variant p.requestState
      (Operation.admitted p.nextId kind next .forward) p.operations) : p'.Progressing mark := by
  have hlength := length_enqueue_le message.variant p.requestState
    (Operation.admitted p.nextId kind next .forward) p.operations
  rw [Progressing, hpolicy]
  by_cases hprompts : prompts kind next = true
  · have hbelow : p.operations.length ≠ p.policy.operationLimit := by
      intro hfull
      rcases projectFrontend_copy_kind hproject (hroom hfull) with rfl | rfl | rfl <;>
        cases hprompts
    rcases hinv with ⟨hle, -⟩ | hends
    · left
      rw [hops']
      refine ⟨by omega, owesPast_enqueue_of_prompts hprompts fun x hx => ?_⟩
      exact isSent_of_live hall (hops' ▸ hx)
    · right
      rw [hops']
      refine endsInReady_enqueue hends fun hlive => ?_
      -- Of the messages that prompt output, only a Flush leaves a record that owes nothing.
      have hkind : isInertKind kind = false := (Operation.isInert_eq_false.1 hlive).1
      cases kind <;> simp_all [prompts, endsInReady, isInertKind, Operation.admitted]
  · rcases hkeeps kind next ⟨message, .forward, rfl, hproject⟩ hroom (by simpa using hprompts) with
      hfree | ⟨hpos, hfree, howes⟩ | ⟨hinert, hends⟩
    · left
      dsimp only at hfree
      rw [hops']
      exact ⟨by omega, owesPast_of_length (by omega)⟩
    · left
      dsimp only at hfree howes
      rw [hops']
      refine ⟨by omega, ?_⟩
      rw [← Nat.sub_add_cancel hpos]
      exact hwf.owesPast_enqueue message.variant howes
    · right
      rw [hops']
      refine endsInReady_enqueue hends fun hlive => ?_
      have hdead : (Operation.admitted p.nextId kind next .forward).isInert = true := hinert
      simp [hdead] at hlive

/-! ## Runs -/

theorem Progressing.effect {call : Call} {reply : Reply} (hinv : p.Progressing mark) (hwf : p.Wf)
    (hall : p.AllForwarded) (hmark : mark ≤ p.policy.operationLimit)
    (heff : p.Effect call reply p') (hfwd : call.Forwards)
    (hkeeps : KeepsProgress mark ⟨p, call, reply, p'⟩) : p'.Progressing mark := by
  have hall' := hall.effect heff hfwd
  cases heff with
  | refused _ | asynchronous _ _ | deferred _ _ | illegal _ _ => exact hinv
  | @accepted message handling kind next _ hroom hproject _ =>
    have hhandling : handling = .forward := hfwd
    subst hhandling
    exact hinv.of_accepted hwf hall' hroom hmark hproject hkeeps rfl rfl
  | @continued _ _ head rest next _ _ hops _ _ =>
    -- The record in front changes its phase only.
    rcases hinv with ⟨hle, howes⟩ | hends
    · left
      rw [hops] at hle howes
      exact ⟨hle, howes⟩
    · right
      intro o ho hlive
      rcases List.mem_cons.1 ho with rfl | ho
      · exact hends head (by simp [hops]) hlive
      · exact hends o (by simp [hops, ho]) hlive
  | @completed _ _ head rest _ _ _ hops _ _ _ =>
    exact hinv.of_suffix hops (List.dropWhile_suffix _) rfl
  | @failed _ _ head rest _ _ _ hops _ _ _ _ =>
    refine hinv.of_suffix hops ?_ rfl
    have hkept : (discardUntilSync rest).1.dropWhile Operation.isInert <:+ fromSync rest := by
      rw [dropWhile_discardUntilSync]
      exact List.dropWhile_suffix _
    exact hkept.trans (List.dropWhile_suffix _)
  | deferredError _ hops _ _ horigin _ => exact (hall.not_local hops horigin).elim

theorem Run.progressing {policy : PipelinePolicy} {h : List LedgerEntry} (hr : Run policy h p)
    (hfwd : ForwardOnly h) (hmark : mark ≤ policy.operationLimit)
    (hkeeps : ∀ e ∈ h, KeepsProgress mark e) : p.Progressing mark := by
  induction hr with
  | nil =>
    left
    exact ⟨Nat.zero_le _, rfl⟩
  | @snoc h s s' i o hr hs ih =>
    have hfwd' : ForwardOnly h := fun e he => hfwd e (List.mem_append_left _ he)
    have hbefore := ih hfwd' fun e he => hkeeps e (List.mem_append_left _ he)
    have hlast : (⟨s, i, o, s'⟩ : LedgerEntry) ∈ h ++ [⟨s, i, o, s'⟩] := by simp
    exact hbefore.effect (Run.wf hr) (Run.allForwarded hr hfwd') (Run.policy_eq hr ▸ hmark)
      ((Run.wf hr).effect_of_step hs) (hfwd _ hlast) (hkeeps _ hlast)

/-! ## Refused sequences -/

theorem acceptFrontend_length {q : Pipeline} {admission : FrontendAdmission}
    (haccept : p.acceptFrontend message handling = .ok (.ok admission, q)) :
    q.operations.length ≤ p.operations.length + 1 ∧ q.policy = p.policy := by
  unfold acceptFrontend at haccept
  split at haccept
  · cases haccept
  · cases haccept
  · rename_i prepared _
    cases hcommit : p.commitFrontend prepared message handling with
    | error panic => simp [hcommit] at haccept
    | ok committed =>
      simp only [hcommit, Except.ok.injEq, Prod.mk.injEq] at haccept
      rcases haccept with ⟨-, rfl⟩
      unfold commitFrontend at hcommit
      split at hcommit
      · cases hcommit
      · cases hcommit
      · rename_i kind next _
        cases hcommit
        refine ⟨?_, rfl⟩
        -- Whatever becomes inert at the front is dropped.
        calc ((advanceHead message.variant (cancelSyncFor prepared.requestState kind
              p.operations) ++ [_]).dropWhile Operation.isInert).length
            ≤ (advanceHead message.variant (cancelSyncFor prepared.requestState kind
              p.operations) ++ [_]).length := (List.dropWhile_suffix _).length_le
          _ = p.operations.length + 1 := by
              simp [length_advanceHead, length_cancelSyncFor]

theorem acceptFrontend_capacity {q : Pipeline}
    (haccept : p.acceptFrontend message handling = .ok (.error (.capacity refused), q)) :
    ¬p.HasRoom := by
  intro hroom
  have hopen : ¬(p.operations.length = p.policy.operationLimit ∧
      p.requestState ≠ .copyIn ∧ p.requestState ≠ .copyBoth) := by
    rintro ⟨hfull, hin, hboth⟩
    rcases hroom hfull with h | h
    · exact hin h
    · exact hboth h
  unfold acceptFrontend prepareFrontend at haccept
  rw [if_neg hopen] at haccept
  cases hproject : projectFrontend p.requestState message.variant with
  | error panic => simp [hproject] at haccept
  | ok classified =>
    rcases classified with _ | result
    · simp [hproject] at haccept
    · cases hphase : frontendPhase p.requestState (p.operations.head?.map Operation.kind) with
      | error panic => simp [hproject, hphase] at haccept
      | ok phase =>
        simp only [hproject, hphase] at haccept
        split at haccept <;> cases haccept

/-- A sequence is refused for capacity only when the ledger is full or too full for all of it. -/
theorem length_of_refused {messages : List FrontendMessage}
    (hrefused : p.prepareFrontendSequence handling messages = .ok (.error (.capacity refused))) :
    messages ≠ [] ∧
      (p.operations.length = p.policy.operationLimit ∨
        p.policy.operationLimit < p.operations.length + messages.length) := by
  induction messages generalizing p with
  | nil => cases hrefused
  | cons message messages ih =>
    refine ⟨List.cons_ne_nil _ _, ?_⟩
    unfold prepareFrontendSequence at hrefused
    split at hrefused
    · cases haccept : p.acceptFrontend message handling with
      | error panic => simp [haccept] at hrefused
      | ok r =>
        rcases r with ⟨refusal | admission, next⟩
        · simp only [haccept, Except.ok.injEq, Except.error.injEq] at hrefused
          subst hrefused
          exact Or.inl (Classical.not_imp.1 (acceptFrontend_capacity haccept)).1
        · have hrest : next.prepareFrontendSequence handling messages =
              .ok (.error (.capacity refused)) := by
            cases hrest : next.prepareFrontendSequence handling messages with
            | error panic => simp [haccept, hrest] at hrefused
            | ok result =>
              rcases result with refusal | items
              · simpa [haccept, hrest] using hrefused
              · simp [haccept, hrest] at hrefused
          -- The rest of the sequence is refused on a ledger that is at most one record longer.
          rcases acceptFrontend_length haccept with ⟨hlength, hpolicy⟩
          rcases ih hrest with ⟨hne, hfull⟩
          have hpos := List.length_pos_iff.2 hne
          rw [hpolicy] at hfull
          right
          simp only [List.length_cons]
          omega
    · cases hrefused

/-- **Backpressure without deadlock.**  In a forward-only run whose admissions keep progress past a
mark below the limit, let a sequence be refused for capacity that fits an empty ledger and is no
longer than the records above the mark, or meets a full ledger or room for all of it.  Then the server
owes output, and the emptied ledger would not refuse the sequence for capacity. -/
theorem refused_owesOutput {policy : PipelinePolicy} {h : List LedgerEntry} {p : Pipeline}
    (hr : Run policy h p) (hfwd : ForwardOnly h) {mark : Nat} (hmark : mark < policy.operationLimit)
    (hkeeps : ∀ e ∈ h, KeepsProgress mark e)
    {handling : FrontendHandling} {messages : List FrontendMessage} {refused : FrontendMessage}
    (hrefused : p.prepareFrontendSequence handling messages = .ok (.error (.capacity refused)))
    (hfits : messages.length ≤ policy.operationLimit)
    (hwhole : mark + messages.length ≤ policy.operationLimit ∨
      policy.operationLimit ≤ p.operations.length ∨
      p.operations.length + messages.length ≤ policy.operationLimit) :
    owesOutput p.operations = true ∧
      ∀ m, ({ p with operations := [] } : Pipeline).prepareFrontendSequence handling messages ≠
        .ok (.error (.capacity m)) := by
  have hpolicy : p.policy = policy := Run.policy_eq hr
  constructor
  · rcases length_of_refused hrefused with ⟨-, hfull⟩
    apply (Run.progressing hr hfwd hmark.le hkeeps).owesOutput (Run.wf hr)
      (Run.allForwarded hr hfwd)
    rw [hpolicy] at hfull
    omega
  · intro m hagain
    rcases length_of_refused hagain with ⟨-, hfull⟩
    have hpos := policy.operationLimit_pos
    simp only [hpolicy, List.length_nil] at hfull
    omega

/-- A limit of four and a mark of two: behind a Parse and its Flush the records past the mark may be
taken.  Of a Bind with its Flush only the Bind has room, and the Flush before it brings an answer. -/
theorem refused_owesOutput_flush :
    ∃ h p refused, Run (.bounded ⟨4, by decide⟩) h p ∧
      p.prepareFrontendSequence .forward [.bind ⟨[], [], [], [], []⟩, .flush] =
        .ok (.error (.capacity refused)) ∧
      owesOutput p.operations = true := by
  obtain ⟨h, p, hr, hfwd, hkeeps, hrefused⟩ :
      ∃ h p, Run (.bounded ⟨4, by decide⟩) h p ∧ ForwardOnly h ∧ (∀ e ∈ h, KeepsProgress 2 e) ∧
        p.prepareFrontendSequence .forward [.bind ⟨[], [], [], [], []⟩, .flush] =
          .ok (.error (.capacity .flush)) := by
    exact ⟨_, _, .of_exec [.frontend (.parse ⟨[], [], []⟩) .forward, .frontend .flush .forward,
        .frontend (.parse ⟨[], [], []⟩) .forward] rfl, by decide, by decide +kernel, rfl⟩
  exact ⟨h, p, _, hr, hrefused,
    (refused_owesOutput hr hfwd (by decide) hkeeps hrefused (by decide) (Or.inl (by decide))).1⟩

/-- A limit of one, that of `NoPipeline`.  A Parse fills the ledger, its Sync is refused, and the
server owes nothing before the Sync; a Parse followed by a Flush is refused even by an empty
ledger. -/
theorem backpressure_wedges :
    (∃ h p refused, Run .noPipeline h p ∧ ForwardOnly h ∧
      p.prepareFrontendSequence .forward [.sync] = .ok (.error (.capacity refused)) ∧
      owesOutput p.operations = false) ∧
      (∃ refused, (new .noPipeline).prepareFrontendSequence .forward
        [.parse ⟨[], [], []⟩, .flush] = .ok (.error (.capacity refused))) :=
  ⟨⟨_, _, _, .of_exec [.frontend (.parse ⟨[], [], []⟩) .forward] rfl, by decide, rfl, rfl⟩,
    _, rfl⟩

end Pipeline
end PgProto
