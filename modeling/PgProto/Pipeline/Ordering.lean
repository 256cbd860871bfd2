import PgProto.Pipeline.Invariant

/-!
# Ordering — responses leave in request order

Emitted responses belong to the front record.  Over a whole run, with any interleaving of client
messages, server messages and local responses:

* the operations that responses are emitted for never go backwards;
* what an operation has seen and answered is a word of the `backend` grammar;
* an operation that has begun to answer leaves the ledger with its last response and in no other
  way.

`Trail` is the invariant that carries the argument.  It relates the ledger to the run that led to
it: who has been at the front, and which word each record has read.
-/

namespace PgProto
namespace Pipeline

open Backend (RuntimeState transitions respond request)
open Lib

/-! ## What a run says about single operations -/

/-- The response a call emits, with the front record it belongs to. -/
def emission? (e : LedgerEntry) : Option (Operation × BackendMessage) :=
  match e.output, e.before.operations with
  | .backend (.ok (.emit message)), head :: _ =>
    if isAsynchronous message then none else some (head, message)
  | _, _ => none

def emittedId (e : LedgerEntry) : Option OperationId :=
  (emission? e).map fun r => r.1.id

/-- What a call adds to the word of the front record: the response emitted for it, or the accepted
client message that maps from its phase. -/
def signals (e : LedgerEntry) : Backend.Word :=
  match e.before.operations, e.input, e.output with
  | head :: _, .frontend message _, .frontend (.ok _) =>
    if (Backend.projectExternal head.responseState message.variant).isSome then
      [.external message.variant]
    else
      []
  | _ :: _, _, .backend (.ok (.emit message)) =>
    if isAsynchronous message then [] else [.internal message.variant]
  | _, _, _ => []

/-- The word an operation has read in a run. -/
def wordOf (h : List LedgerEntry) (id : OperationId) : Backend.Word :=
  h.flatMap fun e =>
    if (e.before.operations.head?.map Operation.id) = some id then signals e else []

def admissions (h : List LedgerEntry) : Nat :=
  h.countP fun e => e.output.isAdmission

theorem wordOf_append (h h' : List LedgerEntry) (id : OperationId) :
    wordOf (h ++ h') id = wordOf h id ++ wordOf h' id := by
  simp [wordOf]

theorem admissions_append (h h' : List LedgerEntry) :
    admissions (h ++ h') = admissions h + admissions h' := by
  simp [admissions]

variable {h : List LedgerEntry} {id : OperationId} {p p' : Pipeline} {o head : Operation}
  {rest : List Operation} {call : Call} {reply : Reply} {policy : PipelinePolicy} {e : LedgerEntry}

/-- Only the front record reads. -/
theorem wordOf_eq_nil
    (hne : ∀ e ∈ h, ∀ head rest, e.before.operations = head :: rest → head.id ≠ id) :
    wordOf h id = [] := by
  refine List.flatMap_eq_nil_iff.2 ?_
  intro e he
  cases hops : e.before.operations with
  | nil => simp
  | cons head rest => simp [hne e he head rest hops]

/-! ## Identities -/

/-- Identities increase along the queue and stay below the next one. -/
def Ordered (p : Pipeline) : Prop :=
  (p.keys.map Prod.fst ++ [p.nextId]).Pairwise (· < ·)

theorem Ordered.lt_nextId (hord : p.Ordered) (ho : o ∈ p.operations) : o.id < p.nextId := by
  have hmem : o.id ∈ p.keys.map Prod.fst := by
    simpa [keys, Operation.key] using ⟨o, ho, rfl⟩
  exact (List.pairwise_append.1 hord).2.2 _ hmem _ (List.mem_singleton.2 rfl)

theorem Ordered.lt_of_tail (hord : p.Ordered) (hops : p.operations = head :: rest) (ho : o ∈ rest) :
    head.id < o.id := by
  have hpair := (List.pairwise_append.1 hord).1
  simp only [keys, hops, List.map_cons, List.pairwise_cons] at hpair
  refine hpair.1 _ ?_
  simpa [Operation.key] using ⟨o, ho, rfl⟩

theorem Ordered.head_le (hord : p.Ordered) (hops : p.operations = head :: rest)
    (ho : o ∈ p.operations) : head.id ≤ o.id := by
  rw [hops] at ho
  rcases List.mem_cons.1 ho with rfl | ho
  · exact Nat.le_refl _
  · exact Nat.le_of_lt (hord.lt_of_tail hops ho)

theorem Ordered.eq_of_id (hord : p.Ordered) (hops : p.operations = head :: rest)
    (ho : o ∈ p.operations) (hid : o.id = head.id) : o = head := by
  rw [hops] at ho
  rcases List.mem_cons.1 ho with rfl | ho
  · rfl
  · exact absurd hid (Nat.ne_of_gt (hord.lt_of_tail hops ho))

theorem Ordered.kind_of_id (hord : p.Ordered) {x : Operation} (hx : x ∈ p.operations)
    (ho : o ∈ p.operations) (hid : x.id = o.id) : x.kind = o.kind := by
  have hpair := (List.pairwise_append.1 hord).1
  rw [List.pairwise_map, keys, List.pairwise_map] at hpair
  by_contra hne
  have hsymm : Std.Symm fun a b : Operation => a.id ≠ b.id := ⟨fun _ _ => Ne.symm⟩
  have hdistinct : p.operations.Pairwise fun a b => a.id ≠ b.id :=
    hpair.imp fun hlt => Nat.ne_of_lt hlt
  refine hdistinct.forall hx ho ?_ hid
  rintro rfl
  exact hne rfl

theorem ordered_new (policy : PipelinePolicy) : (new policy).Ordered := by
  simp [Ordered, keys, new]

/-- A call keeps the identities ordered while the counter has room. -/
theorem Ordered.effect (hord : p.Ordered) (h : p.Effect call reply p')
    (hroom : reply.isAdmission = true → p.nextId < u64Max) : p'.Ordered := by
  unfold Ordered at hord ⊢
  rcases h.keys_suffix with ⟨-, hnext, hsuffix⟩ | ⟨kind, -, -, -, hadm, hnext, hsuffix⟩
  · rw [hnext]
    exact hord.sublist ((hsuffix.map _).sublist.append_right _)
  · rw [hnext, saturatingSucc_of_lt (hroom hadm)]
    have hlonger : (p.keys.map Prod.fst ++ [p.nextId] ++ [p.nextId + 1]).Pairwise (· < ·) := by
      refine List.pairwise_append.2 ⟨hord, List.pairwise_singleton _ _, ?_⟩
      intro a ha b hb
      rw [List.mem_singleton.1 hb]
      rcases List.mem_append.1 ha with ha | ha
      · have hlt := (List.pairwise_append.1 hord).2.2 a ha p.nextId (List.mem_singleton.2 rfl)
        exact Nat.lt_succ_of_lt hlt
      · rw [List.mem_singleton.1 ha]
        exact Nat.lt_succ_self p.nextId
    have hsub := (hsuffix.map Prod.fst).sublist.append_right [p.nextId + 1]
    simp only [List.map_append, List.map_cons, List.map_nil] at hsub
    exact hlonger.sublist hsub

/-! ## One call, seen from a record -/

attribute [local simp] signals

theorem walk_emit {message : BackendMessage} {next : RuntimeState}
    (hops : p.operations = head :: rest) (hcall : call.response? = some message)
    (hstep : respond head.responseState message.variant = some next) :
    transitions.walk head.responseState (signals ⟨p, call, .backend (.ok (.emit message)), p'⟩) =
      some next := by
  have hsync : isAsynchronous message = false := respond_not_asynchronous hstep
  have hstep' : transitions.stepInternal head.responseState message.variant = some next := hstep
  cases call with
  | frontend _ _ => cases hcall
  | backend _ | emitLocal _ _ => simp [hops, hsync, Table.step, hstep']

theorem Effect.walk_signals (h : p.Effect call reply p') {os : List Operation}
    (hops : p.operations = head :: rest) (hops' : p'.operations = o :: os) (hid : o.id = head.id)
    (hord : p.Ordered) :
    transitions.walk head.responseState (signals ⟨p, call, reply, p'⟩) = some o.responseState := by
  have hrest : ∀ x ∈ rest, x.id ≠ head.id := by
    intro x hx
    exact Nat.ne_of_gt (hord.lt_of_tail hops hx)
  -- Once the front record has been popped no record of the queue has its identity.
  have hpopped : ∀ ys : List Operation, ys.map Operation.strip = rest.map Operation.strip →
      ∀ y ys', ys.dropWhile Operation.isInert = y :: ys' → y.id ≠ head.id := by
    intro ys hstrip y ys' hdrop
    have hy : y ∈ ys := (List.dropWhile_suffix _).subset (hdrop ▸ List.mem_cons_self)
    rcases exists_strip_eq hstrip hy with ⟨x, hx, hxy⟩
    rw [← (Operation.eq_of_strip hxy).1]
    exact hrest x hx
  cases h with
  | refused _ =>
    rw [hops] at hops'
    cases hops'
    simp [hops]
  | illegal _ _ | deferred _ _ =>
    rw [hops] at hops'
    cases hops'
    cases call <;> simp [hops]
  | asynchronous _ hasync =>
    rw [hops] at hops'
    cases hops'
    cases call <;> simp [hops, hasync]
  | @accepted message handling kind next _ _ _ _ =>
    simp only [hops, enqueue] at hops'
    cases hops'
    have hsome := Backend.request_isSome head.responseState message.variant
    cases hstep : request head.responseState message.variant with
    | none =>
      have hnone : (Backend.projectExternal head.responseState message.variant).isSome =
          false := by
        rw [← hsome, hstep]
        rfl
      simp [hops, hnone, Operation.advance, hstep]
    | some next =>
      have hmaps : (Backend.projectExternal head.responseState message.variant).isSome =
          true := by
        rw [← hsome, hstep]
        rfl
      have hstep' : transitions.stepExternal head.responseState message.variant =
          some next := hstep
      simp [hops, hmaps, Operation.advance, hstep, Table.step, hstep']
  | @continued _ message _ _ next hcall _ hops₂ hstep _ =>
    rw [hops] at hops₂
    cases hops₂
    cases hops'
    exact walk_emit hops hcall hstep
  | @completed _ _ _ _ _ _ _ hops₂ _ _ _ =>
    rw [hops] at hops₂
    cases hops₂
    exact absurd hid (hpopped rest rfl o os hops')
  | @failed _ _ _ _ _ _ _ hops₂ _ _ _ _ =>
    rw [hops] at hops₂
    cases hops₂
    exact absurd hid (hpopped _ (discardUntilSync_map_strip rest) o os hops')
  | @deferredError _ _ before x ys _ hops₂ _ _ _ _ =>
    rw [hops] at hops₂
    have heq : o = head := by
      rcases before with _ | ⟨b, bs⟩
      · cases hops₂
        cases hops'
        rfl
      · cases hops₂
        cases hops'
        rfl
    rw [heq]
    simp [hops]

theorem Effect.signals_isSome (h : p.Effect call reply p') (hops : p.operations = head :: rest) :
    (transitions.walk head.responseState (signals ⟨p, call, reply, p'⟩)).isSome := by
  cases h with
  | refused _ => simp [hops]
  | illegal _ _ | deferred _ _ => cases call <;> simp [hops]
  | deferredError _ _ _ _ _ _ => simp [hops]
  | asynchronous _ hasync => cases call <;> simp [hops, hasync]
  | @accepted message _ _ _ _ _ _ _ =>
    cases hmaps : (Backend.projectExternal head.responseState message.variant).isSome with
    | false =>
      simp [hops, hmaps]
    | true =>
      have hstep : (transitions.stepExternal head.responseState message.variant).isSome :=
        (Backend.request_isSome head.responseState message.variant).trans hmaps
      rcases Option.isSome_iff_exists.1 hstep with ⟨next, hnext⟩
      simp [hops, hmaps, Table.step, hnext]
  | continued hcall _ hops₂ hstep _ | completed hcall _ hops₂ hstep _ _
  | failed hcall _ hops₂ hstep _ _ _ =>
    rw [hops] at hops₂
    cases hops₂
    rw [walk_emit hops hcall hstep]
    rfl

theorem Effect.mem_cases (h : p.Effect call reply p') (ho : o ∈ p'.operations) :
    (∃ x ∈ p.operations, x.id = o.id ∧ x.kind = o.kind) ∨ o.id = p.nextId := by
  have hold : o.key ∈ p.keys → ∃ x ∈ p.operations, x.id = o.id ∧ x.kind = o.kind := by
    intro hkey
    rcases List.mem_map.1 hkey with ⟨x, hx, heq⟩
    exact ⟨x, hx, congrArg Prod.fst heq, congrArg Prod.snd heq⟩
  rcases h.keys_suffix with ⟨-, -, hsuffix⟩ | ⟨kind, -, -, -, -, -, hsuffix⟩
  · exact Or.inl (hold (hsuffix.subset (mem_keys ho)))
  · rcases List.mem_append.1 (hsuffix.subset (mem_keys ho)) with hkey | hkey
    · exact Or.inl (hold hkey)
    · exact Or.inr (congrArg Prod.fst (List.mem_singleton.1 hkey))

theorem Wf.initial_of_effect (hwf : p.Wf) (h : p.Effect call reply p') (ho : o ∈ p'.operations)
    (hne : ∀ head rest, p.operations = head :: rest → o.id ≠ head.id) :
    o.responseState = initialResponseState o.kind := by
  -- `Wf.waiting` says it of the queue before the call, and updates behind the front keep the phase.
  have hkeep : o ∈ p.operations → o.responseState = initialResponseState o.kind := by
    intro hmem
    cases hops : p.operations with
    | nil => simp [hops] at hmem
    | cons head rest =>
      rw [hops] at hmem
      rcases List.mem_cons.1 hmem with rfl | hmem
      · exact absurd rfl (hne _ _ hops)
      · exact hwf.waiting o (by simpa [hops] using hmem)
  cases h with
  | refused _ | asynchronous _ _ | deferred _ _ | illegal _ _ => exact hkeep ho
  | @accepted message handling kind next _ _ _ _ =>
    cases hops : p.operations with
    | nil =>
      simp only [hops, enqueue] at ho
      split at ho
      · cases ho
      · rw [List.mem_singleton.1 ho]
        rfl
    | cons head rest =>
      simp only [hops, enqueue] at ho
      rcases List.mem_cons.1 ho with rfl | ho
      · exact (hne head rest hops rfl).elim
      · rcases List.mem_append.1 ho with ho | ho
        · exact hwf.waiting_of_strip hops (cancelSyncFor_map_strip _ _ _) ho
        · rw [List.mem_singleton.1 ho]
          rfl
  | @continued _ _ head rest _ _ _ hops _ _ =>
    rcases List.mem_cons.1 ho with rfl | ho
    · exact (hne head rest hops rfl).elim
    · exact hwf.waiting o (by simpa [hops] using ho)
  | @completed _ _ head rest _ _ _ hops _ _ _ =>
    exact hwf.waiting_of_strip hops rfl ((List.dropWhile_suffix _).subset ho)
  | @failed _ _ head rest _ _ _ hops _ _ _ _ =>
    exact hwf.waiting_of_strip hops (discardUntilSync_map_strip rest)
      ((List.dropWhile_suffix _).subset ho)
  | @deferredError _ _ before x rest _ hops _ _ _ _ =>
    rcases before with _ | ⟨b, bs⟩
    · rcases List.mem_cons.1 ho with rfl | ho
      · exact absurd rfl (hne _ _ hops)
      · exact hwf.waiting_of_strip hops (discardUntilSync_map_strip rest) ho
    · rcases List.mem_cons.1 ho with rfl | ho
      · exact absurd rfl (hne _ _ hops)
      · refine hwf.waiting_of_strip hops ?_ ho
        simp [discardUntilSync_map_strip]

/-! ## The invariant of a run -/

/-- The ledger and the run that led to it. -/
structure Trail (policy : PipelinePolicy) (h : List LedgerEntry) (p : Pipeline) : Prop where
  wf : p.Wf
  ordered : p.Ordered
  counted : p.nextId = admissions h
  /-- The front never moves backwards. -/
  fronts : ∀ e ∈ h, ∀ head rest, e.before.operations = head :: rest →
    head.id < p.nextId ∧ ∀ o ∈ p.operations, head.id ≤ o.id
  /-- An identity names one operation for the whole run. -/
  named : ∀ s ∈ History.States (new policy) h, ∀ o ∈ s.operations,
    o.id < p.nextId ∧ ∀ x ∈ p.operations, x.id = o.id → x.kind = o.kind
  /-- The phase of a record is the end of the word it has read. -/
  words : ∀ o ∈ p.operations,
    transitions.walk (initialResponseState o.kind) (wordOf h o.id) = some o.responseState
  paths : ∀ s ∈ History.States (new policy) h, ∀ o ∈ s.operations,
    (transitions.walk (initialResponseState o.kind) (wordOf h o.id)).isSome

theorem trail_new (policy : PipelinePolicy) : Trail policy [] (new policy) where
  wf := wf_new policy
  ordered := ordered_new policy
  counted := rfl
  fronts := by
    intro e he
    cases he
  named := by
    intro s hs o ho
    rw [List.mem_singleton.1 hs] at ho
    cases ho
  words := by
    intro o ho
    cases ho
  paths := by
    intro s hs o ho
    rw [List.mem_singleton.1 hs] at ho
    cases ho

section Step

variable {policy : PipelinePolicy} {h : List LedgerEntry} {p p' : Pipeline} {call : Call}
  {reply : Reply}

theorem Trail.nextId_le (ht : Trail policy h p) (he : p.Effect call reply p')
    (hroom : reply.isAdmission = true → p.nextId < u64Max) :
    p'.nextId = admissions (h ++ [⟨p, call, reply, p'⟩]) ∧ p.nextId ≤ p'.nextId := by
  rw [admissions_append, ← ht.counted]
  rcases he.keys_suffix with ⟨hadm, hnext, -⟩ | ⟨kind, -, -, -, hadm, hnext, -⟩
  · simp [admissions, hadm, hnext]
  · simp [admissions, hadm, hnext, saturatingSucc_of_lt (hroom hadm)]

variable {o : Operation}

theorem Trail.front_le (ht : Trail policy h p) (he : p.Effect call reply p') {head : Operation}
    {rest : List Operation} (hops : p.operations = head :: rest) (ho : o ∈ p'.operations) :
    head.id ≤ o.id := by
  rcases he.mem_cases ho with ⟨x, hx, hid, -⟩ | hid
  · rw [← hid]
    exact ht.ordered.head_le hops hx
  · rw [hid]
    exact Nat.le_of_lt (ht.ordered.lt_nextId (by simp [hops]))

theorem Trail.wordOf_waiting (ht : Trail policy h p) (he : p.Effect call reply p')
    (ho : o ∈ p'.operations) (hne : ∀ head rest, p.operations = head :: rest → o.id ≠ head.id) :
    wordOf h o.id = [] := by
  refine wordOf_eq_nil ?_
  intro e hmem head rest hops heq
  rcases ht.fronts e hmem head rest hops with ⟨hlt, hle⟩
  rcases he.mem_cases ho with ⟨x, hx, hid, -⟩ | hid
  · -- `x` would be the front record: it is at least the current front and at most `head`.
    cases hcur : p.operations with
    | nil => simp [hcur] at hx
    | cons front os =>
      have hfront : head.id ≤ front.id := hle front (by simp [hcur])
      have hxfront : front.id ≤ x.id := ht.ordered.head_le hcur hx
      refine hne front os hcur (Nat.le_antisymm ?_ ?_)
      · rw [← heq]
        exact hfront
      · rw [← hid]
        exact hxfront
  · rw [heq, hid] at hlt
    exact Nat.lt_irrefl _ hlt

theorem wordOf_snoc_front {head : Operation} {rest : List Operation}
    (hops : p.operations = head :: rest) :
    wordOf (h ++ [⟨p, call, reply, p'⟩]) head.id =
      wordOf h head.id ++ signals ⟨p, call, reply, p'⟩ := by
  simp [wordOf, hops]

theorem wordOf_snoc_other {id : OperationId}
    (hne : ∀ head rest, p.operations = head :: rest → id ≠ head.id) :
    wordOf (h ++ [⟨p, call, reply, p'⟩]) id = wordOf h id := by
  rw [wordOf_append]
  have hnil : wordOf [⟨p, call, reply, p'⟩] id = [] := by
    refine wordOf_eq_nil ?_
    intro e he head rest hops
    rw [List.mem_singleton.1 he] at hops
    exact (hne head rest hops).symm
  rw [hnil, List.append_nil]

theorem Trail.words_step (ht : Trail policy h p) (he : p.Effect call reply p') (hord' : p'.Ordered)
    (ho : o ∈ p'.operations) :
    transitions.walk (initialResponseState o.kind) (wordOf (h ++ [⟨p, call, reply, p'⟩]) o.id) =
      some o.responseState := by
  by_cases hfront : ∃ head rest, p.operations = head :: rest ∧ o.id = head.id
  · rcases hfront with ⟨head, rest, hops, hid⟩
    -- The record was and is at the front.
    have hkind : o.kind = head.kind := by
      rcases he.mem_cases ho with ⟨x, hx, hxid, hxkind⟩ | hnew
      · have hxhead : x = head := ht.ordered.eq_of_id hops hx (hxid.trans hid)
        rw [← hxkind, hxhead]
      · have hlt : head.id < p.nextId := ht.ordered.lt_nextId (by simp [hops])
        rw [← hid, hnew] at hlt
        exact absurd hlt (Nat.lt_irrefl _)
    cases hops' : p'.operations with
    | nil => simp [hops'] at ho
    | cons first others =>
      have hfirst : o = first := by
        have hle : head.id ≤ first.id := ht.front_le he hops (by simp [hops'])
        rw [← hid] at hle
        exact hord'.eq_of_id hops' ho (Nat.le_antisymm hle (hord'.head_le hops' ho))
      subst hfirst
      have hread := ht.words head (by simp [hops])
      rw [hid, wordOf_snoc_front hops, Table.walk_append, hkind, hread]
      exact he.walk_signals hops hops' hid ht.ordered
  · have hne : ∀ head rest, p.operations = head :: rest → o.id ≠ head.id := by
      intro head rest hops hid
      exact hfront ⟨head, rest, hops, hid⟩
    rw [wordOf_snoc_other hne, ht.wordOf_waiting he ho hne, ht.wf.initial_of_effect he ho hne]
    rfl

theorem Trail.paths_step (ht : Trail policy h p) (he : p.Effect call reply p') {s : Pipeline}
    (hs : s ∈ History.States (new policy) h) (ho : o ∈ s.operations) :
    (transitions.walk (initialResponseState o.kind)
      (wordOf (h ++ [⟨p, call, reply, p'⟩]) o.id)).isSome := by
  by_cases hfront : ∃ head rest, p.operations = head :: rest ∧ o.id = head.id
  · rcases hfront with ⟨head, rest, hops, hid⟩
    have hmem : head ∈ p.operations := by simp [hops]
    have hkind : head.kind = o.kind := (ht.named s hs o ho).2 head hmem hid.symm
    rw [hid, wordOf_snoc_front hops, Table.walk_append, ← hkind, ht.words head hmem]
    exact he.signals_isSome hops
  · have hne : ∀ head rest, p.operations = head :: rest → o.id ≠ head.id := by
      intro head rest hops hid
      exact hfront ⟨head, rest, hops, hid⟩
    rw [wordOf_snoc_other hne]
    exact ht.paths s hs o ho

/-- One call extends the trail. -/
theorem Trail.step (ht : Trail policy h p) (hstep : Step p call reply p')
    (hroom : reply.isAdmission = true → p.nextId < u64Max) :
    Trail policy (h ++ [⟨p, call, reply, p'⟩]) p' := by
  have he := ht.wf.effect_of_step hstep
  have hord' : p'.Ordered := ht.ordered.effect he hroom
  rcases ht.nextId_le he hroom with ⟨hcount, hle⟩
  -- A record seen before the call, compared with one of the new queue.
  have hold : ∀ s ∈ History.States (new policy) h, ∀ o ∈ s.operations,
      o.id < p'.nextId ∧ ∀ x ∈ p'.operations, x.id = o.id → x.kind = o.kind := by
    intro s hs o ho
    rcases ht.named s hs o ho with ⟨hlt, hkind⟩
    refine ⟨Nat.lt_of_lt_of_le hlt hle, ?_⟩
    intro x hx hid
    rcases he.mem_cases hx with ⟨y, hy, hyid, hykind⟩ | hnew
    · rw [← hykind]
      exact hkind y hy (hyid.trans hid)
    · rw [← hid, hnew] at hlt
      exact absurd hlt (Nat.lt_irrefl _)
  have hstates : ∀ s, s ∈ History.States (new policy) (h ++ [⟨p, call, reply, p'⟩]) →
      s ∈ History.States (new policy) h ∨ s = p' := by
    intro s hs
    simpa [History.States, or_assoc] using hs
  refine ⟨ht.wf.effect he, hord', hcount, ?_, ?_, fun o ho => ht.words_step he hord' ho, ?_⟩
  · intro e hmem head rest hops
    rcases List.mem_append.1 hmem with hmem | hmem
    · rcases ht.fronts e hmem head rest hops with ⟨hlt, hfront⟩
      refine ⟨Nat.lt_of_lt_of_le hlt hle, ?_⟩
      intro o ho
      rcases he.mem_cases ho with ⟨x, hx, hid, -⟩ | hnew
      · rw [← hid]
        exact hfront x hx
      · rw [hnew]
        exact Nat.le_of_lt hlt
    · rw [List.mem_singleton.1 hmem] at hops
      have hops' : p.operations = head :: rest := hops
      have hlt : head.id < p.nextId := ht.ordered.lt_nextId (by simp [hops'])
      exact ⟨Nat.lt_of_lt_of_le hlt hle, fun o ho => ht.front_le he hops' ho⟩
  · intro s hs o ho
    rcases hstates s hs with hs | rfl
    · exact hold s hs o ho
    · refine ⟨hord'.lt_nextId ho, ?_⟩
      intro x hx hid
      exact hord'.kind_of_id hx ho hid
  · intro s hs o ho
    rcases hstates s hs with hs | rfl
    · exact ht.paths_step he hs ho
    · rw [ht.words_step he hord' ho]
      rfl

end Step

/-- Every run with fewer than 2^64 accepted messages leaves a trail. -/
theorem Run.trail (hr : Run policy h p) (hcount : admissions h < 2 ^ 64) : Trail policy h p := by
  induction hr with
  | nil => exact trail_new policy
  | @snoc h s s' i o hr hs ih =>
    rw [admissions_append] at hcount
    have ht := ih (by omega)
    refine ht.step hs ?_
    intro hadm
    have hone : admissions [⟨s, i, o, s'⟩] = 1 := by simp [admissions, hadm]
    rw [ht.counted, u64Max]
    omega

/-! ## Leaving the ledger -/

theorem emission?_eq_some {message : BackendMessage} (h : emission? e = some (o, message)) :
    ∃ rest, e.before.operations = o :: rest ∧ e.output = .backend (.ok (.emit message)) ∧
      isAsynchronous message = false := by
  unfold emission? at h
  split at h
  · rename_i hout hops
    split at h
    · cases h
    · rename_i hasync
      cases h
      exact ⟨_, hops, hout, by simpa using hasync⟩
  · cases h

theorem emittedId_front (h : emittedId e = some id) :
    ∃ head rest, e.before.operations = head :: rest ∧ head.id = id := by
  rcases Option.map_eq_some_iff.1 h with ⟨⟨head, message⟩, hemit, hid⟩
  rcases emission?_eq_some hemit with ⟨rest, hops, -, -⟩
  exact ⟨head, rest, hops, hid⟩

/-- The front record leaves with its last response and in no other way. -/
theorem Effect.front_leaves (h : p.Effect call reply p') (hops : p.operations = head :: rest)
    (hgone : ∀ o ∈ p'.operations, o.id ≠ head.id) :
    ∃ message, emission? ⟨p, call, reply, p'⟩ = some (head, message) ∧
      responseIsTerminal head.kind message.variant = true := by
  have hstays : head ∉ p'.operations := by
    intro hmem
    exact hgone head hmem rfl
  cases h with
  | refused _ | asynchronous _ _ | deferred _ _ | illegal _ _ =>
    exact absurd (by simp [hops]) hstays
  | @accepted message _ _ _ _ _ _ _ =>
    exact absurd rfl (hgone (head.advance message.variant) (by simp [hops, enqueue]))
  | @continued _ _ _ _ next _ _ hops₂ _ _ =>
    rw [hops] at hops₂
    cases hops₂
    exact absurd rfl (hgone { head with responseState := next } (by simp))
  | @completed _ message _ _ _ _ _ hops₂ hstep hlast _
  | @failed _ message _ _ _ _ _ hops₂ hstep hlast _ _ =>
    rw [hops] at hops₂
    cases hops₂
    have hsync : isAsynchronous message = false := respond_not_asynchronous hstep
    exact ⟨message, by simp [emission?, hops, hsync], hlast⟩
  | @deferredError _ _ before o _ _ hops₂ _ _ _ _ =>
    rw [hops] at hops₂
    rcases before with _ | ⟨b, bs⟩
    · cases hops₂
      exact absurd (by simp) hstays
    · cases hops₂
      exact absurd (by simp) hstays

/-- Identities of departed operations stay behind the queue. -/
def Past (id : OperationId) (p : Pipeline) : Prop :=
  id < p.nextId ∧ ∀ o ∈ p.operations, id < o.id

theorem Past.effect (hpast : p.Past id) (h : p.Effect call reply p')
    (hroom : reply.isAdmission = true → p.nextId < u64Max) : p'.Past id := by
  rcases hpast with ⟨hlt, hops⟩
  refine ⟨?_, ?_⟩
  · rcases h.keys_suffix with ⟨-, hnext, -⟩ | ⟨kind, -, -, -, hadm, hnext, -⟩
    · rw [hnext]
      exact hlt
    · rw [hnext, saturatingSucc_of_lt (hroom hadm)]
      exact Nat.lt_succ_of_lt hlt
  · intro o ho
    rcases h.mem_cases ho with ⟨x, hx, hid, -⟩ | hnew
    · rw [← hid]
      exact hops x hx
    · rw [hnew]
      exact hlt

theorem Run.past_of_left {h₂ : List LedgerEntry} {q : Pipeline} (hr : Run policy h p)
    (hpast : p.Past id) (hr₂ : Run policy (h ++ h₂) q) (hcount : admissions (h ++ h₂) < 2 ^ 64) :
    q.Past id ∧ ∀ x ∈ h₂, emittedId x ≠ some id := by
  induction h₂ using List.reverseRecOn generalizing q with
  | nil =>
    have hq : q = p := by
      rw [List.append_nil] at hr₂
      exact hr₂.final_eq hr
    rw [hq]
    exact ⟨hpast, by simp⟩
  | append_singleton h₂ x ih =>
    rw [← List.append_assoc] at hr₂ hcount
    rcases hr₂.snoc_inv with ⟨hbefore, hstep, rfl⟩
    have hcount' := hcount
    rw [admissions_append] at hcount'
    rcases ih hbefore (by omega) with ⟨hpast', hquiet⟩
    have ht := Run.trail hbefore (by omega)
    have hroom : x.output.isAdmission = true → x.before.nextId < u64Max := by
      intro hadm
      have hone : admissions [x] = 1 := by simp [admissions, hadm]
      rw [ht.counted, u64Max]
      omega
    refine ⟨hpast'.effect (ht.wf.effect_of_step hstep) hroom, ?_⟩
    intro y hy
    rcases List.mem_append.1 hy with hy | hy
    · exact hquiet y hy
    · rw [List.mem_singleton.1 hy]
      intro hemit
      rcases emittedId_front hemit with ⟨head, rest, hops, hid⟩
      have hlt : id < head.id := hpast'.2 head (by simp [hops])
      rw [hid] at hlt
      exact Nat.lt_irrefl _ hlt

theorem Trail.front_of_emitted (ht : Trail policy h e.before) (ho : o ∈ e.before.operations)
    (hemitted : ∃ x ∈ h ++ [e], emittedId x = some o.id) :
    ∃ rest, e.before.operations = o :: rest := by
  rcases hemitted with ⟨x, hx, hemit⟩
  rcases emittedId_front hemit with ⟨head, rest, hops, hid⟩
  cases hcur : e.before.operations with
  | nil => simp [hcur] at ho
  | cons front others =>
    have hle : o.id ≤ front.id := by
      rcases List.mem_append.1 hx with hx | hx
      · rw [← hid]
        exact (ht.fronts x hx head rest hops).2 front (by simp [hcur])
      · rw [List.mem_singleton.1 hx, hcur] at hops
        cases hops
        rw [hid]
    have heq : o = front :=
      ht.ordered.eq_of_id hcur ho (Nat.le_antisymm hle (ht.ordered.head_le hcur ho))
    exact ⟨others, by rw [heq]⟩

theorem Run.emitted_sorted (hr : Run policy h p) (hcount : admissions h < 2 ^ 64) :
    (h.filterMap emittedId).Pairwise (· ≤ ·) := by
  induction hr with
  | nil => exact List.Pairwise.nil
  | @snoc h s s' i o hr hs ih =>
    rw [admissions_append] at hcount
    have hsorted := ih (by omega)
    have ht := Run.trail hr (by omega)
    rw [List.filterMap_append]
    refine List.pairwise_append.2 ⟨hsorted, ?_, ?_⟩
    · cases hid : emittedId ⟨s, i, o, s'⟩ <;> simp [hid]
    · intro a ha b hb
      rcases List.mem_filterMap.1 ha with ⟨x, hx, hxa⟩
      rcases List.mem_filterMap.1 hb with ⟨y, hy, hyb⟩
      rw [List.mem_singleton.1 hy] at hyb
      rcases emittedId_front hxa with ⟨head, rest, hops, rfl⟩
      rcases emittedId_front hyb with ⟨head', rest', hops', rfl⟩
      have hops'' : s.operations = head' :: rest' := hops'
      exact (ht.fronts x hx head rest hops).2 head' (by simp [hops''])

/-! ## Response ordering -/

/-- Response ordering and no half-answered drop, for every run with fewer than 2^64 accepted
frontend messages: emissions go to operations in increasing order; the word of every operation is a
path of the grammar from its first phase; an operation that has begun to answer leaves at its last
response and is not answered again. -/
theorem response_ordering {policy : PipelinePolicy} {h : List LedgerEntry} {p : Pipeline}
    (hr : Run policy h p) (hcount : admissions h < 2 ^ 64) :
    (h.filterMap emittedId).Pairwise (· ≤ ·) ∧
    (∀ s ∈ History.States (new policy) h, ∀ o ∈ s.operations,
      (transitions.walk (initialResponseState o.kind) (wordOf h o.id)).isSome) ∧
    (∀ h₁ e h₂, h = h₁ ++ e :: h₂ → ∀ o ∈ e.before.operations,
      (∃ x ∈ h₁ ++ [e], emittedId x = some o.id) → (∀ x ∈ e.after.operations, x.id ≠ o.id) →
        (∃ message, emission? e = some (o, message) ∧
          responseIsTerminal o.kind message.variant = true) ∧
        ∀ x ∈ h₂, emittedId x ≠ some o.id) := by
  refine ⟨Run.emitted_sorted hr hcount, (Run.trail hr hcount).paths, ?_⟩
  rintro h₁ e h₂ rfl o ho hemitted hgone
  have hsplit : h₁ ++ e :: h₂ = (h₁ ++ [e]) ++ h₂ := by simp
  rcases hr.split with ⟨hbefore, hstep, -⟩
  have hm : Run policy (h₁ ++ [e]) e.after := hbefore.snoc hstep
  rw [hsplit] at hr hcount
  rw [admissions_append, admissions_append] at hcount
  have ht := Run.trail hbefore (by omega)
  have ht' := Run.trail hm (by rw [admissions_append]; omega)
  have heff := ht.wf.effect_of_step hstep
  rcases ht.front_of_emitted ho hemitted with ⟨rest, hops⟩
  refine ⟨heff.front_leaves hops hgone, ?_⟩
  -- Everything left in the queue comes after the departed operation.
  have hpast : e.after.Past o.id := by
    refine ⟨(ht'.fronts e (by simp) o rest hops).1, ?_⟩
    intro x hx
    exact Nat.lt_of_le_of_ne (ht.front_le heff hops hx) (Ne.symm (hgone x hx))
  exact (Run.past_of_left hm hpast hr (by rw [admissions_append, admissions_append]; omega)).2

/-- A pipelined Parse and Bind answered in order, the Bind with an error. -/
theorem response_ordering_parse_bind :
    ∃ h p, Run (.bounded ⟨4, by decide⟩) h p ∧ admissions h < 2 ^ 64 ∧
      (h.filterMap emittedId).Pairwise (· ≤ ·) ∧ h.filterMap emittedId = [0, 1] := by
  obtain ⟨h, p, hr, hcount, hids⟩ : ∃ h p, Run (.bounded ⟨4, by decide⟩) h p ∧
      admissions h < 2 ^ 64 ∧ h.filterMap emittedId = [0, 1] := by
    exact ⟨_, _, .of_exec [.frontend (.parse ⟨[], [], []⟩) .forward,
        .frontend (.bind ⟨[], [], [], [], []⟩) .forward, .backend .parseComplete,
        .backend (.errorResponse ⟨[]⟩)] rfl, by decide, by decide⟩
  exact ⟨h, p, hr, hcount, (response_ordering hr hcount).1, hids⟩

end Pipeline
end PgProto
