import PgProto.Pipeline.Recovery

/-!
# LocalRecords — local operations that await their responses

A local operation leaves the ledger with its last response, or because the ledger stops waiting for
it: an error in the extended protocol discards what stands in front of the next Sync, and the end of
COPY IN cancels a Sync.

* `owed` — the local records the ledger waits for, in order;
* `Pipeline.struck` — the records a call discards, read off the ledger before it;
* `Pipeline.Wf.owed_effect` — a call that does not strike or complete them keeps them all, in order.
-/

namespace PgProto

open Lib

/-! ## Records that wait -/

/-- A local record the ledger waits for. -/
def Operation.isOwed (o : Operation) : Bool :=
  decide (o.origin = .local) && !o.isInert

/-- Identities and kinds of the local records the ledger waits for, in order. -/
def owed (os : List Operation) : List (OperationId × OperationKind) :=
  (os.filter Operation.isOwed).map Operation.key

@[simp] theorem owed_nil : owed [] = [] := rfl

@[simp] theorem owed_append (os os' : List Operation) : owed (os ++ os') = owed os ++ owed os' := by
  simp [owed]

theorem owed_cons (o : Operation) (os : List Operation) :
    owed (o :: os) = (if o.isOwed then [o.key] else []) ++ owed os := by
  by_cases ho : o.isOwed
  · simp [owed, ho]
  · simp [owed, ho]

theorem owed_cons_congr {o o' : Operation} (os : List Operation) (howed : o'.isOwed = o.isOwed)
    (hkey : o'.key = o.key) : owed (o' :: os) = owed (o :: os) := by
  simp [owed_cons, howed, hkey]

theorem owed_dropWhile (os : List Operation) : owed (os.dropWhile Operation.isInert) = owed os := by
  induction os with
  | nil => rfl
  | cons o os ih =>
    by_cases ho : o.isInert
    · simp [ho, ih, owed_cons, Operation.isOwed]
    · simp [ho]

theorem owed_discard (o : Operation) (os : List Operation) : owed (o.discard :: os) = owed os := by
  simp [owed_cons, Operation.isOwed, Operation.isInert, Operation.discard]

theorem owed_map_discard (os : List Operation) : owed (os.map Operation.discard) = [] := by
  induction os with
  | nil => rfl
  | cons o os ih => rw [List.map_cons, owed_discard, ih]

theorem owed_discardUntilSync (os : List Operation) :
    owed (discardUntilSync os).1 = owed (fromSync os) := by
  rw [discardUntilSync_eq]
  simp [owed_map_discard]

theorem exists_of_mem_owed {os : List Operation} {key : OperationId × OperationKind}
    (h : key ∈ owed os) : ∃ o ∈ os, o.id = key.1 := by
  rcases List.mem_map.1 h with ⟨o, ho, rfl⟩
  exact ⟨o, (List.mem_filter.1 ho).1, rfl⟩

variable {ks : List (OperationId × OperationKind)}

/-- Keys that avoid a segment of the queue are found outside of it. -/
theorem sublist_owed_of_avoids {before segment after : List Operation}
    (hks : ks.Sublist (owed (before ++ (segment ++ after))))
    (havoids : ∀ k ∈ ks, ∀ o ∈ segment, o.id ≠ k.1) : ks.Sublist (owed before ++ owed after) := by
  simp only [owed_append] at hks
  rcases List.sublist_append_iff.1 hks with ⟨ks₁, ks', rfl, hks₁, hks'⟩
  rcases List.sublist_append_iff.1 hks' with ⟨ks₂, ks₃, rfl, hks₂, hks₃⟩
  have hnil : ks₂ = [] := by
    refine List.eq_nil_iff_forall_not_mem.2 ?_
    intro k hk
    rcases exists_of_mem_owed (hks₂.subset hk) with ⟨o, ho, hid⟩
    exact havoids k (by simp [hk]) o ho hid
  subst hnil
  exact hks₁.append hks₃

/-! ## Records a call discards -/

/-- The record the end of COPY IN cancels. -/
def newestSync? (os : List Operation) : Option Operation :=
  os.reverse.find? Operation.isLiveSync

theorem discardFirst_cases (p : Operation → Bool) (os : List Operation) :
    discardFirst p os = os ∨
      ∃ a o b, os.find? p = some o ∧ os = a ++ o :: b ∧ discardFirst p os = a ++ o.discard :: b := by
  induction os with
  | nil => exact Or.inl rfl
  | cons x xs ih =>
    by_cases hx : p x
    · exact Or.inr ⟨[], x, xs, by simp [hx], rfl, by simp [discardFirst, hx]⟩
    · rcases ih with heq | ⟨a, o, b, hfind, hsplit, hdiscard⟩
      · exact Or.inl (by simp [discardFirst, hx, heq])
      · exact Or.inr ⟨x :: a, o, b, by simp [hx, hfind], by simp [hsplit],
          by simp [discardFirst, hx, hdiscard]⟩

theorem cancelLastSync_cases (os : List Operation) :
    cancelLastSync os = os ∨
      ∃ a o b, newestSync? os = some o ∧ os = a ++ o :: b ∧
        cancelLastSync os = a ++ o.discard :: b := by
  rcases discardFirst_cases Operation.isLiveSync os.reverse with heq | ⟨a, o, b, hfind, hsplit, heq⟩
  · exact Or.inl (by simp [cancelLastSync, heq])
  · refine Or.inr ⟨b.reverse, o, a.reverse, hfind, ?_, by simp [cancelLastSync, heq]⟩
    calc os = os.reverse.reverse := (List.reverse_reverse os).symm
      _ = b.reverse ++ o :: a.reverse := by simp [hsplit]

namespace Pipeline

/-- The records a call discards, if it is accepted: an ErrorResponse for an operation of the extended
protocol discards those behind it up to the first Sync, whether the operation is at the front or a
local one that is not; CopyDone and CopyFail cancel the newest Sync in COPY IN. -/
def struck (p : Pipeline) : Call → List Operation
  | .frontend message _ =>
    if p.requestState = .copyIn ∧
        (message.variant = .copyDone ∨ message.variant = .copyFail) then
      (newestSync? p.operations).toList
    else
      []
  | .backend message =>
    match p.operations with
    | head :: rest =>
      if message.variant = .errorResponse ∧ head.origin = .forwarded ∧
          isExtendedKind head.kind = true ∧
          responseIsTerminal head.kind message.variant = true then
        beforeSync rest
      else
        []
    | [] => []
  | .emitLocal id message =>
    match p.operations.dropWhile fun o => decide (o.id ≠ id) with
    | o :: rest =>
      if message.variant = .errorResponse ∧ o.origin = .local ∧
          isExtendedKind o.kind = true then
        beforeSync rest
      else
        []
    | [] => []

variable {p : Pipeline}

theorem struck_failed {call : Call} {message : BackendMessage} {head : Operation}
    {rest : List Operation} (hcall : call.response? = some message) (haddr : call.Addresses head)
    (hops : p.operations = head :: rest) (herror : message.variant = .errorResponse)
    (hlast : responseIsTerminal head.kind message.variant = true)
    (hextended : isExtendedKind head.kind = true) : p.struck call = beforeSync rest := by
  cases call with
  | frontend _ _ => cases hcall
  | backend m =>
    cases hcall
    have horigin : head.origin = .forwarded := haddr
    simp [struck, hops, herror, horigin, hextended, herror ▸ hlast]
  | emitLocal id m =>
    cases hcall
    have hlocal : head.origin = .local ∧ head.id = id := haddr
    simp [struck, hops, herror, hlocal, hextended]

theorem struck_deferred {id : OperationId} {message : BackendMessage} {before rest : List Operation}
    {o : Operation} (hops : p.operations = before ++ o :: rest) (hbefore : ∀ x ∈ before, x.id ≠ id)
    (hid : o.id = id) (horigin : o.origin = .local) (herror : message.variant = .errorResponse)
    (hextended : isExtendedKind o.kind = true) :
    p.struck (.emitLocal id message) = beforeSync rest := by
  have hdrop : p.operations.dropWhile (fun x => decide (x.id ≠ id)) = o :: rest := by
    rw [hops, List.dropWhile_append_of_pos (by simpa using hbefore)]
    simp [hid]
  simp only [struck, hdrop]
  simp [herror, horigin, hextended]

/-- The waiting records after a client message: the record it admits is the last of them. -/
theorem Wf.owed_enqueue (hwf : p.Wf) (message : FrontendVariant) (record : Operation) :
    owed (enqueue message p.requestState record p.operations) =
      owed (cancelSyncFor p.requestState record.kind p.operations) ++ owed [record] := by
  cases hops : p.operations with
  | nil =>
    have hcancel : cancelSyncFor p.requestState record.kind [] = [] := by
      simp [cancelSyncFor, cancelLastSync, discardFirst]
    by_cases hinert : record.isInert
    · simp [enqueue, hinert, hcancel, owed_cons, Operation.isOwed]
    · simp [enqueue, hinert, hcancel]
  | cons o os =>
    rw [hwf.cancelSyncFor_cons hops]
    have hfront : owed (o.advance message :: (cancelSyncFor p.requestState record.kind os)) =
        owed (o :: cancelSyncFor p.requestState record.kind os) := owed_cons_congr _ rfl rfl
    rw [← hfront, ← owed_append]
    rfl

theorem classifyFrontend_endsCopyIn {message : FrontendVariant} {kind : OperationKind}
    {next : RequestState} (h : classifyFrontend .copyIn message = .ok (some (kind, next)))
    (hkind : kind = .copyDone ∨ kind = .copyFail) : message = .copyDone ∨ message = .copyFail := by
  cases message <;> cases h <;> simp_all

theorem sublist_owed_cancelSyncFor {message : FrontendMessage} {handling : FrontendHandling}
    {kind : OperationKind} {next : RequestState}
    (hclass : classifyFrontend p.requestState message.variant = .ok (some (kind, next)))
    (hks : ks.Sublist (owed p.operations))
    (hstruck : ∀ k ∈ ks, ∀ o ∈ p.struck (.frontend message handling), o.id ≠ k.1) :
    ks.Sublist (owed (cancelSyncFor p.requestState kind p.operations)) := by
  by_cases hcopy : p.requestState = .copyIn ∧ (kind = .copyDone ∨ kind = .copyFail)
  · have hends := classifyFrontend_endsCopyIn (hcopy.1 ▸ hclass) hcopy.2
    have hcancel : cancelSyncFor p.requestState kind p.operations = cancelLastSync p.operations := by
      simp [cancelSyncFor, hcopy]
    rw [hcancel]
    rcases cancelLastSync_cases p.operations with heq | ⟨a, o, b, hfind, hsplit, heq⟩
    · rw [heq]
      exact hks
    · have havoids : ∀ k ∈ ks, ∀ x ∈ [o], x.id ≠ k.1 := by
        intro k hk x hx
        rw [List.mem_singleton.1 hx]
        exact hstruck k hk o (by simp [struck, hcopy.1, hends, hfind])
      rw [hsplit] at hks
      rw [heq, owed_append, owed_discard]
      exact sublist_owed_of_avoids hks havoids
  · simpa [cancelSyncFor, hcopy] using hks

/-- Waiting records that a call neither strikes nor completes keep waiting, in order. -/
theorem Wf.owed_effect {p' : Pipeline} {call : Call} {reply : Reply} (hwf : p.Wf)
    (h : p.Effect call reply p') (hks : ks.Sublist (owed p.operations))
    (hstruck : ∀ k ∈ ks, ∀ o ∈ p.struck call, o.id ≠ k.1)
    (hcompleted : ∀ {message head rest}, reply = .backend (.ok (.emit message)) →
      p.operations = head :: rest → call.response? = some message → call.Addresses head →
      responseIsTerminal head.kind message.variant = true → ks.Sublist (owed rest)) :
    ks.Sublist (owed p'.operations) := by
  cases h with
  | refused _ | asynchronous _ _ | deferred _ _ | illegal _ _ => exact hks
  | accepted _ hproject _ =>
    have hclass := projectFrontend_classify hproject
    have hkept := sublist_owed_cancelSyncFor hclass hks hstruck
    rw [hwf.owed_enqueue]
    exact hkept.trans (List.sublist_append_left _ _)
  | continued _ _ hops _ _ =>
    rw [hops] at hks
    rw [owed_cons_congr]
    · exact hks
    · rfl
    · rfl
  | completed hcall haddr hops _ hlast _ =>
    rw [owed_dropWhile]
    exact hcompleted rfl hops hcall haddr hlast
  -- An error strikes the records up to the next Sync, which are none of `ks`.
  | @failed _ _ head rest _ hcall haddr hops _ hlast herror hextended =>
    have hbehind : ks.Sublist (owed ([] ++ (beforeSync rest ++ fromSync rest))) := by
      have hsplit : beforeSync rest ++ fromSync rest = rest := List.takeWhile_append_dropWhile
      rw [List.nil_append, hsplit]
      exact hcompleted rfl hops hcall haddr hlast
    have hstruck' := struck_failed hcall haddr hops herror hlast hextended
    rw [hstruck'] at hstruck
    rw [owed_dropWhile, owed_discardUntilSync]
    exact sublist_owed_of_avoids hbehind hstruck
  | @deferredError _ _ before o rest herror hops hbefore hid horigin hextended =>
    have hsplit : beforeSync rest ++ fromSync rest = rest := List.takeWhile_append_dropWhile
    have hqueue : ks.Sublist (owed ((before ++ [o]) ++ (beforeSync rest ++ fromSync rest))) := by
      rw [hsplit, List.append_assoc]
      rw [hops] at hks
      exact hks
    have hstruck' := struck_deferred hops hbefore hid horigin herror hextended
    rw [hstruck'] at hstruck
    have hkept := sublist_owed_of_avoids hqueue hstruck
    rw [List.append_cons, owed_append, owed_discardUntilSync]
    exact hkept

end Pipeline
end PgProto
