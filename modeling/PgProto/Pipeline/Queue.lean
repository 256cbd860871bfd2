import PgProto.Pipeline.Phases

/-!
# Queue — the ledger as a list of records

What the queue updates of the ledger do to single records.  Discarding marks records in place, so
every fact about identity, kind, origin or phase survives it: `Operation.strip` forgets the mark,
and each discarding function is the identity on stripped queues.
-/

namespace PgProto

open Backend (transitions request)
open Lib

/-! ## The front record -/

/-- The record after a client message: it moves when the message maps from its phase. -/
def Operation.advance (message : FrontendVariant) (o : Operation) : Operation :=
  { o with responseState := (request o.responseState message).getD o.responseState }

theorem advanceHead_cons (message : FrontendVariant) (o : Operation) (os : List Operation) :
    advanceHead message (o :: os) = o.advance message :: os := by
  cases hevent : Backend.projectExternal o.responseState message with
  | none =>
    have hnone : request o.responseState message = none := by
      have := Backend.request_isSome o.responseState message
      simpa [hevent] using this
    simp [advanceHead, hevent, Operation.advance, hnone]
  | some event =>
    have hsome : request o.responseState message =
        (Backend.transition o.responseState event).map Edge.target := by
      have hevent' : transitions.projectExternal o.responseState message = some event := hevent
      simp [request, Table.stepExternal, hevent', Backend.transition]
    cases htrans : Backend.transition o.responseState event with
    | none | some edge =>
      simp [advanceHead, hevent, htrans, Operation.advance, hsome]

theorem discardFirst_concat {p : Operation → Bool} {os : List Operation} (o : Operation)
    (ho : p o = false) : discardFirst p (os ++ [o]) = discardFirst p os ++ [o] := by
  induction os with
  | nil =>
    simp [discardFirst, ho]
  | cons x xs ih =>
    by_cases hx : p x
    · simp [discardFirst, hx]
    · simp [discardFirst, hx, ih]

/-- Cancelling the newest live Sync leaves a front record alone that is no Sync. -/
theorem cancelLastSync_cons {o : Operation} {os : List Operation} (ho : o.kind ≠ .sync) :
    cancelLastSync (o :: os) = o :: cancelLastSync os := by
  have hlive : o.isLiveSync = false := by
    simp [Operation.isLiveSync, ho]
  simp [cancelLastSync, discardFirst_concat o hlive]

/-- The queue after a frontend message is accepted.  The front record never changes place, so an
inert record is dropped at once only when it would be the front record itself. -/
def enqueue (message : FrontendVariant) (requestState : RequestState) (record : Operation) :
    List Operation → List Operation
  | [] => if record.isInert then [] else [record]
  | o :: os => o.advance message :: (cancelSyncFor requestState record.kind os ++ [record])

/-! ## Discarding -/

/-- A record without its discard mark. -/
def Operation.strip (o : Operation) : Operation :=
  { o with discarded := false }

@[simp] theorem Operation.strip_discard (o : Operation) : o.discard.strip = o.strip := rfl

variable {o : Operation}

theorem Operation.eq_of_strip {x : Operation} (h : x.strip = o.strip) :
    x.id = o.id ∧ x.kind = o.kind ∧ x.origin = o.origin ∧ x.responseState = o.responseState := by
  simpa [Operation.strip] using h

theorem discardFirst_map_strip (p : Operation → Bool) (os : List Operation) :
    (discardFirst p os).map Operation.strip = os.map Operation.strip := by
  induction os with
  | nil => rfl
  | cons o os ih =>
    by_cases ho : p o
    · simp [discardFirst, ho]
    · simp [discardFirst, ho, ih]

theorem cancelLastSync_map_strip (os : List Operation) :
    (cancelLastSync os).map Operation.strip = os.map Operation.strip := by
  simp [cancelLastSync, discardFirst_map_strip]

theorem cancelSyncFor_map_strip (state : RequestState) (kind : OperationKind)
    (os : List Operation) :
    (cancelSyncFor state kind os).map Operation.strip = os.map Operation.strip := by
  unfold cancelSyncFor
  split
  · exact cancelLastSync_map_strip os
  · rfl

theorem discardUntilSync_map_strip (os : List Operation) :
    (discardUntilSync os).1.map Operation.strip = os.map Operation.strip := by
  induction os with
  | nil => rfl
  | cons o os ih =>
    by_cases ho : o.kind = .sync
    · simp [discardUntilSync, ho]
    · simp [discardUntilSync, ho, ih]

/-- Identity and kind of a record. -/
def Operation.key (o : Operation) : OperationId × OperationKind :=
  (o.id, o.kind)

theorem map_key_of_map_strip {os os' : List Operation}
    (h : os'.map Operation.strip = os.map Operation.strip) :
    os'.map Operation.key = os.map Operation.key := by
  have hkey : Operation.key = Operation.key ∘ Operation.strip := rfl
  rw [hkey, ← List.map_map, ← List.map_map, h]

/-- A record of a marked queue is a record of the queue before, up to the mark. -/
theorem exists_strip_eq {os os' : List Operation}
    (h : os'.map Operation.strip = os.map Operation.strip) (ho : o ∈ os') :
    ∃ x ∈ os, x.strip = o.strip := by
  have hmem : o.strip ∈ os.map Operation.strip := h ▸ List.mem_map_of_mem ho
  rcases List.mem_map.1 hmem with ⟨x, hx, heq⟩
  exact ⟨x, hx, heq⟩

/-! ## Length -/

theorem length_advanceHead (message : FrontendVariant) (os : List Operation) :
    (advanceHead message os).length = os.length := by
  cases os with
  | nil => rfl
  | cons o os => simp [advanceHead_cons]

theorem length_cancelSyncFor (state : RequestState) (kind : OperationKind) (os : List Operation) :
    (cancelSyncFor state kind os).length = os.length := by
  have hstrip := congrArg List.length (cancelSyncFor_map_strip state kind os)
  simpa using hstrip

theorem length_enqueue_le (message : FrontendVariant) (state : RequestState) (record : Operation)
    (os : List Operation) : (enqueue message state record os).length ≤ os.length + 1 := by
  cases os with
  | nil =>
    simp only [enqueue]
    split <;> simp
  | cons o os =>
    simp [enqueue, length_cancelSyncFor]

/-! ## Inert front records -/

theorem Operation.isInert_eq_false :
    o.isInert = false ↔ isInertKind o.kind = false ∧ o.discarded = false := by
  rw [Operation.isInert, Bool.or_eq_false_iff]

theorem isInert_of_dropWhile {os rest : List Operation}
    (h : os.dropWhile Operation.isInert = o :: rest) : o.isInert = false := by
  have hhead := List.head?_dropWhile_not Operation.isInert os
  simpa [h] using hhead

end PgProto
