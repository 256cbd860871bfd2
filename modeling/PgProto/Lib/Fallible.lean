import Mathlib.Logic.Basic

/-!
# Fallible — computations with a state and errors

`EStateM E S` keeps the state when a computation fails.  This file gives it

* `Fallible.wp` — a program logic, with one rule for each primitive;
* `Fallible.Respects` — computations that cannot tell related states apart: from related states
  they return one result, or fail with one error, in related states.
-/

namespace Lib
namespace Fallible

variable {E S A B : Type}

/-! ## Program logic -/

/-- From `s`, the computation returns with `Q` or fails with `F`. -/
def wp (m : EStateM E S A) (F : E → S → Prop) (Q : A → S → Prop) (s : S) : Prop :=
  match m s with
  | .ok a t => Q a t
  | .error failure t => F failure t

variable {f : A → EStateM E S B} {m : EStateM E S A}

section Rules

variable {F : E → S → Prop} {s : S}

variable {Q : A → S → Prop}

@[simp] theorem wp_pure {a : A} :
    wp (pure a : EStateM E S A) F Q s ↔ Q a s := Iff.rfl

@[simp] theorem wp_bind {Q : B → S → Prop} :
    wp (m >>= f) F Q s ↔ wp m F (fun a => wp (f a) F Q) s := by
  have hbind : (m >>= f) s =
      match m s with
      | .ok a t => f a t
      | .error failure t => .error failure t := rfl
  unfold wp
  rw [hbind]
  cases m s <;> rfl

@[simp] theorem wp_get {Q : S → S → Prop} : wp (get : EStateM E S S) F Q s ↔ Q s s := Iff.rfl

@[simp] theorem wp_modify {f : S → S} {Q : PUnit → S → Prop} :
    wp (modify f : EStateM E S PUnit) F Q s ↔ Q ⟨⟩ (f s) := Iff.rfl

@[simp] theorem wp_throw {failure : E} :
    wp (throw failure : EStateM E S A) F Q s ↔ F failure s := Iff.rfl

/-- Computations with one outcome satisfy the same assertions. -/
theorem wp_congr {m' : EStateM E S A} {t : S} (h : m s = m' t) : wp m F Q s ↔ wp m' F Q t := by
  unfold wp
  rw [h]

theorem wp_mono {F' : E → S → Prop} {Q' : A → S → Prop} (h : wp m F Q s)
    (hF : ∀ failure t, F failure t → F' failure t) (hQ : ∀ a t, Q a t → Q' a t) : wp m F' Q' s := by
  unfold wp at h ⊢
  cases hm : m s with
  | ok a t =>
    rw [hm] at h
    exact hQ a t h
  | error failure t =>
    rw [hm] at h
    exact hF failure t h

/-- What holds everywhere holds of every outcome. -/
theorem wp_of_forall (hF : ∀ failure t, F failure t) (hQ : ∀ a t, Q a t) : wp m F Q s := by
  unfold wp
  cases m s with
  | ok a t => exact hQ a t
  | error failure t => exact hF failure t

/-- Whatever the first computation returns. -/
theorem wp_bind_of_forall {Q : B → S → Prop} (hF : ∀ failure t, F failure t)
    (hf : ∀ a t, wp (f a) F Q t) : wp (m >>= f) F Q s :=
  wp_bind.2 (wp_of_forall hF hf)

end Rules

/-! ## Related states -/

/-- The same result or the same error, in related states. -/
def Matches (R : S → S → Prop) : EStateM.Result E S A → EStateM.Result E S A → Prop
  | .ok a t, .ok a' t' => a = a' ∧ R t t'
  | .error failure t, .error failure' t' => failure = failure' ∧ R t t'
  | _, _ => False

/-- The computation cannot tell related states apart. -/
def Respects (R : S → S → Prop) (m : EStateM E S A) : Prop :=
  ∀ s s', R s s' → Matches R (m s) (m s')

section Respects

variable {R : S → S → Prop}

theorem respects_pure (a : A) : Respects R (pure a : EStateM E S A) :=
  fun _ _ h => ⟨rfl, h⟩

theorem respects_throw (failure : E) : Respects R (throw failure : EStateM E S A) :=
  fun _ _ h => ⟨rfl, h⟩

theorem respects_modify {f : S → S} (hf : ∀ s s', R s s' → R (f s) (f s')) :
    Respects R (modify f : EStateM E S PUnit) :=
  fun s s' h => ⟨rfl, hf s s' h⟩

theorem respects_bind (hm : Respects R m) (hf : ∀ a, Respects R (f a)) : Respects R (m >>= f) := by
  intro s s' h
  have hbind : ∀ t, (m >>= f) t =
      match m t with
      | .ok a t' => f a t'
      | .error failure t' => .error failure t' := fun _ => rfl
  have hmatch := hm s s' h
  rw [hbind s, hbind s']
  -- Both runs return, or both fail.
  cases hms : m s with
  | ok a t =>
    cases hms' : m s' with
    | ok a' t' =>
      rw [hms, hms'] at hmatch
      obtain ⟨rfl, ht⟩ := hmatch
      exact hf a t t' ht
    | error failure t' =>
      rw [hms, hms'] at hmatch
      exact hmatch.elim
  | error failure t =>
    cases hms' : m s' with
    | ok a' t' =>
      rw [hms, hms'] at hmatch
      exact hmatch.elim
    | error failure' t' =>
      rw [hms, hms'] at hmatch
      exact hmatch

/-- A computation that reads the state respects a relation when it goes on in the same way. -/
theorem respects_read {f : S → EStateM E S A} (hread : ∀ s s', R s s' → f s = f s')
    (hf : ∀ s, Respects R (f s)) : Respects R (get >>= f) := by
  intro s s' h
  have hsame := hf s s s' h
  rw [show (get >>= f) s = f s s from rfl, show (get >>= f) s' = f s' s' from rfl,
    ← hread s s' h]
  exact hsame

/-- One run: the state stays related to itself. -/
theorem Respects.wp {s : S} (h : Respects R m) (hs : R s s) :
    Fallible.wp m (fun _ t => R t t) (fun _ t => R t t) s := by
  have hmatch := h s s hs
  unfold Fallible.wp
  cases hm : m s with
  | ok a t | error failure t =>
    rw [hm] at hmatch
    exact hmatch.2

end Respects
end Fallible
end Lib
