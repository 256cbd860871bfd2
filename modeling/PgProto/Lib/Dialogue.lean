import Mathlib.Data.Option.Basic

/-!
# Dialogue — reading a conversation message by message

A *dialogue* says what one exchange between two parties may consist of.  It reads a conversation
one message at a time: a message is out of place, or it ends the exchange, or the exchange goes on
in another phase.

* `Dialogue.reach` — the phase after a part of an exchange that is still open;
* `Dialogue.only` — the exchanges all of whose messages satisfy a condition;
* `Dialogue.reach_map` — a map of phases that commutes with single messages commutes with whole
  exchanges.
-/

namespace Lib

/-- `none`: the message is out of place; `some none`: it is the last one of the exchange;
`some (some φ)`: the exchange goes on in phase `φ`. -/
abbrev Dialogue (Φ A : Type) := Φ → A → Option (Option Φ)

namespace Dialogue

variable {Φ Ψ A : Type} {d : Dialogue Φ A} {φ φ' : Φ}

def reach (d : Dialogue Φ A) : Φ → List A → Option Φ
  | φ, [] => some φ
  | φ, a :: w => (d φ a).join.bind fun φ' => reach d φ' w

@[simp] theorem reach_nil : d.reach φ [] = some φ := rfl

@[simp] theorem reach_cons {a : A} {w : List A} :
    d.reach φ (a :: w) = (d φ a).join.bind fun φ' => d.reach φ' w := rfl

theorem reach_append {w v : List A} :
    d.reach φ (w ++ v) = (d.reach φ w).bind fun φ' => d.reach φ' v := by
  induction w generalizing φ with
  | nil => rfl
  | cons a w ih =>
    cases hstep : (d φ a).join with
    | none => simp [hstep]
    | some φ' => simp [hstep, ih]

/-- The exchanges in which every message satisfies `p` in the phase it is read in. -/
def only (d : Dialogue Φ A) (p : Φ → A → Bool) : Dialogue Φ A :=
  fun φ a => if p φ a then d φ a else none

/-- A map of phases that commutes with every message commutes with every open exchange. -/
theorem reach_map {e : Dialogue Ψ A} {view : Φ → Ψ}
    (hstep : ∀ φ a, ∀ r ∈ d φ a, e (view φ) a = some (r.map view)) {w : List A}
    (h : d.reach φ w = some φ') : e.reach (view φ) w = some (view φ') := by
  induction w generalizing φ with
  | nil =>
    cases h
    rfl
  | cons a w ih =>
    obtain ⟨φ₁, hfirst, hrest⟩ := Option.bind_eq_some_iff.1 h
    have hopen : d φ a = some (some φ₁) := Option.join_eq_some_iff.1 hfirst
    have hview : e (view φ) a = some (some (view φ₁)) := hstep φ a (some φ₁) hopen
    rw [reach_cons, hview]
    exact ih hrest

end Dialogue
end Lib
