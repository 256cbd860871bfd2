import Mathlib.Data.List.Basic
import Mathlib.Tactic.Cases

/-!
# Base64 — the standard alphabet with padding

Three bytes are written as four letters of six bits each.  A last group of one or two bytes is
filled up with equals signs, and the bits that stand for nothing have to be zero.

`decode_encode` and `encode_letter` are what a user of the encoding needs: it can be read back, and
its letters are ASCII.
-/

namespace Lib
namespace Base64

def pad : UInt8 := 0x3d

/-- The letter for six bits. -/
def letter (v : Nat) : UInt8 :=
  if v < 26 then UInt8.ofNat (65 + v)
  else if v < 52 then UInt8.ofNat (71 + v)
  else if v < 62 then UInt8.ofNat (v - 4)
  else if v = 62 then 0x2b
  else 0x2f

/-- The six bits of a letter. -/
def value? (b : UInt8) : Option Nat :=
  if 0x41 ≤ b ∧ b ≤ 0x5a then some (b.toNat - 65)
  else if 0x61 ≤ b ∧ b ≤ 0x7a then some (b.toNat - 71)
  else if 0x30 ≤ b ∧ b ≤ 0x39 then some (b.toNat + 4)
  else if b = 0x2b then some 62
  else if b = 0x2f then some 63
  else none

def encode : List UInt8 → List UInt8
  | [] => []
  | [a] =>
    [letter (a.toNat / 4), letter (a.toNat % 4 * 16), pad, pad]
  | [a, b] =>
    [letter (a.toNat / 4), letter (a.toNat % 4 * 16 + b.toNat / 16),
      letter (b.toNat % 16 * 4), pad]
  | a :: b :: c :: rest =>
    letter (a.toNat / 4) :: letter (a.toNat % 4 * 16 + b.toNat / 16) ::
      letter (b.toNat % 16 * 4 + c.toNat / 64) :: letter (c.toNat % 64) :: encode rest

/-- A last group of four letters, two of them at least. -/
def decodeLast (w x y z : UInt8) : Option (List UInt8) := do
  let first ← value? w
  let second ← value? x
  let a := UInt8.ofNat (first * 4 + second / 16)
  if y = pad ∧ z = pad then
    if second % 16 = 0 then some [a] else none
  else
    let third ← value? y
    let b := UInt8.ofNat (second % 16 * 16 + third / 4)
    if z = pad then
      if third % 4 = 0 then some [a, b] else none
    else
      let fourth ← value? z
      some [a, b, UInt8.ofNat (third % 4 * 64 + fourth)]

def decode : List UInt8 → Option (List UInt8)
  | [] => some []
  | [w, x, y, z] => decodeLast w x y z
  | w :: x :: y :: z :: rest => do
    let first ← value? w
    let second ← value? x
    let third ← value? y
    let fourth ← value? z
    let bytes ← decode rest
    some (UInt8.ofNat (first * 4 + second / 16) :: UInt8.ofNat (second % 16 * 16 + third / 4) ::
      UInt8.ofNat (third % 4 * 64 + fourth) :: bytes)
  | _ => none

/-! ## Reading back -/

theorem letter_spec : ∀ v : Fin 64,
    value? (letter v) = some v.val ∧ letter v ≠ pad ∧ letter v < 0x80 ∧ letter v ≠ 0x2c := by
  decide

theorem value?_letter {v : Nat} (h : v < 64) : value? (letter v) = some v :=
  (letter_spec ⟨v, h⟩).1

theorem letter_ne_pad {v : Nat} (h : v < 64) : letter v ≠ pad :=
  (letter_spec ⟨v, h⟩).2.1

theorem ofNat_eq {n : Nat} {b : UInt8} (h : n = b.toNat) : UInt8.ofNat n = b := by
  rw [h, UInt8.ofNat_toNat]

theorem decode_encode (bytes : List UInt8) : decode (encode bytes) = some bytes := by
  induction bytes using encode.induct with
  | case1 => rfl
  | case2 a =>
    have ha := a.toNat_lt
    simp only [encode, decode, decodeLast, value?_letter (show a.toNat / 4 < 64 by omega),
      value?_letter (show a.toNat % 4 * 16 < 64 by omega)]
    have hbyte : UInt8.ofNat (a.toNat / 4 * 4 + a.toNat % 4 * 16 / 16) = a := ofNat_eq (by omega)
    have hbits : a.toNat % 4 * 16 % 16 = 0 := by omega
    simp only [Option.bind_eq_bind, Option.bind_some, hbyte, hbits, and_self, ↓reduceIte]
  | case3 a b =>
    have ha := a.toNat_lt
    have hb := b.toNat_lt
    have h₂ : a.toNat % 4 * 16 + b.toNat / 16 < 64 := by omega
    have h₃ : b.toNat % 16 * 4 < 64 := by omega
    simp only [encode, decode, decodeLast, value?_letter (show a.toNat / 4 < 64 by omega),
      value?_letter h₂, value?_letter h₃]
    have hfirst : UInt8.ofNat (a.toNat / 4 * 4 + (a.toNat % 4 * 16 + b.toNat / 16) / 16) = a :=
      ofNat_eq (by omega)
    have hsecond : UInt8.ofNat ((a.toNat % 4 * 16 + b.toNat / 16) % 16 * 16 +
        b.toNat % 16 * 4 / 4) = b := ofNat_eq (by omega)
    have hbits : b.toNat % 16 * 4 % 4 = 0 := by omega
    simp only [Option.bind_eq_bind, Option.bind_some, hfirst, hsecond, hbits, letter_ne_pad h₃,
      false_and, ↓reduceIte]
  | case4 a b c rest ih =>
    have ha := a.toNat_lt
    have hb := b.toNat_lt
    have hc := c.toNat_lt
    have h₁ : a.toNat / 4 < 64 := by omega
    have h₂ : a.toNat % 4 * 16 + b.toNat / 16 < 64 := by omega
    have h₃ : b.toNat % 16 * 4 + c.toNat / 64 < 64 := by omega
    have h₄ : c.toNat % 64 < 64 := by omega
    have hfirst : UInt8.ofNat (a.toNat / 4 * 4 + (a.toNat % 4 * 16 + b.toNat / 16) / 16) = a :=
      ofNat_eq (by omega)
    have hsecond : UInt8.ofNat ((a.toNat % 4 * 16 + b.toNat / 16) % 16 * 16 +
        (b.toNat % 16 * 4 + c.toNat / 64) / 4) = b := ofNat_eq (by omega)
    have hthird : UInt8.ofNat ((b.toNat % 16 * 4 + c.toNat / 64) % 4 * 64 + c.toNat % 64) = c :=
      ofNat_eq (by omega)
    cases rest with
    | nil =>
      simp only [encode, decode, decodeLast, value?_letter h₁, value?_letter h₂,
        value?_letter h₃, value?_letter h₄, letter_ne_pad h₄, hfirst, hsecond, hthird,
        Option.bind_eq_bind, Option.bind_some, and_false, ↓reduceIte]
    | cons d rest =>
      -- the encoding of the rest is not empty, so this group is not the last one
      obtain ⟨e, more, hmore⟩ : ∃ e more, encode (d :: rest) = e :: more := by
        rcases rest with _ | ⟨e, _ | ⟨f, rest⟩⟩ <;> exact ⟨_, _, rfl⟩
      rw [encode, hmore, decode]
      · rw [← hmore, ih]
        simp only [value?_letter h₁, value?_letter h₂, value?_letter h₃, value?_letter h₄,
          hfirst, hsecond, hthird, Option.bind_eq_bind, Option.bind_some]
      · rintro ⟨⟩

/-- The letters of an encoding are ASCII and not commas. -/
theorem encode_letter (bytes : List UInt8) : ∀ b ∈ encode bytes, b < 0x80 ∧ b ≠ 0x2c := by
  have hletter : ∀ {v : Nat}, v < 64 → letter v < 0x80 ∧ letter v ≠ 0x2c :=
    fun h => (letter_spec ⟨_, h⟩).2.2
  have hpad : pad < 0x80 ∧ pad ≠ 0x2c := by decide
  induction bytes using encode.induct with
  | case1 => simp [encode]
  | case2 a =>
    have ha := a.toNat_lt
    simp only [encode, List.mem_cons, List.not_mem_nil, or_false, forall_eq_or_imp, forall_eq]
    exact ⟨hletter (by omega), hletter (by omega), hpad, hpad⟩
  | case3 a b =>
    have ha := a.toNat_lt
    have hb := b.toNat_lt
    simp only [encode, List.mem_cons, List.not_mem_nil, or_false, forall_eq_or_imp, forall_eq]
    exact ⟨hletter (by omega), hletter (by omega), hletter (by omega), hpad⟩
  | case4 a b c rest ih =>
    have ha := a.toNat_lt
    have hb := b.toNat_lt
    have hc := c.toNat_lt
    simp only [encode, List.mem_cons, forall_eq_or_imp]
    exact ⟨hletter (by omega), hletter (by omega), hletter (by omega), hletter (by omega), ih⟩

end Base64
end Lib
