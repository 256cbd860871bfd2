import Mathlib.Data.List.Basic

/-!
# Text — byte strings which hold text

Text is handled as its UTF-8 bytes.  What a program does with it byte by byte is then stated as it
is computed, and what it relies on is that a byte below 128 only ever stands for itself.

* `validUtf8` — the check for UTF-8, with `IsText` for the byte strings which pass it;
* `ascii` — the bytes of a text of one-byte characters;
* `rfind` — the last occurrence of a pattern.
-/

namespace Lib

/-! ## UTF-8 -/

def validUtf8 (bytes : List UInt8) : Bool :=
  bytes.toByteArray.validateUTF8

/-- The bytes of some characters. -/
def IsText (bytes : List UInt8) : Prop :=
  ∃ cs : List Char, bytes = cs.flatMap String.utf8EncodeChar

theorem isText_chars (cs : List Char) : IsText (cs.flatMap String.utf8EncodeChar) :=
  ⟨cs, rfl⟩

theorem IsText.valid {bytes : List UInt8} (h : IsText bytes) : validUtf8 bytes = true := by
  obtain ⟨cs, rfl⟩ := h
  exact ByteArray.validateUTF8_eq_true_iff.2 ⟨cs, rfl⟩

theorem IsText.append {a b : List UInt8} (ha : IsText a) (hb : IsText b) : IsText (a ++ b) := by
  obtain ⟨cs, rfl⟩ := ha
  obtain ⟨ds, rfl⟩ := hb
  exact ⟨cs ++ ds, by simp⟩

/-- A byte below 128 is a character of its own. -/
theorem utf8EncodeChar_of_lt {b : UInt8} (h : b < 0x80) :
    String.utf8EncodeChar (Char.ofNat b.toNat) = [b] := by
  have hlt : b.toNat < 128 := h
  have hval : (Char.ofNat b.toNat).val.toNat = b.toNat := by
    have hvalid : b.toNat.isValidChar := .inl (by omega)
    rw [Char.ofNat, dif_pos hvalid]
    rfl
  simp only [String.utf8EncodeChar, hval]
  rw [if_pos (by omega)]
  simp

theorem isText_of_ascii {bytes : List UInt8} (h : ∀ b ∈ bytes, b < 0x80) : IsText bytes := by
  refine ⟨bytes.map fun b => Char.ofNat b.toNat, ?_⟩
  induction bytes with
  | nil => rfl
  | cons b bytes ih =>
    rw [List.map_cons, List.flatMap_cons, utf8EncodeChar_of_lt (h b (by simp)),
      ← ih fun c hc => h c (List.mem_cons_of_mem _ hc)]
    rfl

/-- The encoding of a character has a byte below 128 only if it is the character. -/
theorem eq_ofNat_of_mem_utf8EncodeChar {c : Char} {b : UInt8} (hmem : b ∈ String.utf8EncodeChar c)
    (h : b < 0x80) : c.toNat = b.toNat := by
  have hlt : b.toNat < 128 := h
  have hhigh : ∀ n, 128 ≤ n → n < 256 → b ≠ UInt8.ofNat n := by
    rintro n hn hn' rfl
    rw [UInt8.toNat_ofNat_of_lt' hn'] at hlt
    omega
  rw [String.utf8EncodeChar] at hmem
  split_ifs at hmem with h₁ h₂ h₃
  · rw [List.mem_singleton.1 hmem, UInt8.toNat_ofNat_of_lt' (show c.val.toNat < 256 by omega)]
    rfl
  · simp only [List.mem_cons, List.not_mem_nil, or_false] at hmem
    rcases hmem with hb | hb <;>
      exact absurd hb (hhigh _ (by omega) (by omega))
  · simp only [List.mem_cons, List.not_mem_nil, or_false] at hmem
    rcases hmem with hb | hb | hb <;>
      exact absurd hb (hhigh _ (by omega) (by omega))
  · simp only [List.mem_cons, List.not_mem_nil, or_false] at hmem
    rcases hmem with hb | hb | hb | hb <;>
      exact absurd hb (hhigh _ (by omega) (by omega))

/-- The bytes of a text of one-byte characters. -/
def ascii (text : String) : List UInt8 :=
  text.toList.map fun c => UInt8.ofNat c.toNat

/-! ## Fields -/

/-- A field does not contain the separator. -/
theorem notMem_of_mem_splitOn {A : Type} [BEq A] [LawfulBEq A] {separator : A} {l field : List A}
    (h : field ∈ l.splitOn separator) : separator ∉ field := by
  induction l generalizing field with
  | nil =>
    rw [List.splitOn_nil, List.mem_singleton] at h
    simp [h]
  | cons a l ih =>
    rw [List.splitOn_cons_eq_if_modifyHead] at h
    split_ifs at h with ha
    · rcases List.mem_cons.1 h with rfl | h
      · simp
      · exact ih h
    · -- the first field of the rest is continued by `a`
      obtain ⟨first, rest, hfields⟩ := List.exists_cons_of_ne_nil (List.splitOn_ne_nil separator l)
      rw [hfields] at h ih
      rcases List.mem_cons.1 h with rfl | h
      · have hne : separator ≠ a := by
          rintro rfl
          exact ha (BEq.refl _)
        simpa [hne] using ih List.mem_cons_self
      · exact ih (List.mem_cons_of_mem _ h)

/-! ## Search from the end -/

/-- The position of the last occurrence of a pattern. -/
def rfind (pattern : List UInt8) : List UInt8 → Option Nat
  | [] => if pattern = [] then some 0 else none
  | b :: bytes =>
    match rfind pattern bytes with
    | some i => some (i + 1)
    | none => if pattern <+: b :: bytes then some 0 else none

variable {pattern bytes : List UInt8}

/-- What is found is an occurrence. -/
theorem rfind_eq_some {i : Nat} (h : rfind pattern bytes = some i) :
    ∃ before after, bytes = before ++ (pattern ++ after) ∧ before.length = i := by
  induction bytes generalizing i with
  | nil =>
    by_cases hp : pattern = []
    · simp only [rfind, hp, if_true, Option.some.injEq] at h
      exact ⟨[], [], by simp [hp], h⟩
    · simp [rfind, hp] at h
  | cons b bytes ih =>
    rw [rfind] at h
    cases hrest : rfind pattern bytes with
    | some j =>
      simp only [hrest, Option.some.injEq] at h
      obtain ⟨before, after, hbytes, hlength⟩ := ih hrest
      exact ⟨b :: before, after, by rw [hbytes]; rfl, by simp [hlength, ← h]⟩
    | none =>
      simp only [hrest] at h
      split_ifs at h with hhere
      obtain ⟨after, hafter⟩ := hhere
      exact ⟨[], after, by simpa using hafter.symm, Option.some.inj h⟩

theorem rfind_append {before : List UInt8} {i : Nat} (h : rfind pattern bytes = some i) :
    rfind pattern (before ++ bytes) = some (before.length + i) := by
  induction before with
  | nil => simpa using h
  | cons b before ih =>
    simp only [List.cons_append, rfind, ih, List.length_cons, Option.some.injEq]
    omega

/-- A pattern is not found where its first byte does not occur. -/
theorem rfind_eq_none {a : UInt8} (h : a ∉ bytes) : rfind (a :: pattern) bytes = none := by
  induction bytes with
  | nil => simp [rfind]
  | cons b bytes ih =>
    obtain ⟨hne, hrest⟩ := List.ne_and_not_mem_of_not_mem_cons h
    simp [rfind, ih hrest, hne]

/-- An occurrence behind which the first byte of the pattern does not occur again is the last. -/
theorem rfind_last {a : UInt8} {before after : List UInt8} (hp : a ∉ pattern) (ha : a ∉ after) :
    rfind (a :: pattern) (before ++ (a :: pattern ++ after)) = some before.length := by
  have hhere : rfind (a :: pattern) (a :: pattern ++ after) = some 0 := by
    have hnone : rfind (a :: pattern) (pattern ++ after) = none :=
      rfind_eq_none (by simp [hp, ha])
    simp [rfind, hnone]
  exact rfind_append hhere

end Lib
