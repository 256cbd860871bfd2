import PgProto.Codec.Messages
import PgProto.Lib.Text
import PgProto.Lib.Wire

/-!
# Attributes — the comma-separated messages of SCRAM

The parsing functions of `src/scram.rs`.  A message is a list of attributes, each a letter, an
equals sign and a value, separated by commas; the first message of a client is preceded by a GS2
header which ends at its second comma.

`attributes_eq_ok_iff` says that the parser is the inverse of `join` on lists of attributes with
distinct letters and values without commas.
-/

namespace PgProto
namespace Scram

open Lib

/-- The errors of `src/scram.rs`.  All are of kind `InvalidInput`; the last two carry the error of
the library which refused the text. -/
inductive Error
  | invalid (message : String)
  | utf8
  | base64
  deriving DecidableEq, Repr

abbrev Attribute := UInt8 × Bytes

def comma : UInt8 := 0x2c

def equalsSign : UInt8 := 0x3d

/-! ## Parsing -/

/-- The GS2 header, with its two commas, and the rest of the message. -/
def splitGs2 (message : Bytes) : Except Error (Bytes × Bytes) :=
  match message.findIdx? (· == comma) with
  | none => .error (.invalid "malformed SCRAM GS2 header")
  | some first =>
    match (message.drop (first + 1)).findIdx? (· == comma) with
    | none => .error (.invalid "malformed SCRAM GS2 header")
    | some position =>
      let second := first + 1 + position
      .ok (message.take (second + 1), message.drop (second + 1))

def isAsciiAlphabetic (b : UInt8) : Bool :=
  (0x41 ≤ b && b ≤ 0x5a) || (0x61 ≤ b && b ≤ 0x7a)

/-- The loop of `attributes`. -/
def collect (output : List Attribute) : List Bytes → Except Error (List Attribute)
  | [] => .ok output
  | (name :: separator :: value) :: fields =>
    if separator ≠ equalsSign || !isAsciiAlphabetic name then
      .error (.invalid "malformed SCRAM attribute")
    else if output.any fun a => a.1 == name then
      .error (.invalid "duplicate SCRAM attribute")
    else
      collect (output ++ [(name, value)]) fields
  | _ :: _ => .error (.invalid "malformed SCRAM attribute")

def attributes (message : Bytes) : Except Error (List Attribute) :=
  collect [] (message.splitOn comma)

def required (attributes : List Attribute) (name : UInt8) : Except Error Bytes :=
  match attributes.find? fun a => a.1 == name with
  | some a => .ok a.2
  | none => .error (.invalid "required SCRAM attribute is missing")

def rejectMandatoryExtension (attributes : List Attribute) : Except Error Unit :=
  if attributes.any fun a => a.1 == 0x6d then
    .error (.invalid "unsupported mandatory SCRAM extension")
  else
    .ok ()

/-- Printable ASCII other than the comma. -/
def isNonceByte (b : UInt8) : Bool :=
  (0x21 ≤ b && b ≤ 0x2b) || (0x2d ≤ b && b ≤ 0x7e)

def validateNonce (nonce : Bytes) : Except Error Unit :=
  if !nonce.isEmpty && nonce.all isNonceByte then
    .ok ()
  else
    .error (.invalid "invalid SCRAM nonce")

/-! ## Messages as lists of attributes -/

def render (a : Attribute) : Bytes :=
  a.1 :: equalsSign :: a.2

def join (attributes : List Attribute) : Bytes :=
  [comma].intercalate (attributes.map render)

structure WellFormed (attributes : List Attribute) : Prop where
  ne_nil : attributes ≠ []
  alphabetic : ∀ a ∈ attributes, isAsciiAlphabetic a.1 = true
  distinct : (attributes.map Prod.fst).Nodup
  plain : ∀ a ∈ attributes, comma ∉ a.2

theorem comma_ne_of_alphabetic {b : UInt8} (h : isAsciiAlphabetic b = true) : comma ≠ b := by
  rintro rfl
  exact absurd h (by decide)

theorem comma_notMem_render {a : Attribute} (halpha : isAsciiAlphabetic a.1 = true)
    (hplain : comma ∉ a.2) : comma ∉ render a := by
  have heq : comma ≠ equalsSign := by decide
  simp [render, comma_ne_of_alphabetic halpha, heq, hplain]

variable {found : List Attribute}

/-- What `collect` checks of a name is that the names stay distinct. -/
theorem nodup_snoc {output : List Attribute} {name : UInt8} (value : Bytes)
    (hdistinct : (output.map Prod.fst).Nodup) :
    ((output ++ [(name, value)]).map Prod.fst).Nodup ↔
      output.any (fun a => a.1 == name) = false := by
  rw [List.map_append, List.nodup_append, List.any_eq_false]
  simp [hdistinct]

theorem collect_eq_ok_iff {output : List Attribute} {fields : List Bytes}
    (hdistinct : (output.map Prod.fst).Nodup) :
    collect output fields = .ok found ↔
      ∃ more, found = output ++ more ∧ fields = more.map render ∧
        (∀ a ∈ more, isAsciiAlphabetic a.1 = true) ∧ (found.map Prod.fst).Nodup := by
  induction fields generalizing output with
  | nil =>
    constructor
    · intro h
      cases h
      exact ⟨[], by simp, rfl, by simp, hdistinct⟩
    · rintro ⟨more, rfl, hfields, -, -⟩
      obtain rfl : more = [] := List.map_eq_nil_iff.1 hfields.symm
      simp [collect]
  | cons field fields ih =>
    constructor
    · intro h
      rcases field with _ | ⟨name, _ | ⟨separator, value⟩⟩
      · cases h
      · cases h
      · rw [collect] at h
        split_ifs at h with hform hdup
        simp only [Bool.or_eq_true, decide_eq_true_eq, Bool.not_eq_true', not_or,
          Bool.not_eq_false, not_not] at hform
        obtain ⟨rfl, halpha⟩ := hform
        have hnew := (nodup_snoc value hdistinct).2 (Bool.not_eq_true _ ▸ hdup)
        obtain ⟨more, rfl, rfl, hmore, hfound⟩ := (ih hnew).1 h
        refine ⟨(name, value) :: more, by simp, rfl, ?_, hfound⟩
        intro a ha
        rcases List.mem_cons.1 ha with rfl | ha
        · exact halpha
        · exact hmore a ha
    · rintro ⟨more, rfl, hfields, halpha, hfound⟩
      cases more with
      | nil => cases hfields
      | cons a more =>
        cases hfields
        obtain ⟨name, value⟩ := a
        have hname : isAsciiAlphabetic name = true := halpha _ List.mem_cons_self
        have hnew : ((output ++ [(name, value)]).map Prod.fst).Nodup := by
          have hsplit : output ++ (name, value) :: more = output ++ [(name, value)] ++ more := by
            simp
          rw [hsplit, List.map_append] at hfound
          exact (List.nodup_append.1 hfound).1
        rw [render, collect]
        simp only [hname, (nodup_snoc value hdistinct).1 hnew]
        have hrest := (ih hnew).2
          ⟨more, by simp, rfl, fun b hb => halpha b (List.mem_cons_of_mem _ hb), hfound⟩
        simpa using hrest

theorem WellFormed.splitOn_join (hwf : WellFormed found) :
    (join found).splitOn comma = found.map render := by
  apply List.splitOn_intercalate
  · intro field hfield
    obtain ⟨a, ha, rfl⟩ := List.mem_map.1 hfield
    exact comma_notMem_render (hwf.alphabetic a ha) (hwf.plain a ha)
  · simpa using hwf.ne_nil

/-- The parser inverts `join`. -/
theorem attributes_eq_ok_iff {message : Bytes} :
    attributes message = .ok found ↔ WellFormed found ∧ message = join found := by
  rw [attributes, collect_eq_ok_iff (by simp)]
  constructor
  · rintro ⟨_, rfl, hfields, halpha, hdistinct⟩
    have hmessage : message = join found := by
      rw [join, ← hfields]
      exact (List.intercalate_splitOn comma).symm
    refine ⟨⟨?_, halpha, hdistinct, ?_⟩, hmessage⟩
    · rintro rfl
      exact List.splitOn_ne_nil comma message hfields
    · intro a ha hcomma
      have hfield : render a ∈ message.splitOn comma := by
        rw [hfields]
        exact List.mem_map_of_mem ha
      exact notMem_of_mem_splitOn hfield (by simp [render, hcomma])
  · rintro ⟨hwf, rfl⟩
    exact ⟨found, rfl, hwf.splitOn_join, hwf.alphabetic, hwf.distinct⟩

/-! ## Reading attributes -/

theorem required_eq_ok {name : UInt8} {value : Bytes} (hdistinct : (found.map Prod.fst).Nodup) :
    required found name = .ok value ↔ (name, value) ∈ found := by
  induction found with
  | nil => simp [required]
  | cons a found ih =>
    obtain ⟨letter, text⟩ := a
    simp only [List.map_cons, List.nodup_cons] at hdistinct
    have hrest := ih hdistinct.2
    by_cases hname : letter = name
    · subst hname
      have hnot : (letter, value) ∉ found :=
        fun h => hdistinct.1 (List.mem_map_of_mem (f := Prod.fst) h)
      simp [required, hnot, eq_comm]
    · have hne : ¬ (name, value) = (letter, text) := fun h => hname (Prod.ext_iff.1 h).1.symm
      rw [List.mem_cons, or_iff_right hne, ← hrest]
      simp [required, hname]

theorem rejectMandatoryExtension_eq_ok {u : Unit} :
    rejectMandatoryExtension found = .ok u ↔ ∀ a ∈ found, a.1 ≠ 0x6d := by
  unfold rejectMandatoryExtension
  split_ifs with h
  · simpa using h
  · simp only [Bool.not_eq_true, List.any_eq_false, beq_iff_eq] at h
    simpa using h

theorem splitGs2_append {x y rest : Bytes} (hx : comma ∉ x) (hy : comma ∉ y) :
    splitGs2 (x ++ comma :: (y ++ comma :: rest)) = .ok (x ++ comma :: (y ++ [comma]), rest) := by
  have hfind : ∀ {front back : Bytes}, comma ∉ front →
      (front ++ comma :: back).findIdx? (· == comma) = some front.length := by
    intro front back hfront
    refine findIdx?_eq_some_iff_append.2 ⟨front, comma, back, rfl, rfl, by simp, ?_⟩
    rintro b hb
    exact beq_eq_false_iff_ne.2 fun heq => hfront (heq ▸ hb)
  have hdrop : (x ++ comma :: (y ++ comma :: rest)).drop (x.length + 1) = y ++ comma :: rest := by
    simp
  have hmessage : x ++ comma :: (y ++ comma :: rest) = (x ++ comma :: (y ++ [comma])) ++ rest := by
    simp
  have hlength : x.length + 1 + y.length + 1 = (x ++ comma :: (y ++ [comma])).length := by
    simp
    omega
  simp only [splitGs2, hfind hx, hdrop, hfind hy, Except.ok.injEq, Prod.mk.injEq]
  rw [hlength, hmessage]
  exact ⟨List.take_left, List.drop_left⟩

end Scram
end PgProto
