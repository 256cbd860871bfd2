import PgProto.Codec.Frames
import PgProto.Lib.Wire

/-!
# Decode — typed messages from frames

The field readers of `src/codec.rs` and `Frontend::decode`.  A reader threads the unread part of
the frame body (`&mut Bytes` of the source) and fails with the text of the source.

Each reader inverts the writer of `Frames` of the same field, in the sense of `Inverts`: it
returns a value exactly on the inputs which start with the written value, and leaves the rest.  The
laws of the fields then give the law of each message, and these the law of the direction: a frame
decodes to a message exactly if the message encodes to that frame.
-/

namespace PgProto

open Lib
open Reader (run_pure_eq_ok run_throw_eq_ok run_bind_eq_ok run_get_bind run_map_eq_ok)

/-! ## Failures -/

def invalid (message : String) : IoError :=
  { kind := .invalidData
    message := message }

/-- The two lower-case hexadecimal digits of a byte. -/
def hexByte (n : UInt8) : String :=
  String.ofList [Nat.digitChar (n.toNat / 16), Nat.digitChar (n.toNat % 16)]

def unknownTag (direction : String) (tag : UInt8) : IoError :=
  invalid ("unknown " ++ direction ++ " message tag 0x" ++ hexByte tag)

/-! ## Field readers -/

/-- A reader of the unread part of a frame body. -/
abbrev Take (α : Type) := Reader UInt8 IoError α

/-- `usize::MAX` of a 64-bit target. -/
def usizeMax : Nat := 2 ^ 64 - 1

def require (length : Nat) : Take Unit := do
  if (← get).length < length then
    throw (invalid "truncated message body")

def requireEmpty : Take Unit := do
  unless (← get).isEmpty do
    throw (invalid "trailing message bytes")

/-- `Bytes::split_to`, whose bound the callers check. -/
def splitTo (length : Nat) : Take Bytes :=
  modifyGet fun body => (body.take length, body.drop length)

/-- `require` followed by `split_to`. -/
def takeBytes (length : Nat) : Take Bytes := do
  require length
  splitTo length

/-- The number of a big-endian word, as the `get_*` methods of `Buf` read it. -/
def fromBeBytes (word : Bytes) : Nat :=
  word.foldl (fun n byte => n * 256 + byte.toNat) 0

def takeU8 : Take UInt8 :=
  (fun word => UInt8.ofNat (fromBeBytes word)) <$> takeBytes 1

def takeU16 : Take UInt16 :=
  (fun word => UInt16.ofNat (fromBeBytes word)) <$> takeBytes 2

def takeU32 : Take UInt32 :=
  (fun word => UInt32.ofNat (fromBeBytes word)) <$> takeBytes 4

def takeI16 : Take Int16 := UInt16.toInt16 <$> takeU16

def takeI32 : Take Int32 := UInt32.toInt32 <$> takeU32

/-- The reader of strings with the text of its failure. -/
def takeCstrOr (text : String) : Take Bytes := do
  match (← get).findIdx? (· == 0) with
  | none => throw (invalid text)
  | some terminator =>
    let value ← splitTo terminator
    -- `advance(1)` skips the terminator
    let _ ← splitTo 1
    return value

def takeCstr : Take Bytes := takeCstrOr "unterminated string"

def takeTarget : Take DescribeTarget := do
  let byte ← takeU8
  if byte = 'S'.toUInt8 then
    return .statement
  else if byte = 'P'.toUInt8 then
    return .portal
  else
    throw (invalid "invalid statement or portal target")

/-- The length of a sized value is an `i32`, where `-1` stands for no value; `negative` is the text
of the refusal of any other negative length. -/
def takeSized (negative : String) : Take (Option Bytes) := do
  let length ← takeI32
  if length = -1 then
    return none
  else if length < 0 then
    throw (invalid negative)
  else
    some <$> takeBytes length.toNatClampNeg

def takeNullable : Take (Option Bytes) := takeSized "negative value length"

def requireCollectionBytes (count remaining minimumItemLen : Nat) (description : String) :
    Take Unit :=
  -- `checked_mul`
  if usizeMax < count * minimumItemLen then
    throw (invalid (description ++ " overflows message size"))
  else if remaining < count * minimumItemLen then
    throw (invalid (description ++ " exceeds remaining message body"))
  else
    return ()

/-- The loop of every counted list: a count, the check of the bytes which are left, the items. -/
def takeCounted {α : Type} (minimumItemLen : Nat) (description : String) (take : Take α) :
    Take (List α) := do
  let count ← takeU16
  requireCollectionBytes count.toNat (← get).length minimumItemLen description
  Reader.many take count.toNat

def takeI16Vec : Take (List Int16) := takeCounted 2 "format count" takeI16

/-! ## Frontend decoders -/

def decodeParse : Bytes → Except IoError Parse :=
  StateT.run' do
    let statement ← takeCstr
    let query ← takeCstr
    let parameterTypes ← takeCounted 4 "parameter type count" takeU32
    requireEmpty
    return { statement, query, parameterTypes }

def decodeBind : Bytes → Except IoError Bind :=
  StateT.run' do
    let portal ← takeCstr
    let statement ← takeCstr
    let parameterFormats ← takeI16Vec
    let parameters ← takeCounted 4 "parameter count" (takeSized "negative parameter length")
    let resultFormats ← takeI16Vec
    requireEmpty
    return { portal, statement, parameterFormats, parameters, resultFormats }

def decodeDescribe : Bytes → Except IoError Describe :=
  StateT.run' do
    let target ← takeTarget
    let name ← takeCstr
    requireEmpty
    return { target, name }

def decodeClose : Bytes → Except IoError Close :=
  StateT.run' do
    let target ← takeTarget
    let name ← takeCstr
    requireEmpty
    return { target, name }

def decodeExecute : Bytes → Except IoError Execute :=
  StateT.run' do
    let portal ← takeCstr
    let maxRows ← takeI32
    requireEmpty
    return { portal, maxRows }

def decodeFunctionCall : Bytes → Except IoError FunctionCall :=
  StateT.run' do
    let functionOid ← takeU32
    let argumentFormats ← takeI16Vec
    let arguments ← takeCounted 4 "argument count" takeNullable
    let resultFormat ← takeI16
    requireEmpty
    return { functionOid, argumentFormats, arguments, resultFormat }

def decodeCstrBody : Bytes → Except IoError Bytes :=
  StateT.run' do
    let value ← takeCstr
    requireEmpty
    return value

def decodeEmpty : Bytes → Except IoError Unit :=
  StateT.run' requireEmpty

/-- `Direction::decode` of `Frontend`. -/
def Frontend.decode (frame : Frame) : Except IoError FrontendMessage :=
  if frame.tag = 'P'.toUInt8 then .parse <$> decodeParse frame.body
  else if frame.tag = 'B'.toUInt8 then .bind <$> decodeBind frame.body
  else if frame.tag = 'D'.toUInt8 then .describe <$> decodeDescribe frame.body
  else if frame.tag = 'C'.toUInt8 then .close <$> decodeClose frame.body
  else if frame.tag = 'E'.toUInt8 then .execute <$> decodeExecute frame.body
  else if frame.tag = 'F'.toUInt8 then .functionCall <$> decodeFunctionCall frame.body
  else if frame.tag = 'H'.toUInt8 then (fun () => .flush) <$> decodeEmpty frame.body
  else if frame.tag = 'Q'.toUInt8 then .query <$> decodeCstrBody frame.body
  else if frame.tag = 'S'.toUInt8 then (fun () => .sync) <$> decodeEmpty frame.body
  else if frame.tag = 'X'.toUInt8 then (fun () => .terminate) <$> decodeEmpty frame.body
  else if frame.tag = 'c'.toUInt8 then (fun () => .copyDone) <$> decodeEmpty frame.body
  else if frame.tag = 'd'.toUInt8 then .ok (.copyData frame.body)
  else if frame.tag = 'f'.toUInt8 then .copyFail <$> decodeCstrBody frame.body
  else if frame.tag = 'p'.toUInt8 then .ok (.passwordResponse frame.body)
  else .error (unknownTag "frontend" frame.tag)

/-! ## Readers that look at the length only -/

variable {length count : Nat} {body rest w : Bytes} {α : Type} {put : α → Except IoError Bytes}
  {take : Take α}

theorem run_require {u : Unit} :
    (require length).run body = .ok (u, rest) ↔ length ≤ body.length ∧ body = rest := by
  simp only [require, run_get_bind]
  split
  case isTrue hshort =>
    simp only [run_throw_eq_ok, false_iff, not_and]
    omega
  case isFalse hlong =>
    simp only [run_pure_eq_ok, true_and, iff_and_self]
    omega

theorem run_requireEmpty {u : Unit} :
    requireEmpty.run body = .ok (u, rest) ↔ body = [] ∧ rest = [] := by
  simp only [requireEmpty, run_get_bind]
  split
  case isTrue hempty =>
    obtain rfl := List.isEmpty_iff.mp hempty
    simp only [run_pure_eq_ok, true_and]
    exact eq_comm
  case isFalse hmore =>
    simp only [run_throw_eq_ok, false_iff, not_and]
    rintro rfl
    exact absurd rfl hmore

theorem run_splitTo :
    (splitTo length).run body = .ok (w, rest) ↔ body.take length = w ∧ body.drop length = rest := by
  have hrun : (splitTo length).run body = .ok (body.take length, body.drop length) := rfl
  rw [hrun, Except.ok.injEq, Prod.mk.injEq]

theorem run_takeBytes :
    (takeBytes length).run body = .ok (w, rest) ↔ w.length = length ∧ body = w ++ rest := by
  simp only [takeBytes, run_bind_eq_ok, run_require, run_splitTo]
  constructor
  · rintro ⟨_, _, ⟨hle, rfl⟩, rfl, rfl⟩
    exact ⟨List.length_take_of_le hle, (List.take_append_drop length body).symm⟩
  · rintro ⟨rfl, rfl⟩
    exact ⟨(), w ++ rest, ⟨by simp, rfl⟩, List.take_left, List.drop_left⟩

/-! ## Fixed-width words -/

/-- A representation by words of a fixed length gives a reader and a writer which invert each
other. -/
theorem takeWord_inverts {decode : Bytes → α} {encode : α → Bytes}
    (hlen : ∀ a, (encode a).length = length) (hdecode : ∀ a, decode (encode a) = a)
    (hencode : ∀ w, w.length = length → encode (decode w) = w) :
    Inverts (decode <$> takeBytes length) (fun a => (.ok (encode a) : Except IoError Bytes)) := by
  intro input a rest
  simp only [run_map_eq_ok, run_takeBytes, Except.ok.injEq, exists_eq_left']
  constructor
  · rintro ⟨w, ⟨hw, rfl⟩, rfl⟩
    rw [hencode w hw]
  · rintro rfl
    exact ⟨encode a, ⟨hlen a, rfl⟩, hdecode a⟩

theorem takeU8_inverts : Inverts takeU8 (fun n => (.ok (putU8 n) : Except IoError Bytes)) := by
  apply takeWord_inverts
  · intro n
    rfl
  · intro n
    simp [putU8, fromBeBytes]
  · intro w hw
    obtain ⟨a, rfl⟩ := List.length_eq_one_iff.mp hw
    simp [putU8, fromBeBytes]

theorem takeU16_inverts : Inverts takeU16 (fun n => (.ok (putU16 n) : Except IoError Bytes)) := by
  apply takeWord_inverts
  · intro n
    rfl
  · intro n
    apply UInt16.toNat_inj.mp
    have hn := n.toNat_lt
    simp [putU16, fromBeBytes, Nat.shiftRight_eq_div_pow]
    omega
  · intro w hw
    obtain ⟨a, b, rfl⟩ := List.length_eq_two.mp hw
    have ha := a.toNat_lt
    have hb := b.toNat_lt
    simp only [putU16, fromBeBytes, List.cons.injEq, and_true, ← UInt8.toNat_inj]
    simp [Nat.shiftRight_eq_div_pow]
    omega

theorem fromBeBytes_putU32 (n : UInt32) : fromBeBytes (putU32 n) = n.toNat := by
  have hn := n.toNat_lt
  simp [putU32, fromBeBytes, Nat.shiftRight_eq_div_pow]
  omega

theorem putU32_ofNat_fromBeBytes (hw : w.length = 4) :
    putU32 (UInt32.ofNat (fromBeBytes w)) = w := by
  match w, hw with
  | [a, b, c, d], _ =>
    have ha := a.toNat_lt
    have hb := b.toNat_lt
    have hc := c.toNat_lt
    have hd := d.toNat_lt
    simp only [putU32, fromBeBytes, List.cons.injEq, and_true, ← UInt8.toNat_inj]
    simp [Nat.shiftRight_eq_div_pow]
    omega

theorem takeU32_inverts : Inverts takeU32 (fun n => (.ok (putU32 n) : Except IoError Bytes)) :=
  takeWord_inverts (fun _ => rfl) (fun n => by rw [fromBeBytes_putU32, UInt32.ofNat_toNat])
    fun _ => putU32_ofNat_fromBeBytes

theorem takeI16_inverts : Inverts takeI16 (fun n => (.ok (putI16 n) : Except IoError Bytes)) :=
  takeU16_inverts.map UInt16.toInt16 Int16.toUInt16 Int16.toInt16_toUInt16 UInt16.toUInt16_toInt16

theorem takeI32_inverts : Inverts takeI32 (fun n => (.ok (putI32 n) : Except IoError Bytes)) :=
  takeU32_inverts.map UInt32.toInt32 Int32.toUInt32 Int32.toInt32_toUInt32 UInt32.toUInt32_toInt32

/-! ## Strings, targets and sized values -/

theorem putCstrOr_eq_ok {text : String} {value : Bytes} :
    putCstrOr text value = .ok w ↔ 0 ∉ value ∧ value ++ [0] = w := by
  simp only [putCstrOr]
  split <;> simp_all

theorem takeCstrOr_inverts (unterminated text : String) :
    Inverts (takeCstrOr unterminated) (putCstrOr text) := by
  intro input value rest
  simp only [takeCstrOr, run_get_bind, putCstrOr_eq_ok]
  constructor
  · intro h
    split at h
    case h_1 => exact (run_throw_eq_ok.mp h).elim
    case h_2 terminator hfind =>
      obtain ⟨front, b, back, rfl, rfl, hnul, hfront⟩ := findIdx?_eq_some_iff_append.mp hfind
      simp only [run_bind_eq_ok, run_splitTo, run_pure_eq_ok, List.take_left,
        List.drop_left] at h
      obtain ⟨_, _, ⟨rfl, rfl⟩, _, _, ⟨_, rfl⟩, rfl, rfl⟩ := h
      obtain rfl : b = 0 := by simpa using hnul
      refine ⟨front ++ [0], ⟨?_, rfl⟩, by simp⟩
      intro hmem
      exact absurd (hfront 0 hmem) (by decide)
  · rintro ⟨w, ⟨hclean, rfl⟩, rfl⟩
    have hfind : (value ++ [0] ++ rest).findIdx? (· == 0) = some value.length := by
      refine findIdx?_eq_some_iff_append.mpr ⟨value, 0, rest, by simp, rfl, rfl, ?_⟩
      intro x hx
      by_contra hnul
      obtain rfl : x = 0 := by simpa using hnul
      exact hclean hx
    rw [hfind]
    simp only [run_bind_eq_ok, run_splitTo, run_pure_eq_ok, List.append_assoc,
      List.take_left, List.drop_left]
    exact ⟨value, [0] ++ rest, ⟨rfl, rfl⟩, [0], rest, ⟨rfl, rfl⟩, rfl, rfl⟩

theorem takeCstr_inverts : Inverts takeCstr putCstr :=
  takeCstrOr_inverts "unterminated string" "message string contains a NUL byte"

theorem takeByte_inverts {read : UInt8 → Take α} {byte : α → UInt8}
    (hread : ∀ b s t a, (read b).run s = .ok (a, t) → byte a = b ∧ s = t)
    (hbyte : ∀ a, read (byte a) = pure a) :
    Inverts (takeU8 >>= read) (fun a => (.ok (putU8 (byte a)) : Except IoError Bytes)) := by
  intro input a rest
  simp only [run_bind_eq_ok, takeU8_inverts.run_iff, Except.ok.injEq, exists_eq_left']
  constructor
  · rintro ⟨b, tail, rfl, h⟩
    obtain ⟨rfl, rfl⟩ := hread b _ _ _ h
    rfl
  · rintro rfl
    refine ⟨byte a, rest, rfl, ?_⟩
    rw [hbyte]
    rfl

theorem takeTarget_inverts :
    Inverts takeTarget (fun target => (.ok (putU8 (targetByte target)) : Except IoError Bytes)) := by
  apply takeByte_inverts
  · intro b s t target h
    split_ifs at h with hS hP
    · obtain ⟨rfl, rfl⟩ := run_pure_eq_ok.mp h
      exact ⟨hS.symm, rfl⟩
    · obtain ⟨rfl, rfl⟩ := run_pure_eq_ok.mp h
      exact ⟨hP.symm, rfl⟩
    · exact (run_throw_eq_ok.mp h).elim
  · intro target
    cases target <;> rfl

theorem takeSized_inverts (negative tooLarge : String) :
    Inverts (takeSized negative) (putSized tooLarge) := by
  intro input value rest
  simp only [takeSized, run_bind_eq_ok, takeI32_inverts.run_iff, Except.ok.injEq,
    exists_eq_left']
  constructor
  · rintro ⟨length, tail, rfl, h⟩
    split_ifs at h with hnone hneg
    · obtain ⟨rfl, rfl⟩ := run_pure_eq_ok.mp h
      rw [hnone]
      exact ⟨_, rfl, rfl⟩
    · exact (run_throw_eq_ok.mp h).elim
    · simp only [run_map_eq_ok, run_takeBytes] at h
      obtain ⟨w, ⟨hlen, rfl⟩, rfl⟩ := h
      have hlt : length.toNatClampNeg < 2 ^ 31 := length.toNatClampNeg_lt
      have hback : Int32.ofNat w.length = length := by
        rw [hlen]
        exact Int32.ofNat_toNatClampNeg length (Int32.not_lt.mp hneg)
      refine ⟨putI32 length ++ w, ?_, by simp⟩
      rw [putSized, if_pos (by rw [hlen, i32Max]; omega), hback]
  · rintro ⟨w, hput, rfl⟩
    cases value with
    | none =>
      cases hput
      exact ⟨-1, rest, rfl, rfl⟩
    | some value =>
      simp only [putSized] at hput
      split_ifs at hput with hle
      cases hput
      have hlt : value.length < 2 ^ 31 := by
        rw [i32Max] at hle
        omega
      refine ⟨Int32.ofNat value.length, value ++ rest, by simp, ?_⟩
      have hnonneg : ¬ Int32.ofNat value.length < 0 := by
        rw [Int32.lt_iff_toInt_lt, Int32.toInt_ofNat_of_lt hlt]
        simp
      have hne : Int32.ofNat value.length ≠ -1 := by
        rintro h
        exact hnonneg (by rw [h]; decide)
      rw [if_neg hne, if_neg hnonneg]
      simp only [run_map_eq_ok, run_takeBytes, Int32.toNatClampNeg_ofNat_of_lt hlt]
      exact ⟨value, ⟨rfl, rfl⟩, rfl⟩

/-! ## Counted lists -/

theorem putCount_eq_ok :
    putCount count = .ok w ↔ count ≤ u16Max ∧ putU16 (UInt16.ofNat count) = w := by
  simp only [putCount]
  split <;> simp_all

theorem putAll_eq_ok {items : List α} :
    putAll put items = .ok w ↔ ∃ ws, items.mapM put = .ok ws ∧ ws.flatten = w := by
  simp only [putAll, except_bind_eq_ok, except_pure_eq_ok]

theorem putAll_ok (put : α → Bytes) (items : List α) :
    putAll (fun item => .ok (put item)) items = .ok (items.flatMap put) := by
  refine putAll_eq_ok.mpr ⟨items.map put, List.mapM_pure, ?_⟩
  exact List.flatMap_def.symm

theorem run_requireCollectionBytes {remaining minimum : Nat} {description : String} {u : Unit} :
    (requireCollectionBytes count remaining minimum description).run body = .ok (u, rest) ↔
      count * minimum ≤ usizeMax ∧ count * minimum ≤ remaining ∧ body = rest := by
  simp only [requireCollectionBytes]
  split_ifs with hoverflow hshort
  · simp only [run_throw_eq_ok, false_iff, not_and]
    omega
  · simp only [run_throw_eq_ok, false_iff, not_and]
    omega
  · simp only [run_pure_eq_ok, true_and]
    constructor
    · rintro rfl
      exact ⟨by omega, by omega, rfl⟩
    · rintro ⟨_, _, rfl⟩
      rfl

/-- What follows the count of a counted list: the check of the bytes which are left, the items. -/
def takeItems {α : Type} (minimumItemLen : Nat) (description : String) (take : Take α)
    (count : Nat) : Take (List α) := do
  requireCollectionBytes count (← get).length minimumItemLen description
  Reader.many take count

/-- The check of the remaining bytes refuses no list of items which the loop would have read: every
item takes at least `minimum` bytes. -/
theorem run_takeItems {minimum : Nat} {description : String} (h : Inverts take put)
    (hmin : ∀ a w, put a = .ok w → minimum ≤ w.length) (hfits : count * minimum ≤ usizeMax)
    {input : Bytes} {items : List α} :
    (takeItems minimum description take count).run input = .ok (items, rest) ↔
      items.length = count ∧ ∃ w, putAll put items = .ok w ∧ input = w ++ rest := by
  simp only [takeItems, run_get_bind, run_bind_eq_ok, run_requireCollectionBytes,
    h.run_many, putAll_eq_ok]
  constructor
  · rintro ⟨_, _, ⟨_, _, rfl⟩, hlen, ws, hws, rfl⟩
    exact ⟨hlen, _, ⟨ws, hws, rfl⟩, rfl⟩
  · rintro ⟨rfl, _, ⟨ws, hws, rfl⟩, rfl⟩
    have hbytes : items.length * minimum ≤ ws.flatten.length := length_mul_le_of_mapM hmin hws
    refine ⟨(), _, ⟨hfits, ?_, rfl⟩, rfl, ws, hws, rfl⟩
    rw [List.length_append]
    omega

theorem takeCounted_inverts (minimum : Nat) (description : String) (h : Inverts take put)
    (hmin : ∀ a w, put a = .ok w → minimum ≤ w.length) (hsmall : minimum ≤ u32Max) :
    Inverts (takeCounted minimum description take) (fun items => do
      let count ← putCount items.length
      let parts ← putAll put items
      return count ++ parts) := by
  intro input items rest
  have hfits (count : UInt16) : count.toNat * minimum ≤ usizeMax :=
    calc count.toNat * minimum
        ≤ u16Max * u32Max := Nat.mul_le_mul (Nat.le_of_lt_succ count.toNat_lt) hsmall
      _ ≤ usizeMax := by decide
  have hcounted : takeCounted minimum description take =
      takeU16 >>= fun count => takeItems minimum description take count.toNat := rfl
  simp only [hcounted, run_bind_eq_ok, takeU16_inverts.run_iff,
    run_takeItems h hmin (hfits _), Except.ok.injEq, exists_eq_left', except_bind_eq_ok,
    except_pure_eq_ok, putCount_eq_ok]
  constructor
  · rintro ⟨count, _, rfl, hlen, w, hw, rfl⟩
    have hcount : UInt16.ofNat items.length = count := by
      rw [hlen]
      exact UInt16.ofNat_toNat
    refine ⟨_, ⟨_, ⟨?_, rfl⟩, w, hw, rfl⟩, ?_⟩
    · rw [hlen]
      exact Nat.le_of_lt_succ count.toNat_lt
    · rw [hcount, List.append_assoc]
  · rintro ⟨_, ⟨_, ⟨hcount, rfl⟩, w, hw, rfl⟩, rfl⟩
    refine ⟨UInt16.ofNat items.length, w ++ rest, by simp, ?_, w, hw, rfl⟩
    exact (UInt16.toNat_ofNat_of_lt' (Nat.lt_succ_of_le hcount)).symm

theorem putSized_length {tooLarge : String} {value : Option Bytes}
    (h : putSized tooLarge value = .ok w) : 4 ≤ w.length := by
  cases value with
  | none =>
    cases h
    decide
  | some value =>
    simp only [putSized] at h
    split_ifs at h
    cases h
    simp [putI32, putU32]

theorem takeCounted_words_inverts {put : α → Bytes} (width : Nat) (description : String)
    (h : Inverts take (fun a => (.ok (put a) : Except IoError Bytes)))
    (hwidth : ∀ a, (put a).length = width) (hsmall : width ≤ u32Max) :
    Inverts (takeCounted width description take) (fun items => do
      let count ← putCount items.length
      return count ++ items.flatMap put) := by
  have hcounted := takeCounted_inverts width description h
    (by rintro a w ⟨⟩; exact (hwidth a).ge) hsmall
  simp only [putAll_ok] at hcounted
  exact hcounted

theorem takeI16Vec_inverts : Inverts takeI16Vec putI16Vec :=
  takeCounted_words_inverts 2 "format count" takeI16_inverts (fun _ => rfl) (by decide)

theorem parameterTypes_inverts (description : String) :
    Inverts (takeCounted 4 description takeU32) (fun types => do
      let count ← putCount types.length
      return count ++ types.flatMap putU32) :=
  takeCounted_words_inverts 4 description takeU32_inverts (fun _ => rfl) (by decide)

theorem sizedValues_inverts (description negative tooLarge : String) :
    Inverts (takeCounted 4 description (takeSized negative)) (fun values => do
      let count ← putCount values.length
      let parts ← putAll (putSized tooLarge) values
      return count ++ parts) :=
  takeCounted_inverts 4 description (takeSized_inverts negative tooLarge)
    (fun _ _ h => putSized_length h) (by decide)

/-! ## Frontend messages -/

attribute [local simp] except_bind_eq_ok except_map_eq_ok

theorem decodeParse_iff {m : Parse} :
    decodeParse body = .ok m ↔ m.toFrame = .ok { tag := 'P'.toUInt8, body := body } := by
  refine Iff.trans (Decodes.run'_iff (
    .bind Parse.statement takeCstr_inverts fun statement =>
    .bind Parse.query takeCstr_inverts fun query =>
    .bind Parse.parameterTypes (parameterTypes_inverts _) fun parameterTypes =>
    .finish run_requireEmpty ?_)) ?_
  · rintro ⟨⟩
    simp [and_assoc]
  · simp [Parse.toFrame]

theorem decodeBind_iff {m : Bind} :
    decodeBind body = .ok m ↔ m.toFrame = .ok { tag := 'B'.toUInt8, body := body } := by
  refine Iff.trans (Decodes.run'_iff (
    .bind Bind.portal takeCstr_inverts fun portal =>
    .bind Bind.statement takeCstr_inverts fun statement =>
    .bind Bind.parameterFormats takeI16Vec_inverts fun parameterFormats =>
    .bind Bind.parameters (sizedValues_inverts _ _ "Bind parameter is too large") fun parameters =>
    .bind Bind.resultFormats takeI16Vec_inverts fun resultFormats =>
    .finish run_requireEmpty ?_)) ?_
  · rintro ⟨⟩
    simp [and_assoc]
  · simp [Bind.toFrame]

/-- `Describe` and `Close` have one layout. -/
theorem namedTargetFrame_eq_ok {tag : UInt8} {target : DescribeTarget} {name : Bytes} :
    namedTargetFrame tag target name = .ok { tag := tag, body := body } ↔
      ∃ w, putCstr name = .ok w ∧ putU8 (targetByte target) ++ w = body := by
  simp [namedTargetFrame]

theorem decodeDescribe_iff {m : Describe} :
    decodeDescribe body = .ok m ↔ m.toFrame = .ok { tag := 'D'.toUInt8, body := body } := by
  refine Iff.trans (Decodes.run'_iff (
    .bind Describe.target takeTarget_inverts fun target =>
    .bind Describe.name takeCstr_inverts fun name =>
    .finish run_requireEmpty ?_)) ?_
  · rintro ⟨⟩
    simp
  · simp [Describe.toFrame, namedTargetFrame_eq_ok]

theorem decodeClose_iff {m : Close} :
    decodeClose body = .ok m ↔ m.toFrame = .ok { tag := 'C'.toUInt8, body := body } := by
  refine Iff.trans (Decodes.run'_iff (
    .bind Close.target takeTarget_inverts fun target =>
    .bind Close.name takeCstr_inverts fun name =>
    .finish run_requireEmpty ?_)) ?_
  · rintro ⟨⟩
    simp
  · simp [Close.toFrame, namedTargetFrame_eq_ok]

theorem decodeExecute_iff {m : Execute} :
    decodeExecute body = .ok m ↔ m.toFrame = .ok { tag := 'E'.toUInt8, body := body } := by
  refine Iff.trans (Decodes.run'_iff (
    .bind Execute.portal takeCstr_inverts fun portal =>
    .bind Execute.maxRows takeI32_inverts fun maxRows =>
    .finish run_requireEmpty ?_)) ?_
  · rintro ⟨⟩
    simp
  · simp [Execute.toFrame]

theorem decodeFunctionCall_iff {m : FunctionCall} :
    decodeFunctionCall body = .ok m ↔ m.toFrame = .ok { tag := 'F'.toUInt8, body := body } := by
  refine Iff.trans (Decodes.run'_iff (
    .bind FunctionCall.functionOid takeU32_inverts fun functionOid =>
    .bind FunctionCall.argumentFormats takeI16Vec_inverts fun argumentFormats =>
    .bind FunctionCall.arguments (sizedValues_inverts _ _ "value is too large") fun arguments =>
    .bind FunctionCall.resultFormat takeI16_inverts fun resultFormat =>
    .finish run_requireEmpty ?_)) ?_
  · rintro ⟨⟩
    simp [and_assoc]
  · simp [FunctionCall.toFrame, putNullable]

theorem decodeCstrBody_iff {tag : UInt8} {value : Bytes} :
    decodeCstrBody body = .ok value ↔
      cstrMessage tag value = .ok { tag := tag, body := body } := by
  refine Iff.trans (Decodes.run'_iff (
    .bind id takeCstr_inverts fun value =>
    .finish run_requireEmpty ?_)) ?_
  · intro value
    simp
  · simp [cstrMessage]

theorem decodeEmpty_iff : decodeEmpty body = .ok () ↔ body = [] := by
  simp only [decodeEmpty, Reader.run'_eq_ok, run_requireEmpty]
  exact ⟨fun ⟨_, h, _⟩ => h, fun h => ⟨[], h, rfl⟩⟩

/-! ## The direction -/

/-- An encoder all of whose frames carry one tag. -/
def Tagged (tag : UInt8) (x : Except IoError Frame) : Prop :=
  ∀ f, x = .ok f → f.tag = tag

namespace Tagged

variable {tag : UInt8}

theorem ok {body : Bytes} : Tagged tag (.ok { tag := tag, body := body }) := by
  rintro f ⟨⟩
  rfl

theorem error {e : IoError} : Tagged tag (.error e) := by
  rintro f ⟨⟩

theorem bind {α : Type} {x : Except IoError α} {next : α → Except IoError Frame}
    (h : ∀ a, Tagged tag (next a)) : Tagged tag (x >>= next) := by
  intro f hf
  obtain ⟨a, _, hnext⟩ := except_bind_eq_ok.mp hf
  exact h a f hnext

theorem namedTarget {target : DescribeTarget} {name : Bytes} :
    Tagged tag (namedTargetFrame tag target name) :=
  .bind fun _ => .ok

theorem cstr {value : Bytes} : Tagged tag (cstrMessage tag value) :=
  .bind fun _ => .ok

end Tagged

/-- The tag of the frames of a message. -/
def FrontendMessage.tag : FrontendMessage → UInt8
  | .parse _ => 'P'.toUInt8
  | .bind _ => 'B'.toUInt8
  | .describe _ => 'D'.toUInt8
  | .close _ => 'C'.toUInt8
  | .execute _ => 'E'.toUInt8
  | .functionCall _ => 'F'.toUInt8
  | .query _ => 'Q'.toUInt8
  | .flush => 'H'.toUInt8
  | .sync => 'S'.toUInt8
  | .terminate => 'X'.toUInt8
  | .copyData _ => 'd'.toUInt8
  | .copyDone => 'c'.toUInt8
  | .copyFail _ => 'f'.toUInt8
  | .passwordResponse _ => 'p'.toUInt8

theorem FrontendMessage.toFrame_tag (m : FrontendMessage) : Tagged m.tag m.toFrame := by
  cases m with
  | parse m => exact .bind fun _ => .bind fun _ => .bind fun _ => .ok
  | bind m =>
    exact .bind fun _ => .bind fun _ => .bind fun _ => .bind fun _ => .bind fun _ =>
      .bind fun _ => .ok
  | describe m | close m => exact .namedTarget
  | execute m => exact .bind fun _ => .ok
  | functionCall m => exact .bind fun _ => .bind fun _ => .bind fun _ => .ok
  | query sql | copyFail sql => exact .cstr
  | flush | sync | terminate | copyDone | copyData data | passwordResponse data => exact .ok

/-- The arms of the match of `Frontend::decode`. -/
def Frontend.arms : List (UInt8 × (Bytes → Except IoError FrontendMessage)) :=
  [('P'.toUInt8, fun body => .parse <$> decodeParse body),
   ('B'.toUInt8, fun body => .bind <$> decodeBind body),
   ('D'.toUInt8, fun body => .describe <$> decodeDescribe body),
   ('C'.toUInt8, fun body => .close <$> decodeClose body),
   ('E'.toUInt8, fun body => .execute <$> decodeExecute body),
   ('F'.toUInt8, fun body => .functionCall <$> decodeFunctionCall body),
   ('H'.toUInt8, fun body => (fun () => .flush) <$> decodeEmpty body),
   ('Q'.toUInt8, fun body => .query <$> decodeCstrBody body),
   ('S'.toUInt8, fun body => (fun () => .sync) <$> decodeEmpty body),
   ('X'.toUInt8, fun body => (fun () => .terminate) <$> decodeEmpty body),
   ('c'.toUInt8, fun body => (fun () => .copyDone) <$> decodeEmpty body),
   ('d'.toUInt8, fun body => .ok (.copyData body)),
   ('f'.toUInt8, fun body => .copyFail <$> decodeCstrBody body),
   ('p'.toUInt8, fun body => .ok (.passwordResponse body))]

theorem Frontend.decode_eq_dispatch (frame : Frame) :
    Frontend.decode frame =
      dispatch (fun tag => .error (unknownTag "frontend" tag)) Frontend.arms frame.tag frame.body :=
  rfl

theorem map_arm {M : Type} {wrap : α → M} {read : Bytes → Except IoError α} {Q : Bytes → M → Prop}
    (h : ∀ body a, read body = .ok a → Q body (wrap a)) :
    ∀ body m, wrap <$> read body = .ok m → Q body m := by
  intro body m hm
  obtain ⟨a, hread, rfl⟩ := except_map_eq_ok.mp hm
  exact h body a hread

theorem empty_arm {M : Type} {m₀ : M} {Q : Bytes → M → Prop} (h : Q [] m₀) :
    ∀ body m, (fun () => m₀) <$> decodeEmpty body = .ok m → Q body m :=
  map_arm fun body _ hread => by
    obtain rfl := decodeEmpty_iff.mp hread
    exact h

theorem Frontend.arms_sound : ∀ arm ∈ Frontend.arms, ∀ body m, arm.2 body = .ok m →
    m.toFrame = .ok { tag := arm.1, body := body } := by
  simp only [Frontend.arms, List.forall_mem_cons]
  refine ⟨map_arm fun _ _ => decodeParse_iff.mp, map_arm fun _ _ => decodeBind_iff.mp,
    map_arm fun _ _ => decodeDescribe_iff.mp, map_arm fun _ _ => decodeClose_iff.mp,
    map_arm fun _ _ => decodeExecute_iff.mp, map_arm fun _ _ => decodeFunctionCall_iff.mp,
    empty_arm rfl, map_arm fun _ _ => decodeCstrBody_iff.mp, empty_arm rfl, empty_arm rfl,
    empty_arm rfl, ?copyData, map_arm fun _ _ => decodeCstrBody_iff.mp, ?passwordResponse,
    List.forall_mem_nil _⟩
  case copyData | passwordResponse =>
    rintro body m ⟨⟩
    rfl

theorem Frontend.decode_of_toFrame {m : FrontendMessage} {f : Frame} (h : m.toFrame = .ok f) :
    Frontend.decode f = .ok m := by
  obtain ⟨tag, body⟩ := f
  -- the tag of the frame selects the decoder of the message
  obtain rfl : tag = m.tag := m.toFrame_tag _ h
  cases m with
  | parse m => exact except_map_eq_ok.mpr ⟨m, decodeParse_iff.mpr h, rfl⟩
  | bind m => exact except_map_eq_ok.mpr ⟨m, decodeBind_iff.mpr h, rfl⟩
  | describe m => exact except_map_eq_ok.mpr ⟨m, decodeDescribe_iff.mpr h, rfl⟩
  | close m => exact except_map_eq_ok.mpr ⟨m, decodeClose_iff.mpr h, rfl⟩
  | execute m => exact except_map_eq_ok.mpr ⟨m, decodeExecute_iff.mpr h, rfl⟩
  | functionCall m => exact except_map_eq_ok.mpr ⟨m, decodeFunctionCall_iff.mpr h, rfl⟩
  | query text | copyFail text => exact except_map_eq_ok.mpr ⟨text, decodeCstrBody_iff.mpr h, rfl⟩
  | flush | sync | terminate | copyDone | copyData data | passwordResponse data =>
    cases h
    rfl

/-- A message encodes to a frame exactly if the frame decodes to the message. -/
theorem toFrame_eq_ok_iff_decode (m : FrontendMessage) (f : Frame) :
    m.toFrame = .ok f ↔ Frontend.decode f = .ok m := by
  refine ⟨Frontend.decode_of_toFrame, fun h => ?_⟩
  rw [Frontend.decode_eq_dispatch] at h
  exact dispatch_sound (fun tag body m => m.toFrame = .ok { tag := tag, body := body })
    (by rintro tag m ⟨⟩) Frontend.arms_sound h

/-- The sign of a length is part of the law: `-1` is no value, a length of zero the empty one. -/
example :
    let empty : FrontendMessage := .bind ⟨[], [], [], [some []], []⟩
    let null : FrontendMessage := .bind ⟨[], [], [], [none], []⟩
    (empty.toFrame.bind Frontend.decode).toOption = some empty ∧
      (null.toFrame.bind Frontend.decode).toOption = some null := by
  decide

end PgProto
