import PgProto.Codec.Decode

/-!
# DecodeBackend — typed messages from the frames of a server

`Backend::decode` of `src/codec.rs`, with the decoder of every backend message.  Two lists of the
backend formats have no count: diagnostic fields and SASL mechanisms end at a zero byte, so an item
whose word starts with a zero byte cannot be told from the end of its list.  The encoder refuses
such a diagnostic field, a field with code zero, but not a mechanism with an empty name.

`Backend.decode_iff` is therefore the law of the direction with one exception: a frame decodes to a
message exactly if the message encodes to that frame and names all its mechanisms.
-/

namespace PgProto

open Lib
open Reader (run_pure_eq_ok run_map_eq_ok run_bind_eq_ok run'_eq_ok)

/-! ## Backend decoders -/

/-- The loop of a list which ends at a zero byte. -/
def takeTerminated {α : Type} (take : Take α) : Take (List α) :=
  Reader.readUntil 0 (invalid "truncated message body") (Reader.push take) []

/-- `body.split_to(body.len())`. -/
def takeRest : Take Bytes := do
  splitTo (← get).length

/-- `require(4)` makes the conversion of the slice to `[u8; 4]` succeed. -/
def takeSalt : Take (Vector UInt8 4) :=
  (fun word => Vector.ofFn fun i => word.getD i 0) <$> takeBytes 4

/-- The arms of the match of `decode_authentication`. -/
def authenticationArms : List (UInt32 × Take Authentication) :=
  [(0, pure .ok),
   (2, pure .kerberosV5),
   (3, pure .cleartextPassword),
   (5, .md5Password <$> takeSalt),
   (7, pure .gss),
   (8, .gssContinue <$> takeRest),
   (9, pure .sspi),
   (10, .sasl <$> takeTerminated takeCstr),
   (11, .saslContinue <$> takeRest),
   (12, .saslFinal <$> takeRest)]

def takeAuthentication (kind : UInt32) : Take Authentication :=
  dispatch (fun _ => .error (invalid "unknown authentication request")) authenticationArms kind

def decodeAuthentication : Bytes → Except IoError Authentication :=
  StateT.run' do
    let kind ← takeU32
    let auth ← takeAuthentication kind
    requireEmpty
    return auth

def decodeParameterStatus : Bytes → Except IoError BackendMessage :=
  StateT.run' do
    let name ← takeCstr
    let value ← takeCstr
    requireEmpty
    return .parameterStatus name value

def decodeNotification : Bytes → Except IoError BackendMessage :=
  StateT.run' do
    let processId ← takeU32
    let channel ← takeCstr
    let payload ← takeCstr
    requireEmpty
    return .notificationResponse processId channel payload

def decodeBackendKeyData : Bytes → Except IoError BackendMessage :=
  StateT.run' do
    let processId ← takeU32
    let secretKey ← get
    if 4 ≤ secretKey.length ∧ secretKey.length ≤ 256 then
      return .backendKeyData processId secretKey
    else
      throw (invalid "cancellation key length is outside 4..=256")

def takeStatus : Take TransactionStatus := do
  let byte ← takeU8
  if byte = 'I'.toUInt8 then
    return .idle
  else if byte = 'T'.toUInt8 then
    return .inTransaction
  else if byte = 'E'.toUInt8 then
    return .failedTransaction
  else
    throw (invalid "unknown transaction status")

def decodeReady : Bytes → Except IoError BackendMessage :=
  StateT.run' do
    let status ← takeStatus
    requireEmpty
    return .readyForQuery status

/-- The two halves of a version word.  Each is below `2 ^ 16`, so `u16::try_from` keeps it. -/
def splitVersion (newest : UInt32) : ProtocolVersion :=
  { major := (newest >>> 16).toUInt16
    minor := (newest &&& 0xffff).toUInt16 }

def decodeNegotiateProtocolVersion : Bytes → Except IoError BackendMessage :=
  StateT.run' do
    let newest ← splitVersion <$> takeU32
    let count ← takeU32
    let unsupportedOptions ← takeItems 1 "unsupported option count" takeCstr count.toNat
    requireEmpty
    return .negotiateProtocolVersion { newest, unsupportedOptions }

def decodeDataRow : Bytes → Except IoError DataRow :=
  StateT.run' do
    let columns ← takeCounted 4 "column count" takeNullable
    requireEmpty
    return { columns }

def takeDiagnosticField : Take DiagnosticField := do
  let code ← takeU8
  let value ← takeCstr
  return { code, value }

def decodeDiagnostic : Bytes → Except IoError DiagnosticResponse :=
  StateT.run' do
    let fields ← takeTerminated takeDiagnosticField
    requireEmpty
    return { fields }

def decodeCopyResponse : Bytes → Except IoError CopyResponse :=
  StateT.run' do
    let overallFormat ← takeU8
    let columnFormats ← takeI16Vec
    requireEmpty
    return { overallFormat, columnFormats }

def decodeParameterDescription : Bytes → Except IoError (List UInt32) :=
  StateT.run' do
    let types ← takeCounted 4 "parameter type count" takeU32
    requireEmpty
    return types

def takeFieldDescription : Take FieldDescription := do
  let name ← takeCstr
  let tableOid ← takeU32
  let column ← takeI16
  let typeOid ← takeU32
  let typeSize ← takeI16
  let typeModifier ← takeI32
  let format ← takeI16
  return { name, tableOid, column, typeOid, typeSize, typeModifier, format }

def decodeRowDescription : Bytes → Except IoError RowDescription :=
  StateT.run' do
    let fields ← takeCounted 19 "field count" takeFieldDescription
    requireEmpty
    return { fields }

/-- The arms of the match of `Backend::decode`. -/
def Backend.arms : List (UInt8 × (Bytes → Except IoError BackendMessage)) :=
  [('1'.toUInt8, fun body => (fun () => .parseComplete) <$> decodeEmpty body),
   ('2'.toUInt8, fun body => (fun () => .bindComplete) <$> decodeEmpty body),
   ('3'.toUInt8, fun body => (fun () => .closeComplete) <$> decodeEmpty body),
   ('C'.toUInt8, fun body => .commandComplete <$> decodeCstrBody body),
   ('c'.toUInt8, fun body => (fun () => .copyDone) <$> decodeEmpty body),
   ('d'.toUInt8, fun body => .ok (.copyData body)),
   ('D'.toUInt8, fun body => .dataRow <$> decodeDataRow body),
   ('E'.toUInt8, fun body => .errorResponse <$> decodeDiagnostic body),
   ('G'.toUInt8, fun body => .copyInResponse <$> decodeCopyResponse body),
   ('H'.toUInt8, fun body => .copyOutResponse <$> decodeCopyResponse body),
   ('I'.toUInt8, fun body => (fun () => .emptyQueryResponse) <$> decodeEmpty body),
   ('n'.toUInt8, fun body => (fun () => .noData) <$> decodeEmpty body),
   ('s'.toUInt8, fun body => (fun () => .portalSuspended) <$> decodeEmpty body),
   ('t'.toUInt8, fun body => .parameterDescription <$> decodeParameterDescription body),
   ('T'.toUInt8, fun body => .rowDescription <$> decodeRowDescription body),
   ('V'.toUInt8, fun body => .ok (.functionCallResponse body)),
   ('W'.toUInt8, fun body => .copyBothResponse <$> decodeCopyResponse body),
   ('R'.toUInt8, fun body => .authentication <$> decodeAuthentication body),
   ('S'.toUInt8, decodeParameterStatus),
   ('N'.toUInt8, fun body => .noticeResponse <$> decodeDiagnostic body),
   ('A'.toUInt8, decodeNotification),
   ('K'.toUInt8, decodeBackendKeyData),
   ('Z'.toUInt8, decodeReady),
   ('v'.toUInt8, decodeNegotiateProtocolVersion)]

/-- `Direction::decode` of `Backend`. -/
def Backend.decode (frame : Frame) : Except IoError BackendMessage :=
  dispatch (fun tag => .error (unknownTag "backend" tag)) Backend.arms frame.tag frame.body

/-! ## Field readers -/

variable {body w : Bytes} {m : BackendMessage}

theorem run_takeRest {data rest : Bytes} :
    takeRest.run body = .ok (data, rest) ↔ body = data ∧ rest = [] := by
  simp only [takeRest, Reader.run_get_bind, run_splitTo, List.take_length, List.drop_length]
  exact and_congr_right fun _ => eq_comm

theorem takeSalt_inverts :
    Inverts takeSalt (fun salt => (.ok salt.toList : Except IoError Bytes)) := by
  apply takeWord_inverts
  · intro salt
    exact salt.length_toList
  · intro salt
    ext i hi
    simp
  · intro w hw
    apply List.ext_getElem
    · simp [hw]
    · intro i _ hi
      simp [hi]

theorem takeStatus_inverts :
    Inverts takeStatus (fun status => (.ok (putU8 status.asByte) : Except IoError Bytes)) := by
  apply takeByte_inverts
  · intro b s t status h
    split_ifs at h with hI hT hE
    · obtain ⟨rfl, rfl⟩ := run_pure_eq_ok.mp h
      exact ⟨hI.symm, rfl⟩
    · obtain ⟨rfl, rfl⟩ := run_pure_eq_ok.mp h
      exact ⟨hT.symm, rfl⟩
    · obtain ⟨rfl, rfl⟩ := run_pure_eq_ok.mp h
      exact ⟨hE.symm, rfl⟩
    · exact (Reader.run_throw_eq_ok.mp h).elim
  · intro status
    cases status <;> rfl

/-- The version word as `NegotiateProtocolVersion::to_frame` builds it. -/
def joinVersion (version : ProtocolVersion) : UInt32 :=
  (version.major.toUInt32 <<< 16) ||| version.minor.toUInt32

theorem joinVersion_toNat (version : ProtocolVersion) :
    (joinVersion version).toNat = version.major.toNat * 2 ^ 16 + version.minor.toNat := by
  have hmajor := version.major.toNat_lt
  have hminor := version.minor.toNat_lt
  have hor := Nat.shiftLeft_add_eq_or_of_lt hminor version.major.toNat
  simp only [joinVersion, UInt32.toNat_or, UInt32.toNat_shiftLeft, UInt16.toNat_toUInt32]
  rw [Nat.mod_eq_of_lt]
  · rw [← Nat.shiftLeft_eq, hor]
    rfl
  · simp [Nat.shiftLeft_eq]
    omega

theorem splitVersion_major_toNat (newest : UInt32) :
    (splitVersion newest).major.toNat = newest.toNat / 2 ^ 16 := by
  have h := newest.toNat_lt
  simp [splitVersion, Nat.shiftRight_eq_div_pow]
  omega

theorem splitVersion_minor_toNat (newest : UInt32) :
    (splitVersion newest).minor.toNat = newest.toNat % 2 ^ 16 := by
  have hmask : newest.toNat &&& 0xffff = newest.toNat % 2 ^ 16 := Nat.and_two_pow_sub_one_eq_mod _ 16
  simp only [splitVersion, UInt32.toNat_toUInt16, UInt32.toNat_and]
  exact (congrArg (· % 2 ^ 16) hmask).trans (Nat.mod_mod _ _)

theorem splitVersion_joinVersion (version : ProtocolVersion) :
    splitVersion (joinVersion version) = version := by
  have hlow := version.minor.toNat_lt
  have hmajor : (splitVersion (joinVersion version)).major = version.major := by
    apply UInt16.toNat_inj.mp
    rw [splitVersion_major_toNat, joinVersion_toNat]
    omega
  have hminor : (splitVersion (joinVersion version)).minor = version.minor := by
    apply UInt16.toNat_inj.mp
    rw [splitVersion_minor_toNat, joinVersion_toNat]
    omega
  exact congr (congrArg ProtocolVersion.mk hmajor) hminor

theorem joinVersion_splitVersion (newest : UInt32) : joinVersion (splitVersion newest) = newest := by
  apply UInt32.toNat_inj.mp
  rw [joinVersion_toNat, splitVersion_major_toNat, splitVersion_minor_toNat]
  exact Nat.div_add_mod' _ _

theorem takeVersion_inverts :
    Inverts (splitVersion <$> takeU32)
      (fun version => (.ok (putU32 (joinVersion version)) : Except IoError Bytes)) :=
  takeU32_inverts.map splitVersion joinVersion splitVersion_joinVersion joinVersion_splitVersion

attribute [local simp] except_bind_eq_ok except_map_eq_ok

theorem takeFieldDescription_inverts : Inverts takeFieldDescription FieldDescription.put := by
  refine Reads.inverts (
    .bind FieldDescription.name takeCstr_inverts fun name =>
    .bind FieldDescription.tableOid takeU32_inverts fun tableOid =>
    .bind FieldDescription.column takeI16_inverts fun column =>
    .bind FieldDescription.typeOid takeU32_inverts fun typeOid =>
    .bind FieldDescription.typeSize takeI16_inverts fun typeSize =>
    .bind FieldDescription.typeModifier takeI32_inverts fun typeModifier =>
    .bind FieldDescription.format takeI16_inverts fun format =>
    .pure ?_) ?_
  · rintro ⟨⟩
    simp [and_assoc]
  · intro f w
    simp [FieldDescription.put]

/-- Every field takes its 18 bytes of numbers and at least the terminator of its name. -/
theorem FieldDescription.put_length {f : FieldDescription} (h : f.put = .ok w) : 19 ≤ w.length := by
  simp only [FieldDescription.put, except_bind_eq_ok, except_pure_eq_ok] at h
  obtain ⟨name, hname, rfl⟩ := h
  obtain ⟨_, rfl⟩ := putCstrOr_eq_ok.mp hname
  simp only [List.length_append, putU32, putI16, putI32, putU16, List.length_cons, List.length_nil]
  omega

/-! ## Terminated lists -/

theorem putCstrOr_ne_nil {text : String} {value : Bytes} (h : putCstrOr text value = .ok w) :
    w ≠ [] := by
  obtain ⟨_, rfl⟩ := putCstrOr_eq_ok.mp h
  simp

/-- The word of a string looks like a terminator exactly if the string is empty. -/
theorem putCstrOr_head_iff {text : String} {value : Bytes} (h : putCstrOr text value = .ok w) :
    w.head? ≠ some 0 ↔ value ≠ [] := by
  obtain ⟨hclean, rfl⟩ := putCstrOr_eq_ok.mp h
  cases value with
  | nil => simp
  | cons b bs =>
    simp only [List.mem_cons, not_or] at hclean
    simpa using fun hb => hclean.1 hb.symm

theorem run_mechanisms {input rest : Bytes} {mechanisms : List Bytes} :
    (takeTerminated takeCstr).run input = .ok (mechanisms, rest) ↔
      [] ∉ mechanisms ∧ ∃ w, putAll putCstr mechanisms = .ok w ∧ input = w ++ 0 :: rest := by
  simp only [takeTerminated, takeCstr_inverts.run_readUntil_push fun _ _ => putCstrOr_ne_nil,
    putAll_eq_ok]
  constructor
  · rintro ⟨ws, hws, hheads, rfl⟩
    have hnames := (forall_mem_words_iff (fun _ _ => putCstrOr_head_iff) hws).mp hheads
    exact ⟨fun hmem => hnames [] hmem rfl, _, ⟨ws, hws, rfl⟩, rfl⟩
  · rintro ⟨hnames, _, ⟨ws, hws, rfl⟩, rfl⟩
    refine ⟨ws, hws, (forall_mem_words_iff (fun _ _ => putCstrOr_head_iff) hws).mpr ?_, rfl⟩
    rintro name hmem rfl
    exact hnames hmem

/-- The word of a field before the encoder looks at its code. -/
def DiagnosticField.word (f : DiagnosticField) : Except IoError Bytes := do
  let value ← putCstr f.value
  return putU8 f.code ++ value

theorem takeDiagnosticField_inverts : Inverts takeDiagnosticField DiagnosticField.word := by
  refine Reads.inverts (
    .bind DiagnosticField.code takeU8_inverts fun code =>
    .bind DiagnosticField.value takeCstr_inverts fun value =>
    .pure ?_) ?_
  · rintro ⟨⟩
    simp
  · intro f w
    simp [DiagnosticField.word]

theorem DiagnosticField.put_eq_ok {f : DiagnosticField} :
    f.put = .ok w ↔ f.code ≠ 0 ∧ f.word = .ok w := by
  rw [DiagnosticField.put]
  split_ifs with hcode
  · simp [hcode]
  · simp [hcode, DiagnosticField.word]

theorem DiagnosticField.word_head {f : DiagnosticField} (h : f.word = .ok w) :
    w.head? = some f.code := by
  simp only [DiagnosticField.word, except_bind_eq_ok, except_pure_eq_ok] at h
  obtain ⟨_, _, rfl⟩ := h
  rfl

/-- The encoder refuses the code which would end the list, so no condition is left. -/
theorem run_diagnosticFields {input rest : Bytes} {fields : List DiagnosticField} :
    (takeTerminated takeDiagnosticField).run input = .ok (fields, rest) ↔
      ∃ w, putAll DiagnosticField.put fields = .ok w ∧ input = w ++ 0 :: rest := by
  have hpos (f : DiagnosticField) (w : Bytes) (h : f.word = .ok w) : w ≠ [] := by
    rintro rfl
    exact absurd (DiagnosticField.word_head h) (by simp)
  have hhead (f : DiagnosticField) (w : Bytes) (h : f.word = .ok w) :
      w.head? ≠ some 0 ↔ f.code ≠ 0 := by
    rw [DiagnosticField.word_head h]
    simp
  simp only [takeTerminated, takeDiagnosticField_inverts.run_readUntil_push hpos, putAll_eq_ok,
    mapM_guarded_iff fun f w => DiagnosticField.put_eq_ok]
  constructor
  · rintro ⟨ws, hws, hheads, rfl⟩
    exact ⟨_, ⟨ws, ⟨(forall_mem_words_iff hhead hws).mp hheads, hws⟩, rfl⟩, rfl⟩
  · rintro ⟨_, ⟨ws, ⟨hcodes, hws⟩, rfl⟩, rfl⟩
    exact ⟨ws, hws, (forall_mem_words_iff hhead hws).mpr hcodes, rfl⟩

/-! ## Backend messages -/

theorem decodeDataRow_iff {m : DataRow} :
    decodeDataRow body = .ok m ↔ m.toFrame = .ok { tag := 'D'.toUInt8, body := body } := by
  refine Iff.trans (Decodes.run'_iff (
    .bind DataRow.columns (sizedValues_inverts _ _ "value is too large") fun columns =>
    .finish run_requireEmpty ?_)) ?_
  · rintro ⟨⟩
    simp
  · simp [DataRow.toFrame, putNullable]

theorem decodeRowDescription_iff {m : RowDescription} :
    decodeRowDescription body = .ok m ↔ m.toFrame = .ok { tag := 'T'.toUInt8, body := body } := by
  refine Iff.trans (Decodes.run'_iff (
    .bind RowDescription.fields
      (takeCounted_inverts 19 _ takeFieldDescription_inverts
        (fun _ _ => FieldDescription.put_length) (by decide)) fun fields =>
    .finish run_requireEmpty ?_)) ?_
  · rintro ⟨⟩
    simp
  · simp [RowDescription.toFrame]

theorem decodeCopyResponse_iff {tag : UInt8} {m : CopyResponse} :
    decodeCopyResponse body = .ok m ↔
      copyResponseFrame tag m = .ok { tag := tag, body := body } := by
  refine Iff.trans (Decodes.run'_iff (
    .bind CopyResponse.overallFormat takeU8_inverts fun overallFormat =>
    .bind CopyResponse.columnFormats takeI16Vec_inverts fun columnFormats =>
    .finish run_requireEmpty ?_)) ?_
  · rintro ⟨⟩
    simp
  · simp [copyResponseFrame]

theorem decodeParameterDescription_iff {types : List UInt32} :
    decodeParameterDescription body = .ok types ↔
      (BackendMessage.parameterDescription types).toFrame =
        .ok { tag := 't'.toUInt8, body := body } := by
  refine Iff.trans (Decodes.run'_iff (
    .bind id (parameterTypes_inverts _) fun types =>
    .finish run_requireEmpty ?_)) ?_
  · intro types
    simp
  · simp [BackendMessage.toFrame]

theorem decodeDiagnostic_iff {tag : UInt8} {m : DiagnosticResponse} :
    decodeDiagnostic body = .ok m ↔ diagnosticFrame tag m = .ok { tag := tag, body := body } := by
  obtain ⟨fields⟩ := m
  simp only [decodeDiagnostic, run'_eq_ok, run_bind_eq_ok, run_diagnosticFields,
    run_requireEmpty, run_pure_eq_ok, diagnosticFrame, except_bind_eq_ok, except_pure_eq_ok,
    DiagnosticResponse.mk.injEq, Frame.mk.injEq, true_and]
  constructor
  · rintro ⟨_, fields, _, ⟨w, hw, rfl⟩, _, _, ⟨rfl, _⟩, rfl, _⟩
    exact ⟨w, hw, rfl⟩
  · rintro ⟨w, hw, rfl⟩
    exact ⟨[], fields, [], ⟨w, hw, rfl⟩, (), [], ⟨rfl, rfl⟩, rfl, rfl⟩

theorem decodeParameterStatus_iff :
    decodeParameterStatus body = .ok m ↔
      ∃ name value, m = .parameterStatus name value ∧
        m.toFrame = .ok { tag := 'S'.toUInt8, body := body } := by
  simp only [decodeParameterStatus, run'_eq_ok, run_bind_eq_ok,
    takeCstr_inverts.run_iff, run_requireEmpty, run_pure_eq_ok]
  constructor
  · rintro ⟨_, name, _, ⟨n, hn, rfl⟩, value, _, ⟨v, hv, rfl⟩, _, _, ⟨rfl, _⟩, rfl, _⟩
    refine ⟨name, value, rfl, ?_⟩
    simp [BackendMessage.toFrame, hn, hv]
  · rintro ⟨name, value, rfl, h⟩
    simp only [BackendMessage.toFrame, except_bind_eq_ok, except_pure_eq_ok, Frame.mk.injEq,
      true_and] at h
    obtain ⟨n, hn, v, hv, rfl⟩ := h
    exact ⟨[], name, v, ⟨n, hn, rfl⟩, value, [], ⟨v, hv, by simp⟩, (), [], ⟨rfl, rfl⟩, rfl, rfl⟩

theorem decodeNotification_iff :
    decodeNotification body = .ok m ↔
      ∃ processId channel payload, m = .notificationResponse processId channel payload ∧
        m.toFrame = .ok { tag := 'A'.toUInt8, body := body } := by
  simp only [decodeNotification, run'_eq_ok, run_bind_eq_ok, takeU32_inverts.run_iff,
    takeCstr_inverts.run_iff, run_requireEmpty, run_pure_eq_ok, Except.ok.injEq,
    exists_eq_left']
  constructor
  · rintro ⟨_, processId, _, rfl, channel, _, ⟨c, hc, rfl⟩, payload, _, ⟨p, hp, rfl⟩, _, _,
      ⟨rfl, _⟩, rfl, _⟩
    refine ⟨processId, channel, payload, rfl, ?_⟩
    simp [BackendMessage.toFrame, hc, hp]
  · rintro ⟨processId, channel, payload, rfl, h⟩
    simp only [BackendMessage.toFrame, except_bind_eq_ok, except_pure_eq_ok, Frame.mk.injEq,
      true_and] at h
    obtain ⟨c, hc, p, hp, rfl⟩ := h
    exact ⟨[], processId, c ++ p, by simp, channel, p, ⟨c, hc, rfl⟩, payload, [],
      ⟨p, hp, by simp⟩, (), [], ⟨rfl, rfl⟩, rfl, rfl⟩

theorem decodeBackendKeyData_iff :
    decodeBackendKeyData body = .ok m ↔
      ∃ processId secretKey, m = .backendKeyData processId secretKey ∧
        m.toFrame = .ok { tag := 'K'.toUInt8, body := body } := by
  simp only [decodeBackendKeyData, run'_eq_ok, run_bind_eq_ok,
    takeU32_inverts.run_iff, Reader.run_get_bind, Except.ok.injEq, exists_eq_left']
  constructor
  · rintro ⟨_, processId, secretKey, rfl, h⟩
    split_ifs at h with hlength
    · obtain ⟨rfl, _⟩ := run_pure_eq_ok.mp h
      exact ⟨processId, secretKey, rfl, if_pos hlength⟩
    · exact (Reader.run_throw_eq_ok.mp h).elim
  · rintro ⟨processId, secretKey, rfl, h⟩
    simp only [BackendMessage.toFrame] at h
    split_ifs at h with hlength
    cases h
    refine ⟨secretKey, processId, secretKey, rfl, ?_⟩
    rw [if_pos hlength]
    rfl

theorem decodeReady_iff :
    decodeReady body = .ok m ↔
      ∃ status, m = .readyForQuery status ∧
        m.toFrame = .ok { tag := 'Z'.toUInt8, body := body } := by
  simp only [decodeReady, run'_eq_ok, run_bind_eq_ok, takeStatus_inverts.run_iff,
    run_requireEmpty, run_pure_eq_ok, Except.ok.injEq, exists_eq_left']
  constructor
  · rintro ⟨_, status, _, rfl, _, _, ⟨rfl, _⟩, rfl, _⟩
    exact ⟨status, rfl, rfl⟩
  · rintro ⟨status, rfl, ⟨⟩⟩
    exact ⟨[], status, [], rfl, (), [], ⟨rfl, rfl⟩, rfl, rfl⟩

theorem decodeNegotiateProtocolVersion_iff :
    decodeNegotiateProtocolVersion body = .ok m ↔
      ∃ message, m = .negotiateProtocolVersion message ∧
        m.toFrame = .ok { tag := 'v'.toUInt8, body := body } := by
  have hfits (count : UInt32) : count.toNat * 1 ≤ usizeMax :=
    calc count.toNat * 1 ≤ 2 ^ 32 := by have := count.toNat_lt; omega
      _ ≤ usizeMax := by decide
  have hmin (value w : Bytes) (h : putCstr value = .ok w) : 1 ≤ w.length :=
    List.length_pos_iff.mpr (putCstrOr_ne_nil h)
  simp only [decodeNegotiateProtocolVersion, run'_eq_ok, run_bind_eq_ok,
    takeVersion_inverts.run_iff, takeU32_inverts.run_iff,
    run_takeItems takeCstr_inverts hmin (hfits _), run_requireEmpty, run_pure_eq_ok,
    Except.ok.injEq, exists_eq_left']
  constructor
  · rintro ⟨_, newest, _, rfl, count, _, rfl, options, _, ⟨hlen, w, hw, rfl⟩, _, _, ⟨rfl, _⟩, rfl, _⟩
    have hcount : UInt32.ofNat options.length = count := by
      rw [hlen]
      exact UInt32.ofNat_toNat
    have hle : options.length ≤ u32Max := by
      rw [hlen]
      exact Nat.le_of_lt_succ count.toNat_lt
    refine ⟨_, rfl, ?_⟩
    simp [BackendMessage.toFrame, NegotiateProtocolVersion.toFrame, hle, hcount, hw, joinVersion]
  · rintro ⟨⟨newest, options⟩, rfl, h⟩
    simp only [BackendMessage.toFrame, NegotiateProtocolVersion.toFrame] at h
    split_ifs at h with hle
    · simp only [except_bind_eq_ok, except_pure_eq_ok, Except.ok.injEq, exists_eq_left',
        Frame.mk.injEq, true_and] at h
      obtain ⟨w, hw, rfl⟩ := h
      refine ⟨[], newest, _, by rw [joinVersion, List.append_assoc], UInt32.ofNat options.length,
        w, rfl, options, [], ⟨?_, w, hw, by simp⟩, (), [], ⟨rfl, rfl⟩, rfl, rfl⟩
      exact (UInt32.toNat_ofNat_of_lt' (Nat.lt_succ_of_le hle)).symm
    · simp only [except_bind_eq_ok, reduceCtorEq, false_and, exists_false] at h

/-! ## Authentication -/

/-- No SASL mechanism is offered under an empty name. -/
def Authentication.namesMechanisms : Authentication → Bool
  | .sasl mechanisms => !mechanisms.contains []
  | _ => true

/-- What an arm of `decode_authentication` guarantees if it leaves nothing unread. -/
def AuthenticationArm (kind : UInt32) (input : Bytes) (result : Authentication × Bytes) : Prop :=
  result.2 = [] → result.1.namesMechanisms = true ∧
    authenticationBody result.1 = .ok (putU32 kind ++ input)

theorem AuthenticationArm.fixed {kind : UInt32} {auth : Authentication}
    (hnames : auth.namesMechanisms = true) (hbody : authenticationBody auth = .ok (putU32 kind))
    (input : Bytes) (result : Authentication × Bytes)
    (h : (pure auth : Take Authentication).run input = .ok result) :
    AuthenticationArm kind input result := by
  obtain ⟨auth', rest⟩ := result
  obtain ⟨rfl, rfl⟩ := run_pure_eq_ok.mp h
  rintro hrest
  obtain rfl : input = [] := hrest
  exact ⟨hnames, by rw [List.append_nil]; exact hbody⟩

theorem AuthenticationArm.rest {kind : UInt32} {wrap : Bytes → Authentication}
    (hnames : ∀ data, (wrap data).namesMechanisms = true)
    (hbody : ∀ data, authenticationBody (wrap data) = .ok (putU32 kind ++ data))
    (input : Bytes) (result : Authentication × Bytes)
    (h : (wrap <$> takeRest).run input = .ok result) :
    AuthenticationArm kind input result := by
  obtain ⟨data, hrun, hdata⟩ := run_map_eq_ok.mp h
  obtain ⟨rfl, _⟩ := run_takeRest.mp hrun
  intro _
  rw [← hdata]
  exact ⟨hnames input, hbody input⟩

theorem authenticationArms_sound : ∀ arm ∈ authenticationArms, ∀ input result,
    arm.2 input = .ok result → AuthenticationArm arm.1 input result := by
  simp only [authenticationArms, List.forall_mem_cons]
  refine ⟨.fixed rfl rfl, .fixed rfl rfl, .fixed rfl rfl, ?md5, .fixed rfl rfl,
    .rest (fun _ => rfl) fun _ => rfl, .fixed rfl rfl, ?sasl, .rest (fun _ => rfl) fun _ => rfl,
    .rest (fun _ => rfl) fun _ => rfl, List.forall_mem_nil _⟩
  case md5 =>
    rintro input ⟨auth, rest⟩ h hrest
    obtain ⟨salt, hrun, rfl⟩ := run_map_eq_ok.mp h
    obtain ⟨w, ⟨⟩, rfl⟩ := takeSalt_inverts.run_iff.mp hrun
    obtain rfl : rest = [] := hrest
    exact ⟨rfl, by simp [authenticationBody]⟩
  case sasl =>
    rintro input ⟨auth, rest⟩ h hrest
    obtain ⟨mechanisms, hrun, rfl⟩ := run_map_eq_ok.mp h
    obtain ⟨hnames, w, hw, rfl⟩ := run_mechanisms.mp hrun
    obtain rfl : rest = [] := hrest
    refine ⟨by simpa [Authentication.namesMechanisms] using hnames, ?_⟩
    simp [authenticationBody, hw, putU8]

theorem run_takeAuthentication {auth : Authentication} (hnames : auth.namesMechanisms = true)
    (hbody : authenticationBody auth = .ok body) :
    ∃ kind input, body = putU32 kind ++ input ∧
      (takeAuthentication kind).run input = .ok (auth, []) := by
  cases auth with
  | ok | kerberosV5 | cleartextPassword | gss | sspi =>
    cases hbody
    exact ⟨_, [], (List.append_nil _).symm, rfl⟩
  | md5Password salt =>
    refine ⟨5, salt.toList, by cases hbody; rfl, ?_⟩
    exact run_map_eq_ok.mpr ⟨salt, takeSalt_inverts.run_iff.mpr ⟨_, rfl, by simp⟩, rfl⟩
  | gssContinue data | saslContinue data | saslFinal data =>
    cases hbody
    exact ⟨_, data, rfl, run_map_eq_ok.mpr ⟨data, run_takeRest.mpr ⟨rfl, rfl⟩, rfl⟩⟩
  | sasl mechanisms =>
    simp only [authenticationBody, except_bind_eq_ok, except_pure_eq_ok] at hbody
    obtain ⟨w, hw, rfl⟩ := hbody
    refine ⟨10, w ++ putU8 0, by simp, ?_⟩
    refine run_map_eq_ok.mpr ⟨mechanisms, run_mechanisms.mpr ⟨?_, w, hw, rfl⟩, rfl⟩
    simpa [Authentication.namesMechanisms] using hnames

theorem decodeAuthentication_iff {m : Authentication} :
    decodeAuthentication body = .ok m ↔
      m.namesMechanisms = true ∧ authenticationFrame m = .ok { tag := 'R'.toUInt8, body := body } := by
  have hframe : authenticationFrame m = .ok { tag := 'R'.toUInt8, body := body } ↔
      authenticationBody m = .ok body := by
    simp [authenticationFrame]
  rw [hframe]
  simp only [decodeAuthentication, run'_eq_ok, run_bind_eq_ok,
    takeU32_inverts.run_iff, run_requireEmpty, run_pure_eq_ok, Except.ok.injEq,
    exists_eq_left']
  constructor
  · rintro ⟨_, kind, input, rfl, auth, _, harm, _, _, ⟨rfl, _⟩, rfl, _⟩
    exact dispatch_sound AuthenticationArm (by rintro _ _ ⟨⟩) authenticationArms_sound harm rfl
  · rintro ⟨hnames, hbody⟩
    obtain ⟨kind, input, rfl, hrun⟩ := run_takeAuthentication hnames hbody
    exact ⟨[], kind, input, rfl, m, [], hrun, (), [], ⟨rfl, rfl⟩, rfl, rfl⟩

/-! ## The direction -/

/-- The condition on the one message the encoder does not check. -/
def BackendMessage.namesMechanisms : BackendMessage → Bool
  | .authentication m => m.namesMechanisms
  | _ => true

/-- The tag of the frames of a message. -/
def BackendMessage.tag : BackendMessage → UInt8
  | .rowDescription _ => 'T'.toUInt8
  | .authentication _ => 'R'.toUInt8
  | .parseComplete => '1'.toUInt8
  | .bindComplete => '2'.toUInt8
  | .closeComplete => '3'.toUInt8
  | .commandComplete _ => 'C'.toUInt8
  | .copyData _ => 'd'.toUInt8
  | .copyDone => 'c'.toUInt8
  | .copyInResponse _ => 'G'.toUInt8
  | .copyOutResponse _ => 'H'.toUInt8
  | .copyBothResponse _ => 'W'.toUInt8
  | .dataRow _ => 'D'.toUInt8
  | .emptyQueryResponse => 'I'.toUInt8
  | .errorResponse _ => 'E'.toUInt8
  | .noData => 'n'.toUInt8
  | .parameterStatus _ _ => 'S'.toUInt8
  | .noticeResponse _ => 'N'.toUInt8
  | .notificationResponse _ _ _ => 'A'.toUInt8
  | .backendKeyData _ _ => 'K'.toUInt8
  | .readyForQuery _ => 'Z'.toUInt8
  | .parameterDescription _ => 't'.toUInt8
  | .portalSuspended => 's'.toUInt8
  | .functionCallResponse _ => 'V'.toUInt8
  | .negotiateProtocolVersion _ => 'v'.toUInt8

theorem BackendMessage.toFrame_tag (m : BackendMessage) : Tagged m.tag m.toFrame := by
  cases m with
  | rowDescription m | dataRow m => exact .bind fun _ => .bind fun _ => .ok
  | authentication m => exact .bind fun _ => .ok
  | commandComplete value => exact .cstr
  | copyInResponse m | copyOutResponse m | copyBothResponse m => exact .bind fun _ => .ok
  | errorResponse m | noticeResponse m => exact .bind fun _ => .ok
  | parameterStatus name value | notificationResponse processId name value =>
    exact .bind fun _ => .bind fun _ => .ok
  | backendKeyData processId secretKey =>
    simp only [toFrame]
    split_ifs
    · exact .ok
    · exact .error
  | parameterDescription types => exact .bind fun _ => .ok
  | negotiateProtocolVersion m =>
    simp only [toFrame, NegotiateProtocolVersion.toFrame]
    split_ifs
    · exact .bind fun _ => .bind fun _ => .ok
    · exact .bind fun _ => .bind fun _ => .ok
  | parseComplete | bindComplete | closeComplete | copyData data | copyDone | emptyQueryResponse
  | noData | readyForQuery status | portalSuspended | functionCallResponse data => exact .ok

/-- What a server frame guarantees of the message it is decoded to. -/
def BackendArm (tag : UInt8) (body : Bytes) (m : BackendMessage) : Prop :=
  m.namesMechanisms = true ∧ m.toFrame = .ok { tag := tag, body := body }

theorem Backend.arms_sound : ∀ arm ∈ Backend.arms, ∀ body m, arm.2 body = .ok m →
    BackendArm arm.1 body m := by
  simp only [Backend.arms, List.forall_mem_cons]
  refine ⟨empty_arm ⟨rfl, rfl⟩, empty_arm ⟨rfl, rfl⟩, empty_arm ⟨rfl, rfl⟩,
    map_arm fun _ _ h => ⟨rfl, decodeCstrBody_iff.mp h⟩, empty_arm ⟨rfl, rfl⟩, ?copyData,
    map_arm fun _ _ h => ⟨rfl, decodeDataRow_iff.mp h⟩,
    map_arm fun _ _ h => ⟨rfl, decodeDiagnostic_iff.mp h⟩,
    map_arm fun _ _ h => ⟨rfl, decodeCopyResponse_iff.mp h⟩,
    map_arm fun _ _ h => ⟨rfl, decodeCopyResponse_iff.mp h⟩,
    empty_arm ⟨rfl, rfl⟩, empty_arm ⟨rfl, rfl⟩, empty_arm ⟨rfl, rfl⟩,
    map_arm fun _ _ h => ⟨rfl, decodeParameterDescription_iff.mp h⟩,
    map_arm fun _ _ h => ⟨rfl, decodeRowDescription_iff.mp h⟩, ?functionCallResponse,
    map_arm fun _ _ h => ⟨rfl, decodeCopyResponse_iff.mp h⟩,
    map_arm fun _ _ h => decodeAuthentication_iff.mp h, ?parameterStatus,
    map_arm fun _ _ h => ⟨rfl, decodeDiagnostic_iff.mp h⟩, ?notification, ?keyData, ?ready,
    ?negotiate, List.forall_mem_nil _⟩
  case copyData | functionCallResponse =>
    rintro body m ⟨⟩
    exact ⟨rfl, rfl⟩
  case parameterStatus =>
    intro body m h
    obtain ⟨name, value, rfl, hframe⟩ := decodeParameterStatus_iff.mp h
    exact ⟨rfl, hframe⟩
  case notification =>
    intro body m h
    obtain ⟨processId, channel, payload, rfl, hframe⟩ := decodeNotification_iff.mp h
    exact ⟨rfl, hframe⟩
  case keyData =>
    intro body m h
    obtain ⟨processId, secretKey, rfl, hframe⟩ := decodeBackendKeyData_iff.mp h
    exact ⟨rfl, hframe⟩
  case ready =>
    intro body m h
    obtain ⟨status, rfl, hframe⟩ := decodeReady_iff.mp h
    exact ⟨rfl, hframe⟩
  case negotiate =>
    intro body m h
    obtain ⟨message, rfl, hframe⟩ := decodeNegotiateProtocolVersion_iff.mp h
    exact ⟨rfl, hframe⟩

theorem Backend.decode_complete (hnames : m.namesMechanisms = true)
    (h : m.toFrame = .ok { tag := m.tag, body := body }) :
    Backend.decode { tag := m.tag, body := body } = .ok m := by
  cases m with
  | rowDescription m =>
    exact congrArg (Functor.map BackendMessage.rowDescription) (decodeRowDescription_iff.mpr h)
  | authentication m =>
    exact congrArg (Functor.map BackendMessage.authentication)
      (decodeAuthentication_iff.mpr ⟨hnames, h⟩)
  | commandComplete value =>
    exact congrArg (Functor.map BackendMessage.commandComplete) (decodeCstrBody_iff.mpr h)
  | copyInResponse m =>
    exact congrArg (Functor.map BackendMessage.copyInResponse) (decodeCopyResponse_iff.mpr h)
  | copyOutResponse m =>
    exact congrArg (Functor.map BackendMessage.copyOutResponse) (decodeCopyResponse_iff.mpr h)
  | copyBothResponse m =>
    exact congrArg (Functor.map BackendMessage.copyBothResponse) (decodeCopyResponse_iff.mpr h)
  | dataRow m => exact congrArg (Functor.map BackendMessage.dataRow) (decodeDataRow_iff.mpr h)
  | errorResponse m =>
    exact congrArg (Functor.map BackendMessage.errorResponse) (decodeDiagnostic_iff.mpr h)
  | noticeResponse m =>
    exact congrArg (Functor.map BackendMessage.noticeResponse) (decodeDiagnostic_iff.mpr h)
  | parameterStatus name value => exact decodeParameterStatus_iff.mpr ⟨name, value, rfl, h⟩
  | notificationResponse processId channel payload =>
    exact decodeNotification_iff.mpr ⟨processId, channel, payload, rfl, h⟩
  | backendKeyData processId secretKey =>
    exact decodeBackendKeyData_iff.mpr ⟨processId, secretKey, rfl, h⟩
  | readyForQuery status => exact decodeReady_iff.mpr ⟨status, rfl, h⟩
  | parameterDescription types =>
    exact congrArg (Functor.map BackendMessage.parameterDescription)
      (decodeParameterDescription_iff.mpr h)
  | negotiateProtocolVersion m => exact decodeNegotiateProtocolVersion_iff.mpr ⟨m, rfl, h⟩
  | parseComplete | bindComplete | closeComplete | copyData data | copyDone | emptyQueryResponse
  | noData | portalSuspended | functionCallResponse data =>
    cases h
    rfl

theorem Backend.decode_sound {f : Frame} (h : Backend.decode f = .ok m) :
    m.namesMechanisms = true ∧ m.toFrame = .ok f :=
  dispatch_sound BackendArm (by rintro _ _ ⟨⟩) Backend.arms_sound h

/-! ## Both directions of the codec -/

/-- What a client accepted from a server re-encodes to the frame which arrived. -/
theorem toFrame_of_backend_decode (f : Frame) (m : BackendMessage) (h : Backend.decode f = .ok m) :
    m.toFrame = .ok f :=
  (Backend.decode_sound h).2

/-- An offer of two mechanisms. -/
theorem toFrame_of_backend_decode_sasl :
    let f : Frame := { tag := 'R'.toUInt8, body := [0, 0, 0, 10, 65, 0, 66, 67, 0, 0] }
    Backend.decode f = .ok (.authentication (.sasl [[65], [66, 67]])) ∧
      (BackendMessage.authentication (.sasl [[65], [66, 67]])).toFrame = .ok f :=
  ⟨rfl, toFrame_of_backend_decode _ _ rfl⟩

/-- A frame decodes to a message exactly if the message encodes to the frame and, if it offers
mechanisms, names each of them.  So a peer receives a message which counts as reconstructable exactly
if it names its mechanisms. -/
theorem Backend.decode_iff (m : BackendMessage) :
    (∀ f, Backend.decode f = .ok m ↔ m.namesMechanisms = true ∧ m.toFrame = .ok f) ∧
      ((∃ f, m.toFrame = .ok f ∧ Backend.decode f = .ok m) ↔
        m.namesMechanisms = true ∧ m.isReconstructable = true) := by
  have hdecode (f : Frame) (hnames : m.namesMechanisms = true) (h : m.toFrame = .ok f) :
      Backend.decode f = .ok m := by
    obtain ⟨tag, body⟩ := f
    obtain rfl : tag = m.tag := m.toFrame_tag _ h
    exact Backend.decode_complete hnames h
  refine ⟨fun f => ⟨Backend.decode_sound, fun h => hdecode f h.1 h.2⟩, ?_⟩
  constructor
  · rintro ⟨f, hframe, h⟩
    exact ⟨(Backend.decode_sound h).1, by simp [BackendMessage.isReconstructable, hframe, Except.toBool]⟩
  · rintro ⟨hnames, hreconstructable⟩
    cases hframe : m.toFrame with
    | error e => simp [BackendMessage.isReconstructable, hframe, Except.toBool] at hreconstructable
    | ok f => exact ⟨f, rfl, hdecode f hnames hframe⟩

/-- The word of an empty name is the terminator of the list, so the real terminator is left over. -/
theorem unnamed_mechanism_rejected :
    ∃ (m : BackendMessage) (f : Frame), m.isReconstructable = true ∧ m.toFrame = .ok f ∧
      Backend.decode f = .error (invalid "trailing message bytes") :=
  ⟨.authentication (.sasl [[]]), { tag := 'R'.toUInt8, body := [0, 0, 0, 10, 0, 0] }, rfl, rfl, rfl⟩

end PgProto
