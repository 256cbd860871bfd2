import PgProto.Codec.Framing
import PgProto.Lib.SortedMap

/-!
# Startup — untagged packets in front of a session

`StartupMessage` of `src/startup.rs` and the pre-startup packets of `src/pre_startup.rs`.  A packet
has no tag: its length is followed by a word which is one of three request codes or, in any other
packet, the protocol version.  The parameters of a startup packet end at a zero byte.

Two things are therefore ambiguous which the encoder does not refuse: a startup message whose
version is the code of a cancellation request, and a parameter with an empty name.
`ofPacket_toPacket` shows that nothing else is.
-/

namespace PgProto

open Lib

/-! ## Startup messages -/

structure StartupMessage where
  version : ProtocolVersion
  parameters : SortedMap Bytes Bytes
  deriving DecidableEq

/-- `put_cstr` of `src/startup.rs`. -/
def putStartupCstr : Bytes → Except IoError Bytes :=
  putCstrOr "startup parameter contains a NUL byte"

/-- `take_cstr` of `src/startup.rs`. -/
def takeStartupCstr : Take Bytes :=
  takeCstrOr "unterminated startup parameter"

def putParameter (parameter : Bytes × Bytes) : Except IoError Bytes := do
  let name ← putStartupCstr parameter.1
  let value ← putStartupCstr parameter.2
  return name ++ value

namespace StartupMessage

def encode (message : StartupMessage) : Except IoError Bytes := do
  let parameters ← putAll putParameter message.parameters.entries
  let output :=
    putU16 message.version.major ++ putU16 message.version.minor ++ parameters ++ putU8 0
  -- the length counts its own four bytes, which are filled in last
  if output.length + 4 ≤ i32Max then
    return putI32 (Int32.ofNat (output.length + 4)) ++ output
  else
    throw (invalidInput "startup packet too large")

/-- One round of the loop over the parameters. -/
def takeParameter (parameters : SortedMap Bytes Bytes) : Take (SortedMap Bytes Bytes) := do
  let name ← takeStartupCstr
  let value ← takeStartupCstr
  match parameters.insertNew (name, value) with
  | some parameters => return parameters
  | none => throw (invalid "duplicate startup parameter")

def decode (packet : Bytes) : Except IoError StartupMessage :=
  if packet.length < 8 then
    .error (invalid "startup packet is shorter than 8 bytes")
  else
    StateT.run' (do
      let declared ← takeU32
      if declared.toNat ≠ (← get).length + 4 then
        throw (invalid "startup packet length does not match its bytes")
      let major ← takeU16
      let minor ← takeU16
      let parameters ← Reader.readUntil 0
        (invalid "startup parameters have no final terminator") takeParameter SortedMap.empty
      unless (← get).isEmpty do
        throw (invalid "startup packet has trailing bytes")
      return { version := { major, minor }, parameters }) packet

end StartupMessage

/-! ## Pre-startup packets -/

inductive PreStartupMessage
  | sslRequest
  | gssEncRequest
  | cancelRequest (processId : UInt32) (secretKey : Bytes)
  | startup (message : StartupMessage)
  deriving DecidableEq

def sslRequestCode : UInt32 := 80877103
def gssEncRequestCode : UInt32 := 80877104
def cancelRequestCode : UInt32 := 80877102

def requestPacket (code : UInt32) : Bytes :=
  putU32 8 ++ putU32 code

def cancelPacket (processId : UInt32) (secretKey : Bytes) : Except IoError Bytes :=
  if 4 ≤ secretKey.length ∧ secretKey.length ≤ 256 then
    .ok (putU32 (12 + UInt32.ofNat secretKey.length) ++ putU32 cancelRequestCode ++
      putU32 processId ++ secretKey)
  else
    .error (invalidInput "cancellation key length is outside 4..=256")

namespace PreStartupMessage

def toPacket : PreStartupMessage → Except IoError Bytes
  | .sslRequest => .ok (requestPacket sslRequestCode)
  | .gssEncRequest => .ok (requestPacket gssEncRequestCode)
  | .cancelRequest processId secretKey => cancelPacket processId secretKey
  | .startup message => message.encode

/-- The big-endian word at a position of a packet. -/
def wordAt (position : Nat) (packet : Bytes) : UInt32 :=
  UInt32.ofNat (fromBeBytes ((packet.drop position).take 4))

/-- The match on the code of a complete packet. -/
def ofPacket (packet : Bytes) : Except IoError PreStartupMessage :=
  let code := wordAt 4 packet
  if code = sslRequestCode ∧ packet.length = 8 then
    .ok .sslRequest
  else if code = gssEncRequestCode ∧ packet.length = 8 then
    .ok .gssEncRequest
  else if code = cancelRequestCode then
    if 16 ≤ packet.length ∧ packet.length ≤ 268 then
      .ok (.cancelRequest (wordAt 8 packet) (packet.drop 12))
    else
      .error (invalid "invalid CancelRequest length")
  else
    .startup <$> StartupMessage.decode packet

end PreStartupMessage

def decodePreStartupWithLimit (input : Bytes) (maxPacketLen : Nat) : Attempt PreStartupMessage :=
  if ¬ (8 ≤ maxPacketLen ∧ maxPacketLen ≤ i32Max) then
    .fail input "pre-startup packet limit must be between 8 and i32::MAX bytes"
  else if input.length < 4 then
    .wait input 4
  else
    let length := fromBeBytes (input.take 4)
    if length < 8 then
      .fail input "pre-startup packet is shorter than 8 bytes"
    else if i32Max < length then
      .fail input "pre-startup packet length exceeds i32::MAX"
    else if maxPacketLen < length then
      .fail input "pre-startup packet exceeds configured limit"
    else if input.length < length then
      .wait input length
    else
      { result := some <$> PreStartupMessage.ofPacket (input.take length)
        source := input.drop length
        reserved := 0 }

/-! ## Parameters -/

variable {parameter : Bytes × Bytes} {w packet : Bytes}

theorem putParameter_eq_ok :
    putParameter parameter = .ok w ↔
      ∃ name value, putStartupCstr parameter.1 = .ok name ∧
        putStartupCstr parameter.2 = .ok value ∧ name ++ value = w := by
  simp only [putParameter, except_bind_eq_ok, except_pure_eq_ok]
  constructor
  · rintro ⟨name, hname, value, hvalue, rfl⟩
    exact ⟨name, value, hname, hvalue, rfl⟩
  · rintro ⟨name, value, hname, hvalue, rfl⟩
    exact ⟨name, hname, value, hvalue, rfl⟩

theorem putParameter_ne_nil (h : putParameter parameter = .ok w) : w ≠ [] := by
  obtain ⟨name, value, hname, _, rfl⟩ := putParameter_eq_ok.mp h
  exact List.append_ne_nil_of_left_ne_nil (putCstrOr_ne_nil hname) value

theorem putParameter_head_iff (h : putParameter parameter = .ok w) :
    w.head? ≠ some 0 ↔ parameter.1 ≠ [] := by
  obtain ⟨name, value, hname, _, rfl⟩ := putParameter_eq_ok.mp h
  rw [← putCstrOr_head_iff hname, List.head?_append_of_ne_nil _ (putCstrOr_ne_nil hname)]

/-- A round of the loop reads one parameter and takes it in unless its name is there already. -/
theorem takeParameter_rounds :
    Rounds StartupMessage.takeParameter putParameter SortedMap.insertNew := by
  intro parameters input parameters' rest
  simp only [StartupMessage.takeParameter, Reader.run_bind_eq_ok, takeStartupCstr,
    (takeCstrOr_inverts _ "startup parameter contains a NUL byte").run_iff]
  constructor
  · rintro ⟨name, _, ⟨n, hn, rfl⟩, value, _, ⟨v, hv, rfl⟩, hinsert⟩
    refine ⟨(name, value), n ++ v, putParameter_eq_ok.mpr ⟨n, v, hn, hv, rfl⟩, ?_⟩
    split at hinsert
    · obtain ⟨rfl, rfl⟩ := Reader.run_pure_eq_ok.mp hinsert
      exact ⟨by simp, by assumption⟩
    · exact (Reader.run_throw_eq_ok.mp hinsert).elim
  · rintro ⟨⟨name, value⟩, w, hw, rfl, hinsert⟩
    obtain ⟨n, v, hn, hv, rfl⟩ := putParameter_eq_ok.mp hw
    refine ⟨name, v ++ rest, ⟨n, hn, by simp⟩, value, rest, ⟨v, hv, rfl⟩, ?_⟩
    simp only [hinsert]
    rfl

/-! ## Words of a packet -/

theorem putI32_ofNat (n : Nat) : putI32 (Int32.ofNat n) = putU32 (UInt32.ofNat n) := rfl

theorem fromBeBytes_take_putU32 {n : Nat} (h : n ≤ i32Max) (rest : Bytes) :
    fromBeBytes ((putU32 (UInt32.ofNat n) ++ rest).take 4) = n := by
  have htake : (putU32 (UInt32.ofNat n) ++ rest).take 4 = putU32 (UInt32.ofNat n) := rfl
  have hlt : n < 2 ^ 32 := Nat.lt_of_le_of_lt h (by decide)
  rw [htake, fromBeBytes_putU32]
  exact UInt32.toNat_ofNat_of_lt' hlt

theorem fromBeBytes_version (major minor : UInt16) :
    fromBeBytes (putU16 major ++ putU16 minor) = major.toNat * 2 ^ 16 + minor.toNat := by
  have hmajor := major.toNat_lt
  have hminor := minor.toNat_lt
  simp [putU16, fromBeBytes, Nat.shiftRight_eq_div_pow]
  omega

/-- The version which reads as the code of a cancellation request. -/
def cancelVersion : ProtocolVersion :=
  { major := 1234
    minor := 5678 }

theorem version_eq_of_code {version : ProtocolVersion}
    (h : UInt32.ofNat (fromBeBytes (putU16 version.major ++ putU16 version.minor)) =
      cancelRequestCode) : version = cancelVersion := by
  have hmajor := version.major.toNat_lt
  have hminor := version.minor.toNat_lt
  rw [fromBeBytes_version] at h
  have hcode : version.major.toNat * 2 ^ 16 + version.minor.toNat = 80877102 := by
    have hnat := congrArg UInt32.toNat h
    rwa [UInt32.toNat_ofNat_of_lt' (show _ < 2 ^ 32 by omega)] at hnat
  have hfirst : version.major = 1234 := UInt16.toNat_inj.mp (show _ = 1234 by omega)
  have hsecond : version.minor = 5678 := UInt16.toNat_inj.mp (show _ = 5678 by omega)
  exact congr (congrArg ProtocolVersion.mk hfirst) hsecond

/-! ## Startup packets -/

namespace StartupMessage

/-- The bytes of a packet behind its length. -/
def output (message : StartupMessage) (parameters : Bytes) : Bytes :=
  putU16 message.version.major ++ putU16 message.version.minor ++ parameters ++ putU8 0

theorem encode_eq_ok {message : StartupMessage} :
    message.encode = .ok packet ↔
      ∃ parameters, putAll putParameter message.parameters.entries = .ok parameters ∧
        (message.output parameters).length + 4 ≤ i32Max ∧
        putU32 (UInt32.ofNat ((message.output parameters).length + 4)) ++
          message.output parameters = packet := by
  simp only [encode, except_bind_eq_ok]
  apply exists_congr
  intro parameters
  apply and_congr_right
  intro _
  split_ifs with hle
  · simp only [except_pure_eq_ok, putI32_ofNat]
    exact ⟨fun h => ⟨hle, h⟩, And.right⟩
  · exact ⟨fun h => (by cases h), fun h => absurd h.1 hle⟩

theorem output_length (message : StartupMessage) (parameters : Bytes) :
    (message.output parameters).length = parameters.length + 5 := by
  simp only [output, putU16, putU8, List.length_append, List.length_cons, List.length_nil]
  omega

theorem decode_encode {message : StartupMessage}
    (hnames : ∀ parameter ∈ message.parameters.entries, parameter.1 ≠ [])
    (h : message.encode = .ok packet) : decode packet = .ok message := by
  obtain ⟨parameters, hparameters, hle, rfl⟩ := encode_eq_ok.mp h
  obtain ⟨ws, hws, rfl⟩ := putAll_eq_ok.mp hparameters
  have hloop : (Reader.readUntil 0 (invalid "startup parameters have no final terminator")
      takeParameter SortedMap.empty).run (ws.flatten ++ putU8 0) =
        .ok (message.parameters, []) := by
    refine (takeParameter_rounds.run_readUntil fun _ _ => putParameter_ne_nil).mpr ?_
    refine ⟨message.parameters.entries, ws, hws, ?_, rfl, SortedMap.foldlM_insertNew _⟩
    exact (forall_mem_words_iff (fun _ _ => putParameter_head_iff) hws).mpr hnames
  have hlong : ¬ (putU32 (UInt32.ofNat ((message.output ws.flatten).length + 4)) ++
      message.output ws.flatten).length < 8 := by
    simp only [List.length_append, putU32, List.length_cons, List.length_nil, output_length]
    omega
  have hdeclared : (UInt32.ofNat ((message.output ws.flatten).length + 4)).toNat =
      (message.output ws.flatten).length + 4 :=
    UInt32.toNat_ofNat_of_lt' (Nat.lt_of_le_of_lt hle (by decide))
  rw [decode, if_neg hlong]
  simp only [Reader.run'_eq_ok, Reader.run_bind_eq_ok, takeU32_inverts.run_iff, Except.ok.injEq,
    exists_eq_left', Reader.run_get_bind]
  refine ⟨[], _, _, rfl, ?_⟩
  rw [if_neg (not_not.mpr hdeclared)]
  simp only [Reader.run_bind_eq_ok, takeU16_inverts.run_iff, Except.ok.injEq, exists_eq_left',
    Reader.run_get_bind]
  refine ⟨message.version.major, _, by rw [output, List.append_assoc, List.append_assoc],
    message.version.minor, _, rfl, message.parameters, [], hloop, ?_⟩
  rfl

end StartupMessage

/-! ## Packets with a code -/

namespace PreStartupMessage

/-- A packet starts with its own length, which covers at least the length and the code. -/
structure Sized (packet : Bytes) : Prop where
  declared : fromBeBytes (packet.take 4) = packet.length
  atLeast : 8 ≤ packet.length

theorem sized_of_append {n : Nat} {body : Bytes} (hn : n = body.length + 4) (hle : n ≤ i32Max)
    (h : 4 ≤ body.length) : Sized (putU32 (UInt32.ofNat n) ++ body) := by
  have hlength : (putU32 (UInt32.ofNat n) ++ body).length = n := by
    simp only [List.length_append, putU32, List.length_cons, List.length_nil]
    omega
  refine ⟨?_, ?_⟩
  · rw [fromBeBytes_take_putU32 hle, hlength]
  · omega

theorem cancelPacket_eq_ok {processId : UInt32} {secretKey : Bytes} :
    cancelPacket processId secretKey = .ok packet ↔
      (4 ≤ secretKey.length ∧ secretKey.length ≤ 256) ∧
        putU32 (UInt32.ofNat (secretKey.length + 12)) ++
          (putU32 cancelRequestCode ++ (putU32 processId ++ secretKey)) = packet := by
  have hlength : 12 + UInt32.ofNat secretKey.length = UInt32.ofNat (secretKey.length + 12) := by
    rw [Nat.add_comm]
    exact (UInt32.ofNat_add 12 secretKey.length).symm
  rw [cancelPacket]
  split_ifs with hkey
  · simp only [Except.ok.injEq, hkey, true_and, and_true, hlength, List.append_assoc]
  · exact ⟨fun h => (by cases h), fun h => absurd h.1 hkey⟩

theorem sized_of_toPacket {message : PreStartupMessage} (h : message.toPacket = .ok packet) :
    Sized packet := by
  cases message with
  | sslRequest | gssEncRequest =>
    cases h
    exact ⟨by decide, by decide⟩
  | cancelRequest processId secretKey =>
    obtain ⟨⟨_, hkey⟩, rfl⟩ := cancelPacket_eq_ok.mp h
    have hbody : (putU32 cancelRequestCode ++ (putU32 processId ++ secretKey)).length =
        secretKey.length + 8 := by
      simp only [List.length_append, putU32, List.length_cons, List.length_nil]
      omega
    refine sized_of_append (by omega) ?_ (by omega)
    calc secretKey.length + 12 ≤ 268 := by omega
      _ ≤ i32Max := by decide
  | startup message =>
    obtain ⟨parameters, _, hle, rfl⟩ := StartupMessage.encode_eq_ok.mp h
    exact sized_of_append rfl hle (by rw [message.output_length]; omega)

/-- The wire form tells the message: it is no startup message which asks for the version that is the
code of a cancellation request or which has a parameter without a name. -/
def isUnambiguous : PreStartupMessage → Bool
  | .startup message =>
    message.version ≠ cancelVersion && message.parameters.entries.all (fun entry => entry.1 ≠ [])
  | _ => true

theorem wordAt_eq {position : Nat} (n : UInt32) (h : (packet.drop position).take 4 = putU32 n) :
    wordAt position packet = n := by
  rw [wordAt, h, fromBeBytes_putU32]
  exact UInt32.ofNat_toNat

/-- A startup packet is longer than the packets of the two encryption requests. -/
theorem ofPacket_startup {message : StartupMessage} (hversion : message.version ≠ cancelVersion)
    (h : message.encode = .ok packet) :
    ofPacket packet = .startup <$> StartupMessage.decode packet := by
  obtain ⟨parameters, _, hle, rfl⟩ := StartupMessage.encode_eq_ok.mp h
  have hlength : (putU32 (UInt32.ofNat ((message.output parameters).length + 4)) ++
      message.output parameters).length ≠ 8 := by
    simp only [List.length_append, putU32, List.length_cons, List.length_nil,
      message.output_length]
    omega
  have hcode : wordAt 4 (putU32 (UInt32.ofNat ((message.output parameters).length + 4)) ++
      message.output parameters) =
        UInt32.ofNat (fromBeBytes (putU16 message.version.major ++ putU16 message.version.minor)) :=
    rfl
  simp only [ofPacket]
  rw [if_neg (fun h => hlength h.2), if_neg (fun h => hlength h.2), hcode,
    if_neg (fun h => hversion (version_eq_of_code h))]

theorem ofPacket_cancel {processId length : UInt32} {secretKey : Bytes}
    (hkey : 4 ≤ secretKey.length ∧ secretKey.length ≤ 256) :
    ofPacket (putU32 length ++ (putU32 cancelRequestCode ++ (putU32 processId ++ secretKey))) =
      .ok (.cancelRequest processId secretKey) := by
  set packet := putU32 length ++ (putU32 cancelRequestCode ++ (putU32 processId ++ secretKey))
  have hcode : wordAt 4 packet = cancelRequestCode := wordAt_eq _ rfl
  have hprocess : wordAt 8 packet = processId := wordAt_eq _ rfl
  have hlength : packet.length = secretKey.length + 12 := by
    simp only [packet, List.length_append, putU32, List.length_cons, List.length_nil]
    omega
  simp only [ofPacket, hcode, hprocess, hlength]
  rw [if_neg (fun h => absurd h.1 (by decide)), if_neg (fun h => absurd h.1 (by decide)),
    if_pos trivial, if_pos (by omega)]
  rfl

theorem ofPacket_toPacket {message : PreStartupMessage} (hmessage : message.isUnambiguous = true)
    (h : message.toPacket = .ok packet) : ofPacket packet = .ok message := by
  cases message with
  | sslRequest | gssEncRequest =>
    cases h
    rfl
  | cancelRequest processId secretKey =>
    obtain ⟨hkey, rfl⟩ := cancelPacket_eq_ok.mp h
    exact ofPacket_cancel hkey
  | startup message =>
    simp only [isUnambiguous, Bool.and_eq_true, decide_eq_true_eq, List.all_eq_true] at hmessage
    rw [ofPacket_startup hmessage.1 h, StartupMessage.decode_encode hmessage.2 h]
    rfl

end PreStartupMessage

open PreStartupMessage

/-- A packet within the limit is taken off the input as a whole, whatever follows it. -/
theorem decodePreStartupWithLimit_packet {maxPacketLen : Nat} (hpacket : Sized packet)
    (hle : packet.length ≤ maxPacketLen) (hmax : maxPacketLen ≤ i32Max) (rest : Bytes) :
    decodePreStartupWithLimit (packet ++ rest) maxPacketLen =
      { result := some <$> ofPacket packet, source := rest, reserved := 0 } := by
  have h8 := hpacket.atLeast
  have hlength : fromBeBytes ((packet ++ rest).take 4) = packet.length := by
    rw [List.take_append_of_le_length (by omega)]
    exact hpacket.declared
  simp only [decodePreStartupWithLimit, hlength]
  rw [if_neg (not_not.mpr ⟨by omega, hmax⟩), if_neg (by rw [List.length_append]; omega),
    if_neg (by omega), if_neg (by omega), if_neg (by omega),
    if_neg (by rw [List.length_append]; omega), List.take_left, List.drop_left]

end PgProto
