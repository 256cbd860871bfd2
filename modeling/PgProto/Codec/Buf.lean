import PgProto.Codec.Startup
import PgProto.Lib.Cursor
import Mathlib.Order.Bounds.Basic

/-!
# Buf — decoders on buffers that panic

The decoders of `src/codec.rs`, `src/startup.rs` and `src/pre_startup.rs` once more, with the
methods of `Bytes` and `Buf` as they are: a `split_to`, `get_*`, `advance` or index out of range is
a panic, and so is a sum or difference that overflows.  `Decode`, `DecodeBackend` and `Startup` leave
this out, since their readers are total.  Here every loop, check and read stands where the source
has it, and `Vec::with_capacity` is recorded.  The decoders of `src/replication.rs` follow.
-/

namespace PgProto

open Lib

/-! ## Items of collections -/

/-- The items of the collections for which a decoder reserves room. -/
inductive Item
  | typeOid
  | value
  | option
  | field
  deriving DecidableEq, Repr

namespace Item

def minimumLen : Item → Nat
  | .typeOid => 4
  | .value => 4
  | .option => 1
  | .field => 19

/-- The lengths of the encoded items. -/
def lengths : Item → Set Nat
  | .typeOid => { n | ∃ oid, (putU32 oid).length = n }
  | .value => { n | ∃ value word, putNullable value = .ok word ∧ word.length = n }
  | .option => { n | ∃ option word, putCstr option = .ok word ∧ word.length = n }
  | .field => { n | ∃ field word, FieldDescription.put field = .ok word ∧ word.length = n }

theorem minimumLen_isLeast (item : Item) : IsLeast item.lengths item.minimumLen := by
  cases item with
  | typeOid =>
    refine ⟨⟨0, rfl⟩, ?_⟩
    rintro _ ⟨oid, rfl⟩
    exact Nat.le_refl 4
  | value =>
    refine ⟨⟨none, _, rfl, rfl⟩, ?_⟩
    rintro _ ⟨value, word, hword, rfl⟩
    exact putSized_length hword
  | option =>
    refine ⟨⟨[], [0], rfl, rfl⟩, ?_⟩
    rintro _ ⟨option, word, hword, rfl⟩
    exact List.length_pos_iff.2 (putCstrOr_ne_nil hword)
  | field =>
    refine ⟨⟨⟨[], 0, 0, 0, 0, 0, 0⟩, _, rfl, rfl⟩, ?_⟩
    rintro _ ⟨field, word, hword, rfl⟩
    exact FieldDescription.put_length hword

end Item

/-- A computation on the body of a frame. -/
abbrev Buf (α : Type) := Cursor Item UInt8 IoError α

namespace Buf

open Cursor

/-! ## Field readers -/

/-- The `get_*` methods, for a word of this length. -/
def getWord {α : Type} (length : Nat) (ofNat : Nat → α) : Buf α :=
  (fun word => ofNat (fromBeBytes word)) <$> Cursor.splitTo length

def getU8 : Buf UInt8 := getWord 1 UInt8.ofNat
def getU16 : Buf UInt16 := getWord 2 UInt16.ofNat
def getU32 : Buf UInt32 := getWord 4 UInt32.ofNat

def require (length : Nat) : Buf Unit := do
  if (← Cursor.length) < length then
    fail (invalid "truncated message body")

def requireEmpty : Buf Unit := do
  unless (← Cursor.length) = 0 do
    fail (invalid "trailing message bytes")

def takeU8 : Buf UInt8 := do
  require 1
  getU8

def takeU16 : Buf UInt16 := do
  require 2
  getU16

def takeU32 : Buf UInt32 := do
  require 4
  getU32

def takeI16 : Buf Int16 := UInt16.toInt16 <$> takeU16

def takeI32 : Buf Int32 := UInt32.toInt32 <$> takeU32

/-- `take_cstr`, with the text of its failure. -/
def takeCstrOr (text : String) : Buf Bytes := do
  match (← get).unread.findIdx? (· == 0) with
  | none => fail (invalid text)
  | some terminator => do
    let value ← Cursor.splitTo terminator
    advance 1
    return value

def takeCstr : Buf Bytes := takeCstrOr "unterminated string"

def takeTarget : Buf DescribeTarget := do
  let byte ← takeU8
  if byte = 'S'.toUInt8 then
    return .statement
  else if byte = 'P'.toUInt8 then
    return .portal
  else
    fail (invalid "invalid statement or portal target")

def takeSized (negative : String) : Buf (Option Bytes) := do
  let length ← takeI32
  if length = -1 then
    return none
  else if length < 0 then
    fail (invalid negative)
  else do
    require length.toNatClampNeg
    some <$> Cursor.splitTo length.toNatClampNeg

def takeNullable : Buf (Option Bytes) := takeSized "negative value length"

def requireCollectionBytes (count remaining minimumItemLen : Nat) (description : String) :
    Buf Unit :=
  -- `checked_mul`
  if usizeMax < count * minimumItemLen then
    fail (invalid (description ++ " overflows message size"))
  else if remaining < count * minimumItemLen then
    fail (invalid (description ++ " exceeds remaining message body"))
  else
    return ()

/-- The check of a count, `Vec::with_capacity` and the loop which pushes the items. -/
def takeItems {α : Type} (item : Item) (minimumItemLen : Nat) (description : String)
    (take : Buf α) (count : Nat) : Buf (List α) := do
  requireCollectionBytes count (← Cursor.length) minimumItemLen description
  withCapacity item count
  pushMany take count []

def takeCounted {α : Type} (item : Item) (minimumItemLen : Nat) (description : String)
    (take : Buf α) : Buf (List α) := do
  let count ← takeU16
  takeItems item minimumItemLen description take count.toNat

/-- `collect` grows with the items, it does not reserve room for the count. -/
def takeI16Vec : Buf (List Int16) := do
  let count ← takeU16
  requireCollectionBytes count.toNat (← Cursor.length) 2 "format count"
  pushMany takeI16 count.toNat []

/-! ## Frontend decoders -/

def decodeParse : Buf Parse := do
  let statement ← takeCstr
  let query ← takeCstr
  let parameterTypes ← takeCounted .typeOid 4 "parameter type count" takeU32
  requireEmpty
  return { statement, query, parameterTypes }

def decodeBind : Buf Bind := do
  let portal ← takeCstr
  let statement ← takeCstr
  let parameterFormats ← takeI16Vec
  let parameters ←
    takeCounted .value 4 "parameter count" (takeSized "negative parameter length")
  let resultFormats ← takeI16Vec
  requireEmpty
  return { portal, statement, parameterFormats, parameters, resultFormats }

def decodeDescribe : Buf Describe := do
  let target ← takeTarget
  let name ← takeCstr
  requireEmpty
  return { target, name }

def decodeClose : Buf Close := do
  let target ← takeTarget
  let name ← takeCstr
  requireEmpty
  return { target, name }

def decodeExecute : Buf Execute := do
  let portal ← takeCstr
  let maxRows ← takeI32
  requireEmpty
  return { portal, maxRows }

def decodeFunctionCall : Buf FunctionCall := do
  let functionOid ← takeU32
  let argumentFormats ← takeI16Vec
  let arguments ← takeCounted .value 4 "argument count" takeNullable
  let resultFormat ← takeI16
  requireEmpty
  return { functionOid, argumentFormats, arguments, resultFormat }

def decodeCstrBody : Buf Bytes := do
  let value ← takeCstr
  requireEmpty
  return value

/-- The body as a whole. -/
def body : Buf Bytes := do
  return (← get).unread

def frontendArms : List (UInt8 × Buf FrontendMessage) :=
  [('P'.toUInt8, .parse <$> decodeParse),
   ('B'.toUInt8, .bind <$> decodeBind),
   ('D'.toUInt8, .describe <$> decodeDescribe),
   ('C'.toUInt8, .close <$> decodeClose),
   ('E'.toUInt8, .execute <$> decodeExecute),
   ('F'.toUInt8, .functionCall <$> decodeFunctionCall),
   ('H'.toUInt8, (fun () => .flush) <$> requireEmpty),
   ('Q'.toUInt8, .query <$> decodeCstrBody),
   ('S'.toUInt8, (fun () => .sync) <$> requireEmpty),
   ('X'.toUInt8, (fun () => .terminate) <$> requireEmpty),
   ('c'.toUInt8, (fun () => .copyDone) <$> requireEmpty),
   ('d'.toUInt8, .copyData <$> body),
   ('f'.toUInt8, .copyFail <$> decodeCstrBody),
   ('p'.toUInt8, .passwordResponse <$> body)]

/-- `Direction::decode` of `Frontend`, on the body of a frame with this tag. -/
def decodeFrontend (tag : UInt8) : Buf FrontendMessage :=
  select (fail (unknownTag "frontend" tag)) frontendArms tag

/-! ## Backend decoders -/

/-- `while !body.is_empty() && body[0] != 0`. -/
def mechanismLoop : Nat → List Bytes → Buf (List Bytes)
  | 0, _ => abort
  | fuel + 1, mechanisms => do
    if (← Cursor.length) = 0 then
      return mechanisms
    else do
      let byte ← peek 0
      if byte = 0 then
        return mechanisms
      else do
        let mechanism ← takeCstr
        mechanismLoop fuel (mechanisms ++ [mechanism])

def takeMechanisms : Buf (List Bytes) := do
  let mechanisms ← mechanismLoop ((← Cursor.length) + 1) []
  require 1
  advance 1
  return mechanisms

/-- `body.split_to(body.len())`. -/
def takeRest : Buf Bytes := do
  Cursor.splitTo (← Cursor.length)

/-- The conversion of the slice to `[u8; 4]` is expected to succeed. -/
def takeSalt : Buf (Vector UInt8 4) := do
  require 4
  let word ← Cursor.splitTo 4
  if word.length = 4 then
    return Vector.ofFn fun i => word.getD i 0
  else
    abort

def authenticationArms : List (UInt32 × Buf Authentication) :=
  [(0, pure .ok),
   (2, pure .kerberosV5),
   (3, pure .cleartextPassword),
   (5, .md5Password <$> takeSalt),
   (7, pure .gss),
   (8, .gssContinue <$> takeRest),
   (9, pure .sspi),
   (10, .sasl <$> takeMechanisms),
   (11, .saslContinue <$> takeRest),
   (12, .saslFinal <$> takeRest)]

def decodeAuthentication : Buf Authentication := do
  let kind ← takeU32
  let auth ← select (fail (invalid "unknown authentication request")) authenticationArms kind
  requireEmpty
  return auth

def decodeParameterStatus : Buf BackendMessage := do
  let name ← takeCstr
  let value ← takeCstr
  requireEmpty
  return .parameterStatus name value

def decodeNotification : Buf BackendMessage := do
  let processId ← takeU32
  let channel ← takeCstr
  let payload ← takeCstr
  requireEmpty
  return .notificationResponse processId channel payload

def decodeBackendKeyData : Buf BackendMessage := do
  let processId ← takeU32
  let secretKey ← body
  if 4 ≤ secretKey.length ∧ secretKey.length ≤ 256 then
    return .backendKeyData processId secretKey
  else
    fail (invalid "cancellation key length is outside 4..=256")

def takeStatus : Buf TransactionStatus := do
  let byte ← takeU8
  if byte = 'I'.toUInt8 then
    return .idle
  else if byte = 'T'.toUInt8 then
    return .inTransaction
  else if byte = 'E'.toUInt8 then
    return .failedTransaction
  else
    fail (invalid "unknown transaction status")

def decodeReady : Buf BackendMessage := do
  let status ← takeStatus
  requireEmpty
  return .readyForQuery status

/-- `u16::try_from`. -/
def u16TryFrom (n : UInt32) (text : String) : Buf UInt16 :=
  if n.toNat < 65536 then
    return n.toUInt16
  else
    fail (invalid text)

def takeVersion : Buf ProtocolVersion := do
  let newest ← takeU32
  let major ← u16TryFrom (newest >>> 16) "protocol major overflow"
  let minor ← u16TryFrom (newest &&& 0xffff) "protocol minor overflow"
  return { major, minor }

def decodeNegotiateProtocolVersion : Buf BackendMessage := do
  let newest ← takeVersion
  let count ← takeU32
  let unsupportedOptions ← takeItems .option 1 "unsupported option count" takeCstr count.toNat
  requireEmpty
  return .negotiateProtocolVersion { newest, unsupportedOptions }

def decodeDataRow : Buf DataRow := do
  let columns ← takeCounted .value 4 "column count" takeNullable
  requireEmpty
  return { columns }

def diagnosticLoop : Nat → List DiagnosticField → Buf (List DiagnosticField)
  | 0, _ => abort
  | fuel + 1, fields => do
    require 1
    let code ← getU8
    if code = 0 then
      return fields
    else do
      let value ← takeCstr
      diagnosticLoop fuel (fields ++ [{ code, value }])

def decodeDiagnostic : Buf DiagnosticResponse := do
  let fields ← diagnosticLoop ((← Cursor.length) + 1) []
  requireEmpty
  return { fields }

def decodeCopyResponse : Buf CopyResponse := do
  let overallFormat ← takeU8
  let columnFormats ← takeI16Vec
  requireEmpty
  return { overallFormat, columnFormats }

def decodeParameterDescription : Buf (List UInt32) := do
  let types ← takeCounted .typeOid 4 "parameter type count" takeU32
  requireEmpty
  return types

def takeFieldDescription : Buf FieldDescription := do
  let name ← takeCstr
  let tableOid ← takeU32
  let column ← takeI16
  let typeOid ← takeU32
  let typeSize ← takeI16
  let typeModifier ← takeI32
  let format ← takeI16
  return { name, tableOid, column, typeOid, typeSize, typeModifier, format }

def decodeRowDescription : Buf RowDescription := do
  let fields ← takeCounted .field 19 "field count" takeFieldDescription
  requireEmpty
  return { fields }

def backendArms : List (UInt8 × Buf BackendMessage) :=
  [('1'.toUInt8, (fun () => .parseComplete) <$> requireEmpty),
   ('2'.toUInt8, (fun () => .bindComplete) <$> requireEmpty),
   ('3'.toUInt8, (fun () => .closeComplete) <$> requireEmpty),
   ('C'.toUInt8, .commandComplete <$> decodeCstrBody),
   ('c'.toUInt8, (fun () => .copyDone) <$> requireEmpty),
   ('d'.toUInt8, .copyData <$> body),
   ('D'.toUInt8, .dataRow <$> decodeDataRow),
   ('E'.toUInt8, .errorResponse <$> decodeDiagnostic),
   ('G'.toUInt8, .copyInResponse <$> decodeCopyResponse),
   ('H'.toUInt8, .copyOutResponse <$> decodeCopyResponse),
   ('I'.toUInt8, (fun () => .emptyQueryResponse) <$> requireEmpty),
   ('n'.toUInt8, (fun () => .noData) <$> requireEmpty),
   ('s'.toUInt8, (fun () => .portalSuspended) <$> requireEmpty),
   ('t'.toUInt8, .parameterDescription <$> decodeParameterDescription),
   ('T'.toUInt8, .rowDescription <$> decodeRowDescription),
   ('V'.toUInt8, .functionCallResponse <$> body),
   ('W'.toUInt8, .copyBothResponse <$> decodeCopyResponse),
   ('R'.toUInt8, .authentication <$> decodeAuthentication),
   ('S'.toUInt8, decodeParameterStatus),
   ('N'.toUInt8, .noticeResponse <$> decodeDiagnostic),
   ('A'.toUInt8, decodeNotification),
   ('K'.toUInt8, decodeBackendKeyData),
   ('Z'.toUInt8, decodeReady),
   ('v'.toUInt8, decodeNegotiateProtocolVersion)]

/-- `Direction::decode` of `Backend`, on the body of a frame with this tag. -/
def decodeBackend (tag : UInt8) : Buf BackendMessage :=
  select (fail (unknownTag "backend" tag)) backendArms tag

/-! ## Startup packets -/

def takeStartupCstr : Buf Bytes := takeCstrOr "unterminated startup parameter"

/-- One round of the loop over the parameters. -/
def takeParameter (parameters : SortedMap Bytes Bytes) : Buf (SortedMap Bytes Bytes) := do
  let name ← takeStartupCstr
  let value ← takeStartupCstr
  match parameters.insertNew (name, value) with
  | some parameters => return parameters
  | none => fail (invalid "duplicate startup parameter")

/-- `declared != packet.len() + 4`. -/
def requireDeclared (declared : UInt32) : Buf Unit := do
  let length ← checkedAdd usizeMax (← Cursor.length) 4
  if declared.toNat ≠ length then
    fail (invalid "startup packet length does not match its bytes")

def requireEnd : Buf Unit := do
  unless (← Cursor.length) = 0 do
    fail (invalid "startup packet has trailing bytes")

/-- `StartupMessage::decode` behind the check of the length of the packet. -/
def takeStartup : Buf StartupMessage := do
  let declared ← getU32
  requireDeclared declared
  let major ← getU16
  let minor ← getU16
  let parameters ← readUntil 0 (invalid "startup parameters have no final terminator")
    takeParameter SortedMap.empty
  requireEnd
  return { version := { major, minor }, parameters }

def decodeStartup : Buf StartupMessage := do
  if (← Cursor.length) < 8 then
    fail (invalid "startup packet is shorter than 8 bytes")
  else
    takeStartup

/-- `u32::from_be_bytes` of four bytes of a slice. -/
def indexU32 (packet : Bytes) (position : Nat) : Buf UInt32 := do
  let a ← index packet position
  let b ← index packet (position + 1)
  let c ← index packet (position + 2)
  let d ← index packet (position + 3)
  return UInt32.ofNat (fromBeBytes [a, b, c, d])

/-- `packet.slice(start..)`. -/
def sliceFrom (packet : Bytes) (start : Nat) : Buf Bytes :=
  if packet.length < start then abort else return packet.drop start

/-- The match on the code of a complete packet. -/
def ofPacket (packet : Bytes) : Buf PreStartupMessage := do
  let code ← indexU32 packet 4
  if code = sslRequestCode ∧ packet.length = 8 then
    return .sslRequest
  else if code = gssEncRequestCode ∧ packet.length = 8 then
    return .gssEncRequest
  else if code = cancelRequestCode then
    if 16 ≤ packet.length ∧ packet.length ≤ 268 then do
      let processId ← indexU32 packet 8
      let secretKey ← sliceFrom packet 12
      return .cancelRequest processId secretKey
    else
      fail (invalid "invalid CancelRequest length")
  else
    .startup <$> within packet decodeStartup

/-- `input.reserve(total - input.len())`, and no message yet. -/
def wait (total : Nat) : Buf (Option PreStartupMessage) := do
  let _ ← checkedSub total (← Cursor.length)
  return none

/-- `decode_pre_startup_with_limit` behind the check of the limit, with four bytes to read. -/
def takePacket (maxPacketLen : Nat) : Buf (Option PreStartupMessage) := do
  let length ← indexU32 (← get).unread 0
  if length.toNat < 8 then
    fail (invalid "pre-startup packet is shorter than 8 bytes")
  else if i32Max < length.toNat then
    fail (invalid "pre-startup packet length exceeds i32::MAX")
  else if maxPacketLen < length.toNat then
    fail (invalid "pre-startup packet exceeds configured limit")
  else if (← Cursor.length) < length.toNat then
    wait length.toNat
  else do
    let packet ← Cursor.splitTo length.toNat
    some <$> ofPacket packet

def decodePreStartupWithLimit (maxPacketLen : Nat) : Buf (Option PreStartupMessage) := do
  if ¬ (8 ≤ maxPacketLen ∧ maxPacketLen ≤ i32Max) then
    fail (invalid "pre-startup packet limit must be between 8 and i32::MAX bytes")
  else if (← Cursor.length) < 4 then
    wait 4
  else
    takePacket maxPacketLen

end Buf

/-! ## Replication payloads -/

/-- A payload which a walsender puts into `CopyData`. -/
inductive BackendReplication
  | xLogData (walStart walEnd : UInt64) (serverTime : Int64) (data : Bytes)
  | primaryKeepalive (walEnd : UInt64) (serverTime : Int64) (replyRequested : Bool)
  | unknown (tag : UInt8) (body : Bytes)
  deriving DecidableEq, Repr

/-- A payload which a standby puts into `CopyData`. -/
inductive FrontendReplication
  | standbyStatus (written flushed applied : UInt64) (clientTime : Int64) (replyRequested : Bool)
  | hotStandbyFeedback (clientTime : Int64) (xmin xminEpoch catalogXmin catalogXminEpoch : UInt32)
  | unknown (tag : UInt8) (body : Bytes)
  deriving DecidableEq, Repr

namespace Buf

open Cursor

def getU64 : Buf UInt64 := getWord 8 UInt64.ofNat
def getI64 : Buf Int64 := UInt64.toInt64 <$> getU64

def takeTag : Buf UInt8 := do
  if (← Cursor.length) = 0 then
    fail (invalid "empty replication payload")
  else
    getU8

def takeBool (value : UInt8) : Buf Bool :=
  if value = 0 then
    return false
  else if value = 1 then
    return true
  else
    fail (invalid "invalid replication Boolean")

/-- `require`, in front of what it is required for. -/
def requireFor {α : Type} (minimum : Nat) (message : String) (rest : Buf α) : Buf α := do
  if (← Cursor.length) < minimum then
    fail (invalid message)
  else
    rest

/-- `require_exact`, in front of what it is required for. -/
def requireExactFor {α : Type} (length : Nat) (message : String) (rest : Buf α) : Buf α := do
  if (← Cursor.length) = length then
    rest
  else
    fail (invalid message)

def takeXLogData : Buf BackendReplication := do
  let walStart ← getU64
  let walEnd ← getU64
  let serverTime ← getI64
  let data ← body
  return .xLogData walStart walEnd serverTime data

def takePrimaryKeepalive : Buf BackendReplication := do
  let walEnd ← getU64
  let serverTime ← getI64
  let byte ← getU8
  let replyRequested ← takeBool byte
  return .primaryKeepalive walEnd serverTime replyRequested

def takeStandbyStatus : Buf FrontendReplication := do
  let written ← getU64
  let flushed ← getU64
  let applied ← getU64
  let clientTime ← getI64
  let byte ← getU8
  let replyRequested ← takeBool byte
  return .standbyStatus written flushed applied clientTime replyRequested

def takeHotStandbyFeedback : Buf FrontendReplication := do
  let clientTime ← getI64
  let xmin ← getU32
  let xminEpoch ← getU32
  let catalogXmin ← getU32
  let catalogXminEpoch ← getU32
  return .hotStandbyFeedback clientTime xmin xminEpoch catalogXmin catalogXminEpoch

def decodeBackendReplication : Buf BackendReplication := do
  let tag ← takeTag
  if tag = 'w'.toUInt8 then
    requireFor 24 "truncated XLogData" takeXLogData
  else if tag = 'k'.toUInt8 then
    requireExactFor 17 "invalid primary keepalive length" takePrimaryKeepalive
  else
    BackendReplication.unknown tag <$> body

def decodeFrontendReplication : Buf FrontendReplication := do
  let tag ← takeTag
  if tag = 'r'.toUInt8 then
    requireExactFor 33 "invalid standby status length" takeStandbyStatus
  else if tag = 'h'.toUInt8 then
    requireExactFor 24 "invalid hot standby feedback length" takeHotStandbyFeedback
  else
    FrontendReplication.unknown tag <$> body

end Buf
end PgProto
