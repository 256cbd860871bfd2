import Mathlib.Algebra.Group.Nat.Defs
import PgProto.Codec.Messages

/-!
# Frames — encoding typed messages

`to_frame` of `src/codec.rs` for both message families, the frame encoder of `PgCodec`, and
`is_reconstructable` of `src/middleware.rs`.  The encoder is the only part of the codec which the
forwarding logic consults: a replacement is legal only if it encodes, and an encoded frame enters
an outbound buffer only if it is within the configured limit.
-/

namespace PgProto

/-! ## Failures -/

inductive ErrorKind
  | invalidInput
  | invalidData
  | unexpectedEof
  | writeZero
  | other
  deriving DecidableEq, Repr

structure IoError where
  kind : ErrorKind
  message : String
  deriving DecidableEq, Repr

def invalidInput (message : String) : IoError :=
  { kind := .invalidInput
    message := message }

/-! ## Frames -/

/-- A tagged frame without its length field. -/
structure Frame where
  tag : UInt8
  body : Bytes
  deriving DecidableEq, Repr

def u32Max : Nat := 2 ^ 32 - 1
def i32Max : Nat := 2 ^ 31 - 1
def u16Max : Nat := 2 ^ 16 - 1

def u64Max : Nat := 2 ^ 64 - 1

/-- `u64::saturating_add(1)`. -/
def saturatingSucc (n : Nat) : Nat :=
  if n < u64Max then n + 1 else u64Max

theorem saturatingSucc_of_lt {n : Nat} (h : n < u64Max) : saturatingSucc n = n + 1 := by
  simp [saturatingSucc, h]

/-- `MAX_PROTOCOL_FRAME_LEN`. -/
def maxProtocolFrameLen : Nat := i32Max + 1

/-! ## Primitive writers -/

def putU8 (n : UInt8) : Bytes := [n]

def putU16 (n : UInt16) : Bytes :=
  [(n >>> 8).toUInt8, n.toUInt8]

def putU32 (n : UInt32) : Bytes :=
  [(n >>> 24).toUInt8, (n >>> 16).toUInt8, (n >>> 8).toUInt8, n.toUInt8]

def putI16 (n : Int16) : Bytes := putU16 n.toUInt16

def putI32 (n : Int32) : Bytes := putU32 n.toUInt32

def putCount (count : Nat) : Except IoError Bytes :=
  if count ≤ u16Max then
    .ok (putU16 (UInt16.ofNat count))
  else
    .error (invalidInput "message item count exceeds u16")

/-- The writer of strings with the text of its refusal. -/
def putCstrOr (text : String) (value : Bytes) : Except IoError Bytes :=
  if value.contains 0 then
    .error (invalidInput text)
  else
    .ok (value ++ [0])

def putCstr : Bytes → Except IoError Bytes := putCstrOr "message string contains a NUL byte"

/-- The length of a sized value is an `i32`; `tooLarge` is the text of the refusal. -/
def putSized (tooLarge : String) : Option Bytes → Except IoError Bytes
  | none => .ok (putI32 (-1))
  | some value =>
    if value.length ≤ i32Max then
      .ok (putI32 (Int32.ofNat value.length) ++ value)
    else
      .error (invalidInput tooLarge)

def putNullable : Option Bytes → Except IoError Bytes :=
  putSized "value is too large"

def putI16Vec (values : List Int16) : Except IoError Bytes := do
  let count ← putCount values.length
  return count ++ values.flatMap putI16

/-- Writes the items of a list one after another, stopping at the first refusal. -/
def putAll {α : Type} (put : α → Except IoError Bytes) (items : List α) : Except IoError Bytes := do
  let parts ← items.mapM put
  return parts.flatten

def emptyMessage (tag : UInt8) : Frame :=
  { tag := tag
    body := [] }

def cstrMessage (tag : UInt8) (value : Bytes) : Except IoError Frame := do
  let body ← putCstr value
  return { tag := tag, body := body }

def targetByte : DescribeTarget → UInt8
  | .statement => 'S'.toUInt8
  | .portal => 'P'.toUInt8

def namedTargetFrame (tag : UInt8) (target : DescribeTarget) (name : Bytes) :
    Except IoError Frame := do
  let name ← putCstr name
  return { tag := tag, body := putU8 (targetByte target) ++ name }

/-! ## Frontend encoders -/

def Parse.toFrame (m : Parse) : Except IoError Frame := do
  let statement ← putCstr m.statement
  let query ← putCstr m.query
  let count ← putCount m.parameterTypes.length
  return { tag := 'P'.toUInt8, body := statement ++ query ++ count ++ m.parameterTypes.flatMap putU32 }

def Bind.toFrame (m : Bind) : Except IoError Frame := do
  let portal ← putCstr m.portal
  let statement ← putCstr m.statement
  let parameterFormats ← putI16Vec m.parameterFormats
  let count ← putCount m.parameters.length
  let parameters ← putAll (putSized "Bind parameter is too large") m.parameters
  let resultFormats ← putI16Vec m.resultFormats
  return { tag := 'B'.toUInt8
           body := portal ++ statement ++ parameterFormats ++ count ++ parameters ++ resultFormats }

def Describe.toFrame (m : Describe) : Except IoError Frame :=
  namedTargetFrame 'D'.toUInt8 m.target m.name

def Close.toFrame (m : Close) : Except IoError Frame :=
  namedTargetFrame 'C'.toUInt8 m.target m.name

def Execute.toFrame (m : Execute) : Except IoError Frame := do
  let portal ← putCstr m.portal
  return { tag := 'E'.toUInt8, body := portal ++ putI32 m.maxRows }

def FunctionCall.toFrame (m : FunctionCall) : Except IoError Frame := do
  let argumentFormats ← putI16Vec m.argumentFormats
  let count ← putCount m.arguments.length
  let arguments ← putAll putNullable m.arguments
  return { tag := 'F'.toUInt8
           body := putU32 m.functionOid ++ argumentFormats ++ count ++ arguments ++
             putI16 m.resultFormat }

def FrontendMessage.toFrame : FrontendMessage → Except IoError Frame
  | .parse m => m.toFrame
  | .bind m => m.toFrame
  | .describe m => m.toFrame
  | .close m => m.toFrame
  | .execute m => m.toFrame
  | .functionCall m => m.toFrame
  | .query sql => cstrMessage 'Q'.toUInt8 sql
  | .flush => .ok (emptyMessage 'H'.toUInt8)
  | .sync => .ok (emptyMessage 'S'.toUInt8)
  | .terminate => .ok (emptyMessage 'X'.toUInt8)
  | .copyData data => .ok { tag := 'd'.toUInt8, body := data }
  | .copyDone => .ok (emptyMessage 'c'.toUInt8)
  | .copyFail reason => cstrMessage 'f'.toUInt8 reason
  | .passwordResponse data => .ok { tag := 'p'.toUInt8, body := data }

/-! ## Backend encoders -/

def TransactionStatus.asByte : TransactionStatus → UInt8
  | .idle => 'I'.toUInt8
  | .inTransaction => 'T'.toUInt8
  | .failedTransaction => 'E'.toUInt8

def FieldDescription.put (f : FieldDescription) : Except IoError Bytes := do
  let name ← putCstr f.name
  return name ++ putU32 f.tableOid ++ putI16 f.column ++ putU32 f.typeOid ++ putI16 f.typeSize ++
    putI32 f.typeModifier ++ putI16 f.format

def RowDescription.toFrame (m : RowDescription) : Except IoError Frame := do
  let count ← putCount m.fields.length
  let fields ← putAll FieldDescription.put m.fields
  return { tag := 'T'.toUInt8, body := count ++ fields }

def authenticationBody : Authentication → Except IoError Bytes
  | .ok => .ok (putU32 0)
  | .kerberosV5 => .ok (putU32 2)
  | .cleartextPassword => .ok (putU32 3)
  | .md5Password salt => .ok (putU32 5 ++ salt.toList)
  | .gss => .ok (putU32 7)
  | .gssContinue data => .ok (putU32 8 ++ data)
  | .sspi => .ok (putU32 9)
  | .sasl mechanisms => do
    let names ← putAll putCstr mechanisms
    return putU32 10 ++ names ++ putU8 0
  | .saslContinue data => .ok (putU32 11 ++ data)
  | .saslFinal data => .ok (putU32 12 ++ data)

def authenticationFrame (m : Authentication) : Except IoError Frame := do
  let body ← authenticationBody m
  return { tag := 'R'.toUInt8, body := body }

def DiagnosticField.put (f : DiagnosticField) : Except IoError Bytes :=
  if f.code = 0 then
    .error (invalidInput "diagnostic field code cannot be zero")
  else do
    let value ← putCstr f.value
    return putU8 f.code ++ value

def diagnosticFrame (tag : UInt8) (response : DiagnosticResponse) : Except IoError Frame := do
  let fields ← putAll DiagnosticField.put response.fields
  return { tag := tag, body := fields ++ putU8 0 }

def copyResponseFrame (tag : UInt8) (response : CopyResponse) : Except IoError Frame := do
  let formats ← putI16Vec response.columnFormats
  return { tag := tag, body := putU8 response.overallFormat ++ formats }

def DataRow.toFrame (m : DataRow) : Except IoError Frame := do
  let count ← putCount m.columns.length
  let columns ← putAll putNullable m.columns
  return { tag := 'D'.toUInt8, body := count ++ columns }

def NegotiateProtocolVersion.toFrame (m : NegotiateProtocolVersion) : Except IoError Frame := do
  let count ←
    if m.unsupportedOptions.length ≤ u32Max then
      Except.ok (putU32 (UInt32.ofNat m.unsupportedOptions.length))
    else
      Except.error (invalidInput "unsupported option count exceeds u32")
  let options ← putAll putCstr m.unsupportedOptions
  let newest := (m.newest.major.toUInt32 <<< 16) ||| m.newest.minor.toUInt32
  return { tag := 'v'.toUInt8, body := putU32 newest ++ count ++ options }

def BackendMessage.toFrame : BackendMessage → Except IoError Frame
  | .rowDescription m => m.toFrame
  | .authentication m => authenticationFrame m
  | .parseComplete => .ok (emptyMessage '1'.toUInt8)
  | .bindComplete => .ok (emptyMessage '2'.toUInt8)
  | .closeComplete => .ok (emptyMessage '3'.toUInt8)
  | .commandComplete tag => cstrMessage 'C'.toUInt8 tag
  | .copyData data => .ok { tag := 'd'.toUInt8, body := data }
  | .copyDone => .ok (emptyMessage 'c'.toUInt8)
  | .copyInResponse response => copyResponseFrame 'G'.toUInt8 response
  | .copyOutResponse response => copyResponseFrame 'H'.toUInt8 response
  | .copyBothResponse response => copyResponseFrame 'W'.toUInt8 response
  | .dataRow row => row.toFrame
  | .emptyQueryResponse => .ok (emptyMessage 'I'.toUInt8)
  | .errorResponse response => diagnosticFrame 'E'.toUInt8 response
  | .noData => .ok (emptyMessage 'n'.toUInt8)
  | .parameterStatus name value => do
    let name ← putCstr name
    let value ← putCstr value
    return { tag := 'S'.toUInt8, body := name ++ value }
  | .noticeResponse response => diagnosticFrame 'N'.toUInt8 response
  | .notificationResponse processId channel payload => do
    let channel ← putCstr channel
    let payload ← putCstr payload
    return { tag := 'A'.toUInt8, body := putU32 processId ++ channel ++ payload }
  | .backendKeyData processId secretKey =>
    if 4 ≤ secretKey.length ∧ secretKey.length ≤ 256 then
      .ok { tag := 'K'.toUInt8, body := putU32 processId ++ secretKey }
    else
      .error (invalidInput "cancellation key length is outside 4..=256")
  | .readyForQuery status => .ok { tag := 'Z'.toUInt8, body := [status.asByte] }
  | .parameterDescription types => do
    let count ← putCount types.length
    return { tag := 't'.toUInt8, body := count ++ types.flatMap putU32 }
  | .portalSuspended => .ok (emptyMessage 's'.toUInt8)
  | .functionCallResponse data => .ok { tag := 'V'.toUInt8, body := data }
  | .negotiateProtocolVersion m => m.toFrame

/-! ## Reconstruction and framing -/

def FrontendMessage.isReconstructable (m : FrontendMessage) : Bool := m.toFrame.toBool

def BackendMessage.isReconstructable (m : BackendMessage) : Bool := m.toFrame.toBool

/-- `Encoder::encode` of `PgCodec` with a frame limit: the bytes appended to the destination. -/
def encodeFrame (maxFrameLen : Nat) (item : Frame) : Except IoError Bytes :=
  if maxFrameLen < item.body.length + 5 then
    .error (invalidInput "frame exceeds configured limit")
  else if item.body.length + 4 ≤ u32Max then
    .ok (putU8 item.tag ++ putU32 (UInt32.ofNat (item.body.length + 4)) ++ item.body)
  else
    .error (invalidInput "frame too large")

/-- `to_frame` and then the encoder of a transport with this limit. -/
def FrontendMessage.encode (maxFrameLen : Nat) (message : FrontendMessage) :
    Except IoError Bytes := do
  let frame ← message.toFrame
  encodeFrame maxFrameLen frame

def BackendMessage.encode (maxFrameLen : Nat) (message : BackendMessage) :
    Except IoError Bytes := do
  let frame ← message.toFrame
  encodeFrame maxFrameLen frame

end PgProto
