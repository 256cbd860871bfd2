import Mathlib.Data.Fintype.OfMap

/-!
# Messages — typed frontend and backend messages

The message families of `src/codec.rs` and the protocol version of `src/startup.rs`, with every
field the encoder reads.  A `Bytes` value is a list of octets; counts and lengths are natural
numbers.

Protocol decisions never look at a payload: the generated grammars and the pipeline ledger match
on the enum variant only.  `FrontendVariant` and `BackendVariant` are those variants, so that
protocol facts can be checked by enumeration.
-/

namespace PgProto

abbrev Bytes := List UInt8

instance : Std.LawfulOrderLT Bytes := inferInstance

/-! ## Startup data -/

structure ProtocolVersion where
  major : UInt16
  minor : UInt16
  deriving DecidableEq, Repr

/-! ## Frontend messages -/

structure Parse where
  statement : Bytes
  query : Bytes
  parameterTypes : List UInt32
  deriving DecidableEq, Repr

structure Bind where
  portal : Bytes
  statement : Bytes
  parameterFormats : List Int16
  parameters : List (Option Bytes)
  resultFormats : List Int16
  deriving DecidableEq, Repr

inductive DescribeTarget
  | statement
  | portal
  deriving DecidableEq, Repr

structure Describe where
  target : DescribeTarget
  name : Bytes
  deriving DecidableEq, Repr

structure Close where
  target : DescribeTarget
  name : Bytes
  deriving DecidableEq, Repr

structure Execute where
  portal : Bytes
  maxRows : Int32
  deriving DecidableEq, Repr

structure FunctionCall where
  functionOid : UInt32
  argumentFormats : List Int16
  arguments : List (Option Bytes)
  resultFormat : Int16
  deriving DecidableEq, Repr

/-- Messages sent by a PostgreSQL frontend. -/
inductive FrontendMessage
  | parse (message : Parse)
  | bind (message : Bind)
  | describe (message : Describe)
  | close (message : Close)
  | execute (message : Execute)
  | functionCall (message : FunctionCall)
  | query (sql : Bytes)
  | flush
  | sync
  | terminate
  | copyData (data : Bytes)
  | copyDone
  | copyFail (reason : Bytes)
  | passwordResponse (data : Bytes)
  deriving DecidableEq, Repr

inductive FrontendVariant
  | parse
  | bind
  | describe
  | close
  | execute
  | functionCall
  | query
  | flush
  | sync
  | terminate
  | copyData
  | copyDone
  | copyFail
  | passwordResponse
  deriving DecidableEq, Repr

instance : Fintype FrontendVariant :=
  Fintype.ofList
    [.parse, .bind, .describe, .close, .execute, .functionCall, .query, .flush, .sync,
     .terminate, .copyData, .copyDone, .copyFail, .passwordResponse]
    (by intro v; cases v <;> decide)

def FrontendMessage.variant : FrontendMessage → FrontendVariant
  | .parse _ => .parse
  | .bind _ => .bind
  | .describe _ => .describe
  | .close _ => .close
  | .execute _ => .execute
  | .functionCall _ => .functionCall
  | .query _ => .query
  | .flush => .flush
  | .sync => .sync
  | .terminate => .terminate
  | .copyData _ => .copyData
  | .copyDone => .copyDone
  | .copyFail _ => .copyFail
  | .passwordResponse _ => .passwordResponse

/-! ## Backend messages -/

structure FieldDescription where
  name : Bytes
  tableOid : UInt32
  column : Int16
  typeOid : UInt32
  typeSize : Int16
  typeModifier : Int32
  format : Int16
  deriving DecidableEq, Repr

structure RowDescription where
  fields : List FieldDescription
  deriving DecidableEq, Repr

inductive Authentication
  | ok
  | kerberosV5
  | cleartextPassword
  | md5Password (salt : Vector UInt8 4)
  | gss
  | gssContinue (data : Bytes)
  | sspi
  | sasl (mechanisms : List Bytes)
  | saslContinue (data : Bytes)
  | saslFinal (data : Bytes)
  deriving DecidableEq, Repr

inductive TransactionStatus
  | idle
  | inTransaction
  | failedTransaction
  deriving DecidableEq, Repr

structure NegotiateProtocolVersion where
  newest : ProtocolVersion
  unsupportedOptions : List Bytes
  deriving DecidableEq, Repr

structure DiagnosticField where
  code : UInt8
  value : Bytes
  deriving DecidableEq, Repr

structure DiagnosticResponse where
  fields : List DiagnosticField
  deriving DecidableEq, Repr

structure CopyResponse where
  overallFormat : UInt8
  columnFormats : List Int16
  deriving DecidableEq, Repr

structure DataRow where
  columns : List (Option Bytes)
  deriving DecidableEq, Repr

/-- Messages sent by a PostgreSQL backend. -/
inductive BackendMessage
  | rowDescription (message : RowDescription)
  | authentication (message : Authentication)
  | parseComplete
  | bindComplete
  | closeComplete
  | commandComplete (tag : Bytes)
  | copyData (data : Bytes)
  | copyDone
  | copyInResponse (response : CopyResponse)
  | copyOutResponse (response : CopyResponse)
  | copyBothResponse (response : CopyResponse)
  | dataRow (row : DataRow)
  | emptyQueryResponse
  | errorResponse (response : DiagnosticResponse)
  | noData
  | parameterStatus (name value : Bytes)
  | noticeResponse (response : DiagnosticResponse)
  | notificationResponse (processId : UInt32) (channel payload : Bytes)
  | backendKeyData (processId : UInt32) (secretKey : Bytes)
  | readyForQuery (status : TransactionStatus)
  | parameterDescription (types : List UInt32)
  | portalSuspended
  | functionCallResponse (data : Bytes)
  | negotiateProtocolVersion (message : NegotiateProtocolVersion)
  deriving DecidableEq, Repr

inductive BackendVariant
  | rowDescription
  | authentication
  | parseComplete
  | bindComplete
  | closeComplete
  | commandComplete
  | copyData
  | copyDone
  | copyInResponse
  | copyOutResponse
  | copyBothResponse
  | dataRow
  | emptyQueryResponse
  | errorResponse
  | noData
  | parameterStatus
  | noticeResponse
  | notificationResponse
  | backendKeyData
  | readyForQuery
  | parameterDescription
  | portalSuspended
  | functionCallResponse
  | negotiateProtocolVersion
  deriving DecidableEq, Repr

instance : Fintype BackendVariant :=
  Fintype.ofList
    [.rowDescription, .authentication, .parseComplete, .bindComplete, .closeComplete,
     .commandComplete, .copyData, .copyDone, .copyInResponse, .copyOutResponse,
     .copyBothResponse, .dataRow, .emptyQueryResponse, .errorResponse, .noData,
     .parameterStatus, .noticeResponse, .notificationResponse, .backendKeyData,
     .readyForQuery, .parameterDescription, .portalSuspended, .functionCallResponse,
     .negotiateProtocolVersion]
    (by intro v; cases v <;> decide)

def BackendMessage.variant : BackendMessage → BackendVariant
  | .rowDescription _ => .rowDescription
  | .authentication _ => .authentication
  | .parseComplete => .parseComplete
  | .bindComplete => .bindComplete
  | .closeComplete => .closeComplete
  | .commandComplete _ => .commandComplete
  | .copyData _ => .copyData
  | .copyDone => .copyDone
  | .copyInResponse _ => .copyInResponse
  | .copyOutResponse _ => .copyOutResponse
  | .copyBothResponse _ => .copyBothResponse
  | .dataRow _ => .dataRow
  | .emptyQueryResponse => .emptyQueryResponse
  | .errorResponse _ => .errorResponse
  | .noData => .noData
  | .parameterStatus _ _ => .parameterStatus
  | .noticeResponse _ => .noticeResponse
  | .notificationResponse _ _ _ => .notificationResponse
  | .backendKeyData _ _ => .backendKeyData
  | .readyForQuery _ => .readyForQuery
  | .parameterDescription _ => .parameterDescription
  | .portalSuspended => .portalSuspended
  | .functionCallResponse _ => .functionCallResponse
  | .negotiateProtocolVersion _ => .negotiateProtocolVersion

/-- `Demux::is_asynchronous`: messages causally independent of session progress. -/
def BackendVariant.isAsynchronous : BackendVariant → Bool
  | .noticeResponse | .parameterStatus | .notificationResponse | .backendKeyData => true
  | _ => false

def isAsynchronous (message : BackendMessage) : Bool :=
  message.variant.isAsynchronous

end PgProto
