import PgProto.Codec.Decode
import PgProto.Grammar.Authentication
import PgProto.Grammar.Frontend
import PgProto.Lib.History
import PgProto.Lib.Text
import PgProto.Typestate.Demux

/-!
# Client — the client-role typestates

The hand-written typestates of `src/auth.rs` and `src/session.rs`.  The indices `Phase` and
`Cleanliness` of a `Conn` are data here; an operation that the Rust type does not offer is `none`,
and an operation that loses the connection (its message cannot be encoded) is an error.

Offers keep the shape of the source: a table lookup in the generated grammar together with a match
on the item.  A rejected item is handed back with the connection unchanged.

`Session` puts the demultiplexer under the connection: a message is read either as an item of the
session stream or directly from the wire, and is then offered.
-/

namespace PgProto

open Lib

inductive Cleanliness
  | pristine
  | dirty
  deriving DecidableEq, Repr

namespace Client

/-! ## Connections -/

inductive Phase
  | auth
  | passwordResponse
  | saslInitial
  | sasl
  | saslChallenge
  | saslFinal
  | tokenResponse
  | tokenChallenge
  | awaitingAuthOk
  | awaitingStartupReady
  | ready
  | functionCalling
  | simpleQuery
  | building
  | boundBuilding
  | awaitingReady
  | copyIn
  | copyOut
  | copyBoth
  | copyBothClientDone
  | copyBothServerDone
  | draining
  | resetting
  | resetComplete
  | terminated
  deriving DecidableEq, Repr

structure Conn where
  phase : Phase
  cleanliness : Cleanliness
  deriving DecidableEq, Repr

/-- What an accepted item hands to the caller besides the next connection. -/
inductive Branch
  | authenticated
  | cleartext
  | md5 (salt : Vector UInt8 4)
  | sasl (mechanisms : List Bytes)
  | gss
  | sspi
  | kerberosV5
  | negotiate (message : NegotiateProtocolVersion)
  | token (token : Bytes)
  | challenge (challenge : Bytes)
  | serverFinal (serverFinal : Bytes)
  | response (value : Bytes)
  | «continue» (item : SessionItem)
  | copyIn (response : CopyResponse)
  | copyOut (response : CopyResponse)
  | copyBoth (response : CopyResponse)
  | data (data : Bytes)
  | done
  | complete
  | ready
  | readyDirty (status : TransactionStatus) (parametersChanged : Bool)
  | error (error : DiagnosticResponse)
  deriving DecidableEq, Repr

inductive Offer
  | accepted (conn : Conn) (branch : Branch)
  /-- The connection and the item come back, with an error where the source gives one. -/
  | rejected (error : Option IoError)
  | panicked
  deriving DecidableEq, Repr

/-! ## Offers of the authentication phases -/

def continuationError : IoError :=
  { kind := .invalidData
    message := "authentication continuation before mechanism selection" }

/-- A projected authentication request. -/
def projectAuthentication (state : AuthGrammar.RuntimeState) (authentication : Authentication) :
    Option AuthGrammar.Event :=
  AuthGrammar.projectExternal state (.authentication authentication)

def Auth.offer (authentication : Authentication) : Except IoError (Conn × Branch) :=
  match projectAuthentication .auth authentication, authentication with
  | some .ok, .ok => .ok (⟨.awaitingStartupReady, .pristine⟩, .authenticated)
  | some .cleartext, .cleartextPassword => .ok (⟨.passwordResponse, .pristine⟩, .cleartext)
  | some .md5, .md5Password salt => .ok (⟨.passwordResponse, .pristine⟩, .md5 salt)
  | some .sasl, .sasl mechanisms => .ok (⟨.saslInitial, .pristine⟩, .sasl mechanisms)
  | some .gss, .gss => .ok (⟨.tokenResponse, .pristine⟩, .gss)
  | some .sspi, .sspi => .ok (⟨.tokenResponse, .pristine⟩, .sspi)
  | some .kerberosV5, .kerberosV5 => .ok (⟨.tokenResponse, .pristine⟩, .kerberosV5)
  | _, _ => .error continuationError

def Auth.offerBackend : BackendMessage → Offer
  | .authentication (.gssContinue _)
  | .authentication (.saslContinue _)
  | .authentication (.saslFinal _) => .rejected (some continuationError)
  | .authentication authentication =>
    match Auth.offer authentication with
    | .ok (conn, branch) => .accepted conn branch
    -- "non-continuation authentication is valid in Auth"
    | .error _ => .panicked
  | .negotiateProtocolVersion message => .accepted ⟨.auth, .pristine⟩ (.negotiate message)
  | .errorResponse error => .accepted ⟨.terminated, .pristine⟩ (.error error)
  | _ => .rejected none

def TokenChallenge.offer (message : BackendMessage) : Offer :=
  match AuthGrammar.projectExternal .tokenChallenge message, message with
  | some .«continue», .authentication (.gssContinue token) =>
    .accepted ⟨.tokenResponse, .pristine⟩ (.token token)
  | some .ok, .authentication .ok => .accepted ⟨.awaitingStartupReady, .pristine⟩ .authenticated
  | some .error, .errorResponse error => .accepted ⟨.terminated, .pristine⟩ (.error error)
  | _, _ => .rejected none

def Sasl.offer (authentication : Authentication) : Offer :=
  match projectAuthentication .sasl authentication, authentication with
  | some .«continue», .saslContinue challenge =>
    .accepted ⟨.saslChallenge, .pristine⟩ (.challenge challenge)
  | some .final, .saslFinal serverFinal =>
    .accepted ⟨.saslFinal, .pristine⟩ (.serverFinal serverFinal)
  | _, _ => .rejected none

def Sasl.offerBackend : BackendMessage → Offer
  | .authentication authentication => Sasl.offer authentication
  | .errorResponse error => .accepted ⟨.terminated, .pristine⟩ (.error error)
  | _ => .rejected none

def AwaitingAuthOk.offer (message : BackendMessage) : Offer :=
  match AuthGrammar.projectExternal .awaitingAuthOk message, message with
  | some .ok, .authentication .ok => .accepted ⟨.awaitingStartupReady, .pristine⟩ .authenticated
  | some .error, .errorResponse error => .accepted ⟨.terminated, .pristine⟩ (.error error)
  | _, _ => .rejected none

def AwaitingStartupReady.offerReady : SessionItem → Offer
  | .readyForQuery .idle false => .accepted ⟨.ready, .pristine⟩ .ready
  | _ => .rejected none

/-! ## Offers of the operational phases -/

def projectSessionItem (state : Frontend.RuntimeState) (item : SessionItem) :
    Option Frontend.Event :=
  Frontend.projectExternal state item.intoBackendMessage

def readyState (c : Cleanliness) (status : TransactionStatus) (parametersChanged : Bool) : Offer :=
  if status = .idle ∧ parametersChanged = false then
    .accepted ⟨.ready, c⟩ .ready
  else
    .accepted ⟨.ready, .dirty⟩ (.readyDirty status parametersChanged)

def FunctionCalling.offer (c : Cleanliness) (message : BackendMessage) : Offer :=
  match Frontend.projectExternal .functionCalling message, message with
  | some .functionResponse, .functionCallResponse value =>
    .accepted ⟨.awaitingReady, c⟩ (.response value)
  | some .error, .errorResponse error => .accepted ⟨.draining, c⟩ (.error error)
  | _, _ => .rejected none

def SimpleQuery.offer (c : Cleanliness) (item : SessionItem) : Offer :=
  match projectSessionItem .simple item, item with
  | some .copyIn, .message (.copyInResponse response) => .accepted ⟨.copyIn, c⟩ (.copyIn response)
  | some .copyOut, .message (.copyOutResponse response) =>
    .accepted ⟨.copyOut, c⟩ (.copyOut response)
  | some .copyBoth, .message (.copyBothResponse response) =>
    .accepted ⟨.copyBoth, c⟩ (.copyBoth response)
  | some .ready, .readyForQuery status parametersChanged =>
    readyState c status parametersChanged
  | some .error, .message (.errorResponse error) => .accepted ⟨.draining, c⟩ (.error error)
  | some .«continue», .commandComplete tag command notices =>
    .accepted ⟨.simpleQuery, c⟩ (.continue (.commandComplete tag command notices))
  | some .«continue», .message (.rowDescription message) =>
    .accepted ⟨.simpleQuery, c⟩ (.continue (.message (.rowDescription message)))
  | some .«continue», .message (.dataRow row) =>
    .accepted ⟨.simpleQuery, c⟩ (.continue (.message (.dataRow row)))
  | some .«continue», .message .emptyQueryResponse =>
    .accepted ⟨.simpleQuery, c⟩ (.continue (.message .emptyQueryResponse))
  | _, _ => .rejected none

def CopyIn.offer (c : Cleanliness) (item : SessionItem) : Offer :=
  match projectSessionItem .copyIn item, item with
  | some .error, .message (.errorResponse error) => .accepted ⟨.draining, c⟩ (.error error)
  | _, _ => .rejected none

def CopyOut.offer (c : Cleanliness) (item : SessionItem) : Offer :=
  match projectSessionItem .copyOut item, item with
  | some .copyData, .message (.copyData data) => .accepted ⟨.copyOut, c⟩ (.data data)
  | some .copyDone, .message .copyDone => .accepted ⟨.awaitingReady, c⟩ .done
  | some .error, .message (.errorResponse error) => .accepted ⟨.draining, c⟩ (.error error)
  | _, _ => .rejected none

def CopyBoth.offer (c : Cleanliness) (item : SessionItem) : Offer :=
  match projectSessionItem .copyBoth item, item with
  | some .receiveCopyData, .message (.copyData data) => .accepted ⟨.copyBoth, c⟩ (.data data)
  | some .receiveCopyDone, .message .copyDone => .accepted ⟨.copyBothServerDone, c⟩ .done
  | some .error, .message (.errorResponse error) => .accepted ⟨.draining, c⟩ (.error error)
  | _, _ => .rejected none

def CopyBothClientDone.offer (c : Cleanliness) (item : SessionItem) : Offer :=
  match projectSessionItem .copyBothClientDone item, item with
  | some .receiveCopyData, .message (.copyData data) =>
    .accepted ⟨.copyBothClientDone, c⟩ (.data data)
  | some .receiveCopyDone, .message .copyDone => .accepted ⟨.awaitingReady, c⟩ .done
  | some .error, .message (.errorResponse error) => .accepted ⟨.draining, c⟩ (.error error)
  | _, _ => .rejected none

/-- Whatever is not readiness is discarded. -/
def Draining.offer (c : Cleanliness) (item : SessionItem) : Offer :=
  match projectSessionItem .draining item, item with
  | some .ready, .readyForQuery status parametersChanged =>
    readyState c status parametersChanged
  | _, item => .accepted ⟨.draining, c⟩ (.continue item)

def AwaitingReady.offer (c : Cleanliness) (item : SessionItem) : Offer :=
  match projectSessionItem .awaitingReady item, item with
  | some .ready, .readyForQuery status parametersChanged =>
    readyState c status parametersChanged
  | some .error, .message (.errorResponse error) => .accepted ⟨.draining, c⟩ (.error error)
  | _, item => .accepted ⟨.awaitingReady, c⟩ (.continue item)

/-- The command tag that a completed `DISCARD ALL` reports. -/
def discardAll : Bytes := ascii "DISCARD ALL"

def Resetting.offer (item : SessionItem) : Offer :=
  match projectSessionItem .resetting item, item with
  | some .discardComplete, .commandComplete tag command notices =>
    if tag = discardAll then
      .accepted ⟨.resetComplete, .dirty⟩ .complete
    else
      .accepted ⟨.resetting, .dirty⟩ (.continue (.commandComplete tag command notices))
  | some .error, .message (.errorResponse error) => .accepted ⟨.draining, .dirty⟩ (.error error)
  | _, item => .accepted ⟨.resetting, .dirty⟩ (.continue item)

def ResetComplete.offer (item : SessionItem) : Offer :=
  match projectSessionItem .resetComplete item, item with
  | some .readyClean, .readyForQuery .idle false => .accepted ⟨.ready, .pristine⟩ .ready
  | some .readyClean, .readyForQuery status parametersChanged
  | some .readyDirty, .readyForQuery status parametersChanged =>
    .accepted ⟨.ready, .dirty⟩ (.readyDirty status parametersChanged)
  | some .error, .message (.errorResponse error) => .accepted ⟨.draining, .dirty⟩ (.error error)
  | _, item => .accepted ⟨.resetComplete, .dirty⟩ (.continue item)

namespace Conn

/-- The offer of a phase that takes a server message, if the type has one. -/
def offerBackend : Conn → BackendMessage → Option Offer
  | ⟨.auth, .pristine⟩, message => some (Auth.offerBackend message)
  | ⟨.tokenChallenge, .pristine⟩, message => some (TokenChallenge.offer message)
  | ⟨.sasl, .pristine⟩, message => some (Sasl.offerBackend message)
  | ⟨.awaitingAuthOk, .pristine⟩, message => some (AwaitingAuthOk.offer message)
  | ⟨.functionCalling, c⟩, message => some (FunctionCalling.offer c message)
  | _, _ => none

/-- The offer of a phase that takes an item of the session stream, if the type has one. -/
def offer : Conn → SessionItem → Option Offer
  | ⟨.awaitingStartupReady, .pristine⟩, item => some (AwaitingStartupReady.offerReady item)
  | ⟨.simpleQuery, c⟩, item => some (SimpleQuery.offer c item)
  | ⟨.copyIn, c⟩, item => some (CopyIn.offer c item)
  | ⟨.copyOut, c⟩, item => some (CopyOut.offer c item)
  | ⟨.copyBoth, c⟩, item => some (CopyBoth.offer c item)
  | ⟨.copyBothClientDone, c⟩, item => some (CopyBothClientDone.offer c item)
  | ⟨.draining, c⟩, item => some (Draining.offer c item)
  | ⟨.awaitingReady, c⟩, item => some (AwaitingReady.offer c item)
  | ⟨.resetting, .dirty⟩, item => some (Resetting.offer item)
  | ⟨.resetComplete, .dirty⟩, item => some (ResetComplete.offer item)
  | _, _ => none

end Conn

/-! ## Operations -/

inductive Op
  | password (password : Bytes)
  /-- `sasl`, and `scram_sha_256` and `scram_sha_256_plus` with their mechanism names. -/
  | sasl (mechanism initial : Bytes)
  | respond (data : Bytes)
  | verified
  | pushTerminate
  | pushQuery (query : Bytes)
  | pushStatelessQuery (query : Bytes)
  | pushFunctionCall (message : FunctionCall)
  | pushStatelessFunctionCall (message : FunctionCall)
  | beginExtended
  | beginReset
  | pushParse (message : Parse)
  | pushDescribe (message : Describe)
  | pushBind (message : Bind)
  | pushExecute (message : Execute)
  | pushClose (message : Close)
  | pushFlush
  | pushSync
  | pushCopyData (data : Bytes)
  | pushCopyDone
  | pushCopyFail (message : Bytes)
  | markDirty
  deriving DecidableEq, Repr

/-- The connection that an operation leads to, `none` when the type does not have it. -/
def Conn.next : Conn → Op → Option Conn
  | ⟨.passwordResponse, .pristine⟩, .password _ => some ⟨.awaitingAuthOk, .pristine⟩
  | ⟨.saslInitial, .pristine⟩, .sasl _ _ => some ⟨.sasl, .pristine⟩
  | ⟨.saslChallenge, .pristine⟩, .respond _ => some ⟨.sasl, .pristine⟩
  | ⟨.tokenResponse, .pristine⟩, .respond _ => some ⟨.tokenChallenge, .pristine⟩
  | ⟨.saslFinal, .pristine⟩, .verified => some ⟨.awaitingAuthOk, .pristine⟩
  | ⟨.ready, c⟩, .pushTerminate => some ⟨.terminated, c⟩
  | ⟨.ready, _⟩, .pushQuery _ => some ⟨.simpleQuery, .dirty⟩
  | ⟨.ready, c⟩, .pushStatelessQuery _ => some ⟨.simpleQuery, c⟩
  | ⟨.ready, _⟩, .pushFunctionCall _ => some ⟨.functionCalling, .dirty⟩
  | ⟨.ready, c⟩, .pushStatelessFunctionCall _ => some ⟨.functionCalling, c⟩
  | ⟨.ready, c⟩, .beginExtended => some ⟨.building, c⟩
  | ⟨.ready, .dirty⟩, .beginReset => some ⟨.resetting, .dirty⟩
  | ⟨.building, _⟩, .pushParse _ => some ⟨.building, .dirty⟩
  | ⟨.building, c⟩, .pushDescribe _ => some ⟨.building, c⟩
  | ⟨.building, _⟩, .pushBind _ => some ⟨.boundBuilding, .dirty⟩
  | ⟨.building, c⟩, .pushClose _ => some ⟨.building, c⟩
  | ⟨.building, c⟩, .pushFlush => some ⟨.building, c⟩
  | ⟨.building, c⟩, .pushSync => some ⟨.awaitingReady, c⟩
  | ⟨.boundBuilding, _⟩, .pushParse _ => some ⟨.boundBuilding, .dirty⟩
  | ⟨.boundBuilding, _⟩, .pushBind _ => some ⟨.boundBuilding, .dirty⟩
  | ⟨.boundBuilding, c⟩, .pushDescribe _ => some ⟨.boundBuilding, c⟩
  | ⟨.boundBuilding, c⟩, .pushExecute _ => some ⟨.boundBuilding, c⟩
  | ⟨.boundBuilding, c⟩, .pushClose _ => some ⟨.boundBuilding, c⟩
  | ⟨.boundBuilding, c⟩, .pushFlush => some ⟨.boundBuilding, c⟩
  | ⟨.boundBuilding, c⟩, .pushSync => some ⟨.awaitingReady, c⟩
  | ⟨.copyIn, c⟩, .pushCopyData _ => some ⟨.copyIn, c⟩
  | ⟨.copyIn, c⟩, .pushCopyDone => some ⟨.awaitingReady, c⟩
  | ⟨.copyIn, c⟩, .pushCopyFail _ => some ⟨.awaitingReady, c⟩
  | ⟨.copyBoth, c⟩, .pushCopyData _ => some ⟨.copyBoth, c⟩
  | ⟨.copyBoth, c⟩, .pushCopyDone => some ⟨.copyBothClientDone, c⟩
  | ⟨.copyBothServerDone, c⟩, .pushCopyData _ => some ⟨.copyBothServerDone, c⟩
  | ⟨.copyBothServerDone, c⟩, .pushCopyDone => some ⟨.awaitingReady, c⟩
  | ⟨phase, .pristine⟩, .markDirty => some ⟨phase, .dirty⟩
  | _, _ => none

/-- `ROLLBACK` ends any transaction, `DISCARD ALL` clears what the session holds. -/
def resetQuery : Bytes := ascii "ROLLBACK; DISCARD ALL"

def saslInitial (mechanism initial : Bytes) : Bytes :=
  mechanism ++ [0] ++ putI32 (Int32.ofNat initial.length) ++ initial

/-- The frame that an operation returns. -/
def Op.frame : Op → Except IoError (Option Frame)
  | .password value =>
    if value.contains 0 then
      .error (invalidInput "password response contains a NUL byte")
    else
      .ok (some { tag := 'p'.toUInt8, body := value ++ [0] })
  | .sasl mechanism initial =>
    if initial.length ≤ i32Max then
      .ok (some { tag := 'p'.toUInt8, body := saslInitial mechanism initial })
    else
      .error (invalidInput "SASL response too large")
  | .respond data => .ok (some { tag := 'p'.toUInt8, body := data })
  | .verified => .ok none
  | .pushTerminate => .ok (some (emptyMessage 'X'.toUInt8))
  | .pushQuery query => some <$> cstrMessage 'Q'.toUInt8 query
  | .pushStatelessQuery query => some <$> cstrMessage 'Q'.toUInt8 query
  | .pushFunctionCall message => some <$> message.toFrame
  | .pushStatelessFunctionCall message => some <$> message.toFrame
  | .beginExtended => .ok none
  | .beginReset => some <$> cstrMessage 'Q'.toUInt8 resetQuery
  | .pushParse message => some <$> message.toFrame
  | .pushDescribe message => some <$> message.toFrame
  | .pushBind message => some <$> message.toFrame
  | .pushExecute message => some <$> message.toFrame
  | .pushClose message => some <$> message.toFrame
  | .pushFlush => .ok (some (emptyMessage 'H'.toUInt8))
  | .pushSync => .ok (some (emptyMessage 'S'.toUInt8))
  | .pushCopyData data => .ok (some { tag := 'd'.toUInt8, body := data })
  | .pushCopyDone => .ok (some (emptyMessage 'c'.toUInt8))
  | .pushCopyFail message => some <$> cstrMessage 'f'.toUInt8 message
  | .markDirty => .ok none

/-- A call of an operation: the connection is gone when the message cannot be encoded. -/
def Conn.call (conn : Conn) (op : Op) : Option (Except IoError (Conn × Option Frame)) :=
  (conn.next op).map fun next => op.frame.map fun frame => (next, frame)

/-- Whether the type has `release`, which hands the transport to a pool. -/
def Conn.release : Conn → Bool
  | ⟨.ready, .pristine⟩ => true
  | _ => false

/-- The message that an operation sends. -/
def Op.message : Op → Option FrontendMessage
  | .password value => some (.passwordResponse (value ++ [0]))
  | .sasl mechanism initial => some (.passwordResponse (saslInitial mechanism initial))
  | .respond data => some (.passwordResponse data)
  | .verified | .beginExtended | .markDirty => none
  | .pushTerminate => some .terminate
  | .pushQuery query | .pushStatelessQuery query => some (.query query)
  | .pushFunctionCall message | .pushStatelessFunctionCall message => some (.functionCall message)
  | .beginReset => some (.query resetQuery)
  | .pushParse message => some (.parse message)
  | .pushDescribe message => some (.describe message)
  | .pushBind message => some (.bind message)
  | .pushExecute message => some (.execute message)
  | .pushClose message => some (.close message)
  | .pushFlush => some .flush
  | .pushSync => some .sync
  | .pushCopyData data => some (.copyData data)
  | .pushCopyDone => some .copyDone
  | .pushCopyFail message => some (.copyFail message)

theorem Op.frame_eq_ok {op : Op} {frame : Option Frame} (h : op.frame = .ok frame) :
    match op.message with
    | none => frame = none
    | some message => ∃ f, message.toFrame = .ok f ∧ frame = some f := by
  cases op with
  | verified | beginExtended | markDirty =>
    cases h
    rfl
  | pushTerminate | pushFlush | pushSync | pushCopyDone | pushCopyData | respond =>
    cases h
    exact ⟨_, rfl, rfl⟩
  | password password | sasl mechanism initial =>
    simp only [Op.frame] at h
    split at h <;> cases h
    exact ⟨_, rfl, rfl⟩
  | pushQuery | pushStatelessQuery | pushFunctionCall | pushStatelessFunctionCall | beginReset
  | pushParse | pushDescribe | pushBind | pushExecute | pushClose | pushCopyFail =>
    simp only [Op.frame, except_map_eq_ok] at h
    obtain ⟨f, hf, rfl⟩ := h
    exact ⟨f, hf, rfl⟩

theorem Conn.call_eq_ok {conn conn' : Conn} {op : Op} {frame : Option Frame} :
    conn.call op = some (.ok (conn', frame)) ↔ conn.next op = some conn' ∧ op.frame = .ok frame := by
  unfold Conn.call
  cases conn.next op with
  | none => simp
  | some next =>
    cases op.frame with
    | error e | ok f => simp [Except.map]

/-! ## Sessions -/

structure Session where
  conn : Conn
  demux : Demux

namespace Session

/-- Entering authentication after the startup packet. -/
def init : Session :=
  { conn := ⟨.auth, .pristine⟩
    demux := Demux.new }

inductive Input
  | call (op : Op)
  /-- A server message read through `receive` and offered. -/
  | receive (message : BackendMessage)
  /-- A server message read through `receive_backend_wire` and offered. -/
  | receiveWire (message : BackendMessage)
  deriving DecidableEq, Repr

inductive Output
  | sent (frame : Option Frame)
  /-- The demultiplexer kept the message. -/
  | absorbed
  | accepted (branch : Branch)
  | rejected (error : Option IoError)
  /-- The phase has no offer for what was read. -/
  | unoffered
  deriving DecidableEq, Repr

/-- Why a session does not go on. -/
inductive Failure
  /-- The type of the connection does not have the operation. -/
  | unavailable
  /-- The message cannot be encoded; the connection is gone. -/
  | lost (error : IoError)
  | panicked
  deriving DecidableEq, Repr

def answer (conn : Conn) (demux : Demux) : Option Offer → Except Failure (Output × Session)
  | none => .ok (.unoffered, ⟨conn, demux⟩)
  | some (.accepted conn' branch) => .ok (.accepted branch, ⟨conn', demux⟩)
  | some (.rejected error) => .ok (.rejected error, ⟨conn, demux⟩)
  | some .panicked => .error .panicked

/-- Offers an item, as the message it carries where the phase takes messages. -/
def offerItem (conn : Conn) (item : SessionItem) : Option Offer :=
  match conn.offer item with
  | some offer => some offer
  | none => conn.offerBackend item.intoBackendMessage

def step (s : Session) : Input → Except Failure (Output × Session)
  | .call op =>
    match s.conn.call op with
    | none => .error .unavailable
    | some (.error error) => .error (.lost error)
    | some (.ok (conn, frame)) => .ok (.sent frame, { s with conn := conn })
  | .receive message =>
    match s.demux.route message with
    | (none, demux) => .ok (.absorbed, { s with demux := demux })
    | (some item, demux) => answer s.conn demux (offerItem s.conn item)
  | .receiveWire message => answer s.conn s.demux (s.conn.offerBackend message)

abbrev Entry := Lib.Entry Session Input Output

/-- Runs of the client-role typestates. -/
abbrev Run : List Entry → Session → Prop :=
  History (Calls step) init

/-! ## What a step does -/

/-- The server message that an input reads. -/
def Input.message? : Input → Option BackendMessage
  | .call _ => none
  | .receive message => some message
  | .receiveWire message => some message

/-- The demultiplexer after an input. -/
def demuxAfter (demux : Demux) : Input → Demux
  | .receive message => (demux.route message).2
  | _ => demux

/-- How the connection moves in a step. -/
inductive Moved (s : Session) : Input → Output → Conn → Prop
  | call {op : Op} {frame : Option Frame} {conn : Conn} :
      s.conn.next op = some conn → op.frame = .ok frame → Moved s (.call op) (.sent frame) conn
  | item {message : BackendMessage} {item : SessionItem} {demux : Demux} {conn : Conn}
      {branch : Branch} :
      s.demux.route message = (some item, demux) →
        s.conn.offer item = some (.accepted conn branch) →
          Moved s (.receive message) (.accepted branch) conn
  | message {i : Input} {message : BackendMessage} {conn : Conn} {branch : Branch} :
      i.message? = some message → s.conn.offerBackend message = some (.accepted conn branch) →
        Moved s i (.accepted branch) conn
  | stays {i : Input} {message : BackendMessage} {o : Output} :
      i.message? = some message → (∀ branch, o ≠ .accepted branch) → (∀ frame, o ≠ .sent frame) →
        Moved s i o s.conn

theorem answer_eq_ok {conn : Conn} {demux : Demux} {offer : Option Offer} {o : Output}
    {s' : Session} (h : answer conn demux offer = .ok (o, s')) :
    s'.demux = demux ∧
      ((∃ branch, o = .accepted branch ∧ offer = some (.accepted s'.conn branch)) ∨
        (s'.conn = conn ∧ (∀ branch, o ≠ .accepted branch) ∧ ∀ frame, o ≠ .sent frame)) := by
  unfold answer at h
  split at h
  · cases h
    exact ⟨rfl, Or.inr ⟨rfl, by simp, by simp⟩⟩
  · cases h
    exact ⟨rfl, Or.inl ⟨_, rfl, rfl⟩⟩
  · cases h
    exact ⟨rfl, Or.inr ⟨rfl, by simp, by simp⟩⟩
  · cases h

theorem step_moved {s s' : Session} {i : Input} {o : Output} (h : s.step i = .ok (o, s')) :
    s'.demux = demuxAfter s.demux i ∧ Moved s i o s'.conn := by
  cases i with
  | call op =>
    simp only [step] at h
    split at h
    · cases h
    · cases h
    · next conn frame hcall =>
        cases h
        obtain ⟨hnext, hframe⟩ := Conn.call_eq_ok.1 hcall
        exact ⟨rfl, .call hnext hframe⟩
  | receive message =>
    simp only [step] at h
    split at h
    · -- The demultiplexer absorbed the message.
      next demux hroute =>
        cases h
        refine ⟨by simp [demuxAfter, hroute], .stays rfl (by simp) (by simp)⟩
    · next item demux hroute =>
        obtain ⟨hdemux, hcases⟩ := answer_eq_ok h
        have hafter : demuxAfter s.demux (.receive message) = demux := by
          simp [demuxAfter, hroute]
        refine ⟨hdemux.trans hafter.symm, ?_⟩
        rcases hcases with ⟨branch, rfl, hoffer⟩ | ⟨hconn, haccept, hsent⟩
        · unfold offerItem at hoffer
          split at hoffer
          · next offer hitem =>
              cases hoffer
              exact .item hroute hitem
          · rw [Demux.intoBackendMessage_route hroute] at hoffer
            exact .message rfl hoffer
        · rw [hconn]
          exact .stays rfl haccept hsent
  | receiveWire message =>
    obtain ⟨hdemux, hcases⟩ := answer_eq_ok h
    refine ⟨hdemux, ?_⟩
    rcases hcases with ⟨branch, rfl, hoffer⟩ | ⟨hconn, haccept, hsent⟩
    · exact .message rfl hoffer
    · rw [hconn]
      exact .stays rfl haccept hsent

end Session

end Client
end PgProto
