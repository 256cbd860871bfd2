import PgProto.Grammar.Backend
import PgProto.Typestate.Client

/-!
# Server — the server-role typestates

The hand-written typestates of `src/server_session.rs`, which serve a client that has been
authenticated.  As for the client role, the indices of a `Conn` are data and an operation that the
Rust type does not offer is `none`.

An operation answers with the next connection and the message it encodes.  `accept_stateless_query`
and `accept_stateless_function_call` take a request which the caller has read by other means, so
they answer with no message.
-/

namespace PgProto
namespace ServerSession

open Lib

/-! ## Connections -/

/-- Where a COPY sub-session resumes: `CopySimple` or `CopyExtended`. -/
inductive Resume
  | simple
  | extended
  deriving DecidableEq, Repr

/-- Which halves of a COPY BOTH stream are open. -/
inductive Ends
  | bothOpen
  | bothClientDone
  | bothServerDone
  | bothDone
  deriving DecidableEq, Repr

inductive Phase
  | ready
  | simpleQuery
  | simpleError
  | functionCall
  | functionCallDone
  | functionCallError
  | building
  | parse
  | bind
  | describe
  | execute
  | close
  | sync
  | extendedError
  | copyIn (resume : Resume)
  | copyInDone (resume : Resume)
  | copyInFailed (resume : Resume)
  | copyOut (resume : Resume)
  | copyOutDone (resume : Resume)
  | copyBoth (resume : Resume) (ends : Ends)
  | copyBothFailed (resume : Resume)
  | terminated
  deriving DecidableEq, Repr

structure Conn where
  phase : Phase
  cleanliness : Cleanliness
  deriving DecidableEq, Repr

/-! ## Client choices -/

/-- What an accepted client message hands to the caller besides the next connection. -/
inductive Branch
  | query (query : Bytes)
  | functionCall (message : FunctionCall)
  | terminate
  | parse (message : Parse)
  | bind (message : Bind)
  | describe (message : Describe)
  | execute (message : Execute)
  | close (message : Close)
  | flush
  | sync
  | data (data : Bytes)
  | done
  | fail (message : Bytes)
  | discarded
  deriving DecidableEq, Repr

inductive Offer
  | accepted (conn : Conn) (branch : Branch)
  /-- The connection and the message come back. -/
  | rejected
  | panicked
  deriving DecidableEq, Repr

def projectExtended (c : Cleanliness) (state : Backend.RuntimeState) (message : FrontendMessage) :
    Offer :=
  match Backend.projectExternal state message.variant, message with
  | some .parse, .parse message => .accepted ⟨.parse, .dirty⟩ (.parse message)
  | some .bind, .bind message => .accepted ⟨.bind, .dirty⟩ (.bind message)
  | some .describe, .describe message => .accepted ⟨.describe, c⟩ (.describe message)
  | some .execute, .execute message => .accepted ⟨.execute, c⟩ (.execute message)
  | some .close, .close message => .accepted ⟨.close, c⟩ (.close message)
  | some .flush, .flush => .accepted ⟨.building, c⟩ .flush
  | some .sync, .sync => .accepted ⟨.sync, c⟩ .sync
  | _, _ => .rejected

def Ready.offerFrontend (c : Cleanliness) (message : FrontendMessage) : Offer :=
  match Backend.projectExternal .ready message.variant, message with
  | some .query, .query query => .accepted ⟨.simpleQuery, .dirty⟩ (.query query)
  | some .functionCall, .functionCall message =>
    .accepted ⟨.functionCall, .dirty⟩ (.functionCall message)
  | some .terminate, .terminate => .accepted ⟨.terminated, c⟩ .terminate
  | some _, other => projectExtended c .ready other
  | none, _ => .rejected

def ServerBuilding.offerFrontend (c : Cleanliness) (message : FrontendMessage) : Offer :=
  projectExtended c .building message

def projectCopyIn (c : Cleanliness) (resume : Resume) (state : Backend.RuntimeState)
    (message : FrontendMessage) : Offer :=
  match Backend.projectExternal state message.variant, message with
  | some .data, .copyData data => .accepted ⟨.copyIn resume, c⟩ (.data data)
  | some .done, .copyDone => .accepted ⟨.copyInDone resume, c⟩ .done
  | some .fail, .copyFail message => .accepted ⟨.copyInFailed resume, c⟩ (.fail message)
  | _, _ => .rejected

def ServerCopyIn.offerFrontend (c : Cleanliness) (resume : Resume) (message : FrontendMessage) :
    Offer :=
  match resume with
  | .simple => projectCopyIn c .simple .simpleCopyIn message
  | .extended => projectCopyIn c .extended .extendedCopyIn message

/-- `BOTH_OPEN_STATE`. -/
def Resume.bothOpenState : Resume → Backend.RuntimeState
  | .simple => .simpleCopyBoth
  | .extended => .extendedCopyBoth

/-- `BOTH_SERVER_DONE_STATE`. -/
def Resume.bothServerDoneState : Resume → Backend.RuntimeState
  | .simple => .simpleCopyBothServerDone
  | .extended => .extendedCopyBothServerDone

/-- The two offers of COPY BOTH differ in the state and in where the client's end leads. -/
def projectCopyBoth (c : Cleanliness) (resume : Resume) (ends afterDone : Ends)
    (state : Backend.RuntimeState) (message : FrontendMessage) : Offer :=
  match Backend.projectExternal state message.variant, message with
  | some .receiveData, .copyData data => .accepted ⟨.copyBoth resume ends, c⟩ (.data data)
  | some .receiveDone, .copyDone => .accepted ⟨.copyBoth resume afterDone, c⟩ .done
  | some .fail, .copyFail message => .accepted ⟨.copyBothFailed resume, c⟩ (.fail message)
  | _, _ => .rejected

def ServerCopyBoth.offerFrontendOpen (c : Cleanliness) (resume : Resume)
    (message : FrontendMessage) : Offer :=
  projectCopyBoth c resume .bothOpen .bothClientDone resume.bothOpenState message

def ServerCopyBoth.offerFrontendServerDone (c : Cleanliness) (resume : Resume)
    (message : FrontendMessage) : Offer :=
  projectCopyBoth c resume .bothServerDone .bothDone resume.bothServerDoneState message

def ServerExtendedError.discard (c : Cleanliness) (message : FrontendMessage) : Offer :=
  match Backend.projectExternal .extendedError message.variant with
  | some .sync => .accepted ⟨.sync, c⟩ .sync
  | some .discard => .accepted ⟨.extendedError, c⟩ .discarded
  | none => .accepted ⟨.extendedError, c⟩ .discarded
  -- "extended-error grammar has only discard and sync events"
  | some _ => .panicked

/-- The offer of a client message, if the type has one. -/
def Conn.offerFrontend : Conn → FrontendMessage → Option Offer
  | ⟨.ready, c⟩, message => some (Ready.offerFrontend c message)
  | ⟨.building, c⟩, message => some (ServerBuilding.offerFrontend c message)
  | ⟨.copyIn resume, c⟩, message => some (ServerCopyIn.offerFrontend c resume message)
  | ⟨.copyBoth resume .bothOpen, c⟩, message =>
    some (ServerCopyBoth.offerFrontendOpen c resume message)
  | ⟨.copyBoth resume .bothServerDone, c⟩, message =>
    some (ServerCopyBoth.offerFrontendServerDone c resume message)
  | ⟨.extendedError, c⟩, message => some (ServerExtendedError.discard c message)
  | _, _ => none

/-! ## Server choices -/

inductive Op
  | acceptStatelessQuery (query : Bytes)
  | acceptStatelessFunctionCall (message : FunctionCall)
  | respond (value : Bytes)
  | error (response : DiagnosticResponse)
  | ready (status : TransactionStatus)
  | send (message : BackendMessage)
  | copyIn (response : CopyResponse)
  | copyOut (response : CopyResponse)
  | copyBoth (response : CopyResponse)
  | complete
  | parameterDescription (oids : List UInt32)
  | rowDescription (description : RowDescription)
  | noData
  | commandComplete (tag : Bytes)
  | portalSuspended
  /-- `data`, and `replication` with its encoding. -/
  | data (data : Bytes)
  | done
  deriving DecidableEq, Repr

/-- The next connection and the message to encode. -/
abbrev Answer := Except IoError (Conn × Option BackendMessage)

def answers (phase : Phase) (c : Cleanliness) (message : BackendMessage) : Option Answer :=
  some (.ok (⟨phase, c⟩, some message))

def stateChanging : IoError :=
  invalidInput "state-changing response requires its typed transition"

def ServerSimpleQuery.send (c : Cleanliness) : BackendMessage → Answer
  | .errorResponse _
  | .readyForQuery _
  | .copyInResponse _
  | .copyOutResponse _
  | .copyBothResponse _ => .error stateChanging
  | message => .ok (⟨.simpleQuery, c⟩, some message)

def ServerExecute.send (c : Cleanliness) : BackendMessage → Answer
  | .commandComplete _
  | .portalSuspended
  | .errorResponse _
  | .readyForQuery _
  | .copyInResponse _
  | .copyOutResponse _
  | .copyBothResponse _ => .error stateChanging
  | message => .ok (⟨.execute, c⟩, some message)

def extendedError (c : Cleanliness) (response : DiagnosticResponse) : Option Answer :=
  answers .extendedError c (.errorResponse response)

def ready (c : Cleanliness) (status : TransactionStatus) : Option Answer :=
  if status = .idle then
    answers .ready c (.readyForQuery status)
  else
    answers .ready .dirty (.readyForQuery status)

/-- Where a completed COPY resumes. -/
def copyCompleted (c : Cleanliness) (resume : Resume) (tag : Bytes) : Option Answer :=
  match resume with
  | .simple => answers .simpleQuery c (.commandComplete tag)
  | .extended => answers .building c (.commandComplete tag)

/-- Where a COPY resumes that the client failed. -/
def copyFailed (c : Cleanliness) (resume : Resume) (response : DiagnosticResponse) :
    Option Answer :=
  match resume with
  | .simple => answers .simpleError c (.errorResponse response)
  | .extended => extendedError c response

/-- What an operation answers, `none` when the type does not have it. -/
def Conn.answer : Conn → Op → Option Answer
  -- The request was read by the caller, so there is nothing to send yet.
  | ⟨.ready, c⟩, .acceptStatelessQuery _ => some (.ok (⟨.simpleQuery, c⟩, none))
  | ⟨.ready, c⟩, .acceptStatelessFunctionCall _ => some (.ok (⟨.functionCall, c⟩, none))
  | ⟨.functionCall, c⟩, .respond value => answers .functionCallDone c (.functionCallResponse value)
  | ⟨.functionCall, c⟩, .error response => answers .functionCallError c (.errorResponse response)
  | ⟨.functionCallDone, c⟩, .ready status => ServerSession.ready c status
  | ⟨.functionCallError, c⟩, .ready status => ServerSession.ready c status
  -- Simple queries
  | ⟨.simpleQuery, c⟩, .send message => some (ServerSimpleQuery.send c message)
  | ⟨.simpleQuery, c⟩, .error response => answers .simpleError c (.errorResponse response)
  | ⟨.simpleQuery, c⟩, .copyIn response => answers (.copyIn .simple) c (.copyInResponse response)
  | ⟨.simpleQuery, c⟩, .copyOut response => answers (.copyOut .simple) c (.copyOutResponse response)
  | ⟨.simpleQuery, c⟩, .copyBoth response =>
    answers (.copyBoth .simple .bothOpen) c (.copyBothResponse response)
  | ⟨.simpleQuery, c⟩, .ready status => ServerSession.ready c status
  | ⟨.simpleError, c⟩, .ready status => ServerSession.ready c status
  -- Extended queries
  | ⟨.parse, c⟩, .complete => answers .building c .parseComplete
  | ⟨.parse, c⟩, .error response => extendedError c response
  | ⟨.bind, c⟩, .complete => answers .building c .bindComplete
  | ⟨.bind, c⟩, .error response => extendedError c response
  | ⟨.close, c⟩, .complete => answers .building c .closeComplete
  | ⟨.close, c⟩, .error response => extendedError c response
  | ⟨.describe, c⟩, .parameterDescription oids => answers .describe c (.parameterDescription oids)
  | ⟨.describe, c⟩, .rowDescription description =>
    answers .building c (.rowDescription description)
  | ⟨.describe, c⟩, .noData => answers .building c .noData
  | ⟨.describe, c⟩, .error response => extendedError c response
  | ⟨.execute, c⟩, .send message => some (ServerExecute.send c message)
  | ⟨.execute, c⟩, .commandComplete tag => answers .building c (.commandComplete tag)
  | ⟨.execute, c⟩, .portalSuspended => answers .building c .portalSuspended
  | ⟨.execute, c⟩, .error response => extendedError c response
  | ⟨.execute, c⟩, .copyIn response => answers (.copyIn .extended) c (.copyInResponse response)
  | ⟨.execute, c⟩, .copyOut response => answers (.copyOut .extended) c (.copyOutResponse response)
  | ⟨.execute, c⟩, .copyBoth response =>
    answers (.copyBoth .extended .bothOpen) c (.copyBothResponse response)
  -- COPY sub-sessions, which resume the query that opened them
  | ⟨.copyInDone resume, c⟩, .commandComplete tag => copyCompleted c resume tag
  | ⟨.copyInFailed resume, c⟩, .error response => copyFailed c resume response
  | ⟨.copyOut resume, c⟩, .data data => answers (.copyOut resume) c (.copyData data)
  | ⟨.copyOut resume, c⟩, .done => answers (.copyOutDone resume) c .copyDone
  | ⟨.copyOutDone resume, c⟩, .commandComplete tag => copyCompleted c resume tag
  | ⟨.copyBoth resume .bothOpen, c⟩, .data data =>
    answers (.copyBoth resume .bothOpen) c (.copyData data)
  | ⟨.copyBoth resume .bothOpen, c⟩, .done => answers (.copyBoth resume .bothServerDone) c .copyDone
  | ⟨.copyBoth resume .bothClientDone, c⟩, .data data =>
    answers (.copyBoth resume .bothClientDone) c (.copyData data)
  | ⟨.copyBoth resume .bothClientDone, c⟩, .done =>
    answers (.copyBoth resume .bothDone) c .copyDone
  | ⟨.copyBoth resume .bothDone, c⟩, .commandComplete tag => copyCompleted c resume tag
  | ⟨.copyBothFailed resume, c⟩, .error response => copyFailed c resume response
  | ⟨.sync, c⟩, .ready status => ServerSession.ready c status
  | _, _ => none

/-! ## Sessions -/

inductive Input
  | call (op : Op)
  /-- A client message, read and offered (or discarded after an error). -/
  | offer (message : FrontendMessage)
  deriving DecidableEq, Repr

inductive Output
  | sent (message : BackendMessage) (frame : Frame)
  /-- A request was taken without an answer. -/
  | taken
  | accepted (branch : Branch)
  | rejected
  deriving DecidableEq, Repr

inductive Failure
  | unavailable
  /-- The operation refused or could not encode its message; the connection is gone. -/
  | lost (error : IoError)
  | panicked
  deriving DecidableEq, Repr

def step (conn : Conn) : Input → Except Failure (Output × Conn)
  | .call op =>
    match conn.answer op with
    | none => .error .unavailable
    | some (.error error) => .error (.lost error)
    | some (.ok (conn', none)) => .ok (.taken, conn')
    | some (.ok (conn', some message)) =>
      match message.toFrame with
      | .error error => .error (.lost error)
      | .ok frame => .ok (.sent message frame, conn')
  | .offer message =>
    match conn.offerFrontend message with
    | none => .error .unavailable
    | some (.accepted conn' branch) => .ok (.accepted branch, conn')
    | some .rejected => .ok (.rejected, conn)
    | some .panicked => .error .panicked

abbrev Entry := Lib.Entry Conn Input Output

/-- Runs of the server-role typestates from `Ready`. -/
abbrev Run (c : Cleanliness) : List Entry → Conn → Prop :=
  History (Calls step) ⟨.ready, c⟩

/-- How the connection moves in a step. -/
inductive Moved (conn : Conn) : Input → Output → Conn → Prop
  | sends {op : Op} {message : BackendMessage} {frame : Frame} {conn' : Conn} :
      conn.answer op = some (.ok (conn', some message)) → message.toFrame = .ok frame →
        Moved conn (.call op) (.sent message frame) conn'
  | takes {op : Op} {conn' : Conn} :
      conn.answer op = some (.ok (conn', none)) → Moved conn (.call op) .taken conn'
  | accepts {message : FrontendMessage} {branch : Branch} {conn' : Conn} :
      conn.offerFrontend message = some (.accepted conn' branch) →
        Moved conn (.offer message) (.accepted branch) conn'
  | rejects {message : FrontendMessage} :
      conn.offerFrontend message = some .rejected → Moved conn (.offer message) .rejected conn

theorem step_moved {conn conn' : Conn} {i : Input} {o : Output}
    (h : step conn i = .ok (o, conn')) : Moved conn i o conn' := by
  cases i with
  | call op =>
    simp only [step] at h
    split at h
    · cases h
    · cases h
    · next hanswer =>
        cases h
        exact .takes hanswer
    · next hanswer =>
        split at h
        · cases h
        · next hframe =>
            cases h
            exact .sends hanswer hframe
  | offer message =>
    simp only [step] at h
    split at h
    · cases h
    · next hoffer =>
        cases h
        exact .accepts hoffer
    · next hoffer =>
        cases h
        exact .rejects hoffer
    · cases h

end ServerSession
end PgProto
