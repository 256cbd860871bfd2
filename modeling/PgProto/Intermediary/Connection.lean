import PgProto.Lib.Resume
import PgProto.Pipeline.Sequences

/-!
# Connection — the state of an intermediary connection

The data of `IntermediaryConnection` in `src/intermediary_component.rs` which its forwarding
functions read and write: the two transports, the ledger, the prepared client sequence, the backend
hold of `src/backend_hold.rs` and the queue of local responses.

Three things are added to the source's data so that properties of runs can be stated.  Messages
taken off a transport carry the number of their receipt.  A transport keeps the bytes it has
written.  A `World` is a connection with the log of what its calls did, each record with the
connection it was made in.
-/

namespace PgProto

open Lib

/-! ## Middleware -/

inductive FrontendMiddlewareOutput
  | forward (message : FrontendMessage)
  | forwardThenFlush (message : FrontendMessage)
  | suppress (message : FrontendMessage)
  | respond (request : FrontendMessage) (responses : List BackendMessage)
  deriving DecidableEq, Repr

inductive BackendMiddlewareOutput
  | forward (message : BackendMessage)
  | expand (messages : List BackendMessage)
  | suppress (message : BackendMessage)
  | hold
  deriving DecidableEq, Repr

inductive BackendBatchOutput
  | keepHolding
  | replaceOneToOne (messages : List BackendMessage)
  deriving DecidableEq, Repr

inductive BackendFlushReason
  | capacity
  | protocolBarrier
  | explicit
  | teardown
  deriving DecidableEq, Repr

inductive ProtocolTransitionDirection
  | frontend
  | backend
  deriving DecidableEq, Repr

structure ProtocolTransitionObservation where
  id : TransitionId
  direction : ProtocolTransitionDirection
  operation : Option OperationId
  deriving DecidableEq, Repr

/-- The role middleware of both sides: `intercept_frontend` and `intercept_backend` of the
client-facing and of the PostgreSQL-facing role, on the shared state. -/
structure Handlers (σ : Type) where
  serverFrontend : σ → FrontendMessage → FrontendMessage × σ
  serverBackend : σ → BackendMessage → BackendMessage × σ
  clientFrontend : σ → FrontendMessage → FrontendMessage × σ
  clientBackend : σ → BackendMessage → BackendMessage × σ

/-- Role middleware that changes nothing. -/
def Handlers.identity (σ : Type) : Handlers σ :=
  { serverFrontend := fun s m => (m, s)
    serverBackend := fun s m => (m, s)
    clientFrontend := fun s m => (m, s)
    clientBackend := fun s m => (m, s) }

/-! ## The backend hold -/

/-- A message taken off a transport, with the number of messages taken off before it. -/
structure Receipt (μ : Type) where
  number : Nat
  message : μ
  deriving DecidableEq, Repr

/-- Non-zero bounds for connection-owned backend messages. -/
structure BackendHoldLimits where
  maxMessages : Nat
  maxBytes : Nat
  maxMessages_pos : 0 < maxMessages
  maxBytes_pos : 0 < maxBytes

/-- `BackendHoldLimits::new`; the refusal is `BackendHoldConfigError`. -/
def BackendHoldLimits.new (maxMessages maxBytes : Nat) : Except Unit BackendHoldLimits :=
  if h : maxMessages = 0 ∨ maxBytes = 0 then
    .error ()
  else
    .ok
      { maxMessages := maxMessages
        maxBytes := maxBytes
        maxMessages_pos := Nat.pos_of_ne_zero fun h' => h (Or.inl h')
        maxBytes_pos := Nat.pos_of_ne_zero fun h' => h (Or.inr h') }

/-- `saturating_add` on `usize`. -/
def saturatingAdd (a b : Nat) : Nat := min (a + b) (2 ^ 64 - 1)

def retainedBytes (message : BackendMessage) : Nat :=
  match message.toFrame with
  | .ok frame => saturatingAdd frame.body.length 5
  | .error _ => 0

structure BackendHold where
  pending : Option (Receipt BackendMessage × Nat)
  held : List (Receipt BackendMessage)
  heldBytes : Nat
  deriving DecidableEq, Repr

namespace BackendHold

def default : BackendHold :=
  { pending := none
    held := []
    heldBytes := 0 }

/-- The assertion of the source fails when a message is pending. -/
def setPending (hold : BackendHold) (source : Receipt BackendMessage) : Option BackendHold :=
  match hold.pending with
  | some _ => none
  | none => some { hold with pending := some (source, retainedBytes source.message) }

def takePending (hold : BackendHold) : BackendHold :=
  { hold with pending := none }

def holdPending (hold : BackendHold) (source : Receipt BackendMessage) (bytes : Nat) :
    BackendHold :=
  { pending := none
    held := hold.held ++ [source]
    heldBytes := saturatingAdd hold.heldBytes bytes }

def messages (hold : BackendHold) : List BackendMessage :=
  hold.held.map Receipt.message

def clear (hold : BackendHold) : BackendHold :=
  { hold with
    held := []
    heldBytes := 0 }

end BackendHold

def isBackendBatchBarrier (message : BackendMessage) : Bool :=
  [BackendVariant.commandComplete, .portalSuspended, .emptyQueryResponse, .errorResponse,
    .readyForQuery, .copyInResponse, .copyOutResponse, .copyBothResponse, .copyDone,
    .noticeResponse, .notificationResponse, .parameterStatus, .backendKeyData].contains
    message.variant

/-! ## The connection -/

/-- The outbound half of a transport, the bytes it has written, and the number of messages taken
off its inbound half. -/
structure Transport where
  maxFrameLen : Nat
  outbound : Bytes
  written : Bytes
  received : Nat
  deriving DecidableEq, Repr

namespace Transport

def new (maxFrameLen : Nat) : Transport :=
  { maxFrameLen := maxFrameLen
    outbound := []
    written := []
    received := 0 }

/-- Everything that has reached the transport, written or not. -/
def wire (t : Transport) : Bytes := t.written ++ t.outbound

def append (t : Transport) (bytes : Bytes) : Transport :=
  { t with outbound := t.outbound ++ bytes }

/-- A write that took `count` bytes, at most all of them. -/
def advance (t : Transport) (count : Nat) : Transport :=
  { t with
    outbound := t.outbound.drop count
    written := t.written ++ t.outbound.take count }

end Transport

inductive Side
  | upstream
  | downstream
  deriving DecidableEq, Repr

structure PendingLocalResponses where
  operation : OperationId
  messages : List BackendMessage
  deriving DecidableEq, Repr

structure PreparedFrontendForwarding where
  number : Nat
  source : FrontendMessage
  messages : List FrontendMessage
  deriving DecidableEq, Repr

/-- `IntermediaryConnection` without what forwarding never reads: the target, the cancellation
registry and key.  The boundary middleware is part of the environment. -/
structure Connection (σ : Type) where
  downstream : Transport
  upstream : Transport
  state : σ
  pipeline : Pipeline
  pendingFrontend : Option PreparedFrontendForwarding
  backendHold : BackendHold
  backendHoldLimits : Option BackendHoldLimits
  pendingLocal : List PendingLocalResponses

namespace Connection

variable {σ : Type}

def new (downstreamLimit upstreamLimit : Nat) (state : σ) (policy : PipelinePolicy)
    (limits : Option BackendHoldLimits) : Connection σ :=
  { downstream := Transport.new downstreamLimit
    upstream := Transport.new upstreamLimit
    state := state
    pipeline := Pipeline.new policy
    pendingFrontend := none
    backendHold := BackendHold.default
    backendHoldLimits := limits
    pendingLocal := [] }

def transport (c : Connection σ) : Side → Transport
  | .upstream => c.upstream
  | .downstream => c.downstream

def setTransport (c : Connection σ) (side : Side) (t : Transport) : Connection σ :=
  match side with
  | .upstream => { c with upstream := t }
  | .downstream => { c with downstream := t }

def backendHoldIsFull (c : Connection σ) : Bool :=
  match c.backendHoldLimits with
  | none => false
  | some limits =>
    decide (limits.maxMessages ≤ c.backendHold.held.length) ||
      decide (limits.maxBytes ≤ c.backendHold.heldBytes)

end Connection

/-! ## Suspension points -/

/-- The awaits of the forwarding functions.  `unsent` of a write or flush is not in the source: it
counts the messages of the sequence being sent that are not encoded yet. -/
inductive Request
  | receiveFrontend
  | receiveBackend
  | receiveEither
  | frontendOperation (operation : OperationId) (message : FrontendMessage)
  | backendOperation (operation : Option OperationId) (message : BackendMessage)
  | flushBackendOperations (held : List (Option OperationId × BackendMessage)) (bytes : Nat)
      (reason : BackendFlushReason)
  | observeTransition (observation : ProtocolTransitionObservation)
  | write (side : Side) (unsent : Nat)
  | flush (side : Side) (unsent : Nat)
  deriving DecidableEq, Repr

/-- What the environment may answer.  Boundary middleware also returns the shared state, which it
may have changed. -/
abbrev Answer (σ ε : Type) : Request → Type
  | .receiveFrontend => Except IoError FrontendMessage
  | .receiveBackend => Except IoError BackendMessage
  | .receiveEither => Except IoError FrontendMessage ⊕ Except IoError BackendMessage
  | .frontendOperation _ _ => Except ε FrontendMiddlewareOutput × σ
  | .backendOperation _ _ => Except ε BackendMiddlewareOutput × σ
  | .flushBackendOperations _ _ _ => Except ε BackendBatchOutput × σ
  | .observeTransition _ => σ
  | .write _ _ => Except IoError Nat
  | .flush _ _ => Except IoError Unit

/-! ## Results -/

inductive BackendBatchProjectionError
  | cardinality (expected actual : Nat)
  | illegalSource
  | illegalReplacement
  | differentSpan
  deriving DecidableEq, Repr

def BackendBatchProjectionError.ofSequence : BackendSequenceError → BackendBatchProjectionError
  | .cardinality expected actual => .cardinality expected actual
  | .source _ => .illegalSource
  | .replacement _ => .illegalReplacement
  | .differentSpan => .differentSpan

inductive ForwardError (ε : Type)
  | io (error : IoError)
  | frontend (error : FrontendProjectionError)
  | backend (error : BackendProjectionError)
  | deferred (message : BackendMessage)
  | emptyExpansion (source : BackendMessage)
  | backendHoldingDisabled (source : BackendMessage)
  | backendHoldCapacity
  | backendHoldRefused
  | backendBatch (error : BackendBatchProjectionError) (proposed : List BackendMessage)
  | middleware (error : ε)

/-- The assertions, `expect` calls and `unreachable!` arms a forwarding call may meet. -/
inductive Abort
  | ledger (panic : Panic)
  | pendingSource
  | noPendingSource
  | localForward
  | forwardedSingleton
  deriving DecidableEq, Repr

/-- Why a call does not return a value. -/
inductive Stop (ε : Type)
  | failed (error : ForwardError ε)
  | panicked (abort : Abort)

inductive FrontendForwarding
  | forwarded (message : FrontendMessage)
  | expanded (source : FrontendMessage) (messages : List FrontendMessage)
  | suppressed (message : FrontendMessage)
  | locallyHandled (message : FrontendMessage)
  deriving DecidableEq, Repr

inductive BackendForwarding
  | forwarded (message : BackendMessage)
  | expanded (source : BackendMessage) (messages : List BackendMessage)
  | suppressed (message : BackendMessage)
  | held
  deriving DecidableEq, Repr

inductive BackendBatchForwarding
  | released (messages : List BackendMessage)
  | kept
  | empty
  deriving DecidableEq, Repr

inductive ForwardedMessage
  | frontend (message : FrontendMessage)
  | frontendExpanded (source : FrontendMessage) (messages : List FrontendMessage)
  | backend (message : BackendMessage)
  | backendExpanded (source : BackendMessage) (messages : List BackendMessage)
  | frontendSuppressed (message : FrontendMessage)
  | frontendLocallyHandled (message : FrontendMessage)
  | backendSuppressed (message : BackendMessage)
  | backendHeld
  deriving DecidableEq, Repr

/-! ## The log -/

open Pipeline (LedgerEntry)

/-- What a forwarding call does, as far as properties of runs speak about it. -/
inductive Event
  /-- The boundary middleware answered the client message with this number. -/
  | frontendAnswered (number : Nat) (output : FrontendMiddlewareOutput)
  /-- A client message came to its end without reaching the ledger. -/
  | dismissed (number : Nat)
  /-- A client message was answered locally: its admission, the responses of the boundary middleware,
  and the messages the role middleware made of them. -/
  | queued (number : Nat) (entry : LedgerEntry) (responses messages : List BackendMessage)
  /-- The sequence for a client message was committed to the ledger. -/
  | admitted (number : Nat) (entries : List LedgerEntry)
  /-- The boundary middleware answered the server message with this number. -/
  | backendAnswered (number : Nat) (output : BackendMiddlewareOutput)
  /-- An output was offered to the ledger: for a server message of which `unsent` more outputs
  follow, or, without a source, a local response. -/
  | projected (source : Option Nat) (unsent : Nat) (entry : LedgerEntry)
  /-- A suppressed server message was offered to the ledger. -/
  | suppressed (number : Nat) (entry : LedgerEntry)
  | sentUpstream (number : Nat) (operation : OperationId) (message : FrontendMessage)
  | sentDownstream (source : Option Nat) (message : BackendMessage)
  /-- A call ended at this suspension point: it was dropped, or the input or output failed. -/
  | interrupted (request : Request)
  deriving DecidableEq

/-- An event with the connection in which it happened. -/
structure Record (σ : Type) where
  before : Connection σ
  event : Event

structure World (σ : Type) where
  conn : Connection σ
  log : List (Record σ)

namespace World

variable {σ : Type}

def new (conn : Connection σ) : World σ :=
  { conn := conn
    log := [] }

def logged (w : World σ) (event : Event) : World σ :=
  { w with log := w.log ++ [{ before := w.conn, event := event }] }

def loggedAll (w : World σ) (events : List Event) : World σ :=
  { w with log := w.log ++ events.map fun event => { before := w.conn, event := event } }

def update (w : World σ) (f : Connection σ → Connection σ) : World σ :=
  { w with conn := f w.conn }

end World

end PgProto
