import PgProto.Intermediary.Connection

/-!
# Forwarding — the calls of an intermediary connection

The forwarding functions of `src/intermediary_component.rs` with the part of `src/transport.rs` they
use, as computations that suspend where the source awaits.  The functions follow the source line by
line; what they add is the log.

A suspended call owns the messages in its local variables.  Everything else is in the connection,
and that is what remains when the call is dropped.
-/

namespace PgProto

open Lib
open Pipeline (LedgerEntry)

abbrev Forward (σ ε : Type) : Type → Type :=
  Async Request (Answer σ ε) (World σ) (Stop ε)

section Forwarding

variable {σ ε : Type}

/-! ## Primitives -/

def connection : Forward σ ε (Connection σ) := do
  let w ← Async.get
  return w.conn

def record (event : Event) : Forward σ ε Unit :=
  Async.modify fun w => w.logged event

def recordAll (events : List Event) : Forward σ ε Unit :=
  Async.modify fun w => w.loggedAll events

def update (f : Connection σ → Connection σ) : Forward σ ε Unit :=
  Async.modify fun w => w.update f

def failed {α : Type} (error : ForwardError ε) : Forward σ ε α :=
  Async.fail (.failed error)

def panicked {α : Type} (abort : Abort) : Forward σ ε α :=
  Async.fail (.panicked abort)

/-- Input or output failed at a suspension point. -/
def interrupted {α : Type} (request : Request) (error : IoError) : Forward σ ε α := do
  record (.interrupted request)
  failed (.io error)

/-- Passes a message through role middleware. -/
def intercept {μ : Type} (handler : σ → μ → μ × σ) (message : μ) : Forward σ ε μ := do
  let c ← connection
  let passed := handler c.state message
  update fun c => { c with state := passed.2 }
  return passed.1

def interceptAll {μ : Type} (handler : σ → μ → μ × σ) : List μ → Forward σ ε (List μ)
  | [] => return []
  | message :: messages => do
    let passed ← intercept handler message
    let rest ← interceptAll handler messages
    return passed :: rest

/-! ## Transports -/

def takeFrontend (message : FrontendMessage) : Forward σ ε (Receipt FrontendMessage) := do
  let c ← connection
  update fun c =>
    { c with downstream := { c.downstream with received := c.downstream.received + 1 } }
  return { number := c.downstream.received, message := message }

def takeBackend (message : BackendMessage) : Forward σ ε (Receipt BackendMessage) := do
  let c ← connection
  update fun c => { c with upstream := { c.upstream with received := c.upstream.received + 1 } }
  return { number := c.upstream.received, message := message }

/-- `receive_wire_raw` of the client-facing role. -/
def receiveFrontend : Forward σ ε (Receipt FrontendMessage) := do
  let answer : Except IoError FrontendMessage ← Async.ask Request.receiveFrontend
  match answer with
  | .error error => interrupted .receiveFrontend error
  | .ok message => takeFrontend message

/-- `receive_wire_raw` of the PostgreSQL-facing role. -/
def receiveBackend : Forward σ ε (Receipt BackendMessage) := do
  let answer : Except IoError BackendMessage ← Async.ask Request.receiveBackend
  match answer with
  | .error error => interrupted .receiveBackend error
  | .ok message => takeBackend message

/-- The write loop of `Buffered::flush`.  Every round but the last takes a byte off the buffer, so
the rounds are bounded by its length. -/
def drain (side : Side) (unsent : Nat) : Nat → Forward σ ε Unit
  | 0 => return ()
  | rounds + 1 => do
    let c ← connection
    if (c.transport side).outbound = [] then
      return ()
    else
      let answer : Except IoError Nat ← Async.ask (Request.write side unsent)
      match answer with
      | .error error => interrupted (.write side unsent) error
      | .ok 0 =>
        interrupted (.write side unsent)
          { kind := .writeZero
            message := "transport wrote zero buffered bytes" }
      | .ok written => do
        update fun c => c.setTransport side ((c.transport side).advance written)
        drain side unsent rounds

/-- `Buffered::flush`. -/
def flushTransport (side : Side) (unsent : Nat) : Forward σ ε Unit := do
  let c ← connection
  drain side unsent (c.transport side).outbound.length
  let answer : Except IoError Unit ← Async.ask (Request.flush side unsent)
  match answer with
  | .error error => interrupted (.flush side unsent) error
  | .ok () => return ()

/-- `send_wire_raw` on one side, once the message is encoded. -/
def sendEncoded (side : Side) (unsent : Nat) (encoded : Except IoError Bytes) :
    Forward σ ε Unit := do
  match encoded with
  | .error error => failed (.io error)
  | .ok bytes => do
    update fun c => c.setTransport side ((c.transport side).append bytes)
    flushTransport side unsent

/-- `send_wire_raw` of the PostgreSQL-facing role. -/
def sendUpstream (number : Nat) (operation : OperationId) (unsent : Nat)
    (message : FrontendMessage) : Forward σ ε Unit := do
  record (.sentUpstream number operation message)
  let c ← connection
  sendEncoded .upstream unsent (message.encode c.upstream.maxFrameLen)

/-- `send_wire_raw` of the client-facing role. -/
def sendDownstream (source : Option Nat) (unsent : Nat) (message : BackendMessage) :
    Forward σ ε Unit := do
  record (.sentDownstream source message)
  let c ← connection
  sendEncoded .downstream unsent (message.encode c.downstream.maxFrameLen)

def observeTransition (observation : ProtocolTransitionObservation) : Forward σ ε Unit := do
  let state : σ ← Async.ask (Request.observeTransition observation)
  update fun c => { c with state := state }

/-! ## Local responses -/

/-- The loop of `flush_local_responses` over the front entry; true when the entry is used up. -/
def flushEntry (operation : OperationId) (rest : List PendingLocalResponses) :
    List BackendMessage → Forward σ ε Bool
  | [] => do
    update fun c => { c with pendingLocal := rest }
    return true
  | message :: messages => do
    update fun c => { c with pendingLocal := { operation, messages } :: rest }
    let c ← connection
    match c.pipeline.tryEmitLocal operation message with
    | .error panic => panicked (.ledger panic)
    | .ok (result, next) => do
      record (.projected none 0
        ⟨c.pipeline, .emitLocal operation message, .backend result, next⟩)
      update fun c => { c with pipeline := next }
      match result with
      | .ok (.emit message) => do
        sendDownstream none 0 message
        flushEntry operation rest messages
      | .ok (.deferred message) => do
        update fun c =>
          { c with pendingLocal := { operation, messages := message :: messages } :: rest }
        return false
      | .error error => failed (.backend error)

def flushEntries : List PendingLocalResponses → Forward σ ε Unit
  | [] => return ()
  | pending :: rest => do
    if ← flushEntry pending.operation rest pending.messages then
      flushEntries rest
    else
      return ()

def flushLocalResponses : Forward σ ε Unit := do
  let c ← connection
  flushEntries c.pendingLocal

/-! ## Client messages -/

/-- The messages the ledger forwards among the items of a sequence. -/
def forwardedItems (items : List FrontendSequenceItem) : List (OperationId × FrontendMessage) :=
  items.filterMap fun item => item.admission.intoAction.forwarded?

def sendItems (number : Nat) : List FrontendSequenceItem → Forward σ ε (List FrontendMessage)
  | [] => return []
  | item :: items => do
    match item.admission.intoAction with
    | .forward id message => do
      match item.transition with
      | some transition =>
        observeTransition
          { id := transition, direction := .frontend, operation := some id }
      | none => pure ()
      sendUpstream number id (forwardedItems items).length message
      let messages ← sendItems number items
      return message :: messages
    | .discard _ => sendItems number items

def forwardPreparedFrontend (prepared : PreparedFrontendForwarding) :
    Forward σ ε FrontendForwarding := do
  let c ← connection
  match c.pipeline.prepareFrontendSequence .forward prepared.messages with
  | .error panic => panicked (.ledger panic)
  | .ok (.error error) => do
    update fun c => { c with pendingFrontend := some prepared }
    failed (.frontend error)
  | .ok (.ok (items, next)) => do
    let calls := prepared.messages.map fun message => Call.frontend message .forward
    record (.admitted prepared.number (c.pipeline.entries calls))
    update fun c => { c with pipeline := next }
    let messages ← sendItems prepared.number items
    if messages = [] then
      return .suppressed prepared.source
    else if 1 < prepared.messages.length then
      return .expanded prepared.source messages
    else
      match messages.getLast? with
      | some message => return .forwarded message
      | none => panicked .forwardedSingleton

/-- The `Respond` arm of `process_frontend`. -/
def respondLocally (handlers : Handlers σ) (number : Nat) (request : FrontendMessage)
    (responses : List BackendMessage) : Forward σ ε FrontendForwarding := do
  let c ← connection
  match c.pipeline.acceptFrontend request .local with
  | .error panic => panicked (.ledger panic)
  | .ok (.error error, _) => do
    record (.dismissed number)
    failed (.frontend error)
  | .ok (.ok admission, next) => do
    update fun c => { c with pipeline := next }
    match admission.intoAction with
    | .forward _ _ => panicked .localForward
    | .discard id => do
      let messages ← interceptAll handlers.serverBackend responses
      record (.queued number
        ⟨c.pipeline, .frontend request .local, .frontend (.ok admission), next⟩ responses
        messages)
      update fun c =>
        { c with pendingLocal := c.pendingLocal ++ [{ operation := id, messages }] }
      flushLocalResponses
      return .locallyHandled request

def processFrontend (handlers : Handlers σ) (source : Receipt FrontendMessage) :
    Forward σ ε FrontendForwarding := do
  let message ← intercept handlers.serverFrontend source.message
  let c ← connection
  let answer : Except ε FrontendMiddlewareOutput × σ ←
    Async.ask (Request.frontendOperation c.pipeline.nextOperationId message)
  update fun c => { c with state := answer.2 }
  match answer.1 with
  | .error error => do
    record (.dismissed source.number)
    failed (.middleware error)
  | .ok output => do
    record (.frontendAnswered source.number output)
    match output with
    | .forward message => do
      let message ← intercept handlers.clientFrontend message
      forwardPreparedFrontend
        { number := source.number, source := message, messages := [message] }
    | .forwardThenFlush message => do
      let primary ← intercept handlers.clientFrontend message
      let synthetic ← intercept handlers.clientFrontend .flush
      forwardPreparedFrontend
        { number := source.number, source := message, messages := [primary, synthetic] }
    | .suppress message => do
      record (.dismissed source.number)
      return .suppressed message
    | .respond request responses => respondLocally handlers source.number request responses

def forwardFrontend (handlers : Handlers σ) : Forward σ ε FrontendForwarding := do
  let c ← connection
  match c.pendingFrontend with
  | some prepared => do
    update fun c => { c with pendingFrontend := none }
    forwardPreparedFrontend prepared
  | none => do
    let source ← receiveFrontend
    processFrontend handlers source

/-! ## Server messages -/

/-- `advance_backend`; `event` says how the step of the ledger is logged. -/
def advanceBackend (event : LedgerEntry → Event) (message : BackendMessage) :
    Forward σ ε BackendMessage := do
  let c ← connection
  match c.pipeline.acceptBackend message with
  | .error panic => panicked (.ledger panic)
  | .ok (result, next) => do
    record (event ⟨c.pipeline, .backend message, .backend result, next⟩)
    update fun c => { c with pipeline := next }
    match result with
    | .ok (.emit message) => return message
    | .ok (.deferred message) => failed (.deferred message)
    | .error error => failed (.backend error)

/-- `emit_backend` for a server message of which `unsent` more outputs follow. -/
def emitBackend (number unsent : Nat) (message : BackendMessage) : Forward σ ε BackendMessage := do
  let c ← connection
  let operation := c.pipeline.backendOperationId message
  let transition := c.pipeline.backendTransitionId message
  let message ← advanceBackend (.projected (some number) unsent) message
  match transition with
  | some transition =>
    observeTransition { id := transition, direction := .backend, operation := operation }
  | none => pure ()
  sendDownstream (some number) unsent message
  return message

/-- The loop of the `Expand` arm. -/
def emitAll (handlers : Handlers σ) (number : Nat) :
    List BackendMessage → Forward σ ε (List BackendMessage)
  | [] => return []
  | message :: messages => do
    let passed ← intercept handlers.serverBackend message
    let emitted ← emitBackend number messages.length passed
    let rest ← emitAll handlers number messages
    return emitted :: rest

/-- The `match` of `process_pending_backend` on the middleware's decision. -/
def applyOutput (handlers : Handlers σ) (source : Receipt BackendMessage) (bytes : Nat) :
    BackendMiddlewareOutput → Forward σ ε BackendForwarding
  | .forward message => do
    update fun c => { c with backendHold := c.backendHold.takePending }
    let passed ← intercept handlers.serverBackend message
    let emitted ← emitBackend source.number 0 passed
    return .forwarded emitted
  | .suppress message => do
    update fun c => { c with backendHold := c.backendHold.takePending }
    let advanced ← advanceBackend (.suppressed source.number) message
    return .suppressed advanced
  | .expand [] => failed (.emptyExpansion source.message)
  | .expand (message :: messages) => do
    update fun c => { c with backendHold := c.backendHold.takePending }
    let emitted ← emitAll handlers source.number (message :: messages)
    return .expanded source.message emitted
  | .hold => do
    let c ← connection
    match c.backendHoldLimits with
    | none => failed (.backendHoldingDisabled source.message)
    | some _ => do
      update fun c => { c with backendHold := c.backendHold.holdPending source bytes }
      return .held

def processPendingBackend (handlers : Handlers σ) : Forward σ ε BackendForwarding := do
  let c ← connection
  match c.backendHold.pending with
  | none => panicked .noPendingSource
  | some (source, bytes) => do
    let operation := c.pipeline.backendOperationId source.message
    let answer : Except ε BackendMiddlewareOutput × σ ←
      Async.ask (Request.backendOperation operation source.message)
    update fun c => { c with state := answer.2 }
    match answer.1 with
    | .error error => failed (.middleware error)
    | .ok output => do
      record (.backendAnswered source.number output)
      let outcome ← applyOutput handlers source bytes output
      flushLocalResponses
      return outcome

/-- The first refusal of `to_frame` among the messages. -/
def firstUnencodable (messages : List BackendMessage) : Option IoError :=
  messages.findSome? fun message =>
    match message.toFrame with
    | .error error => some error
    | .ok _ => none

/-- The loop that writes a released span. -/
def sendReleased : List (Nat × BackendMessage) → Forward σ ε Unit
  | [] => return ()
  | (number, message) :: rest => do
    sendDownstream (some number) rest.length message
    sendReleased rest

/-- The part of `flush_backend_hold_for` that follows a `ReplaceOneToOne` decision. -/
def releaseHold (handlers : Handlers σ) (replacements : List BackendMessage) :
    Forward σ ε BackendBatchForwarding := do
  let messages ← interceptAll handlers.serverBackend replacements
  match firstUnencodable messages with
  | some error => failed (.io error)
  | none => do
    let c ← connection
    match c.pipeline.prepareBackendReplacements c.backendHold.messages messages with
    | .error panic => panicked (.ledger panic)
    | .ok (.error error) => failed (.backendBatch (.ofSequence error) messages)
    | .ok (.ok next) => do
      let numbers := c.backendHold.held.map Receipt.number
      recordAll (List.zipWith (fun number entry => .projected (some number) 0 entry) numbers
        (c.pipeline.entries (messages.map .backend)))
      update fun c => { c with pipeline := next, backendHold := c.backendHold.clear }
      sendReleased (numbers.zip messages)
      flushLocalResponses
      return .released messages

def flushBackendHoldFor (handlers : Handlers σ) (reason : BackendFlushReason) :
    Forward σ ε BackendBatchForwarding := do
  let c ← connection
  if c.backendHold.held = [] then
    return .empty
  else
    match c.pipeline.backendOperationIds c.backendHold.messages with
    | .error panic => panicked (.ledger panic)
    | .ok ids => do
      let answer : Except ε BackendBatchOutput × σ ←
        Async.ask (Request.flushBackendOperations (ids.zip c.backendHold.messages)
          c.backendHold.heldBytes reason)
      update fun c => { c with state := answer.2 }
      match answer.1 with
      | .error error => failed (.middleware error)
      | .ok .keepHolding => return .kept
      | .ok (.replaceOneToOne replacements) => releaseHold handlers replacements

/-- A flush that the call cannot go on without. -/
def requireRelease (handlers : Handlers σ) (reason : BackendFlushReason)
    (refusal : ForwardError ε) : Forward σ ε Unit := do
  let outcome ← flushBackendHoldFor handlers reason
  match outcome with
  | .released _ | .empty => return ()
  | .kept => failed refusal

/-- The check of the hold's capacity that precedes a read. -/
def makeRoom (handlers : Handlers σ) : Forward σ ε Unit := do
  let c ← connection
  if c.backendHoldIsFull then
    requireRelease handlers .capacity .backendHoldCapacity
  else
    return ()

def processBackend (handlers : Handlers σ) (source : Receipt BackendMessage) :
    Forward σ ε BackendForwarding := do
  let message ← intercept handlers.clientBackend source.message
  let c ← connection
  match c.backendHold.setPending { number := source.number, message } with
  | none => panicked .pendingSource
  | some hold => do
    update fun c => { c with backendHold := hold }
    if isBackendBatchBarrier message ∧ hold.held ≠ [] then
      requireRelease handlers .protocolBarrier .backendHoldRefused
    processPendingBackend handlers

def forwardBackend (handlers : Handlers σ) : Forward σ ε BackendForwarding := do
  let c ← connection
  match c.backendHold.pending with
  | some _ => processPendingBackend handlers
  | none => do
    makeRoom handlers
    let source ← receiveBackend
    processBackend handlers source

def flushBackendHold (handlers : Handlers σ) : Forward σ ε BackendBatchForwarding :=
  flushBackendHoldFor handlers .explicit

def prepareBackendTeardown (handlers : Handlers σ) : Forward σ ε BackendBatchForwarding := do
  let outcome ← flushBackendHoldFor handlers .teardown
  match outcome with
  | .kept => failed .backendHoldRefused
  | outcome => return outcome

/-! ## Both directions -/

def ForwardedMessage.ofFrontend : FrontendForwarding → ForwardedMessage
  | .forwarded message => .frontend message
  | .expanded source messages => .frontendExpanded source messages
  | .suppressed message => .frontendSuppressed message
  | .locallyHandled message => .frontendLocallyHandled message

def ForwardedMessage.ofBackend : BackendForwarding → ForwardedMessage
  | .forwarded message => .backend message
  | .expanded source messages => .backendExpanded source messages
  | .suppressed message => .backendSuppressed message
  | .held => .backendHeld

/-- The end of `forward_next`: only the server is polled while a client sequence is retained. -/
def pollTransports (handlers : Handlers σ) : Forward σ ε ForwardedMessage := do
  let c ← connection
  match c.pendingFrontend with
  | some _ => do
    let source ← receiveBackend
    let outcome ← processBackend handlers source
    return .ofBackend outcome
  | none => do
    let answer : Except IoError FrontendMessage ⊕ Except IoError BackendMessage ←
      Async.ask Request.receiveEither
    match answer with
    | .inl (.error error) | .inr (.error error) => interrupted .receiveEither error
    | .inl (.ok message) => do
      let source ← takeFrontend message
      let outcome ← processFrontend handlers source
      return .ofFrontend outcome
    | .inr (.ok message) => do
      let source ← takeBackend message
      let outcome ← processBackend handlers source
      return .ofBackend outcome

def forwardNext (handlers : Handlers σ) : Forward σ ε ForwardedMessage := do
  let c ← connection
  match c.backendHold.pending with
  | some _ => do
    let outcome ← processPendingBackend handlers
    return .ofBackend outcome
  | none => do
    makeRoom handlers
    let c ← connection
    match c.pendingFrontend with
    | none => pollTransports handlers
    | some prepared => do
      update fun c => { c with pendingFrontend := none }
      let result ← Async.attempt (forwardPreparedFrontend prepared)
      match result with
      | .ok outcome => return .ofFrontend outcome
      | .error (.failed (.frontend (.capacity _))) => pollTransports handlers
      | .error stop => Async.fail stop

end Forwarding
end PgProto
