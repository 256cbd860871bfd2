import PgProto.Intermediary.Simulation

/-!
# Steady — what the common parts of the calls leave alone

Most of a forwarding call writes to transports, lets middleware change the shared state and takes
local responses through the ledger.  A relation between worlds that none of this disturbs is
`Steady`, and then it holds across all the functions which do nothing else.  `ClientSteady` adds the
slot of the client sequence and the reception of client messages, and covers the calls that serve
the client.
-/

namespace PgProto

open Lib

/-- The server message an event is about. -/
def Event.server? : Event → Option Nat
  | .backendAnswered number _ | .projected (some number) _ _ | .suppressed number _ => some number
  | _ => none

/-- The assertions about the pending server message. -/
def Abort.ofPending : Abort → Bool
  | .pendingSource | .noPendingSource => true
  | _ => false

/-- The refusals of a client message. -/
def ForwardError.isFrontend {ε : Type} : ForwardError ε → Bool
  | .frontend _ => true
  | _ => false

/-! ## Properties of computations -/

/-- A property of computations that writing, observers and local responses have, and that goes from
the parts of a computation to the whole. -/
structure Steady {σ ε : Type} (K : (α : Type) → Forward σ ε α → Prop) : Prop where
  keeps_pure {α : Type} (a : α) : K α (pure a)
  bind {α β : Type} {m : Forward σ ε α} {f : α → Forward σ ε β} :
    K α m → (∀ a, K β (f a)) → K β (m >>= f)
  keeps_connection : K (Connection σ) connection
  keeps_record {event : Event} : event.server? = none → K Unit (record event)
  pipeline (p : Pipeline) : K Unit (update fun c => { c with pipeline := p })
  queue (f : List PendingLocalResponses → List PendingLocalResponses) :
    K Unit (update fun c => { c with pendingLocal := f c.pendingLocal })
  keeps_setTransport (side : Side) (f : Transport → Transport) :
    (∀ t, (f t).received = t.received) →
      K Unit (update fun c => c.setTransport side (f (c.transport side)))
  write (side : Side) (unsent : Nat) : K (Except IoError Nat) (Async.ask (Request.write side unsent))
  flush (side : Side) (unsent : Nat) : K (Except IoError Unit) (Async.ask (Request.flush side unsent))
  keeps_observeTransition (observation : ProtocolTransitionObservation) :
    K Unit (observeTransition observation)
  io {α : Type} (error : IoError) : K α (failed (.io error))
  backend {α : Type} (error : BackendProjectionError) : K α (failed (.backend error))
  keeps_panicked {α : Type} {abort : Abort} : abort.ofPending = false → K α (panicked abort)

/-- Serving the client has the property as well. -/
structure ClientSteady {σ ε : Type} (handlers : Handlers σ)
    (K : (α : Type) → Forward σ ε α → Prop) : Prop extends Steady K where
  slot (prepared : Option PreparedFrontendForwarding) :
    K Unit (update fun c => { c with pendingFrontend := prepared })
  receive : K (Except IoError FrontendMessage) (Async.ask Request.receiveFrontend)
  keeps_takeFrontend (message : FrontendMessage) :
    K (Receipt FrontendMessage) (takeFrontend message)
  serverFrontend (message : FrontendMessage) :
    K FrontendMessage (intercept handlers.serverFrontend message)
  clientFrontend (message : FrontendMessage) :
    K FrontendMessage (intercept handlers.clientFrontend message)
  serverBackend (message : BackendMessage) :
    K BackendMessage (intercept handlers.serverBackend message)
  /-- The middleware between the roles answers and hands the shared state back. -/
  consult {α : Type} (operation : OperationId) (message : FrontendMessage)
    {f : Except ε FrontendMiddlewareOutput × σ → Forward σ ε α} :
    (∀ answer, K α (f answer)) → K α (do
      let answer : Except ε FrontendMiddlewareOutput × σ ←
        Async.ask (Request.frontendOperation operation message)
      update fun c => { c with state := answer.2 }
      f answer)
  frontend {α : Type} (error : FrontendProjectionError) : K α (failed (.frontend error))
  middleware {α : Type} (error : ε) : K α (failed (.middleware error))

/-- Serving the server has the property, once its message has been received and gone through the
client role. -/
structure ServerSteady {σ ε : Type} (handlers : Handlers σ)
    (K : (α : Type) → Forward σ ε α → Prop) : Prop extends Steady K where
  logged (event : Event) : K Unit (record event)
  loggedAll (events : List Event) : K Unit (recordAll events)
  hold (f : BackendHold → BackendHold) :
    K Unit (update fun c => { c with backendHold := f c.backendHold })
  released (p : Pipeline) :
    K Unit (update fun c => { c with pipeline := p, backendHold := c.backendHold.clear })
  serverBackend (message : BackendMessage) :
    K BackendMessage (intercept handlers.serverBackend message)
  consult {α : Type} (operation : Option OperationId) (message : BackendMessage)
    {f : Except ε BackendMiddlewareOutput × σ → Forward σ ε α} :
    (∀ answer, K α (f answer)) → K α (do
      let answer : Except ε BackendMiddlewareOutput × σ ←
        Async.ask (Request.backendOperation operation message)
      update fun c => { c with state := answer.2 }
      f answer)
  consultFlush {α : Type} (held : List (Option OperationId × BackendMessage)) (bytes : Nat)
    (reason : BackendFlushReason) {f : Except ε BackendBatchOutput × σ → Forward σ ε α} :
    (∀ answer, K α (f answer)) → K α (do
      let answer : Except ε BackendBatchOutput × σ ←
        Async.ask (Request.flushBackendOperations held bytes reason)
      update fun c => { c with state := answer.2 }
      f answer)
  refused {α : Type} {error : ForwardError ε} : error.isFrontend = false → K α (failed error)
  aborted {α : Type} (abort : Abort) : K α (panicked abort)

/-! ## Relations between worlds -/

/-- A relation between worlds that writing, middleware and local responses keep, whose failures are
among `G`. -/
structure SteadyRelation {σ ε : Type} (R : World σ → World σ → Prop) (G : Stop ε → Prop) : Prop where
  refl (w : World σ) : R w w
  trans {w t u : World σ} : R w t → R t u → R w u
  logged (w : World σ) {event : Event} : event.server? = none → R w (w.logged event)
  state (w : World σ) (s : σ) : R w (w.setState s)
  pipeline (w : World σ) (p : Pipeline) : R w (w.setPipeline p)
  queue (w : World σ) (queue : List PendingLocalResponses) : R w (w.setPendingLocal queue)
  bytes (w : World σ) (side : Side) {t : Transport} :
    t.received = (w.conn.transport side).received → R w (w.setTransport side t)
  io (error : IoError) : G (.failed (.io error))
  backend (error : BackendProjectionError) : G (.failed (.backend error))
  panicked {abort : Abort} : abort.ofPending = false → G (.panicked abort)

/-- Serving the client keeps the relation as well. -/
structure ClientSteadyRelation {σ ε : Type} (R : World σ → World σ → Prop) (G : Stop ε → Prop) :
    Prop extends SteadyRelation R G where
  slot (w : World σ) (prepared : Option PreparedFrontendForwarding) :
    R w (w.setPendingFrontend prepared)
  received (w : World σ) : R w (w.received .downstream)
  frontend (error : FrontendProjectionError) : G (.failed (.frontend error))
  middleware (error : ε) : G (.failed (.middleware error))

section Relations

variable {σ ε : Type} {R : World σ → World σ → Prop} {G : Stop ε → Prop}

theorem SteadyRelation.steady (h : SteadyRelation R G) :
    Steady fun _ (m : Forward σ ε _) => m.Keeps R G :=
  haveI : Std.Refl R := ⟨h.refl⟩
  haveI : IsTrans (World σ) R := ⟨fun _ _ _ => h.trans⟩
  { keeps_pure := Async.keeps_pure
    bind := fun hm hf => hm.bind hf
    keeps_connection := fun w => h.refl w
    keeps_record := fun hevent w => h.logged w hevent
    pipeline := fun p w => h.pipeline w p
    queue := fun f w => h.queue w (f w.conn.pendingLocal)
    keeps_setTransport := fun side _ hreceived w => h.bytes w side (hreceived _)
    write := fun _ _ => Async.keeps_ask _
    flush := fun _ _ => Async.keeps_ask _
    keeps_observeTransition := fun _ => (Async.keeps_ask _).bind fun s w => h.state w s
    io := fun error => Async.keeps_fail (h.io error)
    backend := fun error => Async.keeps_fail (h.backend error)
    keeps_panicked := fun habort => Async.keeps_fail (h.panicked habort) }

theorem SteadyRelation.keeps_intercept (h : SteadyRelation R G) {μ : Type}
    (handler : σ → μ → μ × σ) (message : μ) :
    (intercept handler message : Forward σ ε μ).Keeps R G :=
  fun w => h.state w _

theorem ClientSteadyRelation.clientSteady (h : ClientSteadyRelation R G) (handlers : Handlers σ) :
    ClientSteady handlers fun _ (m : Forward σ ε _) => m.Keeps R G :=
  haveI : Std.Refl R := ⟨h.refl⟩
  haveI : IsTrans (World σ) R := ⟨fun _ _ _ => h.trans⟩
  { h.steady with
    slot := fun prepared w => h.slot w prepared
    receive := Async.keeps_ask _
    keeps_takeFrontend := fun _ w => h.received w
    serverFrontend := h.keeps_intercept _
    clientFrontend := h.keeps_intercept _
    serverBackend := h.keeps_intercept _
    consult := fun _ _ _ hf => (Async.keeps_ask _).bind fun answer =>
      .bind (fun w => h.state w answer.2) fun _ => hf answer
    frontend := fun error => Async.keeps_fail (h.frontend error)
    middleware := fun error => Async.keeps_fail (h.middleware error) }

end Relations

namespace Steady

variable {σ ε α β : Type} {K : (α : Type) → Forward σ ε α → Prop} (steady : Steady K)
include steady

theorem reads {f : Connection σ → Forward σ ε α} (hf : ∀ c, K α (f c)) : K α (connection >>= f) :=
  steady.bind steady.keeps_connection hf

theorem keeps_interrupted (request : Request) (error : IoError) : K α (interrupted request error) :=
  steady.bind (steady.keeps_record rfl) fun _ => steady.io error

theorem keeps_interceptAll {μ : Type} {handler : σ → μ → μ × σ}
    (hhandler : ∀ message, K μ (intercept handler message)) (messages : List μ) :
    K (List μ) (interceptAll handler messages) := by
  induction messages with
  | nil => exact steady.keeps_pure _
  | cons message messages ih =>
    exact steady.bind (hhandler message) fun _ => steady.bind ih fun _ => steady.keeps_pure _

/-! ## Transports -/

theorem keeps_drain (side : Side) (unsent rounds : Nat) : K Unit (drain side unsent rounds) := by
  induction rounds with
  | zero => exact steady.keeps_pure _
  | succ rounds ih =>
    apply steady.reads
    intro c
    split
    · exact steady.keeps_pure _
    · apply steady.bind (steady.write side unsent)
      intro answer
      rcases answer with error | _ | written
      · exact steady.keeps_interrupted _ _
      · exact steady.keeps_interrupted _ _
      · exact steady.bind (steady.keeps_setTransport side (·.advance (written + 1)) fun _ => rfl)
          fun _ => ih

theorem keeps_flushTransport (side : Side) (unsent : Nat) :
    K Unit (flushTransport side unsent) := by
  apply steady.reads
  intro c
  apply steady.bind (steady.keeps_drain side unsent _)
  intro _
  apply steady.bind (steady.flush side unsent)
  intro answer
  rcases answer with error | _
  · exact steady.keeps_interrupted _ _
  · exact steady.keeps_pure _

theorem keeps_sendEncoded (side : Side) (unsent : Nat)
    (encoded : Except IoError Bytes) : K Unit (sendEncoded side unsent encoded) := by
  rcases encoded with error | bytes
  · exact steady.io error
  · exact steady.bind (steady.keeps_setTransport side (·.append bytes) fun _ => rfl) fun _ =>
      steady.keeps_flushTransport side unsent

theorem keeps_sendUpstream (number : Nat) (operation : OperationId)
    (unsent : Nat) (message : FrontendMessage) :
    K Unit (sendUpstream number operation unsent message) :=
  steady.bind (steady.keeps_record rfl) fun _ => steady.reads fun _ =>
    steady.keeps_sendEncoded _ _ _

theorem keeps_sendDownstream (source : Option Nat) (unsent : Nat)
    (message : BackendMessage) : K Unit (sendDownstream source unsent message) :=
  steady.bind (steady.keeps_record rfl) fun _ => steady.reads fun _ =>
    steady.keeps_sendEncoded _ _ _

theorem keeps_sendReleased (released : List (Nat × BackendMessage)) :
    K Unit (sendReleased released) := by
  induction released with
  | nil => exact steady.keeps_pure _
  | cons head rest ih => exact steady.bind (steady.keeps_sendDownstream _ _ _) fun _ => ih

/-! ## Local responses -/

theorem keeps_flushEntry (operation : OperationId)
    (rest : List PendingLocalResponses) (messages : List BackendMessage) :
    K Bool (flushEntry operation rest messages) := by
  induction messages with
  | nil => exact steady.bind (steady.queue fun _ => rest) fun _ => steady.keeps_pure _
  | cons message messages ih =>
    refine steady.bind (steady.queue fun _ => _) fun _ => ?_
    apply steady.reads
    intro c
    split
    · exact steady.keeps_panicked rfl
    · apply steady.bind (steady.keeps_record rfl)
      intro _
      refine steady.bind (steady.pipeline _) fun _ => ?_
      split
      · exact steady.bind (steady.keeps_sendDownstream _ _ _) fun _ => ih
      · exact steady.bind (steady.queue fun _ => _) fun _ => steady.keeps_pure _
      · exact steady.backend _

theorem keeps_flushEntries (queue : List PendingLocalResponses) : K Unit (flushEntries queue) := by
  induction queue with
  | nil => exact steady.keeps_pure _
  | cons pending rest ih =>
    apply steady.bind (steady.keeps_flushEntry _ _ _)
    intro used
    cases used with
    | true => exact ih
    | false => exact steady.keeps_pure _

theorem keeps_flushLocalResponses : K Unit flushLocalResponses :=
  steady.reads fun _ => steady.keeps_flushEntries _

/-! ## Client messages -/

theorem keeps_sendItems (number : Nat) (items : List FrontendSequenceItem) :
    K (List FrontendMessage) (sendItems number items) := by
  induction items with
  | nil => exact steady.keeps_pure _
  | cons item items ih =>
    have hsend : ∀ id message, K (List FrontendMessage) (do
        sendUpstream number id (forwardedItems items).length message
        let messages ← sendItems number items
        return message :: messages) := by
      intro id message
      exact steady.bind (steady.keeps_sendUpstream _ _ _ _) fun _ =>
        steady.bind ih fun _ => steady.keeps_pure _
    simp only [sendItems]
    cases item.admission.intoAction with
    | forward id message =>
      cases item.transition with
      | none => exact hsend id message
      | some transition =>
        exact steady.bind (steady.keeps_observeTransition _) fun _ => hsend id message
    | discard id => exact ih

end Steady

namespace ClientSteady

variable {σ ε : Type} {handlers : Handlers σ} {K : (α : Type) → Forward σ ε α → Prop}
  (steady : ClientSteady handlers K)
include steady

theorem keeps_forwardPreparedFrontend (prepared : PreparedFrontendForwarding) :
    K FrontendForwarding (forwardPreparedFrontend prepared) := by
  apply steady.reads
  intro c
  split
  · exact steady.keeps_panicked rfl
  · exact steady.bind (steady.slot _) fun _ => steady.frontend _
  · apply steady.bind (steady.keeps_record rfl)
    intro _
    refine steady.bind (steady.pipeline _) fun _ => ?_
    apply steady.bind (steady.keeps_sendItems _ _)
    intro messages
    split
    · exact steady.keeps_pure _
    · split
      · exact steady.keeps_pure _
      · split
        · exact steady.keeps_pure _
        · exact steady.keeps_panicked rfl

theorem keeps_respondLocally (number : Nat)
    (request : FrontendMessage) (responses : List BackendMessage) :
    K FrontendForwarding (respondLocally handlers number request responses) := by
  apply steady.reads
  intro c
  split
  · exact steady.keeps_panicked rfl
  · exact steady.bind (steady.keeps_record rfl) fun _ => steady.frontend _
  · refine steady.bind (steady.pipeline _) fun _ => ?_
    split
    · exact steady.keeps_panicked rfl
    · apply steady.bind (steady.keeps_interceptAll steady.serverBackend _)
      intro messages
      apply steady.bind (steady.keeps_record rfl)
      intro _
      refine steady.bind (steady.queue (· ++ [_])) fun _ => ?_
      exact steady.bind steady.keeps_flushLocalResponses fun _ => steady.keeps_pure _

theorem keeps_processFrontend (source : Receipt FrontendMessage) :
    K FrontendForwarding (processFrontend handlers source) := by
  apply steady.bind (steady.serverFrontend _)
  intro message
  apply steady.reads
  intro c
  refine steady.consult _ _ fun answer => ?_
  rcases answer.1 with error | output
  · exact steady.bind (steady.keeps_record rfl) fun _ => steady.middleware error
  · apply steady.bind (steady.keeps_record rfl)
    intro _
    cases output with
    | forward message =>
      exact steady.bind (steady.clientFrontend _) fun _ => steady.keeps_forwardPreparedFrontend _
    | forwardThenFlush message =>
      exact steady.bind (steady.clientFrontend _) fun _ =>
        steady.bind (steady.clientFrontend _) fun _ => steady.keeps_forwardPreparedFrontend _
    | suppress message => exact steady.bind (steady.keeps_record rfl) fun _ => steady.keeps_pure _
    | respond request responses => exact steady.keeps_respondLocally _ _ _

theorem keeps_forwardFrontend : K FrontendForwarding (forwardFrontend handlers) := by
  apply steady.reads
  intro c
  split
  · exact steady.bind (steady.slot none) fun _ => steady.keeps_forwardPreparedFrontend _
  · refine steady.bind ?_ fun _ => steady.keeps_processFrontend _
    apply steady.bind steady.receive
    intro answer
    rcases answer with error | message
    · exact steady.keeps_interrupted _ _
    · exact steady.keeps_takeFrontend message

end ClientSteady

/-! ## Server messages -/

section Server

variable {σ ε : Type}

/-- `process_backend` after the client role. -/
def processInspected (handlers : Handlers σ) (number : Nat) (message : BackendMessage) :
    Forward σ ε BackendForwarding := do
  let c ← connection
  match c.backendHold.setPending { number, message } with
  | none => panicked .pendingSource
  | some hold => do
    update fun c => { c with backendHold := hold }
    if isBackendBatchBarrier message ∧ hold.held ≠ [] then
      requireRelease handlers .protocolBarrier .backendHoldRefused
    processPendingBackend handlers

theorem processBackend_eq (handlers : Handlers σ) (source : Receipt BackendMessage) :
    (processBackend handlers source : Forward σ ε BackendForwarding) = (do
      let message ← intercept handlers.clientBackend source.message
      processInspected handlers source.number message) :=
  rfl

end Server

namespace ServerSteady

variable {σ ε : Type} {handlers : Handlers σ} {K : (α : Type) → Forward σ ε α → Prop}
  (steady : ServerSteady handlers K)
include steady

theorem keeps_advanceBackend (event : Pipeline.LedgerEntry → Event) (message : BackendMessage) :
    K BackendMessage (advanceBackend event message) := by
  apply steady.reads
  intro c
  split
  · exact steady.aborted _
  · apply steady.bind (steady.logged _)
    intro _
    refine steady.bind (steady.pipeline _) fun _ => ?_
    split
    · exact steady.keeps_pure _
    · exact steady.refused rfl
    · exact steady.refused rfl

theorem keeps_emitBackend (number unsent : Nat)
    (message : BackendMessage) : K BackendMessage (emitBackend number unsent message) := by
  apply steady.reads
  intro c
  apply steady.bind (steady.keeps_advanceBackend _ _)
  intro emitted
  cases c.pipeline.backendTransitionId message with
  | none =>
    exact steady.bind (steady.keeps_sendDownstream _ _ _) fun _ => steady.keeps_pure _
  | some transition =>
    exact steady.bind (steady.keeps_observeTransition _) fun _ =>
      steady.bind (steady.keeps_sendDownstream _ _ _) fun _ => steady.keeps_pure _

theorem keeps_emitAll (number : Nat) (messages : List BackendMessage) :
    K (List BackendMessage) (emitAll handlers number messages) := by
  induction messages with
  | nil => exact steady.keeps_pure _
  | cons message messages ih =>
    exact steady.bind (steady.serverBackend _) fun _ =>
      steady.bind (steady.keeps_emitBackend _ _ _) fun _ =>
        steady.bind ih fun _ => steady.keeps_pure _

theorem keeps_applyOutput (source : Receipt BackendMessage)
    (bytes : Nat) (output : BackendMiddlewareOutput) :
    K BackendForwarding (applyOutput handlers source bytes output) := by
  rcases output with message | (_ | ⟨message, messages⟩) | message | _
  · exact steady.bind (steady.hold _) fun _ => steady.bind (steady.serverBackend _) fun _ =>
      steady.bind (steady.keeps_emitBackend _ _ _) fun _ => steady.keeps_pure _
  · exact steady.refused rfl
  · exact steady.bind (steady.hold _) fun _ =>
      steady.bind (steady.keeps_emitAll _ _) fun _ => steady.keeps_pure _
  · exact steady.bind (steady.hold _) fun _ =>
      steady.bind (steady.keeps_advanceBackend _ _) fun _ => steady.keeps_pure _
  · apply steady.reads
    intro c
    cases c.backendHoldLimits with
    | none => exact steady.refused rfl
    | some limits =>
      exact steady.bind (steady.hold (·.holdPending source bytes)) fun _ => steady.keeps_pure _

theorem keeps_processPendingBackend : K BackendForwarding (processPendingBackend handlers) := by
  apply steady.reads
  intro c
  cases c.backendHold.pending with
  | none => exact steady.aborted _
  | some pending =>
    obtain ⟨source, bytes⟩ := pending
    refine steady.consult _ _ fun answer => ?_
    cases answer.1 with
    | error error => exact steady.refused rfl
    | ok output =>
      exact steady.bind (steady.logged _) fun _ =>
        steady.bind (steady.keeps_applyOutput _ _ _) fun _ =>
          steady.bind steady.keeps_flushLocalResponses fun _ => steady.keeps_pure _

theorem keeps_releaseHold (replacements : List BackendMessage) :
    K BackendBatchForwarding (releaseHold handlers replacements) := by
  apply steady.bind (steady.keeps_interceptAll steady.serverBackend _)
  intro messages
  cases firstUnencodable messages with
  | some error => exact steady.refused rfl
  | none =>
    apply steady.reads
    intro c
    split
    · exact steady.aborted _
    · exact steady.refused rfl
    · exact steady.bind (steady.loggedAll _) fun _ => steady.bind (steady.released _) fun _ =>
        steady.bind (steady.keeps_sendReleased _) fun _ =>
          steady.bind steady.keeps_flushLocalResponses fun _ => steady.keeps_pure _

theorem keeps_flushBackendHoldFor (reason : BackendFlushReason) :
    K BackendBatchForwarding (flushBackendHoldFor handlers reason) := by
  apply steady.reads
  intro c
  split
  · exact steady.keeps_pure _
  · split
    · exact steady.aborted _
    · refine steady.consultFlush _ _ _ fun answer => ?_
      rcases answer.1 with error | _ | replacements
      · exact steady.refused rfl
      · exact steady.keeps_pure _
      · exact steady.keeps_releaseHold _

theorem keeps_requireRelease (reason : BackendFlushReason)
    {refusal : ForwardError ε} (h : refusal.isFrontend = false) :
    K Unit (requireRelease handlers reason refusal) := by
  apply steady.bind (steady.keeps_flushBackendHoldFor reason)
  intro outcome
  cases outcome with
  | released messages | empty => exact steady.keeps_pure _
  | kept => exact steady.refused h

theorem keeps_makeRoom : K Unit (makeRoom handlers) := by
  apply steady.reads
  intro c
  split
  · exact steady.keeps_requireRelease .capacity rfl
  · exact steady.keeps_pure _

theorem keeps_processInspected (number : Nat) (message : BackendMessage) :
    K BackendForwarding (processInspected handlers number message) := by
  apply steady.reads
  intro c
  split
  · exact steady.aborted _
  · refine steady.bind (steady.hold fun _ => _) fun _ => ?_
    split
    · exact steady.bind (steady.keeps_requireRelease .protocolBarrier rfl) fun _ =>
        steady.keeps_processPendingBackend
    · exact steady.keeps_processPendingBackend

theorem keeps_prepareBackendTeardown :
    K BackendBatchForwarding (prepareBackendTeardown handlers) := by
  apply steady.bind (steady.keeps_flushBackendHoldFor _)
  intro outcome
  cases outcome with
  | kept => exact steady.refused rfl
  | released messages | empty => exact steady.keeps_pure _

end ServerSteady
end PgProto
