import Mathlib.Logic.Relation
import PgProto.Intermediary.Connection

/-!
# Machine — the forwarding calls as a state machine

An abstract machine that goes through the states of an intermediary connection one action at a time:
take a message off a transport, offer it to the ledger, encode an output, let a write take some
bytes.  What the running call owns in its local variables is the `Phase`; everything else is in the
`World`.

* `Phase.clients`, `Phase.servers`, `Phase.unsentUpstream`, `Phase.unsentDownstream` — what is lost
  when the call is dropped in that phase;
* `Suspended` — the phase in which each await finds the call;
* `Move` — everything a call can do, one action at a time, guards included;
* `Reach` — what a call can do altogether, with `Reach.invariant`.

Properties of runs are proved as invariants of the machine, never from the bodies of the calls.
-/

namespace PgProto

open Lib
open Pipeline (LedgerEntry)

/-! ## Phases -/

inductive Phase
  /-- The call owns nothing. -/
  | idle
  /-- A client message is with the boundary middleware. -/
  | deciding (number : Nat)
  | answered (number : Nat) (output : FrontendMiddlewareOutput)
  /-- A client sequence is about to be offered to the ledger. -/
  | prepared (number : Nat)
  /-- The ledger has forwarded these messages; none of them is encoded. -/
  | sendingUp (number : Nat) (unsent : List (OperationId × FrontendMessage))
  /-- A message was encoded and is being written; these are left. -/
  | writingUp (number : Nat) (unsent : List (OperationId × FrontendMessage))
  /-- A server message of which `more` outputs are to be offered to the ledger. -/
  | projecting (number more : Nat)
  /-- The ledger has emitted these outputs; none of them is encoded. -/
  | sendingDown (unsent : List (Option Nat × BackendMessage)) (number more : Nat)
  | writingDown (unsent : List (Option Nat × BackendMessage)) (number more : Nat)
  /-- In `flush_local_responses`. -/
  | flushing

namespace Phase

/-- Client messages that only the call owns. -/
def clients : Phase → List Nat
  | .deciding number | .answered number _ | .prepared number => [number]
  | _ => []

/-- Messages the ledger has forwarded and no buffer holds, each with the client message it was
admitted for. -/
def unsentUpstream : Phase → List (Nat × OperationId × FrontendMessage)
  | .sendingUp number unsent | .writingUp number unsent => unsent.map fun sent => (number, sent)
  | _ => []

/-- The server message of which outputs are left. -/
def owing (number more : Nat) : List Nat :=
  match more with
  | 0 => []
  | _ + 1 => [number]

/-- Server messages that only the call owns. -/
def servers : Phase → List Nat
  | .projecting number more | .sendingDown _ number more | .writingDown _ number more =>
    owing number more
  | _ => []

/-- Outputs the ledger has emitted and no buffer holds. -/
def unsentDownstream : Phase → List (Option Nat × BackendMessage)
  | .sendingDown unsent _ _ | .writingDown unsent _ _ => unsent
  | _ => []

end Phase

/-- The phase in which an await finds the call. -/
inductive Suspended : Request → Phase → Prop
  | receiveFrontend : Suspended .receiveFrontend .idle
  | receiveBackend : Suspended .receiveBackend .idle
  | receiveEither : Suspended .receiveEither .idle
  | frontendOperation {operation message number} :
      Suspended (.frontendOperation operation message) (.deciding number)
  | backendOperation {operation message} : Suspended (.backendOperation operation message) .idle
  | flushBackendOperations {held bytes reason} :
      Suspended (.flushBackendOperations held bytes reason) .idle
  | observeUp {observation number sent unsent} :
      Suspended (.observeTransition observation) (.sendingUp number (sent :: unsent))
  | observeDown {observation number message more} :
      Suspended (.observeTransition observation)
        (.sendingDown [(some number, message)] number more)
  | writeUp {number unsent} :
      Suspended (.write .upstream unsent.length) (.writingUp number unsent)
  | flushUp {number unsent} :
      Suspended (.flush .upstream unsent.length) (.writingUp number unsent)
  | writeDown {unsent number more} :
      Suspended (.write .downstream (unsent.length + more)) (.writingDown unsent number more)
  | flushDown {unsent number more} :
      Suspended (.flush .downstream (unsent.length + more)) (.writingDown unsent number more)

/-! ## Setters -/

namespace World

variable {σ : Type}

def setState (w : World σ) (state : σ) : World σ :=
  w.update fun c => { c with state := state }

def setPipeline (w : World σ) (pipeline : Pipeline) : World σ :=
  w.update fun c => { c with pipeline := pipeline }

def setPendingFrontend (w : World σ) (prepared : Option PreparedFrontendForwarding) : World σ :=
  w.update fun c => { c with pendingFrontend := prepared }

def setHold (w : World σ) (hold : BackendHold) : World σ :=
  w.update fun c => { c with backendHold := hold }

def setPendingLocal (w : World σ) (queue : List PendingLocalResponses) : World σ :=
  w.update fun c => { c with pendingLocal := queue }

def setTransport (w : World σ) (side : Side) (t : Transport) : World σ :=
  w.update fun c => c.setTransport side t

/-- A message was taken off the inbound half of a transport. -/
def received (w : World σ) (side : Side) : World σ :=
  w.setTransport side
    { w.conn.transport side with received := (w.conn.transport side).received + 1 }

section Lemmas

variable (w : World σ)

@[simp] theorem conn_logged (event : Event) : (w.logged event).conn = w.conn := rfl

@[simp] theorem log_logged (event : Event) :
    (w.logged event).log = w.log ++ [{ before := w.conn, event := event }] := rfl

@[simp] theorem conn_loggedAll (events : List Event) : (w.loggedAll events).conn = w.conn := rfl

@[simp] theorem log_loggedAll (events : List Event) :
    (w.loggedAll events).log =
      w.log ++ events.map fun event => { before := w.conn, event := event } := rfl

@[simp] theorem conn_setState (state : σ) :
    (w.setState state).conn = { w.conn with state := state } := rfl

@[simp] theorem log_setState (state : σ) : (w.setState state).log = w.log := rfl

@[simp] theorem conn_setPipeline (p : Pipeline) :
    (w.setPipeline p).conn = { w.conn with pipeline := p } := rfl

@[simp] theorem log_setPipeline (p : Pipeline) : (w.setPipeline p).log = w.log := rfl

@[simp] theorem conn_setPendingFrontend (prepared : Option PreparedFrontendForwarding) :
    (w.setPendingFrontend prepared).conn = { w.conn with pendingFrontend := prepared } := rfl

@[simp] theorem log_setPendingFrontend (prepared : Option PreparedFrontendForwarding) :
    (w.setPendingFrontend prepared).log = w.log := rfl

@[simp] theorem conn_setHold (hold : BackendHold) :
    (w.setHold hold).conn = { w.conn with backendHold := hold } := rfl

@[simp] theorem log_setHold (hold : BackendHold) : (w.setHold hold).log = w.log := rfl

@[simp] theorem conn_setPendingLocal (queue : List PendingLocalResponses) :
    (w.setPendingLocal queue).conn = { w.conn with pendingLocal := queue } := rfl

@[simp] theorem log_setPendingLocal (queue : List PendingLocalResponses) :
    (w.setPendingLocal queue).log = w.log := rfl

@[simp] theorem conn_setTransport (side : Side) (t : Transport) :
    (w.setTransport side t).conn = w.conn.setTransport side t := rfl

@[simp] theorem log_setTransport (side : Side) (t : Transport) :
    (w.setTransport side t).log = w.log := rfl

@[simp] theorem conn_received (side : Side) :
    (w.received side).conn = w.conn.setTransport side
      { w.conn.transport side with received := (w.conn.transport side).received + 1 } := rfl

@[simp] theorem log_received (side : Side) : (w.received side).log = w.log := rfl

end Lemmas
end World

section SetTransport

variable {σ : Type} (c : Connection σ) (side : Side) (t : Transport)

@[simp] theorem Connection.pipeline_setTransport :
    (c.setTransport side t).pipeline = c.pipeline := by
  cases side <;> rfl

@[simp] theorem Connection.backendHold_setTransport :
    (c.setTransport side t).backendHold = c.backendHold := by
  cases side <;> rfl

@[simp] theorem Connection.pendingFrontend_setTransport :
    (c.setTransport side t).pendingFrontend = c.pendingFrontend := by
  cases side <;> rfl

@[simp] theorem Connection.pendingLocal_setTransport :
    (c.setTransport side t).pendingLocal = c.pendingLocal := by
  cases side <;> rfl

end SetTransport

/-! ## Moves -/

/-- The message a step of the ledger forwards. -/
def forward? (e : LedgerEntry) : Option (OperationId × FrontendMessage) :=
  match e.output with
  | .frontend (.ok admission) => admission.intoAction.forwarded?
  | _ => none

/-- The step offers a client message for forwarding, and the ledger accepts it. -/
def AdmitsForward (e : LedgerEntry) : Prop :=
  ∃ message admission, e.input = .frontend message .forward ∧ e.output = .frontend (.ok admission)

/-- The decisions that produce output, with the number of outputs. -/
def outputs? : BackendMiddlewareOutput → Option Nat
  | .forward _ => some 1
  | .expand (_ :: messages) => some (messages.length + 1)
  | _ => none

section Moves

variable {σ : Type}

/-- What `release` logs for a span. -/
def releasedEvents (numbers : List Nat) (entries : List LedgerEntry) : List Event :=
  List.zipWith (fun number entry => .projected (some number) 0 entry) numbers entries

/-- One action of a forwarding call. -/
inductive Move : World σ × Phase → World σ × Phase → Prop
  | state {w : World σ} {phase} (s : σ) : Move (w, phase) (w.setState s, phase)
  -- Client messages.
  | receiveFrontend {w : World σ} : w.conn.pendingFrontend = none →
      Move (w, .idle) (w.received .downstream, .deciding w.conn.downstream.received)
  | takePrepared {w : World σ} {sequence} : w.conn.pendingFrontend = some sequence →
      Move (w, .idle) (w.setPendingFrontend none, .prepared sequence.number)
  | reject {w : World σ} {number} :
      Move (w, .deciding number) (w.logged (.dismissed number), .idle)
  | answer {w : World σ} {number} (output : FrontendMiddlewareOutput) :
      Move (w, .deciding number)
        (w.logged (.frontendAnswered number output), .answered number output)
  | suppressFrontend {w : World σ} {number message} :
      Move (w, .answered number (.suppress message)) (w.logged (.dismissed number), .idle)
  | prepare {w : World σ} {number message} :
      Move (w, .answered number (.forward message)) (w, .prepared number)
  | prepareThenFlush {w : World σ} {number message} :
      Move (w, .answered number (.forwardThenFlush message)) (w, .prepared number)
  | retain {w : World σ} {number} (sequence : PreparedFrontendForwarding) :
      sequence.number = number →
      Move (w, .prepared number) (w.setPendingFrontend (some sequence), .idle)
  | commit {w : World σ} {number entries p} :
      History Pipeline.Step w.conn.pipeline entries p → (∀ e ∈ entries, AdmitsForward e) →
      Move (w, .prepared number)
        ((w.logged (.admitted number entries)).setPipeline p,
         .sendingUp number (entries.filterMap forward?))
  | refuseLocal {w : World σ} {number request responses error p} :
      w.conn.pipeline.acceptFrontend request .local = .ok (.error error, p) →
      Move (w, .answered number (.respond request responses))
        (w.logged (.dismissed number), .idle)
  | respond {w : World σ} {number request responses admission id p} (s : σ)
      (messages : List BackendMessage) :
      w.conn.pipeline.acceptFrontend request .local = .ok (.ok admission, p) →
      admission.intoAction = .discard id →
      Move (w, .answered number (.respond request responses))
        ((((w.setPipeline p).setState s).logged
            (.queued number
              ⟨w.conn.pipeline, .frontend request .local, .frontend (.ok admission), p⟩
              responses messages)).setPendingLocal
            (w.conn.pendingLocal ++ [{ operation := id, messages := messages }]), .flushing)
  -- Sends and writes.
  | sendUp {w : World σ} {number id message unsent bytes} :
      message.encode w.conn.upstream.maxFrameLen = .ok bytes →
      Move (w, .sendingUp number ((id, message) :: unsent))
        ((w.logged (.sentUpstream number id message)).setTransport .upstream
          (w.conn.upstream.append bytes), .writingUp number unsent)
  | unencodableUp {w : World σ} {number id message unsent error} :
      message.encode w.conn.upstream.maxFrameLen = .error error →
      Move (w, .sendingUp number ((id, message) :: unsent))
        (w.logged (.sentUpstream number id message), .idle)
  | nextUp {w : World σ} {number unsent} :
      Move (w, .writingUp number unsent) (w, .sendingUp number unsent)
  | endUp {w : World σ} {number} : Move (w, .sendingUp number []) (w, .idle)
  | sendDown {w : World σ} {source message unsent number more bytes} :
      message.encode w.conn.downstream.maxFrameLen = .ok bytes →
      Move (w, .sendingDown ((source, message) :: unsent) number more)
        ((w.logged (.sentDownstream source message)).setTransport .downstream
          (w.conn.downstream.append bytes), .writingDown unsent number more)
  | unencodableDown {w : World σ} {source message unsent number more error} :
      message.encode w.conn.downstream.maxFrameLen = .error error →
      Move (w, .sendingDown ((source, message) :: unsent) number more)
        (w.logged (.sentDownstream source message), .idle)
  | nextDown {w : World σ} {unsent number more} : unsent ≠ [] →
      Move (w, .writingDown unsent number more) (w, .sendingDown unsent number more)
  | nextOutput {w : World σ} {number more} :
      Move (w, .writingDown [] number more) (w, .projecting number more)
  | endOutputs {w : World σ} {number} : Move (w, .projecting number 0) (w, .flushing)
  | wrote {w : World σ} {phase} (side : Side) (count : Nat) :
      Move (w, phase) (w.setTransport side ((w.conn.transport side).advance count), phase)
  -- Server messages.
  | receiveBackend {w : World σ} (s : σ) (message : BackendMessage) (bytes : Nat) :
      w.conn.backendHold.pending = none →
      Move (w, .idle)
        (((w.received .upstream).setState s).setHold
          { w.conn.backendHold with pending := some (⟨w.conn.upstream.received, message⟩, bytes) },
         .idle)
  | keepPending {w : World σ} {source bytes} (output : BackendMiddlewareOutput) :
      w.conn.backendHold.pending = some (source, bytes) → outputs? output = none →
      Move (w, .idle) (w.logged (.backendAnswered source.number output), .idle)
  | suppressBackend {w : World σ} {source bytes message reply p} :
      w.conn.backendHold.pending = some (source, bytes) →
      Pipeline.Step w.conn.pipeline (.backend message) reply p →
      Move (w, .idle)
        ((((w.logged (.backendAnswered source.number (.suppress message))).setHold
            w.conn.backendHold.takePending).logged
          (.suppressed source.number ⟨w.conn.pipeline, .backend message, reply, p⟩)).setPipeline p,
         .idle)
  | hold {w : World σ} {source bytes} : w.conn.backendHold.pending = some (source, bytes) →
      Move (w, .idle)
        ((w.logged (.backendAnswered source.number .hold)).setHold
          (w.conn.backendHold.holdPending source bytes), .idle)
  | take {w : World σ} {source bytes more} (output : BackendMiddlewareOutput) :
      w.conn.backendHold.pending = some (source, bytes) → outputs? output = some more →
      Move (w, .idle)
        ((w.logged (.backendAnswered source.number output)).setHold
          w.conn.backendHold.takePending, .projecting source.number more)
  | project {w : World σ} {number more message p} :
      Pipeline.Step w.conn.pipeline (.backend message) (.backend (.ok (.emit message))) p →
      Move (w, .projecting number (more + 1))
        ((w.logged (.projected (some number) more
            ⟨w.conn.pipeline, .backend message, .backend (.ok (.emit message)), p⟩)).setPipeline p,
         .sendingDown [(some number, message)] number more)
  | refuse {w : World σ} {number more message reply p} :
      Pipeline.Step w.conn.pipeline (.backend message) reply p →
      (∀ m, reply ≠ .backend (.ok (.emit m))) →
      Move (w, .projecting number (more + 1))
        ((w.logged (.projected (some number) more
            ⟨w.conn.pipeline, .backend message, reply, p⟩)).setPipeline p, .idle)
  | release {w : World σ} {messages entries p} : w.conn.backendHold.held ≠ [] →
      w.conn.backendHold.held.length = messages.length →
      exec Pipeline.call w.conn.pipeline (messages.map .backend) = .ok (entries, p) →
      entries.map Entry.output = messages.map (fun m => .backend (.ok (.emit m))) →
      Move (w, .idle)
        (((w.loggedAll
            (releasedEvents (w.conn.backendHold.held.map Receipt.number) entries)).setPipeline
            p).setHold w.conn.backendHold.clear,
         .sendingDown
          ((w.conn.backendHold.held.map fun receipt => some receipt.number).zip messages) 0 0)
  -- Local responses.
  | startFlush {w : World σ} : Move (w, .idle) (w, .flushing)
  | endFlush {w : World σ} : w.conn.pendingLocal = [] → Move (w, .flushing) (w, .idle)
  | popEmpty {w : World σ} {operation rest} :
      w.conn.pendingLocal = { operation, messages := [] } :: rest →
      Move (w, .flushing) (w.setPendingLocal rest, .flushing)
  | emitLocal {w : World σ} {operation message messages rest p} :
      w.conn.pendingLocal = { operation, messages := message :: messages } :: rest →
      Pipeline.Step w.conn.pipeline (.emitLocal operation message)
        (.backend (.ok (.emit message))) p →
      Move (w, .flushing)
        (((w.setPendingLocal ({ operation, messages } :: rest)).logged
          (.projected none 0 ⟨w.conn.pipeline, .emitLocal operation message,
            .backend (.ok (.emit message)), p⟩)).setPipeline p,
         .sendingDown [(none, message)] 0 0)
  | deferLocal {w : World σ} {operation message messages rest p} :
      w.conn.pendingLocal = { operation, messages := message :: messages } :: rest →
      Pipeline.Step w.conn.pipeline (.emitLocal operation message)
        (.backend (.ok (.deferred message))) p →
      Move (w, .flushing)
        ((((w.setPendingLocal ({ operation, messages } :: rest)).logged
          (.projected none 0 ⟨w.conn.pipeline, .emitLocal operation message,
            .backend (.ok (.deferred message)), p⟩)).setPipeline p).setPendingLocal
          ({ operation, messages := message :: messages } :: rest), .idle)
  | dropLocal {w : World σ} {operation message messages rest error p} :
      w.conn.pendingLocal = { operation, messages := message :: messages } :: rest →
      Pipeline.Step w.conn.pipeline (.emitLocal operation message)
        (.backend (.error error)) p →
      Move (w, .flushing)
        (((w.setPendingLocal ({ operation, messages } :: rest)).logged
          (.projected none 0 ⟨w.conn.pipeline, .emitLocal operation message,
            .backend (.error error), p⟩)).setPipeline p, .idle)
  -- The end of a call that is dropped or whose transport fails.
  | interrupt {w : World σ} {request phase} : Suspended request phase →
      Move (w, phase) (w.logged (.interrupted request), .idle)

/-- The log only grows. -/
theorem Move.log_append {w w' : World σ} {phase phase' : Phase}
    (hmove : Move (w, phase) (w', phase')) : ∃ more, w'.log = w.log ++ more := by
  cases hmove with
  | suppressBackend _ _ => exact ⟨_, List.append_assoc _ _ _⟩
  | release _ _ _ _ => exact ⟨_, rfl⟩
  | _ => first | exact ⟨[_], rfl⟩ | exact ⟨[], (List.append_nil _).symm⟩

/-- What a call can do altogether. -/
abbrev Reach : World σ × Phase → World σ × Phase → Prop := Relation.ReflTransGen Move

/-- What holds initially and survives every move holds whatever a call does. -/
theorem Reach.invariant {Inv : World σ → Phase → Prop} {x y : World σ × Phase}
    (hreach : Reach x y) (hx : Inv x.1 x.2)
    (hmove : ∀ {w phase w' phase'}, Inv w phase → Move (w, phase) (w', phase') → Inv w' phase') :
    Inv y.1 y.2 := by
  induction hreach with
  | refl => exact hx
  | tail _ hstep ih => exact hmove ih hstep

end Moves
end PgProto
