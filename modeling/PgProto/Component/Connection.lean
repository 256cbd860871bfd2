import PgProto.Component.EstablishmentFrame

/-!
# Connection — the client role of the component API

`Client::connect` with its second attempt, and the calls of a `ClientConnection`: `simple_query` and
`receive_wire` of `src/client_component.rs`.  As in establishment, a call that waits for the server
is a machine which goes from one read to the next.

The connector, TLS negotiation and `handler.startup` precede an attempt and are one parameter.
-/

namespace PgProto
namespace Component

open Lib Fallible

/-! ## Connecting -/

/-- What precedes a session: the transport with its TLS negotiation, and the startup message that
the middleware makes of the merged parameters. -/
abbrev Prepare (σ π ε ι δ : Type) := σ → Except δ (ClientSetup σ π ε ι) × σ

/-- `Client`, for a target and startup parameters. -/
structure ClientComponent (σ π ε ι δ : Type) where
  first : Prepare σ π ε ι δ
  /-- The attempt with TLS after a failed one without it: `SslMode::Allow`. -/
  retry : Option (Prepare σ π ε ι δ)

/-- How an attempt went: there was no transport, or a session was tried. -/
inductive Connecting (σ π ε ι δ : Type)
  | unreachable (error : δ) (state : σ)
  | tried (setup : ClientSetup σ π ε ι) (transcript : Transcript σ ε ι)

section Connect

variable {σ π ε ι δ : Type}

def Connecting.log : Connecting σ π ε ι δ → List Event
  | .unreachable _ _ => []
  | .tried _ transcript => transcript.log

def connectOnce (prepare : Prepare σ π ε ι δ) (state : σ) (reads : List Read) :
    Connecting σ π ε ι δ :=
  match prepare state with
  | (.error error, state) => .unreachable error state
  | (.ok setup, state) => .tried setup (establishClientSession setup state reads)

/-- The attempt that follows a failed one, and the state it starts from. -/
def secondAttempt (component : ClientComponent σ π ε ι δ) :
    Connecting σ π ε ι δ → Option (Prepare σ π ε ι δ × σ)
  | .tried _ ⟨.failed (.error _), _, state, _⟩ => component.retry.map fun retry => (retry, state)
  | _ => none

/-- `connect_core`: the last attempt, and what happened in all of them.  The two attempts have
transports of their own. -/
def connectCore (component : ClientComponent σ π ε ι δ) (state : σ) (reads retryReads : List Read) :
    Connecting σ π ε ι δ × List Event :=
  let first := connectOnce component.first state reads
  match secondAttempt component first with
  | some (retry, state) =>
    let second := connectOnce retry state retryReads
    (second, first.log ++ second.log)
  | none => (first, first.log)

/-- The stream of the last attempt. -/
def lastReads (component : ClientComponent σ π ε ι δ) (state : σ) (reads retryReads : List Read) :
    List Read :=
  match secondAttempt component (connectOnce component.first state reads) with
  | some _ => retryReads
  | none => reads

variable {transcript : Transcript σ ε ι} {setup : ClientSetup σ π ε ι}

theorem connectOnce_tried {prepare : Prepare σ π ε ι δ} {state : σ} {reads : List Read}
    (h : connectOnce prepare state reads = .tried setup transcript) :
    ∃ state', prepare state = (.ok setup, state') ∧
      transcript = establishClientSession setup state' reads := by
  unfold connectOnce at h
  cases hprepare : prepare state with
  | mk result state' =>
    rw [hprepare] at h
    cases result with
    | error error => cases h
    | ok setup' =>
      cases h
      exact ⟨state', rfl, rfl⟩

theorem connectCore_tried {component : ClientComponent σ π ε ι δ} {state : σ}
    {reads retryReads : List Read}
    (h : (connectCore component state reads retryReads).1 = .tried setup transcript) :
    ∃ state', transcript =
      establishClientSession setup state' (lastReads component state reads retryReads) := by
  unfold connectCore at h
  unfold lastReads
  dsimp only at h
  cases hsecond : secondAttempt component (connectOnce component.first state reads) with
  | none | some attempt =>
    rw [hsecond] at h
    obtain ⟨state', -, htranscript⟩ := connectOnce_tried h
    exact ⟨state', htranscript⟩

theorem log_suffix_connectCore (component : ClientComponent σ π ε ι δ) (state : σ)
    (reads retryReads : List Read) :
    (connectCore component state reads retryReads).1.log <:+
      (connectCore component state reads retryReads).2 := by
  unfold connectCore
  dsimp only
  split
  · exact List.suffix_append _ _
  · exact List.suffix_rfl

end Connect

/-! ## Calls of a connection -/

inductive QueryStatus (ε : Type)
  | awaiting (messages : List BackendMessage)
  | done (messages : List BackendMessage)
  | failed (failure : Failure ε)
  deriving DecidableEq, Repr

section Calls

variable {σ π ε ι : Type} (setup : ClientSetup σ π ε ι)

/-- `simple_query` up to its loop. -/
def startQuery (query : Bytes) : Establish σ π ε (QueryStatus ε) := do
  let w ← get
  let outbound := setup.middleware.frontend w.state (.query query)
  modify fun w => { w with state := outbound.2 }
  match outbound.1 with
  | .query query => do
    send setup (.pushQuery query)
    return .awaiting []
  | _ => protocolError (invalid "middleware replaced Query with an incompatible message")

def other (message : String) : IoError :=
  { kind := .other
    message := message }

/-- The loop of `simple_query`, for an item of the session stream whose message the middleware has
seen. -/
def onObserved (messages : List BackendMessage) (item : SessionItem) (observed : BackendMessage) :
    Establish σ π ε (QueryStatus ε) :=
  match replaceSessionItem item observed with
  | none =>
    protocolError
      (invalid "middleware replacement during simple query is not phase-compatible")
  | some item =>
    match Client.SimpleQuery.offer .dirty item with
    | .accepted _ (.continue _) => return .awaiting (messages ++ [observed])
    | .accepted _ .ready | .accepted _ (.readyDirty _ _) => return .done (messages ++ [observed])
    | .accepted _ (.error _) => protocolError (other "backend rejected simple query")
    | .accepted _ (.copyIn _) => protocolError (other "simple query entered COPY IN")
    | .accepted _ (.copyOut _) => protocolError (other "simple query entered COPY OUT")
    | .accepted _ (.copyBoth _) => protocolError (other "simple query entered COPY BOTH")
    | .rejected _ => protocolError (invalid "illegal simple-query response")
    -- `SimpleTransition` has no other cases.
    | .accepted _ _ | .panicked => throw .panicked

/-- What follows a read by `receive` in `simple_query`. -/
def onQueried (messages : List BackendMessage) :
    Option SessionItem → Establish σ π ε (QueryStatus ε)
  | none => return .awaiting messages
  | some item => do
    let observed ← inspect setup item.intoBackendMessage
    onObserved messages item observed

/-- One read of `simple_query`. -/
def advanceQuery (messages : List BackendMessage) (message : BackendMessage) :
    Establish σ π ε (QueryStatus ε) := do
  record (.received message true)
  let item ← project message
  onQueried setup messages item

/-- A `simple_query` under way, or at its end. -/
structure Querying (σ π ε : Type) where
  status : QueryStatus ε
  world : World σ π

def Querying.ofResult : EStateM.Result (Failure ε) (World σ π) (QueryStatus ε) → Querying σ π ε
  | .ok status world => ⟨status, world⟩
  | .error failure world => ⟨.failed failure, world⟩

def Querying.resume (querying : Querying σ π ε) (read : Read) : Querying σ π ε :=
  match querying.status, read with
  | .awaiting messages, .ok message => .ofResult (advanceQuery setup messages message querying.world)
  | .awaiting _, .error error => { querying with status := .failed (.error (.protocol error)) }
  | _, _ => querying

def simpleQuery (query : Bytes) (reads : List Read) (w : World σ π) : Querying σ π ε :=
  reads.foldl (Querying.resume setup) (.ofResult (startQuery setup query w))

/-- `receive_wire`. -/
def receiveWire : Read → Establish σ π ε BackendMessage
  | .error error => protocolError error
  | .ok message => do
    record (.received message false)
    inspect setup message

inductive ClientCall
  | receiveWire (read : Read)
  | simpleQuery (query : Bytes) (reads : List Read)

/-- The world that a computation leaves. -/
def worldOf {α : Type} : EStateM.Result (Failure ε) (World σ π) α → World σ π
  | .ok _ world => world
  | .error _ world => world

/-- A sequence of calls.  `simple_query` consumes the connection and gives it back at readiness. -/
def runCalls : World σ π → List ClientCall → World σ π
  | w, [] => w
  | w, .receiveWire read :: calls => runCalls (worldOf (receiveWire setup read w)) calls
  | w, .simpleQuery query reads :: calls =>
    match simpleQuery setup query reads w with
    | ⟨.done _, w'⟩ => runCalls w' calls
    | ⟨_, w'⟩ => w'

/-! ## What a call does to the frame -/

variable {setup} {f f' : Frame}

theorem blind_startQuery (query : Bytes) : Blind f f' (startQuery setup query) := by
  refine respects_read ?_ ?_
  · intro w w' h
    rw [h.state]
  · intro w
    refine respects_bind (respects_modify ?_) fun _ => ?_
    · intro w w' h
      exact ⟨rfl, h.policy, h.flushed, h.operations, h.frame, h.frame'⟩
    · cases (setup.middleware.frontend w.state (.query query)).1 with
      | query query =>
        exact respects_bind (blind_send _) fun _ => respects_pure _
      | _ => exact respects_throw _

theorem blind_onObserved (messages : List BackendMessage) (item : SessionItem)
    (observed : BackendMessage) :
    Blind f f' (onObserved messages item observed : Establish σ π ε (QueryStatus ε)) := by
  unfold onObserved
  cases replaceSessionItem item observed with
  | none => exact respects_throw _
  | some item =>
    dsimp only
    split
    all_goals first
      | exact respects_pure _
      | exact respects_throw _

theorem advanceQuery_frame (messages : List BackendMessage) (message : BackendMessage)
    (w : World σ π) :
    wp (advanceQuery setup messages message)
      (fun _ w' => w'.frame = w.frame.read message true)
      (fun _ w' => w'.frame = w.frame.read message true) w := by
  have happly : advanceQuery setup messages message w =
      onQueried setup messages (w.demux.route message).1
        { w.logged (.received message true) with demux := (w.demux.route message).2 } := rfl
  refine (wp_congr happly).2 ?_
  refine frame_of_projected setup (k := onQueried setup messages) (g := onObserved messages)
    (respects_pure _) (fun _ _ => rfl) (blind_onObserved messages) ?_
  simp [Frame.read, World.frame, seen_received]

/-- The server message that is read next, through the demultiplexer. -/
def QueryStatus.reading : QueryStatus ε → Read → Option (BackendMessage × Bool)
  | .awaiting _, .ok message => some (message, true)
  | _, _ => none

theorem Querying.of_wp {m : Establish σ π ε (QueryStatus ε)} {f : Frame} {w : World σ π}
    (h : wp m (fun _ w' => w'.frame = f) (fun _ w' => w'.frame = f) w) :
    (Querying.ofResult (m w)).world.frame = f := by
  unfold wp at h
  cases hm : m w with
  | ok status w' | error failure w' =>
    rw [hm] at h
    exact h

theorem Querying.resume_frame (querying : Querying σ π ε) (read : Read) :
    (querying.resume setup read).world.frame =
      querying.world.frame.after (querying.status.reading read) := by
  obtain ⟨status, w⟩ := querying
  cases status with
  | done messages | failed failure => rfl
  | awaiting messages =>
    cases read with
    | error error => rfl
    | ok message => exact Querying.of_wp (advanceQuery_frame messages message w)

theorem startQuery_frame (query : Bytes) (w : World σ π) :
    (Querying.ofResult (startQuery setup query w)).world.frame = w.frame :=
  Querying.of_wp (frame_of_blind rfl (blind_startQuery query))

theorem receiveWire_frame (read : Read) (w : World σ π) :
    (worldOf (receiveWire setup read w)).frame =
      w.frame.after (read.toOption.map fun message => (message, false)) := by
  cases read with
  | error error => rfl
  | ok message =>
    change ((w.logged (.received message false)).inspected setup message).frame = _
    rw [frame_inspected, seen_received]
    simp [Frame.after, Frame.read, World.frame, World.logged, Except.toOption]

end Calls
end Component
end PgProto
