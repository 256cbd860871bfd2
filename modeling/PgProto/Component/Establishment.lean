import PgProto.Codec.Startup
import PgProto.Lib.Fallible
import PgProto.Typestate.Client

/-!
# Establishment — a setup session from the startup packet to readiness

`establish_client_session` of `src/client_component.rs` with `complete_password`, `complete_sasl` and
`complete_token`.  The functions wait for the server in six places, which are the stages of a
machine: `advance` runs from one read of a server message to the next.  The authentication policy,
the middleware of the setup role and the results of writing are parameters.

The log records every message that is read, whether it was read through the demultiplexer, every
message that is passed to the middleware, and every operation of the typestate.
-/

namespace PgProto
namespace Component

open Lib
open Client (Op)

/-! ## Policy and middleware -/

inductive ClientAuthenticationChallenge
  | cleartextPassword
  | md5Password (salt : Vector UInt8 4)
  | sasl (mechanisms : List Bytes)
  | saslContinue (challenge : Bytes)
  | saslFinal (serverFinal : Bytes)
  | gss
  | sspi
  | kerberosV5
  | tokenContinue (token : Bytes)
  deriving DecidableEq, Repr

inductive ClientAuthenticationResponse
  | password (password : Bytes)
  | saslInitial (mechanism response : Bytes)
  | sasl (response : Bytes)
  | token (token : Bytes)
  | verified
  deriving DecidableEq, Repr

/-- An authentication policy, whose sessions have states `π`, errors `ε` and evidence `ι`. -/
structure ClientAuthentication (π ε ι : Type) where
  begin : Except ε π
  respond : π → ClientAuthenticationChallenge → Except ε ClientAuthenticationResponse × π
  authenticated : π → Except ε ι

/-- `ClientMiddleware`, for a connection whose context is fixed. -/
structure ClientMiddleware (σ : Type) where
  frontend : σ → FrontendMessage → FrontendMessage × σ
  backend : σ → BackendMessage → BackendMessage × σ

/-- `IdentityHandler`. -/
def ClientMiddleware.identity (σ : Type) : ClientMiddleware σ :=
  { frontend := fun state message => (message, state)
    backend := fun state message => (message, state) }

/-! ## Failures -/

inductive ClientAuthenticationError (ε : Type)
  | policy (error : ε)
  | rejected
  | invalidResponse
  deriving DecidableEq, Repr

inductive AuthenticationDriveError (ε : Type)
  | policy (error : ε)
  | rejected
  | invalidResponse
  | protocol (error : IoError)
  deriving DecidableEq, Repr

inductive SessionEstablishError (ε : Type)
  | authentication (error : ClientAuthenticationError ε)
  | protocol (error : IoError)
  deriving DecidableEq, Repr

def sessionAuthenticationError {ε : Type} : AuthenticationDriveError ε → SessionEstablishError ε
  | .policy error => .authentication (.policy error)
  | .rejected => .authentication .rejected
  | .invalidResponse => .authentication .invalidResponse
  | .protocol error => .protocol error

/-- How establishment ends without a session. -/
inductive Failure (ε : Type)
  | error (error : SessionEstablishError ε)
  | panicked
  deriving DecidableEq, Repr

/-! ## The machine -/

/-- Where establishment waits for the server. -/
inductive Stage
  /-- The first loop of `establish_client_session`. -/
  | authentication
  /-- The end of `complete_password`. -/
  | passwordCompletion
  /-- The loop of `complete_sasl`. -/
  | sasl
  /-- The end of `complete_sasl`. -/
  | saslCompletion
  /-- The loop of `complete_token`. -/
  | token
  /-- The second loop of `establish_client_session`, with the key it has seen. -/
  | readiness (backendKey : Option CancelKey)
  deriving DecidableEq, Repr

inductive Event
  | received (message : BackendMessage) (demuxed : Bool)
  | inspected (message : BackendMessage)
  | performed (op : Op)
  deriving DecidableEq, Repr

structure World (σ π : Type) where
  state : σ
  policy : π
  demux : Demux
  /-- Completed flushes. -/
  flushed : Nat
  log : List Event

def World.logged {σ π : Type} (w : World σ π) (event : Event) : World σ π :=
  { w with log := w.log ++ [event] }

inductive Status (ε ι : Type)
  | awaiting (stage : Stage)
  | established (identity : ι) (backendKey : Option CancelKey)
  | failed (failure : Failure ε)
  deriving DecidableEq, Repr

abbrev Establish (σ π ε : Type) : Type → Type :=
  EStateM (Failure ε) (World σ π)

/-- What `establish_client_session` is given.  `flushes` tells which flush fails, and how. -/
structure ClientSetup (σ π ε ι : Type) where
  authentication : ClientAuthentication π ε ι
  middleware : ClientMiddleware σ
  startup : StartupMessage
  maxFrameLen : Nat
  flushes : Nat → Option IoError

section Establishment

variable {σ π ε ι : Type}

def protocolError {α : Type} (error : IoError) : Establish σ π ε α :=
  throw (.error (.protocol error))

def driveError {α : Type} (error : AuthenticationDriveError ε) : Establish σ π ε α :=
  throw (.error (sessionAuthenticationError error))

def record (event : Event) : Establish σ π ε Unit :=
  modify fun w => w.logged event

variable (setup : ClientSetup σ π ε ι)

/-- `handler.backend`. -/
def inspect (message : BackendMessage) : Establish σ π ε BackendMessage := do
  record (.inspected message)
  let w ← get
  let passed := setup.middleware.backend w.state message
  modify fun w => { w with state := passed.2 }
  return passed.1

/-- `policy.respond`. -/
def respond (challenge : ClientAuthenticationChallenge) :
    Establish σ π ε ClientAuthenticationResponse := do
  let w ← get
  let answer := setup.authentication.respond w.policy challenge
  modify fun w => { w with policy := answer.2 }
  match answer.1 with
  | .ok response => return response
  | .error error => driveError (.policy error)

def interceptAuthResponse (response : Bytes) : Establish σ π ε Bytes := do
  let w ← get
  let passed := setup.middleware.frontend w.state (.passwordResponse response)
  modify fun w => { w with state := passed.2 }
  match passed.1 with
  | .passwordResponse response => return response
  | _ => driveError .invalidResponse

def flush : Establish σ π ε Unit := do
  let w ← get
  match setup.flushes w.flushed with
  | some error => protocolError error
  | none => modify fun w => { w with flushed := w.flushed + 1 }

/-- An operation of the typestate, with the `push_frame` and `flush` that follow it. -/
def send (op : Op) : Establish σ π ε Unit := do
  match op.frame with
  | .error error => protocolError error
  | .ok none => record (.performed op)
  | .ok (some frame) =>
    match encodeFrame setup.maxFrameLen frame with
    | .error error => protocolError error
    | .ok _ => do
      record (.performed op)
      flush setup

/-! ## Mechanisms -/

def completePassword (challenge : ClientAuthenticationChallenge) :
    Establish σ π ε (Status ε ι) := do
  match ← respond setup challenge with
  | .password password => do
    let password ← interceptAuthResponse setup password
    send setup (.password password)
    return .awaiting .passwordCompletion
  | _ => driveError .invalidResponse

def completeSasl (mechanisms : List Bytes) : Establish σ π ε (Status ε ι) := do
  match ← respond setup (.sasl mechanisms) with
  | .saslInitial mechanism response => do
    let response ← interceptAuthResponse setup response
    send setup (.sasl mechanism response)
    return .awaiting .sasl
  | _ => driveError .invalidResponse

/-- The first token, or the next one: the same statements stand before and in the loop of
`complete_token`. -/
def respondToken (challenge : ClientAuthenticationChallenge) : Establish σ π ε (Status ε ι) := do
  match ← respond setup challenge with
  | .token token => do
    let token ← interceptAuthResponse setup token
    send setup (.respond token)
    return .awaiting .token
  | _ => driveError .invalidResponse

def completeToken (challenge : ClientAuthenticationChallenge) : Establish σ π ε (Status ε ι) :=
  respondToken setup challenge

/-! ## Reads -/

/-- The `match` of the first loop. -/
def onAuthentication (message : BackendMessage) : Establish σ π ε (Status ε ι) :=
  match Client.Auth.offerBackend message with
  | .accepted _ .authenticated => return .awaiting (.readiness none)
  | .accepted _ (.negotiate _) => return .awaiting .authentication
  | .accepted _ .cleartext => completePassword setup .cleartextPassword
  | .accepted _ (.md5 salt) => completePassword setup (.md5Password salt)
  | .accepted _ (.sasl mechanisms) => completeSasl setup mechanisms
  | .accepted _ .gss => completeToken setup .gss
  | .accepted _ .sspi => completeToken setup .sspi
  | .accepted _ .kerberosV5 => completeToken setup .kerberosV5
  | .accepted _ (.error _) => throw (.error (.authentication .rejected))
  | .rejected none => return .awaiting .authentication
  | .rejected (some source) => protocolError source
  -- `AuthEvent` has no other cases.
  | .accepted _ _ | .panicked => throw .panicked

/-- The last `match` of `complete_password` and of `complete_sasl`. -/
def onCompletion (illegal : String) (message : BackendMessage) : Establish σ π ε (Status ε ι) :=
  match Client.AwaitingAuthOk.offer message with
  | .accepted _ .authenticated => return .awaiting (.readiness none)
  | .accepted _ _ => driveError .rejected
  | .rejected _ | .panicked => driveError (.protocol (invalid illegal))

/-- The loop of `complete_sasl`. -/
def onSasl (message : BackendMessage) : Establish σ π ε (Status ε ι) := do
  match Client.Sasl.offerBackend message with
  | .accepted _ (.challenge challenge) => do
    match ← respond setup (.saslContinue challenge) with
    | .sasl response => do
      let response ← interceptAuthResponse setup response
      send setup (.respond response)
      return .awaiting .sasl
    | _ => driveError .invalidResponse
  | .accepted _ (.serverFinal serverFinal) => do
    match ← respond setup (.saslFinal serverFinal) with
    | .verified => do
      send setup .verified
      return .awaiting .saslCompletion
    | _ => driveError .invalidResponse
  | .accepted _ _ => driveError .rejected
  | .rejected _ | .panicked =>
    driveError (.protocol (invalid "illegal SASL authentication message"))

/-- The loop of `complete_token`. -/
def onToken (message : BackendMessage) : Establish σ π ε (Status ε ι) :=
  match Client.TokenChallenge.offer message with
  | .accepted _ (.token token) => respondToken setup (.tokenContinue token)
  | .accepted _ .authenticated => return .awaiting (.readiness none)
  | .accepted _ _ => driveError .rejected
  | .rejected _ | .panicked =>
    driveError (.protocol (invalid "illegal token authentication message"))

def replaceSessionItem : SessionItem → BackendMessage → Option SessionItem
  | .message _, message => some (.message message)
  | .readyForQuery _ parametersChanged, .readyForQuery status =>
    some (.readyForQuery status parametersChanged)
  | .commandComplete _ command notices, .commandComplete tag =>
    some (.commandComplete tag command notices)
  | _, _ => none

theorem replaceSessionItem_self (item : SessionItem) :
    replaceSessionItem item item.intoBackendMessage = some item := by
  cases item <;> rfl

/-- `policy.authenticated`. -/
def authenticated (backendKey : Option CancelKey) : Establish σ π ε (Status ε ι) := do
  let w ← get
  match setup.authentication.authenticated w.policy with
  | .ok identity => return .established identity backendKey
  | .error error => throw (.error (.authentication (.policy error)))

/-- `backend_key` after a message of the second loop. -/
def seenKey (backendKey : Option CancelKey) : BackendMessage → Option CancelKey
  | .backendKeyData processId secretKey => some ⟨processId, secretKey⟩
  | _ => backendKey

/-- The end of the second loop of `establish_client_session`: the middleware has replaced the
message of an item. -/
def onReplacement (backendKey : Option CancelKey) (item : SessionItem)
    (replacement : BackendMessage) : Establish σ π ε (Status ε ι) :=
  match replaceSessionItem item replacement with
  | none =>
    protocolError
      (invalid "middleware replacement during startup readiness is not phase-compatible")
  | some item =>
    match Client.AwaitingStartupReady.offerReady item, item with
    | .accepted _ _, _ => authenticated setup backendKey
    | _, .message _ => return .awaiting (.readiness backendKey)
    | _, _ => protocolError (invalid "startup did not reach an idle operational phase")

/-- The second loop of `establish_client_session`, for an item of the session stream. -/
def onReadiness (backendKey : Option CancelKey) (item : SessionItem) :
    Establish σ π ε (Status ε ι) := do
  let replacement ← inspect setup item.intoBackendMessage
  onReplacement setup (seenKey backendKey item.intoBackendMessage) item replacement

/-- `receive_session`: the demultiplexer keeps some messages to itself. -/
def project (message : BackendMessage) : Establish σ π ε (Option SessionItem) := do
  let w ← get
  let routed := w.demux.route message
  modify fun w => { w with demux := routed.2 }
  return routed.1

/-- What follows a read by `receive`: the read goes on when there is no item. -/
def onProjected (backendKey : Option CancelKey) :
    Option SessionItem → Establish σ π ε (Status ε ι)
  | none => return .awaiting (.readiness backendKey)
  | some item => onReadiness setup backendKey item

/-- What follows a read by `receive_backend_wire`, after the middleware. -/
def onWire : Stage → BackendMessage → Establish σ π ε (Status ε ι)
  | .passwordCompletion, message => onCompletion "illegal authentication completion" message
  | .sasl, message => onSasl setup message
  | .saslCompletion, message => onCompletion "illegal SASL authentication completion" message
  | .token, message => onToken setup message
  | .authentication, message | .readiness _, message => onAuthentication setup message

/-- Whether a stage reads by `receive`, through the demultiplexer. -/
def Stage.demuxed : Stage → Bool
  | .readiness _ => true
  | _ => false

/-- What follows a read in a stage. -/
def advance (stage : Stage) (message : BackendMessage) : Establish σ π ε (Status ε ι) := do
  record (.received message stage.demuxed)
  match stage with
  | .readiness backendKey => do
    let item ← project message
    onProjected setup backendKey item
  | stage => do
    let message ← inspect setup message
    onWire setup stage message

/-! ## Runs -/

/-- A message of the server, or an error of the transport. -/
abbrev Read := Except IoError BackendMessage

/-- Establishment under way, or at its end. -/
structure Attempt (σ π ε ι : Type) where
  status : Status ε ι
  world : World σ π

def Attempt.ofResult : EStateM.Result (Failure ε) (World σ π) (Status ε ι) → Attempt σ π ε ι
  | .ok status world => ⟨status, world⟩
  | .error failure world => ⟨.failed failure, world⟩

/-- One read.  An attempt that has ended reads no more. -/
def Attempt.resume (attempt : Attempt σ π ε ι) (read : Read) : Attempt σ π ε ι :=
  match attempt.status, read with
  | .awaiting stage, .ok message => .ofResult (advance setup stage message attempt.world)
  | .awaiting _, .error error => { attempt with status := .failed (.error (.protocol error)) }
  | _, _ => attempt

/-- What precedes the first read. -/
def ClientSetup.start (state : σ) : Except (SessionEstablishError ε) (World σ π) := do
  let policy ← setup.authentication.begin.mapError fun error => .authentication (.policy error)
  let _ ← (PgCodec.withMaxFrameLen .backend setup.maxFrameLen).mapError .protocol
  let _ ← setup.startup.encode.mapError .protocol
  match setup.flushes 0 with
  | some error => throw (.protocol error)
  | none =>
    return { state := state, policy := policy, demux := Demux.new, flushed := 1, log := [] }

/-- An attempt that has started, after these reads. -/
def establishFrom (w : World σ π) (reads : List Read) : Attempt σ π ε ι :=
  reads.foldl (Attempt.resume setup) ⟨.awaiting .authentication, w⟩

/-- How far establishment got, what happened on the way, and what it leaves. -/
structure Transcript (σ ε ι : Type) where
  status : Status ε ι
  log : List Event
  state : σ
  demux : Demux

def Attempt.transcript (attempt : Attempt σ π ε ι) : Transcript σ ε ι :=
  { status := attempt.status
    log := attempt.world.log
    state := attempt.world.state
    demux := attempt.world.demux }

/-- `establish_client_session` against a server that sends these messages. -/
def establishClientSession (state : σ) (reads : List Read) : Transcript σ ε ι :=
  match setup.start state with
  | .error error => ⟨.failed (.error error), [], state, Demux.new⟩
  | .ok w => (establishFrom setup w reads).transcript

variable {setup}

/-- The world after a message went through the middleware. -/
def World.inspected (w : World σ π) (setup : ClientSetup σ π ε ι) (message : BackendMessage) :
    World σ π :=
  { w.logged (.inspected message) with
    state := (setup.middleware.backend w.state message).2 }

theorem onReadiness_apply (backendKey : Option CancelKey) (item : SessionItem) (w : World σ π) :
    onReadiness setup backendKey item w =
      onReplacement setup (seenKey backendKey item.intoBackendMessage) item
        (setup.middleware.backend w.state item.intoBackendMessage).1
        (w.inspected setup item.intoBackendMessage) :=
  rfl

theorem advance_readiness (backendKey : Option CancelKey) (message : BackendMessage)
    (w : World σ π) :
    advance setup (.readiness backendKey) message w =
      onProjected setup backendKey (w.demux.route message).1
        { w.logged (.received message true) with demux := (w.demux.route message).2 } :=
  rfl

theorem advance_wire {stage : Stage} (hwire : stage.demuxed = false) (message : BackendMessage)
    (w : World σ π) :
    advance setup stage message w =
      onWire setup stage (setup.middleware.backend w.state message).1
        ((w.logged (.received message false)).inspected setup message) := by
  cases stage with
  | readiness backendKey => cases hwire
  | _ => rfl

variable {w : World σ π} {state : σ}

theorem establishFrom_snoc {reads : List Read} {read : Read} :
    establishFrom setup w (reads ++ [read]) =
      (establishFrom setup w reads).resume setup read := by
  simp [establishFrom]

theorem Attempt.of_wp {m : Establish σ π ε (Status ε ι)} {F : Failure ε → World σ π → Prop}
    {Q : Status ε ι → World σ π → Prop} {P : Attempt σ π ε ι → Prop} (h : Fallible.wp m F Q w)
    (hF : ∀ failure w', F failure w' → P ⟨.failed failure, w'⟩)
    (hQ : ∀ status w', Q status w' → P ⟨status, w'⟩) : P (Attempt.ofResult (m w)) := by
  unfold Fallible.wp at h
  cases hm : m w with
  | ok status w' =>
    rw [hm] at h
    exact hQ status w' h
  | error failure w' =>
    rw [hm] at h
    exact hF failure w' h

theorem start_eq_ok (h : setup.start state = .ok w) :
    w.log = [] ∧ w.demux = Demux.new ∧ w.state = state := by
  unfold ClientSetup.start at h
  simp only [except_bind_eq_ok] at h
  obtain ⟨policy, -, codec, -, packet, -, hflush⟩ := h
  split at hflush
  · cases hflush
  · cases hflush
    exact ⟨rfl, rfl, rfl⟩

theorem establishClientSession_ok (h : setup.start state = .ok w) (reads : List Read) :
    establishClientSession setup state reads = (establishFrom setup w reads).transcript := by
  unfold establishClientSession
  rw [h]

theorem establishClientSession_error {error : SessionEstablishError ε}
    (h : setup.start state = .error error) (reads : List Read) :
    establishClientSession setup state reads = ⟨.failed (.error error), [], state, Demux.new⟩ := by
  unfold establishClientSession
  rw [h]

/-- A client that answers every challenge with one password. -/
def passwordClient : ClientSetup Unit Unit Unit Unit :=
  { authentication :=
      { begin := .ok ()
        respond := fun _ _ => (.ok (.password (ascii "secret")), ())
        authenticated := fun _ => .ok () }
    middleware := .identity Unit
    startup := { version := ⟨3, 0⟩, parameters := SortedMap.empty }
    maxFrameLen := defaultMaxFrameLen
    flushes := fun _ => none }

end Establishment
end Component
end PgProto
