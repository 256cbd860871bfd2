import PgProto.Component.Cancellation
import PgProto.Grammar.ServerAuthentication
import PgProto.Typestate.Client

/-!
# ServerAccept — a client from its first packet to a session

`Server::accept_routed` of `src/server_component.rs` with `accept_encrypted`, `complete_auth`,
`authenticate_sasl` and `authenticate_token`, over the typestates of `src/server_auth.rs`.  What
they await or ask of the application is a script: the packets and messages of the client behind the
middleware, the results of writing, the decisions of the resolver and of the authentication policy.
Where the script ends, the future is dropped.

`Gate` says what `accept` is for: a server of the generated `server_authentication` grammar which
sends AuthenticationOk only for an identity that its policy has granted last, and which begins to
authenticate only behind TLS where TLS is required.
-/

namespace PgProto

open Lib
open ServerAuthGrammar (RuntimeState transitions)

inductive ServerTls
  | disabled
  | optional
  | required
  deriving DecidableEq

structure Server where
  tls : ServerTls
  /-- `defer_ready` of the resolver. -/
  deferReady : Bool
  maxFrameLen : Nat

namespace Server

def required (server : Server) : Bool :=
  server.tls = .required

/-! ## Scripts -/

inductive ServerAuthenticationAction (ι : Type)
  | accept (identity : ι)
  | cleartextPassword
  | md5Password (salt : Vector UInt8 4)
  | sasl (mechanisms : List Bytes)
  | saslContinue (challenge : Bytes)
  | saslFinal (serverFinal : Bytes) (identity : ι)
  | kerberosV5
  | gss
  | sspi
  | gssContinue (token : Bytes)

inductive ServerAuthenticationResponse
  | password (credential : Bytes)
  | saslInitial (mechanism : Bytes) (response : Option Bytes)
  | sasl (response : Bytes)
  | token (token : Bytes)

/-- A packet as `handler.pre_startup` returns it, and what its reply meets with. -/
structure Opening (ε : Type) where
  packet : Except IoError PreStartupMessage
  identity : Except ε Unit
  flush : Except IoError Unit
  handshake : Except IoError Unit

/-- A request as `handler.backend` returns it, the client's response as `handler.frontend` returns
it, and the decision on it. -/
structure Round (ε ι : Type) where
  written : BackendMessage
  flush : Except IoError Unit
  message : Except IoError FrontendMessage
  decision : ServerAuthenticationResponse → Except ε (ServerAuthenticationAction ι)

structure Script (ε ι : Type) where
  openings : List (Opening ε)
  cancellation : CancelKey → CancelKey
  startup : StartupMessage → StartupMessage
  route : Except ε Unit
  decision : Except ε (ServerAuthenticationAction ι)
  rounds : List (Round ε ι)
  /-- The last messages, as `handler.backend` returns them. -/
  serverFinal : BackendMessage
  ok : BackendMessage
  ready : BackendMessage
  flush : Except IoError Unit

inductive AcceptError (ε : Type)
  | io (error : IoError)
  | unsupportedProtocolVersion
  | tlsRequired
  | tlsIdentity (error : ε)
  | authentication (error : ε)
  | authenticationProtocol
  | route (error : ε)

inductive Outcome (ε ι : Type)
  | dropped
  | failed (error : AcceptError ε)
  | cancellation (request : CancelKey)
  | session (identity : ι)

inductive Event (ι : Type)
  | secured
  | began
  | decided (action : ServerAuthenticationAction ι)
  | received (message : FrontendMessage)
  | verified
  /-- A message of the typestate, and what the middleware has made of it. -/
  | sent (message written : BackendMessage)

structure Trace (ε ι : Type) where
  log : List (Event ι)
  outcome : Outcome ε ι

namespace Trace

variable {ε ι : Type}

def stop (outcome : Outcome ε ι) : Trace ε ι :=
  ⟨[], outcome⟩

def behind (event : Event ι) (trace : Trace ε ι) : Trace ε ι :=
  { trace with log := event :: trace.log }

def orFail {δ α : Type} (f : δ → AcceptError ε) (result : Except δ α) (next : α → Trace ε ι) :
    Trace ε ι :=
  match result with
  | .ok a => next a
  | .error error => stop (.failed (f error))

end Trace

open Trace

/-! ## Authentication -/

section Authentication

variable {ε ι : Type} (server : Server) (script : Script ε ι)

/-- `push_or_abort` of what `handler.backend` has returned for a message of the typestate. -/
def push (message written : BackendMessage) (next : Trace ε ι) : Trace ε ι :=
  orFail .io (written.encode server.maxFrameLen) fun _ => next.behind (.sent message written)

/-- A request of the typestate, by way of `intercept_server_backend`. -/
def request (authentication : Authentication) (written : BackendMessage) (next : Trace ε ι) :
    Trace ε ι :=
  orFail .io ((BackendMessage.authentication authentication).toFrame >>= Backend.decode) fun _ =>
    push server (.authentication authentication) written next

/-- The end of `complete_auth`, behind the server-final data. -/
def conclude (identity : ι) : Trace ε ι :=
  let session := orFail .io script.flush fun _ => stop (.session identity)
  push server (.authentication .ok) script.ok <|
    if server.deferReady then session else push server (.readyForQuery .idle) script.ready session

def complete (identity : ι) : Option Bytes → Trace ε ι
  | none => conclude server script identity
  | some data => request server (.saslFinal data) script.serverFinal (conclude server script identity)

def passwordBody (body : Bytes) : Option Bytes :=
  if body.getLast? = some 0 ∧ ¬ body.dropLast.contains 0 then some body.dropLast else none

def saslInitial (body : Bytes) : Option (Bytes × Option Bytes) := do
  let nul ← body.findIdx? (· == 0)
  let mechanism := body.take nul
  let body := body.drop (nul + 1)
  if body.length < 4 then
    none
  else
    let length := Int32.ofNat (fromBeBytes (body.take 4))
    let body := body.drop 4
    if length = -1 ∧ body = [] then
      some (mechanism, none)
    else if 0 ≤ length ∧ body.length = length.toNatClampNeg then
      some (mechanism, some body)
    else
      none

/-- The response that the client owes. -/
inductive Waiting
  | password
  | saslInitial
  | saslResponse
  | token
  deriving DecidableEq

/-- `receive_password`, `receive_initial` and `receive_response`. -/
def project : Waiting → FrontendMessage → Option ServerAuthenticationResponse
  | .password, .passwordResponse body => .password <$> passwordBody body
  | .saslInitial, .passwordResponse body =>
    (fun initial => .saslInitial initial.1 initial.2) <$> saslInitial body
  | .saslResponse, .passwordResponse body => some (.sasl body)
  | .token, .passwordResponse body => some (.token body)
  | _, _ => none

/-- What a decision calls for: to end the exchange, or a request and the response to it.  There is
no response yet when `policy.start` decides. -/
def next : Option Waiting → ServerAuthenticationAction ι →
    Option ((ι × Option Bytes) ⊕ (Authentication × Waiting))
  | none, .accept identity | some .password, .accept identity | some .token, .accept identity =>
    some (.inl (identity, none))
  | some .saslInitial, .saslFinal data identity | some .saslResponse, .saslFinal data identity =>
    some (.inl (identity, some data))
  | none, .cleartextPassword => some (.inr (.cleartextPassword, .password))
  | none, .md5Password salt => some (.inr (.md5Password salt, .password))
  | none, .sasl mechanisms => some (.inr (.sasl mechanisms, .saslInitial))
  | none, .kerberosV5 => some (.inr (.kerberosV5, .token))
  | none, .gss => some (.inr (.gss, .token))
  | none, .sspi => some (.inr (.sspi, .token))
  | some .saslInitial, .saslContinue data | some .saslResponse, .saslContinue data =>
    some (.inr (.saslContinue data, .saslResponse))
  | some .token, .gssContinue token => some (.inr (.gssContinue token, .token))
  | _, _ => none

/-- What follows a decision: the end of `complete_auth`, or a request and the response to it in one
of the loops. -/
def exchange (waiting : Option Waiting) (action : ServerAuthenticationAction ι)
    (rounds : List (Round ε ι)) : Trace ε ι :=
  match next waiting action with
  | none => stop (.failed .authenticationProtocol)
  | some (.inl (identity, serverFinal)) =>
    let completed := complete server script identity serverFinal
    if waiting = some .token then completed.behind .verified else completed
  | some (.inr (authentication, waiting)) =>
    match rounds with
    | [] => stop .dropped
    | round :: rounds =>
      request server authentication round.written <|
        orFail .io round.flush fun _ => orFail .io round.message fun message =>
          match project waiting message with
          | none => stop (.failed .authenticationProtocol)
          | some response => behind (.received message) <|
            orFail .authentication (round.decision response) fun action =>
              behind (.decided action) (exchange (some waiting) action rounds)

def containsNul : ServerAuthenticationAction ι → Bool
  | .sasl mechanisms => mechanisms.any (·.contains 0)
  | _ => false

def completeAuth (startup : StartupMessage) : Trace ε ι :=
  if startup.version.major ≠ 3 then
    stop (.failed .unsupportedProtocolVersion)
  else
    behind .began <| orFail .authentication script.decision fun action =>
      behind (.decided action) <|
        if containsNul action then
          stop (.failed (.io (invalidInput "SASL mechanism contains NUL")))
        else
          exchange server script none action script.rounds

/-! ## The first packets -/

def tlsRequiredDiagnostic : BackendMessage :=
  .errorResponse ⟨[⟨0x53, ascii "FATAL"⟩, ⟨0x56, ascii "FATAL"⟩, ⟨0x43, ascii "08001"⟩,
    ⟨0x4d, ascii "Transport Layer Security (TLS) connection is required"⟩]⟩

/-- Whatever becomes of the diagnostic, `accept` fails. -/
def refusePlaintext : Trace ε ι :=
  match tlsRequiredDiagnostic.encode server.maxFrameLen with
  | .ok _ =>
    behind (.sent tlsRequiredDiagnostic tlsRequiredDiagnostic) (stop (.failed .tlsRequired))
  | .error _ => stop (.failed .tlsRequired)

/-- The loops of `accept_routed` and of `accept_encrypted`, which declines a further SSLRequest. -/
def acceptPackets (encrypted : Bool) : List (Opening ε) → Trace ε ι
  | [] => stop .dropped
  | opening :: openings =>
    orFail .io opening.packet fun
      | .sslRequest =>
        if encrypted ∨ server.tls = .disabled then
          orFail .io opening.flush fun _ => acceptPackets encrypted openings
        else
          orFail .tlsIdentity opening.identity fun _ => orFail .io opening.flush fun _ =>
            orFail .io opening.handshake fun _ => behind .secured (acceptPackets true openings)
      | .gssEncRequest => orFail .io opening.flush fun _ => acceptPackets encrypted openings
      | .cancelRequest processId secretKey =>
        stop (.cancellation (script.cancellation ⟨processId, secretKey⟩))
      | .startup message =>
        if server.required && !encrypted then
          refusePlaintext server
        else
          orFail .route script.route fun _ => completeAuth server script (script.startup message)

def acceptRouted : Trace ε ι :=
  acceptPackets server script false script.openings

end Authentication

/-! ## The gate -/

section Conformance

variable {ε ι : Type}

def ServerAuthenticationAction.identity? : ServerAuthenticationAction ι → Option ι
  | .accept identity | .saslFinal _ identity => some identity
  | _ => none

/-- What a server may do next: its phase in the grammar, whether TLS was negotiated, and the
identity which the last decision on the last response has granted. -/
structure Gate (ι : Type) where
  phase : RuntimeState
  secured : Bool
  granted : Option ι

namespace Gate

def moves (gate : Gate ι) : Option RuntimeState → Option (Gate ι) :=
  Option.map fun phase => { gate with phase }

def step (required : Bool) (gate : Gate ι) : Event ι → Option (Gate ι)
  | .secured => if gate.phase = .startup then some { gate with secured := true } else none
  | .began =>
    if required && !gate.secured then
      none
    else
      gate.moves ((transitions.transition gate.phase .begin).map Edge.target)
  | .decided action =>
    if gate.phase ∈ [.auth, .sasl, .tokenPolicy] then
      some { gate with granted := action.identity? }
    else
      none
  | .received message =>
    { gate with granted := none }.moves (transitions.stepExternal gate.phase message.variant)
  | .verified => gate.moves ((transitions.transition gate.phase .verified).map Edge.target)
  | .sent message _ =>
    if message = .authentication .ok ∧ gate.granted.isNone then
      none
    else
      gate.moves (transitions.stepInternal gate.phase message)

end Gate

/-- Where the gate stands at the end of a trace. -/
def Gate.Meets (server : Server) (gate : Gate ι) : Outcome ε ι → Prop
  | .dropped | .failed _ => True
  | .cancellation _ => gate.phase = .startup
  | .session identity =>
    gate.phase = (if server.deferReady then .startupReady else .ready) ∧
      gate.granted = some identity ∧ (server.required → gate.secured)

/-- Every event of the trace passes the gate. -/
def Conforms (server : Server) (gate : Gate ι) (trace : Trace ε ι) : Prop :=
  ∃ gate', trace.log.foldlM (Gate.step server.required) gate = some gate' ∧
    gate'.Meets server trace.outcome

variable {server : Server} {gate : Gate ι} {trace : Trace ε ι} {script : Script ε ι}
  {authentication : Authentication}

theorem conforms_stop {outcome : Outcome ε ι} :
    Conforms server gate (stop outcome) ↔ gate.Meets server outcome := by
  simp [Conforms, stop]

theorem conforms_behind {event : Event ι} {gate' : Gate ι}
    (h : gate.step server.required event = some gate') :
    Conforms server gate (trace.behind event) ↔ Conforms server gate' trace := by
  simp [Conforms, behind, h]

theorem conforms_orFail {δ α : Type} {f : δ → AcceptError ε} {result : Except δ α}
    {next : α → Trace ε ι} (h : ∀ a, Conforms server gate (next a)) :
    Conforms server gate (orFail f result next) := by
  cases result with
  | error error => exact conforms_stop.2 trivial
  | ok a => exact h a

theorem push_conforms {message written : BackendMessage} (phase : RuntimeState)
    (hstep : transitions.stepInternal gate.phase message = some phase)
    (hok : message = .authentication .ok → gate.granted.isSome)
    (h : Conforms server { gate with phase } trace) :
    Conforms server gate (push server message written trace) := by
  refine conforms_orFail fun _ => (conforms_behind ?_).2 h
  refine (if_neg ?_).trans (congrArg _ hstep)
  rintro ⟨hmessage, hnone⟩
  simp_all

theorem request_conforms {written : BackendMessage} (phase : RuntimeState)
    (hstep : transitions.stepInternal gate.phase (.authentication authentication) = some phase)
    (hok : authentication ≠ .ok) (h : Conforms server { gate with phase } trace) :
    Conforms server gate (request server authentication written trace) :=
  conforms_orFail fun _ => push_conforms phase hstep (by simp [hok]) h

section Completion

variable {secured : Bool} (hsecured : server.required → secured)
include hsecured

theorem conclude_conforms (identity : ι) :
    Conforms server ⟨.auth, secured, some identity⟩ (conclude server script identity) := by
  refine push_conforms .startupReady rfl (fun _ => rfl) ?_
  cases hdefer : server.deferReady with
  | true =>
    refine conforms_orFail fun _ => conforms_stop.2 ?_
    simpa [Gate.Meets, hdefer] using hsecured
  | false =>
    refine push_conforms .ready rfl (by simp) (conforms_orFail fun _ => conforms_stop.2 ?_)
    simpa [Gate.Meets, hdefer] using hsecured

theorem complete_conforms (identity : ι) (serverFinal : Option Bytes) :
    Conforms server ⟨serverFinal.elim .auth fun _ => .sasl, secured, some identity⟩
      (complete server script identity serverFinal) := by
  cases serverFinal with
  | none => exact conclude_conforms hsecured identity
  | some data => exact request_conforms .auth rfl (by simp) (conclude_conforms hsecured identity)

end Completion

def Waiting.phase : Waiting → RuntimeState
  | .password => .passwordResponse
  | .saslInitial => .saslInitial
  | .saslResponse => .saslResponse
  | .token => .tokenResponse

/-- The phase in which the policy decides. -/
def decisionPhase : Option Waiting → RuntimeState
  | none | some .password => .auth
  | some .saslInitial | some .saslResponse => .sasl
  | some .token => .tokenPolicy

variable {secured : Bool}

theorem received_step {required : Bool} {granted : Option ι} {waiting : Waiting}
    {message : FrontendMessage} {response : ServerAuthenticationResponse}
    (h : project waiting message = some response) :
    Gate.step required ⟨waiting.phase, secured, granted⟩ (.received message) =
      some ⟨decisionPhase waiting, secured, none⟩ := by
  cases message with
  | passwordResponse body => cases waiting with
    | password | saslInitial | saslResponse | token => rfl
  | _ => cases waiting <;> cases h

theorem decided_step {required : Bool} {granted : Option ι} (waiting : Option Waiting)
    (action : ServerAuthenticationAction ι) :
    Gate.step required ⟨decisionPhase waiting, secured, granted⟩ (.decided action) =
      some ⟨decisionPhase waiting, secured, action.identity?⟩ := by
  refine if_pos ?_
  rcases waiting with _ | _ | _ | _ | _ <;> simp [decisionPhase]

section Next

variable {waiting : Option Waiting} {action : ServerAuthenticationAction ι}

theorem next_request {waiting' : Waiting}
    (h : next waiting action = some (.inr (authentication, waiting'))) :
    transitions.stepInternal (decisionPhase waiting) (.authentication authentication) =
      some waiting'.phase ∧ authentication ≠ .ok := by
  revert h
  fun_cases next waiting action
  all_goals
    rintro ⟨⟩
    try exact ⟨rfl, by simp⟩

theorem next_complete {identity : ι} {serverFinal : Option Bytes}
    (h : next waiting action = some (.inl (identity, serverFinal))) :
    action.identity? = some identity ∧
      (waiting = some .token ∧ serverFinal = none ∨
        waiting ≠ some .token ∧ decisionPhase waiting = serverFinal.elim .auth fun _ => .sasl) := by
  revert h
  fun_cases next waiting action
  all_goals
    rintro ⟨⟩
    try exact ⟨rfl, by simp [decisionPhase]⟩

end Next

theorem exchange_conforms (hsecured : server.required → secured) (waiting : Option Waiting)
    (action : ServerAuthenticationAction ι) (rounds : List (Round ε ι)) :
    Conforms server ⟨decisionPhase waiting, secured, action.identity?⟩
      (exchange server script waiting action rounds) := by
  fun_induction exchange server script waiting action rounds with
  -- no such decision here; an identity was granted; or a round is to answer a request
  | case1 => exact conforms_stop.2 trivial
  | case2 _ action identity serverFinal _ hnext =>
    obtain ⟨hidentity, ⟨-, rfl⟩ | ⟨htoken, -⟩⟩ := next_complete hnext
    · rw [hidentity]
      exact (conforms_behind rfl).2 (complete_conforms hsecured identity none)
    · exact absurd rfl htoken
  | case3 _ waiting action identity serverFinal hnext _ htoken =>
    obtain ⟨hidentity, ⟨rfl, -⟩ | ⟨-, hphase⟩⟩ := next_complete hnext
    · exact absurd rfl htoken
    · rw [hidentity, hphase]
      exact complete_conforms hsecured identity serverFinal
  | case4 => exact conforms_stop.2 trivial
  | case5 waiting action authentication waiting' hnext round rounds ih =>
    obtain ⟨hstep, hok⟩ := next_request hnext
    refine request_conforms waiting'.phase hstep hok (conforms_orFail fun _ => ?_)
    refine conforms_orFail fun message => ?_
    split
    case h_1 => exact conforms_stop.2 trivial
    case h_2 hproject =>
      refine (conforms_behind (received_step hproject)).2 (conforms_orFail fun action => ?_)
      exact (conforms_behind (decided_step _ action)).2 (ih action)

theorem completeAuth_conforms (hsecured : server.required → secured) (startup : StartupMessage) :
    Conforms server ⟨.startup, secured, none⟩ (completeAuth server script startup) := by
  rw [completeAuth]
  split
  case isTrue => exact conforms_stop.2 trivial
  case isFalse =>
    have hbegin : Gate.step server.required ⟨.startup, secured, none⟩ .began =
        some ⟨decisionPhase none, secured, (none : Option ι)⟩ := by
      rw [Gate.step, if_neg (by simpa using hsecured)]
      rfl
    refine (conforms_behind hbegin).2 (conforms_orFail fun action => ?_)
    refine (conforms_behind (decided_step none action)).2 ?_
    split
    case isTrue => exact conforms_stop.2 trivial
    case isFalse => exact exchange_conforms hsecured none action script.rounds

theorem refusePlaintext_conforms :
    Conforms server ⟨.startup, secured, none⟩ (refusePlaintext server : Trace ε ι) := by
  rw [refusePlaintext]
  split
  case h_1 =>
    have hreject : Gate.step server.required ⟨.startup, secured, none⟩
        (.sent tlsRequiredDiagnostic tlsRequiredDiagnostic) =
        some ⟨.terminated, secured, (none : Option ι)⟩ := rfl
    exact (conforms_behind hreject).2 (conforms_stop.2 trivial)
  case h_2 => exact conforms_stop.2 trivial

theorem acceptPackets_conforms (encrypted : Bool) (openings : List (Opening ε)) :
    Conforms server ⟨.startup, encrypted, none⟩
      (acceptPackets server script encrypted openings) := by
  fun_induction acceptPackets server script encrypted openings with
  | case1 => exact conforms_stop.2 trivial
  | case2 encrypted opening openings ih ihSecured =>
    refine conforms_orFail fun packet => ?_
    cases packet with
    | sslRequest =>
      dsimp only
      split
      case isTrue => exact conforms_orFail fun _ => ih
      case isFalse =>
        refine conforms_orFail fun _ => conforms_orFail fun _ => conforms_orFail fun _ => ?_
        exact (conforms_behind rfl).2 ihSecured
    | gssEncRequest => exact conforms_orFail fun _ => ih
    | cancelRequest processId secretKey => exact conforms_stop.2 rfl
    | startup message =>
      dsimp only
      split
      case isTrue => exact refusePlaintext_conforms
      case isFalse hsecured =>
        refine conforms_orFail fun _ => completeAuth_conforms ?_ _
        simpa using hsecured

/-! ## In an intermediary -/

section Routed

open Component (Intermediary Routing RoutedAccept StartupResolutionError)

variable {σ π ε' ι' δ τ κ ρ β θ ζ χ : Type}

/-- What `Intermediary::accept` goes by.  A future that is dropped comes to nothing. -/
def Outcome.routed (resolution : ε → StartupResolutionError θ) (startup : Except IoError Unit)
    (selected : τ) : Outcome ε ι → Option (RoutedAccept τ (AcceptError ε) θ)
  | .dropped => none
  | .failed (.route error) => some (.failedRoute (resolution error))
  | .failed error => some (.failedAccept error)
  | .cancellation request => some (.cancellation request)
  | .session _ => some (.session startup (some selected))

end Routed
end Conformance
end Server
end PgProto
