import PgProto.Component.Establishment
import PgProto.Typestate.ClientGrammar

/-!
# EstablishmentGrammar — establishment and the `authentication` grammar

The loops of `establish_client_session` restate the grammar by hand.  With identity middleware the
log of an attempt is a word for the generated machine: the messages received, except asynchronous
ones, with the responses sent.

* `Stage.fsm` — the state of the machine in which each stage waits;
* `Walks` — a program logic over the state of the machine alone;
* `advance_walks` — a read that its stage handles moves the machine to where the attempt waits.

Two loops do not handle every message: the first one passes over whatever is not an authentication
request, a version negotiation or an error, and the second one over every message that is neither a
ReadyForQuery nor a CommandComplete, an ErrorResponse included.
-/

namespace PgProto
namespace Component

open Lib Fallible
open Client (Op Fsm Letter)

/-! ## The word of an attempt -/

def Event.letters : Event → List Letter
  | .received message _ => if isAsynchronous message then [] else [.receives message]
  | .inspected _ => []
  | .performed op => op.letters

/-- The machine after what a log records. -/
def walked (log : List Event) : Option Fsm :=
  (Fsm.authentication .auth).walk (log.flatMap Event.letters)

theorem walked_snoc {log : List Event} {event : Event} :
    walked (log ++ [event]) = (walked log).bind fun fsm => fsm.walk event.letters := by
  simp [walked, Fsm.walk_append]

/-- Where each stage waits. -/
def Stage.fsm : Stage → Fsm
  | .authentication => .authentication .auth
  | .passwordCompletion | .saslCompletion => .authentication .awaitingAuthOk
  | .sasl => .authentication .sasl
  | .token => .authentication .tokenChallenge
  | .readiness _ => .authentication .awaitingStartupReady

/-- The machine stands where the attempt does. -/
def Status.At {ε ι : Type} : Status ε ι → Fsm → Prop
  | .awaiting stage, fsm => fsm = stage.fsm
  | .established _ _, fsm => fsm = .frontend .ready
  | .failed _, _ => False

section Walks

variable {σ π ε ι α β : Type}

/-- The computation does not panic, and takes the machine from `fsm` to where `P` holds. -/
def Walks (m : Establish σ π ε α) (P : α → Fsm → Prop) (fsm : Fsm) : Prop :=
  ∀ w, walked w.log = some fsm →
    Fallible.wp m (fun failure _ => failure ≠ .panicked)
      (fun a w' => ∃ fsm', walked w'.log = some fsm' ∧ P a fsm') w

variable {P : α → Fsm → Prop} {error : SessionEstablishError ε} {message : BackendMessage}
  {challenge : ClientAuthenticationChallenge} {stage : Stage} {backendKey : Option CancelKey}
  {fsm : Fsm}

theorem Walks.bind {m : Establish σ π ε α} {f : α → Establish σ π ε β} {Q : β → Fsm → Prop}
    (hm : Walks m P fsm) (hf : ∀ a fsm', P a fsm' → Walks (f a) Q fsm') :
    Walks (m >>= f) Q fsm := by
  intro w hw
  rw [wp_bind]
  refine wp_mono (hm w hw) (fun _ _ h => h) ?_
  rintro a w' ⟨fsm', hw', hP⟩
  exact hf a fsm' hP w' hw'

theorem Walks.return {a : α} (h : P a fsm) : Walks (pure a : Establish σ π ε α) P fsm :=
  fun _ hw => ⟨fsm, hw, h⟩

/-- The computation fails, and does not panic. -/
def Refuses (m : Establish σ π ε α) : Prop :=
  ∀ w, Fallible.wp m (fun failure _ => failure ≠ .panicked) (fun _ _ => False) w

theorem Refuses.walks {m : Establish σ π ε α} (h : Refuses m) : Walks m P fsm :=
  fun w _ => wp_mono (h w) (fun _ _ hF => hF) fun _ _ hQ => hQ.elim

theorem Failure.error_ne_panicked : Failure.error error ≠ .panicked := by
  intro h
  cases h

theorem refuses_protocolError {error : IoError} :
    Refuses (protocolError error : Establish σ π ε α) :=
  fun _ => Failure.error_ne_panicked

theorem refuses_driveError {error : AuthenticationDriveError ε} :
    Refuses (driveError error : Establish σ π ε α) :=
  fun _ => Failure.error_ne_panicked

theorem refuses_error : Refuses (throw (.error error) : Establish σ π ε α) :=
  fun _ => Failure.error_ne_panicked

variable {P : Unit → Fsm → Prop}

theorem walks_record {event : Event} {fsm' : Fsm} (hwalk : fsm.walk event.letters = some fsm')
    (h : P () fsm') : Walks (record event : Establish σ π ε Unit) P fsm := by
  intro w hw
  refine ⟨fsm', ?_, h⟩
  change walked (w.log ++ [event]) = some fsm'
  rw [walked_snoc, hw]
  exact hwalk

variable {setup : ClientSetup σ π ε ι}

theorem walks_inspect (hid : setup.middleware = .identity σ) :
    Walks (inspect setup message) (fun m fsm' => m = message ∧ fsm' = fsm) fsm := by
  refine Walks.bind (walks_record rfl (P := fun _ fsm' => fsm' = fsm) rfl) ?_
  rintro - fsm' rfl w hw
  refine ⟨fsm', hw, ?_, rfl⟩
  rw [hid]
  rfl

theorem walks_respond : Walks (respond setup challenge) (fun _ fsm' => fsm' = fsm) fsm := by
  intro w hw
  simp only [respond, wp_bind, wp_get, wp_modify]
  cases (setup.authentication.respond w.policy challenge).1 with
  | ok response => exact ⟨fsm, hw, rfl⟩
  | error error => exact Failure.error_ne_panicked

theorem walks_interceptAuthResponse (hid : setup.middleware = .identity σ) {response : Bytes} :
    Walks (interceptAuthResponse setup response) (fun _ fsm' => fsm' = fsm) fsm := by
  intro w hw
  simp only [interceptAuthResponse, wp_bind, wp_get, wp_modify, hid]
  exact ⟨fsm, hw, rfl⟩

theorem walks_flush (h : P () fsm) : Walks (flush setup) P fsm := by
  intro w hw
  simp only [flush, wp_bind, wp_get]
  cases setup.flushes w.flushed with
  | some error => exact Failure.error_ne_panicked
  | none => exact ⟨fsm, hw, h⟩

theorem walks_send {op : Op} {fsm' : Fsm} (hwalk : fsm.walk op.letters = some fsm')
    (h : P () fsm') :
    Walks (send setup op) P fsm := by
  unfold send
  cases op.frame with
  | error error => exact refuses_protocolError.walks
  | ok frame =>
    cases frame with
    | none => exact walks_record hwalk h
    | some frame =>
      dsimp only
      cases encodeFrame setup.maxFrameLen frame with
      | error error => exact refuses_protocolError.walks
      | ok bytes =>
        refine Walks.bind (walks_record hwalk (P := fun _ fsm'' => fsm'' = fsm') rfl) ?_
        rintro _ _ rfl
        exact walks_flush h

/-! ## Mechanisms -/

section Responses

variable (hid : setup.middleware = .identity σ)
include hid

/-- A challenge is answered by an operation of the typestate: `select` is the response that the
mechanism expects, and the machine moves from `fsm` by the operation. -/
theorem walks_answer (op : Bytes → Op) {response : Bytes}
    (hwalk : ∀ response, fsm.walk (op response).letters = some stage.fsm) :
    Walks (do
      let response ← interceptAuthResponse setup response
      send setup (op response)
      return (.awaiting stage : Status ε ι)) Status.At fsm := by
  refine Walks.bind (walks_interceptAuthResponse hid) ?_
  rintro response _ rfl
  refine Walks.bind (walks_send (hwalk response) (P := fun _ fsm' => fsm' = stage.fsm) rfl) ?_
  rintro - fsm' hfsm
  exact Walks.return hfsm

theorem completePassword_walks :
    Walks (completePassword setup challenge) Status.At (.authentication .passwordResponse) := by
  refine Walks.bind walks_respond ?_
  rintro response _ rfl
  cases response with
  | password password => exact walks_answer hid .password fun _ => rfl
  | _ => exact refuses_driveError.walks

theorem completeSasl_walks {mechanisms : List Bytes} :
    Walks (completeSasl setup mechanisms) Status.At (.authentication .saslInitial) := by
  refine Walks.bind walks_respond ?_
  rintro response _ rfl
  cases response with
  | saslInitial mechanism response =>
    exact walks_answer hid (.sasl mechanism) fun _ => rfl
  | _ => exact refuses_driveError.walks

theorem respondToken_walks :
    Walks (respondToken setup challenge) Status.At (.authentication .tokenResponse) := by
  refine Walks.bind walks_respond ?_
  rintro response _ rfl
  cases response with
  | token token => exact walks_answer hid .respond fun _ => rfl
  | _ => exact refuses_driveError.walks

end Responses

/-! ## Reads -/

/-- What a stage handles; the rest of the messages it passes over. -/
def Stage.handles : Stage → BackendMessage → Bool
  | .authentication, message =>
    [.authentication, .negotiateProtocolVersion, .errorResponse].contains message.variant
  | .readiness _, message => [.readyForQuery, .commandComplete].contains message.variant
  | _, _ => true

/-- Whether a read meets a stage that handles it.  Asynchronous messages are no part of the
grammar. -/
def Status.handles {ε ι : Type} : Status ε ι → Read → Bool
  | .awaiting stage, .ok message => isAsynchronous message || stage.handles message
  | _, _ => true

theorem Status.handles_awaiting (hsync : isAsynchronous message = false) :
    (Status.awaiting stage : Status ε ι).handles (.ok message) = stage.handles message := by
  simp [Status.handles, hsync]

theorem onAuthentication_walks (hid : setup.middleware = .identity σ)
    (h : (Fsm.authentication .auth).advance (.receives message) = some fsm) :
    Walks (onAuthentication setup message) Status.At fsm := by
  cases message with
  | authentication request =>
    cases request with
    | ok =>
      cases h
      exact Walks.return rfl
    | cleartextPassword | md5Password =>
      cases h
      exact completePassword_walks hid
    | sasl =>
      cases h
      exact completeSasl_walks hid
    | gss | sspi | kerberosV5 =>
      cases h
      exact respondToken_walks hid
    | gssContinue | saslContinue | saslFinal => cases h
  | negotiateProtocolVersion negotiate =>
    cases h
    exact Walks.return rfl
  | errorResponse error => exact refuses_error.walks
  | _ => cases h

theorem onCompletion_walks {illegal : String}
    (h : (Fsm.authentication .awaitingAuthOk).advance (.receives message) = some fsm) :
    Walks (onCompletion illegal message : Establish σ π ε (Status ε ι)) Status.At fsm := by
  cases message with
  | authentication request =>
    cases request with
    | ok =>
      cases h
      exact Walks.return rfl
    | _ => cases h
  | errorResponse error => exact refuses_driveError.walks
  | _ => cases h

theorem onSasl_walks (hid : setup.middleware = .identity σ)
    (h : (Fsm.authentication .sasl).advance (.receives message) = some fsm) :
    Walks (onSasl setup message) Status.At fsm := by
  cases message with
  | authentication request =>
    cases request with
    | saslContinue challenge =>
      cases h
      refine Walks.bind walks_respond ?_
      rintro response _ rfl
      cases response with
      | sasl response => exact walks_answer hid .respond fun _ => rfl
      | _ => exact refuses_driveError.walks
    | saslFinal serverFinal =>
      cases h
      refine Walks.bind walks_respond ?_
      rintro response _ rfl
      cases response with
      | verified =>
        -- The silent step of the grammar.
        refine Walks.bind
          (walks_send rfl (P := fun _ fsm' => fsm' = Stage.saslCompletion.fsm) rfl) ?_
        rintro _ fsm' hfsm
        exact Walks.return hfsm
      | _ => exact refuses_driveError.walks
    | _ => cases h
  | errorResponse error => exact refuses_driveError.walks
  | _ => cases h

theorem onToken_walks (hid : setup.middleware = .identity σ)
    (h : (Fsm.authentication .tokenChallenge).advance (.receives message) = some fsm) :
    Walks (onToken setup message) Status.At fsm := by
  cases message with
  | authentication request =>
    cases request with
    | ok =>
      cases h
      exact Walks.return rfl
    | gssContinue token =>
      cases h
      exact respondToken_walks hid
    | _ => cases h
  | errorResponse error => exact refuses_driveError.walks
  | _ => cases h

theorem onWire_walks (hid : setup.middleware = .identity σ) (hwire : stage.demuxed = false)
    (h : stage.fsm.advance (.receives message) = some fsm) :
    Walks (onWire setup stage message) Status.At fsm := by
  cases stage with
  | authentication => exact onAuthentication_walks hid h
  | passwordCompletion | saslCompletion => exact onCompletion_walks h
  | sasl => exact onSasl_walks hid h
  | token => exact onToken_walks hid h
  | readiness backendKey => cases hwire

/-- A stage that reads from the wire ends establishment at what the machine does not take and at an
error. -/
theorem onWire_refuses (hwire : stage.demuxed = false) (hhandles : stage.handles message = true)
    (h : stage.fsm.advance (.receives message) = none ∨ message.variant = .errorResponse) :
    Refuses (onWire setup stage message) := by
  have herror : ∀ request, message = .authentication request →
      stage.fsm.advance (.receives message) = none := by
    rintro request rfl
    exact h.resolve_right BackendVariant.noConfusion
  cases stage with
  | authentication =>
    cases message with
    | authentication request =>
      cases request with
      | gssContinue | saslContinue | saslFinal => exact refuses_protocolError
      | _ => cases herror _ rfl
    | negotiateProtocolVersion negotiate => cases h.resolve_right BackendVariant.noConfusion
    | errorResponse error => exact refuses_error
    | _ => cases hhandles
  | passwordCompletion | saslCompletion | sasl | token =>
    cases message with
    | authentication request =>
      -- the request the stage waits for is no refusal
      cases request <;> first | exact refuses_driveError | cases herror _ rfl
    | _ => exact refuses_driveError
  | readiness backendKey => cases hwire

/-- The stages that read from the wire do not expect asynchronous messages: the first loop passes
over them, the others fail. -/
theorem onWire_asynchronous (hwire : stage.demuxed = false) (h : isAsynchronous message = true) :
    Walks (onWire setup stage message) Status.At stage.fsm := by
  cases stage with
  | authentication => cases message <;> cases h <;> exact Walks.return rfl
  | passwordCompletion | saslCompletion | sasl | token =>
    cases message <;> cases h <;> exact refuses_driveError.walks
  | readiness backendKey => cases hwire

theorem walks_project :
    Walks (project message : Establish σ π ε _)
      (fun item fsm' => fsm' = fsm ∧ ∃ d d' : Demux, d.route message = (item, d')) fsm := by
  intro w hw
  exact ⟨fsm, hw, rfl, w.demux, _, rfl⟩

theorem walks_authenticated :
    Walks (authenticated setup backendKey) Status.At (.frontend .ready) := by
  intro w hw
  simp only [authenticated, wp_bind, wp_get]
  cases setup.authentication.authenticated w.policy with
  | ok identity => exact ⟨_, hw, rfl⟩
  | error error => exact Failure.error_ne_panicked

theorem onReadiness_walks (hid : setup.middleware = .identity σ) {item : SessionItem}
    (hmessage : ∀ message, item = .message message → fsm = .authentication .awaitingStartupReady)
    (hready : ∀ status changed, item = .readyForQuery status changed → fsm = .frontend .ready) :
    Walks (onReadiness setup backendKey item) Status.At fsm := by
  refine Walks.bind (walks_inspect hid) ?_
  rintro replacement _ ⟨rfl, rfl⟩
  rw [onReplacement, replaceSessionItem_self]
  cases item with
  | message message =>
    refine Walks.return ?_
    exact hmessage message rfl
  | readyForQuery status changed =>
    cases hready status changed rfl
    cases status <;> cases changed
    all_goals first
      | exact walks_authenticated
      | exact refuses_protocolError.walks
  | commandComplete tag command notices => exact refuses_protocolError.walks

theorem advance_eq_onWire (hwire : stage.demuxed = false) :
    advance setup stage message = (do
      record (.received message stage.demuxed)
      let message ← inspect setup message
      onWire setup stage message) := by
  cases stage with
  | readiness backendKey => cases hwire
  | _ => rfl

section Advance

variable (hid : setup.middleware = .identity σ)
include hid

/-- A read moves the attempt to where the machine then is, if what its stage makes of it does. -/
theorem advance_walks_of
    (hletters : stage.fsm.walk (Event.received message stage.demuxed).letters = some fsm)
    (honWire : stage.demuxed = false → Walks (onWire setup stage message) Status.At fsm)
    (hprojected : ∀ backendKey item (d d' : Demux), stage = .readiness backendKey →
      d.route message = (item, d') → Walks (onProjected setup backendKey item) Status.At fsm) :
    Walks (advance setup stage message) Status.At stage.fsm := by
  have hrecord : Walks (record (.received message stage.demuxed) : Establish σ π ε Unit)
      (fun _ fsm' => fsm' = fsm) stage.fsm := walks_record hletters rfl
  cases hwire : stage.demuxed with
  | false =>
    rw [advance_eq_onWire hwire]
    refine Walks.bind hrecord ?_
    rintro _ _ rfl
    refine Walks.bind (walks_inspect hid) ?_
    rintro _ _ ⟨rfl, rfl⟩
    exact honWire hwire
  | true =>
    cases stage with
    | readiness backendKey =>
      refine Walks.bind hrecord ?_
      rintro _ _ rfl
      refine Walks.bind walks_project ?_
      rintro item _ ⟨rfl, d, d', hroute⟩
      exact hprojected backendKey item d d' rfl hroute
    | _ => cases hwire

/-- A message that the machine takes moves the attempt to where the machine then is. -/
theorem advance_walks (hsync : isAsynchronous message = false)
    (h : stage.fsm.advance (.receives message) = some fsm) :
    Walks (advance setup stage message) Status.At stage.fsm := by
  refine advance_walks_of hid (by simpa [Event.letters, hsync, Fsm.walk_single] using h)
    (fun hwire => onWire_walks hid hwire h) ?_
  rintro backendKey item d d' rfl hroute
  -- The machine only takes a ReadyForQuery.
  cases message with
  | readyForQuery status =>
    cases h
    cases hroute
    refine onReadiness_walks hid ?_ ?_
    · rintro message hitem
      cases hitem
    · rintro status changed _
      rfl
  | _ => cases h

/-- An asynchronous message leaves the machine alone. -/
theorem advance_asynchronous (hasync : isAsynchronous message = true) :
    Walks (advance setup stage message) Status.At stage.fsm := by
  refine advance_walks_of hid (by simp [Event.letters, hasync, Fsm.walk])
    (fun hwire => onWire_asynchronous hwire hasync) ?_
  rintro backendKey item d d' rfl hroute
  cases item with
  | none => exact Walks.return rfl
  | some item =>
    refine onReadiness_walks hid (fun _ _ => rfl) ?_
    -- A ReadyForQuery is not asynchronous.
    rintro status changed rfl
    cases message <;> cases hasync <;> cases hroute

theorem inspect_identity (message : BackendMessage) : inspect setup message = (do
      record (.inspected message)
      return message) := by
  funext w
  unfold inspect
  rw [hid]
  rfl

/-- A handled message that the machine does not take, or that is an error, ends establishment. -/
theorem advance_refuses (hhandles : stage.handles message = true)
    (h : stage.fsm.advance (.receives message) = none ∨ message.variant = .errorResponse) :
    Refuses (advance setup stage message) := by
  intro w
  cases hwire : stage.demuxed with
  | false =>
    rw [advance_eq_onWire hwire, inspect_identity hid]
    exact onWire_refuses hwire hhandles h _
  | true =>
    cases stage with
    | readiness backendKey =>
      cases message with
      | commandComplete tag =>
        simp only [wp, advance_readiness, Demux.route, onProjected, onReadiness,
          inspect_identity hid]
        exact Failure.error_ne_panicked
      | readyForQuery status => obtain h | h := h <;> cases h
      | _ => cases hhandles
    | _ => cases hwire

theorem advance_ignores
    (hsync : isAsynchronous message = false) (hhandles : stage.handles message = false)
    (w : World σ π) :
    wp (advance setup stage message) (fun _ _ => False)
      (fun status _ => status = .awaiting stage) w := by
  cases stage with
  | authentication =>
    simp only [advance, inspect_identity hid]
    cases message <;> cases hhandles <;> cases hsync <;> exact rfl
  | readiness backendKey =>
    simp only [wp, advance_readiness]
    cases message <;> cases hhandles <;> cases hsync <;>
      simp only [Demux.route, onProjected, onReadiness, inspect_identity hid] <;> rfl
  | passwordCompletion | sasl | saslCompletion | token => cases hhandles

end Advance

theorem advance_eq_none_of_not_handles (hhandles : stage.handles message = false) :
    stage.fsm.advance (.receives message) = none := by
  cases stage with
  | authentication | readiness backendKey => cases message <;> cases hhandles <;> rfl
  | passwordCompletion | sasl | saslCompletion | token => cases hhandles

end Walks

/-! ## Runs -/

section Runs

variable {σ π ε ι : Type} {setup : ClientSetup σ π ε ι}

/-- The attempt has failed without a panic, or the machine stands where it does. -/
def Attempt.Sound (attempt : Attempt σ π ε ι) : Prop :=
  (∃ error, attempt.status = .failed (.error error)) ∨
    ∃ fsm, walked attempt.world.log = some fsm ∧ attempt.status.At fsm

variable {w : World σ π} {attempt : Attempt σ π ε ι} {stage : Stage}

theorem Attempt.Sound.failed {failure : Failure ε} (h : failure ≠ .panicked) :
    Attempt.Sound (⟨.failed failure, w⟩ : Attempt σ π ε ι) := by
  cases failure with
  | error error => exact Or.inl ⟨error, rfl⟩
  | panicked => exact absurd rfl h

theorem Attempt.Sound.awaiting (h : attempt.Sound) (hstatus : attempt.status = .awaiting stage) :
    walked attempt.world.log = some stage.fsm := by
  obtain ⟨error, herror⟩ | ⟨fsm, hwalked, hat⟩ := h
  · rw [hstatus] at herror
    cases herror
  · rw [hstatus] at hat
    rw [hwalked]
    exact congrArg some hat

/-- One read keeps the machine where the attempt is. -/
theorem Attempt.Sound.resume (hid : setup.middleware = .identity σ) {read : Read}
    (h : attempt.Sound) (hhandles : attempt.status.handles read = true) :
    (attempt.resume setup read).Sound := by
  obtain ⟨status, w⟩ := attempt
  cases status with
  | established identity backendKey | failed failure => exact h
  | awaiting stage =>
    cases read with
    | error error => exact Or.inl ⟨_, rfl⟩
    | ok message =>
      have hwalked : walked w.log = some stage.fsm := h.awaiting rfl
      have hwalks : Walks (advance setup stage message) Status.At stage.fsm := by
        cases hasync : isAsynchronous message with
        | true => exact advance_asynchronous hid hasync
        | false =>
          cases hadvance : stage.fsm.advance (.receives message) with
          | some fsm => exact advance_walks hid hasync hadvance
          | none =>
            have hhandled : stage.handles message = true :=
              (Status.handles_awaiting hasync).symm.trans hhandles
            exact (advance_refuses hid hhandled (Or.inl hadvance)).walks
      refine Attempt.of_wp (hwalks w hwalked) (fun failure w' hfailure => ?_) ?_
      · exact Attempt.Sound.failed hfailure
      · rintro status w' ⟨fsm, hfsm, hat⟩
        exact Or.inr ⟨fsm, hfsm, hat⟩

variable (setup)

/-- The first message that is an error, or that the machine does not take, ends establishment with
an error. -/
def EndsAt (state : σ) (before : List Read) (read : Read) : Prop :=
  ∀ stage message fsm, (establishClientSession setup state before).status = .awaiting stage →
    read = .ok message → isAsynchronous message = false →
    walked (establishClientSession setup state before).log = some fsm →
    fsm.advance (.receives message) = none ∨ message.variant = .errorResponse →
      ∃ error, (establishClientSession setup state (before ++ [read])).status =
        .failed (.error error)

/-- Establishment follows the grammar on these reads: a session is a path from `Auth` to `Ready`,
and whatever leaves the grammar ends it. -/
def FollowsGrammar (state : σ) (reads : List Read) : Prop :=
  (∀ identity backendKey,
    (establishClientSession setup state reads).status = .established identity backendKey →
      walked (establishClientSession setup state reads).log = some (.frontend .ready)) ∧
    AllAfter (EndsAt setup state) reads

/-- The message, unless it is asynchronous, is read in a stage that handles it. -/
def HandledAt (state : σ) (before : List Read) (read : Read) : Prop :=
  (establishClientSession setup state before).status.handles read = true

instance (state : σ) (before : List Read) (read : Read) :
    Decidable (HandledAt setup state before read) :=
  inferInstanceAs (Decidable (_ = true))

variable {setup}

theorem sound_of_handled (hid : setup.middleware = .identity σ) {state : σ}
    (hstart : setup.start state = .ok w) {reads : List Read}
    (h : AllAfter (HandledAt setup state) reads) : (establishFrom setup w reads).Sound := by
  induction reads using List.reverseRecOn with
  | nil =>
    refine Or.inr ⟨.authentication .auth, ?_, rfl⟩
    change walked w.log = _
    rw [(start_eq_ok hstart).1]
    rfl
  | append_singleton reads read ih =>
    rw [establishFrom_snoc]
    refine (ih h.left).resume hid ?_
    have hread := h reads read [] rfl
    unfold HandledAt at hread
    rw [establishClientSession_ok hstart] at hread
    exact hread

theorem resume_not_handles (hid : setup.middleware = .identity σ) {message : BackendMessage}
    {error : SessionEstablishError ε} (hsync : isAsynchronous message = false)
    (hhandles : stage.handles message = false) :
    (Attempt.resume setup ⟨.awaiting stage, w⟩ (.ok message)).status ≠ .failed (.error error) := by
  refine Attempt.of_wp (P := fun attempt => attempt.status ≠ .failed (.error error))
    (advance_ignores hid hsync hhandles w) ?_ ?_
  · intro failure w' hfalse
    exact hfalse.elim
  · rintro status w' rfl hfailed
    cases hfailed

theorem resume_refuses (hid : setup.middleware = .identity σ) {message : BackendMessage}
    (hhandles : stage.handles message = true)
    (h : stage.fsm.advance (.receives message) = none ∨ message.variant = .errorResponse) :
    ∃ error, (Attempt.resume setup ⟨.awaiting stage, w⟩ (.ok message)).status =
      .failed (.error error) := by
  refine Attempt.of_wp (P := fun attempt => ∃ error, attempt.status = .failed (.error error))
    (advance_refuses hid hhandles h w) ?_ ?_
  · intro failure w' hfailure
    cases failure with
    | error error => exact ⟨error, rfl⟩
    | panicked => exact absurd rfl hfailure
  · intro status w' hfalse
    exact hfalse.elim

/-- Up to here establishment was orderly: then what leaves the grammar ends it exactly when the
stage handles the message. -/
theorem endsAt_iff_handledAt (hid : setup.middleware = .identity σ) {state : σ}
    {before : List Read} {read : Read} (h : AllAfter (HandledAt setup state) before) :
    EndsAt setup state before read ↔ HandledAt setup state before read := by
  cases hstart : setup.start state with
  | error error =>
    -- Establishment has ended before the first read.
    simp only [EndsAt, HandledAt, establishClientSession_error hstart]
    constructor
    · intro _
      rfl
    · intro _ stage message fsm hstatus
      cases hstatus
  | ok w =>
    have hsound := sound_of_handled hid hstart h
    simp only [EndsAt, HandledAt, establishClientSession_ok hstart, establishFrom_snoc,
      Attempt.transcript]
    generalize establishFrom setup w before = attempt at hsound
    obtain ⟨status, w'⟩ := attempt
    constructor
    · intro hends
      cases status with
      | established identity backendKey | failed failure => rfl
      | awaiting stage =>
        cases read with
        | error error => rfl
        | ok message =>
          by_contra hnot
          obtain ⟨hsync, hpassed⟩ : isAsynchronous message = false ∧
              stage.handles message = false := by
            simpa [Status.handles] using hnot
          obtain ⟨error, herror⟩ := hends stage message stage.fsm rfl rfl hsync
            (hsound.awaiting rfl) (Or.inl (advance_eq_none_of_not_handles hpassed))
          exact absurd herror (resume_not_handles hid hsync hpassed)
    · rintro hhandled stage message fsm rfl rfl hsync hwalked hleaves
      have hfsm : stage.fsm = fsm := by
        rw [hsound.awaiting rfl] at hwalked
        exact Option.some.inj hwalked
      subst hfsm
      rw [Status.handles_awaiting hsync] at hhandled
      exact resume_refuses hid hhandled hleaves

/-- Establishment follows the grammar exactly on the streams whose messages are handled where they
are read. -/
theorem establishment_follows_grammar (setup : ClientSetup σ π ε ι)
    (hid : setup.middleware = .identity σ) (state : σ) (reads : List Read) :
    FollowsGrammar setup state reads ↔ AllAfter (HandledAt setup state) reads := by
  constructor
  · rintro ⟨-, hends⟩
    refine hends.strengthen ?_
    intro before read hbefore hend
    exact (endsAt_iff_handledAt hid hbefore).1 hend
  · intro hhandled
    refine ⟨?_, ?_⟩
    · intro identity backendKey hstatus
      cases hstart : setup.start state with
      | error error =>
        rw [establishClientSession_error hstart] at hstatus
        cases hstatus
      | ok w =>
        rw [establishClientSession_ok hstart] at hstatus ⊢
        obtain ⟨error, herror⟩ | ⟨fsm, hwalked, hat⟩ := sound_of_handled hid hstart hhandled
        · rw [show (establishFrom setup w reads).status = _ from hstatus] at herror
          cases herror
        · rw [show (establishFrom setup w reads).status = _ from hstatus] at hat
          exact hwalked.trans (congrArg some hat)
    · rintro before read after rfl
      exact (endsAt_iff_handledAt hid hhandled.left).2 (hhandled before read after rfl)

/-- A server that asks for a password and gets ready. -/
def passwordReads : List Read :=
  [.ok (.authentication .cleartextPassword), .ok (.authentication .ok),
   .ok (.parameterStatus (ascii "TimeZone") (ascii "UTC")), .ok (.readyForQuery .idle)]

theorem password_follows_grammar :
    (establishClientSession passwordClient () passwordReads).status = .established () none ∧
      FollowsGrammar passwordClient () passwordReads :=
  ⟨by decide, (establishment_follows_grammar passwordClient rfl () passwordReads).2 (by decide)⟩

/-- A server that reports an error between AuthenticationOk and readiness. -/
def failingReads : List Read :=
  [.ok (.authentication .ok), .ok (.errorResponse ⟨[]⟩)]

theorem startup_error_ignored :
    (establishClientSession passwordClient () (failingReads ++ [.ok (.readyForQuery .idle)])).status =
        .established () none ∧
      ¬FollowsGrammar passwordClient () (failingReads ++ [.ok (.readyForQuery .idle)]) := by
  refine ⟨by decide, ?_⟩
  rintro ⟨hready, -⟩
  exact absurd (hready () none (by decide)) (by decide)

end Runs
end Component
end PgProto
