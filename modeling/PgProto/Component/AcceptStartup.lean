import PgProto.Component.Accept
import PgProto.Component.EstablishmentNotices

/-!
# AcceptStartup — what `accept` tells the downstream client

The upstream session leaves the parameter statuses of its second loop in the queue of its
demultiplexer, and `accept` drains that queue.  Notices and notifications of the same loop stay in
queues of their own.

* `statuses_establishClientSession` — the queue holds the parameter statuses of the second loop, in
  their order;
* `Windowed` — where the second loop stands in the stream of the server;
* `completeStartup_spec` — what is written, in every outcome.
-/

namespace PgProto
namespace Component

open Lib Fallible

/-! ## The second loop -/

def Event.demuxed? : Event → Option BackendMessage
  | .received message true => some message
  | _ => none

/-- What was read through the demultiplexer. -/
def window (log : List Event) : List BackendMessage :=
  log.filterMap Event.demuxed?

def isStatus (message : BackendMessage) : Bool :=
  message.variant == .parameterStatus

theorem window_seen (log : List Event) : window (seen log) = window log := by
  unfold window seen
  rw [List.filterMap_filter]
  congr 1
  funext event
  cases event <;> rfl

theorem window_read {f : Frame} {message : BackendMessage} {demuxed : Bool} :
    window (f.read message demuxed).seen =
      window f.seen ++ if demuxed then [message] else [] := by
  cases demuxed with
  | false => simp [window, Frame.read, Event.demuxed?]
  | true => cases habsorbed : absorbed message <;>
      simp [window, Frame.read, Event.demuxed?, habsorbed]

/-- The queue of parameter statuses. -/
def Frame.Queued (f : Frame) : Prop :=
  f.demux.parameterStatuses.map statusMessage = (window f.seen).filter isStatus

theorem statuses_route (d : Demux) (message : BackendMessage) :
    (d.route message).2.parameterStatuses.map statusMessage =
      d.parameterStatuses.map statusMessage ++ [message].filter isStatus := by
  cases message with
  | parameterStatus name value =>
    simp only [Demux.route, Demux.pushAsync, List.map_append]
    rfl
  | _ => exact (List.append_nil _).symm

theorem Frame.Queued.read {f : Frame} (h : f.Queued) (message : BackendMessage) (demuxed : Bool) :
    (f.read message demuxed).Queued := by
  unfold Frame.Queued
  rw [window_read, List.filter_append, ← h]
  cases demuxed with
  | false => exact (List.append_nil _).symm
  | true => exact statuses_route f.demux message

section Window

variable {σ π ε ι δ : Type} {setup : ClientSetup σ π ε ι}

theorem statuses_establishClientSession (state : σ) (reads : List Read) :
    (establishClientSession setup state reads).demux.parameterStatuses.map statusMessage =
      (window (establishClientSession setup state reads).log).filter isStatus := by
  cases hstart : setup.start state with
  | error error =>
    rw [establishClientSession_error hstart]
    rfl
  | ok w =>
    have hw : w.frame.Queued := by
      obtain ⟨hlog, hdemux, -⟩ := start_eq_ok hstart
      unfold Frame.Queued World.frame
      rw [hlog, hdemux]
      rfl
    have hqueued : (establishFrom setup w reads).world.frame.Queued :=
      establishFrom_frame (fun f message demuxed h => h.read message demuxed) hw reads
    rw [establishClientSession_ok hstart]
    unfold Frame.Queued at hqueued
    rwa [show (establishFrom setup w reads).world.frame.seen =
      seen (establishFrom setup w reads).world.log from rfl, window_seen] at hqueued

/-! ## The window in the stream of the server -/

def messages (reads : List Read) : List BackendMessage :=
  reads.filterMap Except.toOption

def isReady (message : BackendMessage) : Bool :=
  message.variant == .readyForQuery

def isAuthenticationOk : BackendMessage → Bool
  | .authentication .ok => true
  | _ => false

/-- What the server sends between its AuthenticationOk and its first ReadyForQuery. -/
def startupWindow (stream : List BackendMessage) : List BackendMessage :=
  ((stream.dropWhile fun message => !isAuthenticationOk message).drop 1).takeWhile fun message =>
    !isReady message

/-- The middleware neither hides nor makes an AuthenticationOk. -/
def ClientMiddleware.LeavesAuthenticationOk (middleware : ClientMiddleware σ) : Prop :=
  ∀ state message,
    isAuthenticationOk (middleware.backend state message).1 = isAuthenticationOk message

/-- Where a message from the wire leads to, that is an AuthenticationOk or not. -/
def Status.Lands (authenticated : Bool) : Status ε ι → Prop
  | .awaiting stage => stage.demuxed = authenticated
  | .established _ _ => False
  | .failed _ => True

/-- A computation that returns such a status, or fails. -/
def Lands (m : Establish σ π ε (Status ε ι)) (authenticated : Bool) : Prop :=
  ∀ w, Fallible.wp m (fun _ _ => True) (fun status _ => status.Lands authenticated) w

theorem lands_bind {α : Type} {m : Establish σ π ε α} {f : α → Establish σ π ε (Status ε ι)}
    {authenticated : Bool} (h : ∀ a, Lands (f a) authenticated) :
    Lands (m >>= f) authenticated :=
  fun _ => wp_bind_of_forall (fun _ _ => trivial) fun a w => h a w

theorem lands_return (stage : Stage) :
    Lands (return .awaiting stage : Establish σ π ε (Status ε ι)) stage.demuxed :=
  fun _ => rfl

theorem lands_throw {failure : Failure ε} {authenticated : Bool} :
    Lands (throw failure : Establish σ π ε (Status ε ι)) authenticated :=
  fun _ => trivial

theorem lands_answer (op : Bytes → Client.Op) (response : Bytes) (stage : Stage) :
    Lands (do
      let response ← interceptAuthResponse setup response
      send setup (op response)
      return (.awaiting stage : Status ε ι)) stage.demuxed :=
  lands_bind fun _ => lands_bind fun _ => lands_return stage

variable {challenge : ClientAuthenticationChallenge} {backendKey : Option CancelKey}
  {message : BackendMessage} {stream before : List BackendMessage} {w : World σ π}

theorem lands_completePassword : Lands (completePassword setup challenge) false := by
  refine lands_bind fun response => ?_
  cases response with
  | password password => exact lands_answer .password password .passwordCompletion
  | _ => exact lands_throw

theorem lands_completeSasl {mechanisms : List Bytes} :
    Lands (completeSasl setup mechanisms) false := by
  refine lands_bind fun response => ?_
  cases response with
  | saslInitial mechanism response => exact lands_answer (.sasl mechanism) response .sasl
  | _ => exact lands_throw

theorem lands_respondToken : Lands (respondToken setup challenge) false := by
  refine lands_bind fun response => ?_
  cases response with
  | token token => exact lands_answer .respond token .token
  | _ => exact lands_throw

theorem lands_onAuthentication (message : BackendMessage) :
    Lands (onAuthentication setup message) (isAuthenticationOk message) := by
  cases message with
  | authentication request =>
    cases request with
    | ok => exact lands_return (.readiness none)
    | cleartextPassword | md5Password => exact lands_completePassword
    | sasl => exact lands_completeSasl
    | gss | sspi | kerberosV5 => exact lands_respondToken
    | gssContinue | saslContinue | saslFinal => exact lands_throw
  | errorResponse error => exact lands_throw
  | _ => exact lands_return .authentication

theorem lands_onCompletion (illegal : String) (message : BackendMessage) :
    Lands (onCompletion illegal message : Establish σ π ε (Status ε ι))
      (isAuthenticationOk message) := by
  cases message with
  | authentication request =>
    cases request with
    | ok => exact lands_return (.readiness none)
    | _ => exact lands_throw
  | _ => exact lands_throw

theorem lands_onSasl (message : BackendMessage) :
    Lands (onSasl setup message) (isAuthenticationOk message) := by
  cases message with
  | authentication request =>
    cases request with
    | saslContinue challenge =>
      refine lands_bind fun response => ?_
      cases response with
      | sasl response => exact lands_answer .respond response .sasl
      | _ => exact lands_throw
    | saslFinal serverFinal =>
      refine lands_bind fun response => ?_
      cases response with
      | verified => exact lands_bind fun _ => lands_return .saslCompletion
      | _ => exact lands_throw
    | _ => exact lands_throw
  | _ => exact lands_throw

theorem lands_onToken (message : BackendMessage) :
    Lands (onToken setup message) (isAuthenticationOk message) := by
  cases message with
  | authentication request =>
    cases request with
    | ok => exact lands_return (.readiness none)
    | gssContinue token => exact lands_respondToken
    | _ => exact lands_throw
  | _ => exact lands_throw

/-- The second loop is entered by an AuthenticationOk, and by nothing else. -/
theorem lands_onWire (stage : Stage) (message : BackendMessage) :
    Lands (onWire setup stage message) (isAuthenticationOk message) := by
  cases stage with
  | authentication | readiness backendKey => exact lands_onAuthentication message
  | passwordCompletion | saslCompletion => exact lands_onCompletion _ message
  | sasl => exact lands_onSasl message
  | token => exact lands_onToken message

/-- Where a message of the second loop leads to, that is a ReadyForQuery or not. -/
def Status.Ends (ready : Bool) : Status ε ι → Prop
  | .awaiting stage => stage.demuxed = true ∧ ready = false
  | .established _ _ => ready = true
  | .failed _ => True

theorem onReadiness_message (w : World σ π) :
    wp (onReadiness setup backendKey (.message message)) (fun _ _ => True)
      (fun status _ => status.Ends false) w :=
  (wp_congr (onReadiness_apply backendKey (.message message) w)).2 ⟨rfl, rfl⟩

theorem onReadiness_commandComplete_ends {tag : Bytes} {command : CommandIndex}
    {notices : List TaggedNotice} (w : World σ π) :
    wp (onReadiness setup backendKey (.commandComplete tag command notices))
      (fun _ _ => True) (fun status _ => status.Ends false) w := by
  refine (wp_congr (onReadiness_apply backendKey _ w)).2 ?_
  cases (setup.middleware.backend w.state
    (SessionItem.commandComplete tag command notices).intoBackendMessage).1 <;> trivial

theorem onProjected_ends (d : Demux) (message : BackendMessage) (w : World σ π) :
    wp (onProjected setup backendKey (d.route message).1) (fun _ _ => True)
      (fun status _ => status.Ends (isReady message)) w := by
  cases message with
  | readyForQuery status =>
    refine wp_mono (onReadiness_readyForQuery w) (fun _ _ _ => trivial) ?_
    intro status' _ hended
    cases status' with
    | awaiting stage => exact absurd rfl (hended stage)
    | established | failed => trivial
  | commandComplete tag => exact onReadiness_commandComplete_ends w
  | noticeResponse | parameterStatus | notificationResponse => exact ⟨rfl, rfl⟩
  | _ => exact onReadiness_message w

theorem resume_lands (hleaves : setup.middleware.LeavesAuthenticationOk) {stage : Stage}
    (hwire : stage.demuxed = false) (message : BackendMessage) (w : World σ π) :
    (Attempt.resume setup ⟨.awaiting stage, w⟩ (.ok message)).status.Lands
      (isAuthenticationOk message) := by
  have hlands : Lands (onWire setup stage (setup.middleware.backend w.state message).1)
      (isAuthenticationOk message) := by
    rw [← hleaves w.state message]
    exact lands_onWire stage _
  exact Attempt.of_wp (P := fun attempt => attempt.status.Lands (isAuthenticationOk message))
    ((wp_congr (advance_wire hwire message w)).2 (hlands _)) (fun _ _ _ => trivial)
    fun _ _ h => h

theorem resume_ends (setup : ClientSetup σ π ε ι) (backendKey : Option CancelKey)
    (message : BackendMessage) (w : World σ π) :
    (Attempt.resume setup ⟨.awaiting (.readiness backendKey), w⟩ (.ok message)).status.Ends
      (isReady message) :=
  Attempt.of_wp (P := fun attempt => attempt.status.Ends (isReady message))
    ((wp_congr (advance_readiness backendKey message w)).2
      (onProjected_ends w.demux message _)) (fun _ _ _ => trivial) fun _ _ h => h

theorem window_resume (setup : ClientSetup σ π ε ι) (attempt : Attempt σ π ε ι) (read : Read) :
    window (attempt.resume setup read).world.log =
      window attempt.world.log ++
        match attempt.status.reading read with
        | some (message, true) => [message]
        | _ => [] := by
  have hseen : (attempt.resume setup read).world.frame.seen = _ :=
    congrArg Frame.seen (attempt.resume_frame read)
  rw [← window_seen, ← window_seen attempt.world.log]
  change window (attempt.resume setup read).world.frame.seen =
    window attempt.world.frame.seen ++ _
  rw [hseen]
  cases attempt.status.reading read with
  | none => exact (List.append_nil _).symm
  | some taken =>
    obtain ⟨message, demuxed⟩ := taken
    cases demuxed <;> exact window_read

/-- Where an attempt stands in the stream that it has read. -/
inductive Windowed (log : List Event) (stream : List BackendMessage) : Status ε ι → Prop
  | wire {stage : Stage} : stage.demuxed = false → window log = [] →
      (∀ message ∈ stream, isAuthenticationOk message = false) →
      Windowed log stream (.awaiting stage)
  | readiness {stage : Stage} {before : List BackendMessage} : stage.demuxed = true →
      stream = before ++ .authentication .ok :: window log →
      (∀ message ∈ before, isAuthenticationOk message = false) →
      (∀ message ∈ window log, isReady message = false) → Windowed log stream (.awaiting stage)
  | established {identity : ι} {backendKey : Option CancelKey}
      {before inner after : List BackendMessage} {ready : BackendMessage} :
      stream = before ++ .authentication .ok :: (inner ++ ready :: after) →
      (∀ message ∈ before, isAuthenticationOk message = false) →
      (∀ message ∈ inner, isReady message = false) → isReady ready = true →
      window log = inner ++ [ready] → Windowed log stream (.established identity backendKey)
  | failed {failure : Failure ε} : Windowed log stream (.failed failure)

theorem Windowed.resume_wire (hleaves : setup.middleware.LeavesAuthenticationOk) {stage : Stage}
    (hwire : stage.demuxed = false) (hwindow : window w.log = [])
    (hnone : ∀ message ∈ stream, isAuthenticationOk message = false) :
    Windowed (Attempt.resume setup ⟨.awaiting stage, w⟩ (.ok message)).world.log
      (stream ++ [message]) (Attempt.resume setup ⟨.awaiting stage, w⟩ (.ok message)).status := by
  have hlands := resume_lands hleaves hwire message w
  have hlog := window_resume setup ⟨.awaiting stage, w⟩ (.ok message)
  simp only [Status.reading, hwire, hwindow, List.append_nil] at hlog
  generalize Attempt.resume setup ⟨.awaiting stage, w⟩ (.ok message) = attempt at hlands hlog ⊢
  obtain ⟨status, w'⟩ := attempt
  cases status with
  | failed failure => exact .failed
  | established identity backendKey => exact hlands.elim
  | awaiting stage' =>
    cases hok : isAuthenticationOk message with
    | false =>
      refine .wire (hlands.trans hok) hlog ?_
      intro m hm
      rcases List.mem_append.1 hm with hm | hm
      · exact hnone m hm
      · rw [List.mem_singleton.1 hm]
        exact hok
    | true =>
      have hmessage : message = .authentication .ok := by
        cases message with
        | authentication request => cases request <;> first | rfl | cases hok
        | _ => cases hok
      refine .readiness (hlands.trans hok) ?_ hnone ?_
      · rw [hlog, hmessage]
      · rw [hlog]
        simp

theorem Windowed.resume_readiness (hstream : stream = before ++ .authentication .ok :: window w.log)
    (hbefore : ∀ message ∈ before, isAuthenticationOk message = false)
    (hinner : ∀ message ∈ window w.log, isReady message = false) :
    Windowed (Attempt.resume setup ⟨.awaiting (.readiness backendKey), w⟩ (.ok message)).world.log
      (stream ++ [message])
      (Attempt.resume setup ⟨.awaiting (.readiness backendKey), w⟩ (.ok message)).status := by
  have hends := resume_ends setup backendKey message w
  have hlog := window_resume setup ⟨.awaiting (.readiness backendKey), w⟩ (.ok message)
  simp only [Status.reading, Stage.demuxed] at hlog
  generalize Attempt.resume setup ⟨.awaiting (.readiness backendKey), w⟩ (.ok message) = attempt
    at hends hlog ⊢
  obtain ⟨status, w'⟩ := attempt
  cases status with
  | failed failure => exact .failed
  | established identity key =>
    have hstream' : stream ++ [message] =
        before ++ .authentication .ok :: (window w.log ++ message :: []) := by
      rw [hstream, List.append_assoc, List.cons_append]
    exact .established hstream' hbefore hinner hends hlog
  | awaiting stage' =>
    refine .readiness hends.1 ?_ hbefore ?_
    · rw [hlog, hstream]
      simp
    · rw [hlog]
      intro m hm
      rcases List.mem_append.1 hm with hm | hm
      · exact hinner m hm
      · rw [List.mem_singleton.1 hm]
        exact hends.2

theorem Windowed.resume (hleaves : setup.middleware.LeavesAuthenticationOk)
    {attempt : Attempt σ π ε ι} {reads : List Read}
    (h : Windowed attempt.world.log (messages reads) attempt.status) (read : Read) :
    Windowed (attempt.resume setup read).world.log (messages (reads ++ [read]))
      (attempt.resume setup read).status := by
  obtain ⟨status, w⟩ := attempt
  have hmessages : messages (reads ++ [read]) = messages reads ++ read.toOption.toList := by
    cases read <;> simp [messages, Except.toOption]
  rw [hmessages]
  cases h with
  | failed => exact .failed
  | @established identity backendKey before inner after ready hstream hbefore hinner hready hlog =>
    have hstream' : messages reads ++ read.toOption.toList =
        before ++ .authentication .ok :: (inner ++ ready :: (after ++ read.toOption.toList)) := by
      rw [hstream]
      simp only [List.append_assoc, List.cons_append]
    exact .established hstream' hbefore hinner hready hlog
  | @wire stage hwire hlog hnone =>
    cases read with
    | error error => exact .failed
    | ok message => exact resume_wire hleaves hwire hlog hnone
  | @readiness stage before hdemuxed hstream hbefore hinner =>
    cases read with
    | error error => exact .failed
    | ok message =>
      cases stage with
      | readiness backendKey => exact resume_readiness hstream hbefore hinner
      | _ => cases hdemuxed

theorem windowed_establishFrom (hleaves : setup.middleware.LeavesAuthenticationOk) (hw : w.log = [])
    (reads : List Read) :
    Windowed (establishFrom setup w reads).world.log (messages reads)
      (establishFrom setup w reads).status := by
  induction reads using List.reverseRecOn with
  | nil =>
    refine .wire rfl ?_ ?_
    · exact congrArg window hw
    · intro message hmessage
      cases hmessage
  | append_singleton reads read ih =>
    rw [establishFrom_snoc]
    exact ih.resume hleaves read

theorem startupWindow_split {inner after : List BackendMessage} {ready : BackendMessage}
    (hbefore : ∀ message ∈ before, isAuthenticationOk message = false)
    (hinner : ∀ message ∈ inner, isReady message = false) (hready : isReady ready = true) :
    startupWindow (before ++ .authentication .ok :: (inner ++ ready :: after)) = inner := by
  have hdrop : (before ++ .authentication .ok :: (inner ++ ready :: after)).dropWhile
      (fun message => !isAuthenticationOk message) =
        .authentication .ok :: (inner ++ ready :: after) := by
    rw [List.dropWhile_append_of_pos fun message hmessage => by rw [hbefore message hmessage]; rfl]
    rfl
  unfold startupWindow
  rw [hdrop, List.drop_one, List.tail_cons,
    List.takeWhile_append_of_pos fun message hmessage => by rw [hinner message hmessage]; rfl,
    List.takeWhile_cons_of_neg (by rw [hready]; simp), List.append_nil]

/-- The second loop reads what stands between the AuthenticationOk and the ReadyForQuery, and the
ReadyForQuery. -/
theorem window_establishClientSession (hleaves : setup.middleware.LeavesAuthenticationOk)
    {state : σ} {reads : List Read} {identity : ι}
    (h : (establishClientSession setup state reads).status = .established identity backendKey) :
    ∃ ready, isReady ready = true ∧
      window (establishClientSession setup state reads).log =
        startupWindow (messages reads) ++ [ready] := by
  cases hstart : setup.start state with
  | error error =>
    rw [establishClientSession_error hstart] at h
    cases h
  | ok w =>
    have hwindowed := windowed_establishFrom hleaves (start_eq_ok hstart).1 reads
    rw [establishClientSession_ok hstart] at h ⊢
    rw [show (establishFrom setup w reads).status = .established identity backendKey from h]
      at hwindowed
    cases hwindowed with
    | @established _ _ before inner after ready hstream hbefore hinner hready hlog =>
      refine ⟨ready, hready, ?_⟩
      rw [hstream, startupWindow_split hbefore hinner hready]
      exact hlog

end Window

/-! ## The relayed startup -/

/-- What `accept` leaves in the queues of the demultiplexer. -/
def isUnrelayed (message : BackendMessage) : Bool :=
  [.noticeResponse, .notificationResponse].contains message.variant

theorem absorbed_eq (message : BackendMessage) :
    absorbed message = (isStatus message || isUnrelayed message) := by
  cases message <;> rfl

theorem not_isStatus_of_isUnrelayed {message : BackendMessage} (h : isUnrelayed message = true) :
    isStatus message = false := by
  cases message <;> first | rfl | cases h

theorem filter_absorbed_iff {stream : List BackendMessage} :
    stream.filter absorbed = stream.filter isStatus ↔
      ∀ message ∈ stream, isUnrelayed message = false := by
  constructor
  · intro h message hmessage
    by_contra hunrelayed
    have htrue : isUnrelayed message = true := Bool.eq_true_of_not_eq_false hunrelayed
    have habsorbed : message ∈ stream.filter absorbed :=
      List.mem_filter.2 ⟨hmessage, by rw [absorbed_eq, htrue, Bool.or_true]⟩
    rw [h] at habsorbed
    have hstatus := (List.mem_filter.1 habsorbed).2
    rw [not_isStatus_of_isUnrelayed htrue] at hstatus
    cases hstatus
  · intro h
    refine List.filter_congr fun message hmessage => ?_
    rw [absorbed_eq, h message hmessage, Bool.or_false]

section Relay

variable {σ π ε ι δ τ κ ρ β : Type}

/-- The asynchronous messages of a window are written, each once and in their order, before the
ReadyForQuery; the registered key is the only addition. -/
def Accepting.Relays (w : Accepting σ κ) (stream : List BackendMessage) : Prop :=
  w.Completes (stream.filter absorbed)

theorem Accepting.Completes.eq {w : Accepting σ κ} {statuses statuses' : List BackendMessage}
    (h : w.Completes statuses) (h' : w.Completes statuses') : statuses = statuses' := by
  obtain ⟨status, h⟩ := h
  obtain ⟨status', h'⟩ := h'
  exact (List.append_inj' (h.symm.trans h') (by simp)).1

theorem Accepting.relays_iff {w : Accepting σ κ} {stream : List BackendMessage}
    (h : w.Completes (stream.filter isStatus)) :
    w.Relays stream ↔ ∀ message ∈ stream, isUnrelayed message = false := by
  rw [← filter_absorbed_iff]
  constructor
  · intro hrelays
    exact hrelays.eq h
  · intro hfilter
    unfold Accepting.Relays
    rw [hfilter]
    exact h

/-- A successful `accept` relays the startup of the server completely exactly when the server has
sent no NoticeResponse and no NotificationResponse between its AuthenticationOk and its first
ReadyForQuery.  The window is what the second loop of `establish_client_session` reads; with
middleware that leaves the AuthenticationOk alone it is that part of the stream. -/
theorem startup_relayed_completely (intermediary : Intermediary σ π ε ι δ τ κ ρ β) (state : σ)
    (registry : κ) (reads retryReads : List Read)
    (h : (accept intermediary state registry reads retryReads).status = .session) :
    ∃ setup transcript identity backendKey,
      (connectCore intermediary.client state reads retryReads).1 = .tried setup transcript ∧
        transcript.status = .established identity backendKey ∧
        intermediary.Registered registry backendKey
          (accept intermediary state registry reads retryReads).world.clientCancelKey ∧
        ((accept intermediary state registry reads retryReads).world.Relays
            (window transcript.log) ↔
          ∀ message ∈ window transcript.log, isUnrelayed message = false) ∧
        (setup.middleware.LeavesAuthenticationOk →
          ((accept intermediary state registry reads retryReads).world.Relays
              (startupWindow
                (messages (lastReads intermediary.client state reads retryReads))) ↔
            ∀ message ∈ startupWindow
                (messages (lastReads intermediary.client state reads retryReads)),
              isUnrelayed message = false)) := by
  obtain ⟨setup, transcript, identity, backendKey, hconnect, hstatus, hregistered, hcompletes⟩ :=
    acceptAfter_session h
  obtain ⟨state', htranscript⟩ := connectCore_tried hconnect
  have hstatuses : transcript.demux.parameterStatuses.map statusMessage =
      (window transcript.log).filter isStatus := by
    rw [htranscript]
    exact statuses_establishClientSession state' _
  rw [hconnect] at hcompletes
  have hwindow : (accept intermediary state registry reads retryReads).world.Completes
      ((window transcript.log).filter isStatus) := by
    rw [← hstatuses]
    unfold accept
    rw [hconnect]
    exact hcompletes
  refine ⟨setup, transcript, identity, backendKey, hconnect, hstatus, hregistered,
    Accepting.relays_iff hwindow, ?_⟩
  intro hleaves
  rw [htranscript] at hstatus hwindow
  obtain ⟨ready, hready, hlog⟩ := window_establishClientSession hleaves hstatus
  rw [hlog, List.filter_append] at hwindow
  have hnone : [ready].filter isStatus = [] := by
    cases ready <;> first | rfl | cases hready
  rw [hnone, List.append_nil] at hwindow
  exact Accepting.relays_iff hwindow

/-- A forwarding intermediary before `passwordClient`, with a registry that hands out the keys of
the server. -/
def forwardingIntermediary : Intermediary Unit Unit Unit Unit Unit Unit (List CancelKey) Unit Unit :=
  { client := { first := fun _ => (.ok passwordClient, ()), retry := none }
    target := ()
    cancellation := .forward
    cancellationRegistry :=
      { register := fun keys route => (.ok route.upstream, route.upstream :: keys)
        detach := fun keys key => (some ⟨(), key⟩, keys.filter fun key' => key' ≠ key) }
    failurePolicy := .close
    interceptBackend := fun _ message => (message, ())
    boundary := fun _ _ _ message => (.ok (.forward message), ())
    maxFrameLen := defaultMaxFrameLen
    flushes := fun _ => none }

def statusReads : List Read :=
  [.ok (.authentication .ok), .ok (.parameterStatus (ascii "TimeZone") (ascii "UTC")),
    .ok (.backendKeyData 7 (ascii "keys")), .ok (.readyForQuery .idle)]

theorem status_relayed_completely :
    (accept forwardingIntermediary () [] statusReads []).status = .session ∧
      (accept forwardingIntermediary () [] statusReads []).world.Relays
        (startupWindow (messages (lastReads forwardingIntermediary.client () statusReads []))) := by
  have hsession : (accept forwardingIntermediary () [] statusReads []).status = .session := by
    decide +kernel
  obtain ⟨setup, transcript, identity, backendKey, hconnect, -, -, -, hrelays⟩ :=
    startup_relayed_completely forwardingIntermediary () [] statusReads [] hsession
  cases hconnect
  exact ⟨hsession, (hrelays fun _ _ => rfl).2 (by decide +kernel)⟩

def noticeReads : List Read :=
  [.ok (.authentication .ok), .ok (.noticeResponse ⟨[]⟩), .ok (.readyForQuery .idle)]

/-- The NoticeResponse stays behind. -/
theorem notice_not_relayed :
    (accept forwardingIntermediary () [] noticeReads []).status = .session ∧
      ¬ (accept forwardingIntermediary () [] noticeReads []).world.Relays
        (startupWindow (messages noticeReads)) := by
  have hwritten : (accept forwardingIntermediary () [] noticeReads []).world.written.map
      Written.message = [.readyForQuery .idle] := by
    decide +kernel
  have hwindow : (startupWindow (messages noticeReads)).filter absorbed =
      [.noticeResponse ⟨[]⟩] := by
    decide +kernel
  refine ⟨by decide +kernel, ?_⟩
  rintro ⟨status, hrelays⟩
  rw [hwritten, hwindow] at hrelays
  cases hrelays

end Relay
end Component
end PgProto
