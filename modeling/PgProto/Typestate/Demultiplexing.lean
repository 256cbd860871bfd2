import Mathlib.Data.List.DropRight
import PgProto.Lib.History
import PgProto.Typestate.Demux

/-!
# Demultiplexing — the demultiplexer over whole histories

`Demux` of `src/demux.rs` with its consumers: messages are routed, and the queues are popped at
arbitrary moments.  A `Demultiplexing` is a demultiplexer with everything that went into it and
everything it has given out.

* `Demux.Recorded`, `Demux.Passed` — what routing does with a message, for the two classes;
* `Demultiplexing.Faithful` — nothing is lost, repeated or reordered, an invariant of all calls;
* `Demultiplexing.Noticed` — the notices that the next completion takes with it.
-/

namespace PgProto

open Lib

/-! ## Popping -/

namespace Demux

def popNotification (d : Demux) : Option Notification × Demux :=
  (d.notifications.head?, { d with notifications := d.notifications.tail })

def popNotice (d : Demux) : Option TaggedNotice × Demux :=
  (d.notices.head?, { d with notices := d.notices.tail })

def popParameterStatus (d : Demux) : Option ParameterStatus × Demux :=
  (d.parameterStatuses.head?, { d with parameterStatuses := d.parameterStatuses.tail })

def popAsyncEvent (d : Demux) : Option OrderedAsyncEvent × Demux :=
  (d.asyncEvents.head?, { d with asyncEvents := d.asyncEvents.tail })

end Demux

inductive DemuxCall
  | route (message : BackendMessage)
  | popNotification
  | popNotice
  | popParameterStatus
  | popAsyncEvent
  deriving DecidableEq, Repr

def DemuxCall.message? : DemuxCall → Option BackendMessage
  | .route message => some message
  | _ => none

/-- A demultiplexer, what was routed through it, and what it has given out. -/
structure Demultiplexing where
  demux : Demux
  routed : List BackendMessage
  items : List SessionItem
  notifications : List Notification
  notices : List TaggedNotice
  parameterStatuses : List ParameterStatus
  asyncEvents : List OrderedAsyncEvent

namespace Demultiplexing

def new : Demultiplexing :=
  { demux := Demux.new
    routed := []
    items := []
    notifications := []
    notices := []
    parameterStatuses := []
    asyncEvents := [] }

def call (s : Demultiplexing) : DemuxCall → Demultiplexing
  | .route message =>
    { s with
      demux := (s.demux.route message).2
      routed := s.routed ++ [message]
      items := s.items ++ (s.demux.route message).1.toList }
  | .popNotification =>
    { s with
      demux := s.demux.popNotification.2
      notifications := s.notifications ++ s.demux.popNotification.1.toList }
  | .popNotice =>
    { s with
      demux := s.demux.popNotice.2
      notices := s.notices ++ s.demux.popNotice.1.toList }
  | .popParameterStatus =>
    { s with
      demux := s.demux.popParameterStatus.2
      parameterStatuses := s.parameterStatuses ++ s.demux.popParameterStatus.1.toList }
  | .popAsyncEvent =>
    { s with
      demux := s.demux.popAsyncEvent.2
      asyncEvents := s.asyncEvents ++ s.demux.popAsyncEvent.1.toList }

def run (calls : List DemuxCall) : Demultiplexing :=
  calls.foldl call new

/-- The messages that a list of calls routes. -/
def messages (calls : List DemuxCall) : List BackendMessage :=
  calls.filterMap DemuxCall.message?

theorem run_snoc (calls : List DemuxCall) (c : DemuxCall) : run (calls ++ [c]) = (run calls).call c := by
  simp [run]

end Demultiplexing

/-! ## The two classes of messages -/

/-- The messages that are recorded below the typestate API. -/
def isRecorded (message : BackendMessage) : Bool :=
  [.noticeResponse, .parameterStatus, .notificationResponse].contains message.variant

def AsyncEvent.intoBackendMessage : AsyncEvent → BackendMessage
  | .notice tagged => .noticeResponse tagged.fields
  | .parameterStatus status => .parameterStatus status.name status.value
  | .notification note => .notificationResponse note.processId note.channel note.payload

def AsyncEvent.notice? : AsyncEvent → Option TaggedNotice
  | .notice tagged => some tagged
  | _ => none

def AsyncEvent.parameterStatus? : AsyncEvent → Option ParameterStatus
  | .parameterStatus status => some status
  | _ => none

def AsyncEvent.notification? : AsyncEvent → Option Notification
  | .notification note => some note
  | _ => none

namespace Demux

/-- What routing does with a message that it records. -/
structure Recorded (d : Demux) (message : BackendMessage) (d' : Demux) (event : AsyncEvent) :
    Prop where
  message : event.intoBackendMessage = message
  sequence : d'.nextAsyncSequence = saturatingSucc d.nextAsyncSequence
  asyncEvents : d'.asyncEvents = d.asyncEvents ++ [⟨d.nextAsyncSequence, d.command, event⟩]
  notices : d'.notices = d.notices ++ event.notice?.toList
  parameterStatuses : d'.parameterStatuses = d.parameterStatuses ++ event.parameterStatus?.toList
  notifications : d'.notifications = d.notifications ++ event.notification?.toList

/-- What routing does with a message that goes on to the session. -/
structure Passed (d : Demux) (message : BackendMessage) (d' : Demux) (item : SessionItem) :
    Prop where
  message : item.intoBackendMessage = message
  sequence : d'.nextAsyncSequence = d.nextAsyncSequence
  asyncEvents : d'.asyncEvents = d.asyncEvents
  notices : d'.notices = d.notices
  parameterStatuses : d'.parameterStatuses = d.parameterStatuses
  notifications : d'.notifications = d.notifications

theorem route_recorded {message : BackendMessage} (h : isRecorded message = true) (d : Demux) :
    (d.route message).1 = none ∧ ∃ event, d.Recorded message (d.route message).2 event := by
  cases message with
  | noticeResponse fields =>
    exact ⟨rfl, .notice ⟨d.command, fields⟩, rfl, rfl, rfl, rfl, (List.append_nil _).symm,
      (List.append_nil _).symm⟩
  | parameterStatus name value =>
    exact ⟨rfl, .parameterStatus ⟨name, value⟩, rfl, rfl, rfl, (List.append_nil _).symm, rfl,
      (List.append_nil _).symm⟩
  | notificationResponse processId channel payload =>
    exact ⟨rfl, .notification ⟨processId, channel, payload⟩, rfl, rfl, rfl,
      (List.append_nil _).symm, (List.append_nil _).symm, rfl⟩
  | _ => cases h

theorem route_passed {message : BackendMessage} (h : isRecorded message = false) (d : Demux) :
    ∃ item, (d.route message).1 = some item ∧ d.Passed message (d.route message).2 item := by
  cases message with
  | noticeResponse | parameterStatus | notificationResponse => cases h
  | _ => exact ⟨_, rfl, rfl, rfl, rfl, rfl, rfl, rfl⟩

end Demux

/-! ## Parameters -/

/-- The parameters after a history. -/
def parametersAfter (messages : List BackendMessage) : Parameters :=
  messages.foldl
    (fun parameters message =>
      match message with
      | .parameterStatus name value => parameters.insert name value
      | _ => parameters)
    SortedMap.empty

def isReadyForQuery (message : BackendMessage) : Bool :=
  message.variant == .readyForQuery

/-- What was received before the first ReadyForQuery. -/
def beforeReady (messages : List BackendMessage) : List BackendMessage :=
  messages.takeWhile fun message => !isReadyForQuery message

theorem beforeReady_snoc_of_any {messages : List BackendMessage} {message : BackendMessage}
    (h : messages.any isReadyForQuery = true) :
    beforeReady (messages ++ [message]) = beforeReady messages := by
  obtain ⟨ready, hmem, hready⟩ := List.any_eq_true.1 h
  obtain ⟨before, after, rfl⟩ := List.append_of_mem hmem
  unfold beforeReady
  rw [List.append_assoc, List.cons_append, List.takeWhile_append, List.takeWhile_append]
  simp [hready]

theorem beforeReady_of_none {messages : List BackendMessage}
    (h : messages.any isReadyForQuery = false) : beforeReady messages = messages := by
  refine List.takeWhile_eq_self_iff.2 ?_
  intro message hmem
  rw [List.any_eq_false] at h
  simpa using h message hmem

namespace Demultiplexing

/-! ## Invariants -/

/-- The asynchronous events, those that were popped and those that are queued. -/
def events (s : Demultiplexing) : List OrderedAsyncEvent :=
  s.asyncEvents ++ s.demux.asyncEvents

/-- Nothing is lost, repeated or reordered. -/
structure Faithful (s : Demultiplexing) : Prop where
  events : s.events.map (fun event => event.event.intoBackendMessage) = s.routed.filter isRecorded
  sequences : (s.routed.countP isRecorded ≤ u64Max) →
    s.events.map OrderedAsyncEvent.sequence = List.range (s.routed.countP isRecorded)
  notices : s.notices ++ s.demux.notices = s.events.filterMap fun event => event.event.notice?
  parameterStatuses : s.parameterStatuses ++ s.demux.parameterStatuses =
    s.events.filterMap fun event => event.event.parameterStatus?
  notifications : s.notifications ++ s.demux.notifications =
    s.events.filterMap fun event => event.event.notification?
  items : s.items.map SessionItem.intoBackendMessage =
    s.routed.filter fun message => !isRecorded message

theorem faithful_new : new.Faithful :=
  ⟨rfl, fun _ => rfl, rfl, rfl, rfl, rfl⟩

theorem head?_toList_append_tail {A : Type} (taken queue : List A) :
    taken ++ queue.head?.toList ++ queue.tail = taken ++ queue := by
  cases queue <;> simp

/-- The counter of asynchronous events. -/
def Counted (s : Demultiplexing) : Prop :=
  s.demux.nextAsyncSequence = min (s.routed.countP isRecorded) u64Max

theorem saturatingSucc_min (n : Nat) : saturatingSucc (min n u64Max) = min (n + 1) u64Max := by
  unfold saturatingSucc
  split <;> omega

variable {s : Demultiplexing}

theorem Counted.call (h : s.Counted) (c : DemuxCall) : (s.call c).Counted := by
  cases c with
  | route message =>
    change (s.demux.route message).2.nextAsyncSequence =
      min ((s.routed ++ [message]).countP isRecorded) u64Max
    rw [List.countP_append, List.countP_singleton]
    cases hrecorded : isRecorded message with
    | true =>
      obtain ⟨-, event, hroute⟩ := Demux.route_recorded hrecorded s.demux
      rw [hroute.sequence, h]
      exact saturatingSucc_min _
    | false =>
      obtain ⟨item, -, hroute⟩ := Demux.route_passed hrecorded s.demux
      rw [hroute.sequence, h]
      rfl
  | popNotification | popNotice | popParameterStatus | popAsyncEvent => exact h

theorem Faithful.recorded (h : s.Faithful) (hcounted : s.Counted) {message : BackendMessage}
    (hrecorded : isRecorded message = true) : (s.call (.route message)).Faithful := by
  obtain ⟨hnone, event, hroute⟩ := Demux.route_recorded hrecorded s.demux
  have hevents : (s.call (.route message)).events =
      s.events ++ [⟨s.demux.nextAsyncSequence, s.demux.command, event⟩] := by
    change s.asyncEvents ++ (s.demux.route message).2.asyncEvents = _
    rw [hroute.asyncEvents, ← List.append_assoc]
    rfl
  have hrouted : (s.call (.route message)).routed = s.routed ++ [message] := rfl
  refine ⟨?_, ?_, ?_, ?_, ?_, ?_⟩
  · rw [hevents, hrouted, List.map_append, List.filter_append, h.events]
    simp [hroute.message, hrecorded]
  · rw [hevents, hrouted, List.countP_append, List.countP_singleton, if_pos hrecorded]
    intro hroom
    have hnext : s.demux.nextAsyncSequence = s.routed.countP isRecorded := by
      rw [hcounted]
      omega
    rw [List.map_append, h.sequences (by omega), List.range_succ, ← hnext]
    rfl
  · change s.notices ++ (s.demux.route message).2.notices = _
    rw [hevents, hroute.notices, ← List.append_assoc, h.notices, List.filterMap_append]
    cases event <;> rfl
  · change s.parameterStatuses ++ (s.demux.route message).2.parameterStatuses = _
    rw [hevents, hroute.parameterStatuses, ← List.append_assoc, h.parameterStatuses,
      List.filterMap_append]
    cases event <;> rfl
  · change s.notifications ++ (s.demux.route message).2.notifications = _
    rw [hevents, hroute.notifications, ← List.append_assoc, h.notifications,
      List.filterMap_append]
    cases event <;> rfl
  · change (s.items ++ (s.demux.route message).1.toList).map _ = _
    rw [hnone, hrouted, List.filter_append, ← h.items]
    simp [hrecorded]

theorem Faithful.passed (h : s.Faithful) {message : BackendMessage}
    (hrecorded : isRecorded message = false) : (s.call (.route message)).Faithful := by
  obtain ⟨item, hsome, hroute⟩ := Demux.route_passed hrecorded s.demux
  have hevents : (s.call (.route message)).events = s.events := by
    change s.asyncEvents ++ (s.demux.route message).2.asyncEvents = _
    rw [hroute.asyncEvents]
    rfl
  have hrouted : (s.call (.route message)).routed = s.routed ++ [message] := rfl
  have hcount : (s.routed ++ [message]).countP isRecorded = s.routed.countP isRecorded := by
    simp [hrecorded]
  refine ⟨?_, ?_, ?_, ?_, ?_, ?_⟩
  · rw [hevents, hrouted, List.filter_append, h.events]
    simp [hrecorded]
  · rw [hevents, hrouted, hcount]
    exact h.sequences
  · change s.notices ++ (s.demux.route message).2.notices = _
    rw [hevents, hroute.notices, h.notices]
  · change s.parameterStatuses ++ (s.demux.route message).2.parameterStatuses = _
    rw [hevents, hroute.parameterStatuses, h.parameterStatuses]
  · change s.notifications ++ (s.demux.route message).2.notifications = _
    rw [hevents, hroute.notifications, h.notifications]
  · change (s.items ++ (s.demux.route message).1.toList).map _ = _
    rw [hsome, hrouted, List.filter_append, List.map_append, h.items]
    simp [hrecorded, hroute.message]

theorem Faithful.call (h : s.Faithful) (hcounted : s.Counted) (c : DemuxCall) :
    (s.call c).Faithful := by
  cases c with
  | route message =>
    cases hrecorded : isRecorded message with
    | true => exact h.recorded hcounted hrecorded
    | false => exact h.passed hrecorded
  -- A pop moves the head of a queue to what has been given out.
  | popNotification =>
    refine { h with notifications := ?_ }
    exact (head?_toList_append_tail _ _).trans h.notifications
  | popNotice =>
    refine { h with notices := ?_ }
    exact (head?_toList_append_tail _ _).trans h.notices
  | popParameterStatus =>
    refine { h with parameterStatuses := ?_ }
    exact (head?_toList_append_tail _ _).trans h.parameterStatuses
  | popAsyncEvent =>
    have hevents : (s.call .popAsyncEvent).events = s.events := head?_toList_append_tail _ _
    refine ⟨?_, ?_, ?_, ?_, ?_, h.items⟩
    · rw [hevents]
      exact h.events
    · rw [hevents]
      exact h.sequences
    · rw [hevents]
      exact h.notices
    · rw [hevents]
      exact h.parameterStatuses
    · rw [hevents]
      exact h.notifications

theorem faithful_run (calls : List DemuxCall) : (run calls).Faithful ∧ (run calls).Counted := by
  induction calls using List.reverseRecOn with
  | nil => exact ⟨faithful_new, rfl⟩
  | append_singleton calls c ih =>
    rw [run_snoc]
    exact ⟨ih.1.call ih.2 c, ih.2.call c⟩

/-! ## The parameter flag -/

/-- The demultiplexer has the parameters of the history, and those of the first ReadyForQuery. -/
structure Tracked (s : Demultiplexing) : Prop where
  accurate : s.demux.Accurate
  parameters : s.demux.parameters = parametersAfter s.routed
  baseline : s.demux.startupParameters =
    if s.routed.any isReadyForQuery then some (parametersAfter (beforeReady s.routed)) else none

theorem parametersAfter_snoc (messages : List BackendMessage) (message : BackendMessage) :
    parametersAfter (messages ++ [message]) =
      match message with
      | .parameterStatus name value => (parametersAfter messages).insert name value
      | _ => parametersAfter messages := by
  simp only [parametersAfter, List.foldl_append, List.foldl_cons, List.foldl_nil]

theorem parameters_route (d : Demux) (message : BackendMessage) :
    (d.route message).2.parameters =
      match message with
      | .parameterStatus name value => d.parameters.insert name value
      | _ => d.parameters := by
  cases message <;> rfl

theorem startupParameters_route (d : Demux) (message : BackendMessage) :
    (d.route message).2.startupParameters =
      if isReadyForQuery message then some (d.startupParameters.getD d.parameters)
      else d.startupParameters := by
  cases message <;> rfl

theorem Tracked.route (h : s.Tracked) (message : BackendMessage) :
    (s.call (.route message)).Tracked := by
  refine ⟨h.accurate.route message, ?_, ?_⟩
  · change (s.demux.route message).2.parameters = parametersAfter (s.routed ++ [message])
    rw [parameters_route, parametersAfter_snoc, h.parameters]
  · change (s.demux.route message).2.startupParameters =
      if (s.routed ++ [message]).any isReadyForQuery then
        some (parametersAfter (beforeReady (s.routed ++ [message]))) else none
    rw [startupParameters_route, h.baseline, h.parameters, List.any_append]
    cases hany : s.routed.any isReadyForQuery with
    | true =>
      rw [beforeReady_snoc_of_any hany]
      simp
    | false =>
      -- The message is the first ReadyForQuery, or there still is none.
      cases hready : isReadyForQuery message with
      | true =>
        have hbefore : beforeReady (s.routed ++ [message]) = s.routed := by
          unfold beforeReady
          rw [List.takeWhile_append_of_pos, List.takeWhile_cons_of_neg (by simp [hready]),
            List.append_nil]
          intro m hm
          rw [List.any_eq_false] at hany
          simpa using hany m hm
        rw [hbefore]
        simp [hready]
      | false => simp [hready]

theorem tracked_run (calls : List DemuxCall) : (run calls).Tracked := by
  induction calls using List.reverseRecOn with
  | nil => exact ⟨Demux.accurate_new, rfl, rfl⟩
  | append_singleton calls c ih =>
    rw [run_snoc]
    cases c with
    | route message => exact ih.route message
    | popNotification | popNotice | popParameterStatus | popAsyncEvent =>
      exact ⟨ih.accurate, ih.parameters, ih.baseline⟩

theorem Tracked.changed (h : s.Tracked) :
    s.demux.parametersChanged =
      decide (parametersAfter s.routed ≠ parametersAfter (beforeReady s.routed)) := by
  have haccurate := h.accurate
  unfold Demux.Accurate at haccurate
  rw [haccurate, h.baseline, h.parameters]
  cases hany : s.routed.any isReadyForQuery with
  | true => rfl
  | false =>
    rw [beforeReady_of_none hany]
    simp

theorem routed_run (calls : List DemuxCall) : (run calls).routed = messages calls := by
  induction calls using List.reverseRecOn with
  | nil => rfl
  | append_singleton calls c ih =>
    rw [run_snoc, messages, List.filterMap_append]
    cases c with
    | route message => exact congrArg (· ++ [message]) ih
    | popNotification | popNotice | popParameterStatus | popAsyncEvent =>
      exact ih.trans (List.append_nil _).symm

/-- Demultiplexing loses and reorders nothing, whatever is routed and popped in which order, and a
ReadyForQuery item tells whether the parameters differ from those at the first ReadyForQuery. -/
theorem demultiplexing_faithful (calls : List DemuxCall) :
    (run calls).routed = messages calls ∧ (run calls).Faithful ∧
      ∀ before status after, calls = before ++ .route (.readyForQuery status) :: after →
        ((run before).demux.route (.readyForQuery status)).1 =
          some (.readyForQuery status
            (decide (parametersAfter (messages before) ≠
              parametersAfter (beforeReady (messages before))))) := by
  refine ⟨routed_run calls, (faithful_run calls).1, ?_⟩
  intro before status after _
  rw [← routed_run before, ← (tracked_run before).changed]
  rfl

/-! ## Notices -/

def isCompletion (message : BackendMessage) : Bool :=
  message.variant == .commandComplete

/-- The messages that end a command. -/
def endsCommand (message : BackendMessage) : Bool :=
  [.commandComplete, .emptyQueryResponse, .portalSuspended, .errorResponse].contains
    message.variant

def noticeFields : BackendMessage → Option DiagnosticResponse
  | .noticeResponse fields => some fields
  | _ => none

/-- What was received since the last CommandComplete. -/
def sinceCompletion (messages : List BackendMessage) : List BackendMessage :=
  messages.rtakeWhile fun message => !isCompletion message

/-- What was received since the last end of a command. -/
def sinceEnd (messages : List BackendMessage) : List BackendMessage :=
  messages.rtakeWhile fun message => !endsCommand message

/-- Of what was received since the last CommandComplete, the part up to the last end of a
command. -/
def endedSinceCompletion (messages : List BackendMessage) : List BackendMessage :=
  (sinceCompletion messages).rdropWhile fun message => !endsCommand message

theorem rtakeWhile_rtakeWhile_of_imp {A : Type} {p q : A → Bool} (h : ∀ a, q a = true → p a = true)
    (l : List A) : (l.rtakeWhile p).rtakeWhile q = l.rtakeWhile q := by
  induction l using List.reverseRecOn with
  | nil => rfl
  | append_singleton l a ih =>
    cases hq : q a with
    | true =>
      rw [List.rtakeWhile_concat_pos p _ a (h a hq), List.rtakeWhile_concat_pos q _ a hq,
        List.rtakeWhile_concat_pos q _ a hq, ih]
    | false =>
      rw [List.rtakeWhile_concat_neg q _ a (by rw [hq]; simp)]
      cases hp : p a with
      | true =>
        rw [List.rtakeWhile_concat_pos p _ a hp,
          List.rtakeWhile_concat_neg q _ a (by rw [hq]; simp)]
      | false =>
        rw [List.rtakeWhile_concat_neg p _ a (by rw [hp]; simp), List.rtakeWhile_nil]

theorem sinceCompletion_eq (messages : List BackendMessage) :
    sinceCompletion messages = endedSinceCompletion messages ++ sinceEnd messages := by
  have hends : ∀ message, (!endsCommand message) = true → (!isCompletion message) = true := by
    intro message h
    cases message <;> first | rfl | cases h
  have hsince : sinceEnd messages =
      (sinceCompletion messages).rtakeWhile fun message => !endsCommand message :=
    (rtakeWhile_rtakeWhile_of_imp hends messages).symm
  rw [hsince]
  exact List.rdropWhile_append_rtakeWhile.symm

/-- The notices that wait for a completion. -/
def Noticed (s : Demultiplexing) : Prop :=
  s.demux.pendingNotices.map TaggedNotice.fields =
    (sinceCompletion s.routed).filterMap noticeFields

theorem pendingNotices_route (d : Demux) (message : BackendMessage) :
    (d.route message).2.pendingNotices.map TaggedNotice.fields =
      if isCompletion message then []
      else d.pendingNotices.map TaggedNotice.fields ++ (noticeFields message).toList := by
  cases message with
  | commandComplete tag => rfl
  | noticeResponse fields =>
    simp only [Demux.route, Demux.pushAsync, List.map_append]
    rfl
  | _ => exact (List.append_nil _).symm

theorem Noticed.route (h : s.Noticed) (message : BackendMessage) :
    (s.call (.route message)).Noticed := by
  change (s.demux.route message).2.pendingNotices.map TaggedNotice.fields =
    (sinceCompletion (s.routed ++ [message])).filterMap noticeFields
  rw [pendingNotices_route, h]
  unfold sinceCompletion
  cases hcompletion : isCompletion message with
  | true =>
    rw [List.rtakeWhile_concat_neg _ _ _ (by rw [hcompletion]; simp)]
    rfl
  | false =>
    rw [List.rtakeWhile_concat_pos _ _ _ (by rw [hcompletion]; rfl), List.filterMap_append,
      List.filterMap_cons]
    cases noticeFields message <;> rfl

theorem noticed_run (calls : List DemuxCall) : (run calls).Noticed := by
  induction calls using List.reverseRecOn with
  | nil => rfl
  | append_singleton calls c ih =>
    rw [run_snoc]
    cases c with
    | route message => exact ih.route message
    | popNotification | popNotice | popParameterStatus | popAsyncEvent => exact ih

/-- The notices of a completion are those received since the previous end of a command, exactly when
no notice stands between the last CommandComplete and a later end of a command. -/
theorem notices_of_completion (calls : List DemuxCall) (tag : Bytes) :
    ∃ command notices,
      ((run calls).demux.route (.commandComplete tag)).1 =
          some (.commandComplete tag command notices) ∧
        (notices.map TaggedNotice.fields = (sinceEnd (messages calls)).filterMap noticeFields ↔
          ∀ message ∈ endedSinceCompletion (messages calls), noticeFields message = none) := by
  refine ⟨(run calls).demux.command, (run calls).demux.pendingNotices, rfl, ?_⟩
  have hnoticed := noticed_run calls
  unfold Noticed at hnoticed
  rw [hnoticed, routed_run, sinceCompletion_eq, List.filterMap_append, List.append_left_eq_self,
    List.filterMap_eq_nil_iff]

/-- A command raises a notice and fails; the next one succeeds. -/
def failedCommand : List DemuxCall :=
  [.route (.noticeResponse ⟨[]⟩), .route (.errorResponse ⟨[]⟩), .route (.readyForQuery .idle)]

theorem failed_notice_attached :
    ((run failedCommand).demux.route (.commandComplete [])).1 =
        some (.commandComplete [] 0 [⟨0, ⟨[]⟩⟩]) ∧
      (sinceEnd (messages failedCommand)).filterMap noticeFields = [] := by
  decide

end Demultiplexing
end PgProto
