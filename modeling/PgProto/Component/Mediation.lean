import PgProto.Component.AcceptStartup
import PgProto.Intermediary.Mediation

/-!
# Mediation — what client-role middleware sees of the server

A message of the server reaches the component API from the wire, through the demultiplexer, or out
of a queue of the demultiplexer.  The hook of the client middleware is called on the first way for
every message, on the second for every message that the demultiplexer gives back, and on the third
never.

* `Ordered` — the hook is given what was received, in order, but for what the demultiplexer keeps;
* `seesAll_iff_clean` — so it is given everything exactly when the demultiplexer keeps nothing;
* `mediation_of_reads` — which reads those are, for a machine that goes from one read to the next.
-/

namespace PgProto
namespace Component

open Lib

/-! ## Logs -/

def Event.received? : Event → Option BackendMessage
  | .received message _ => some message
  | _ => none

def Event.inspected? : Event → Option BackendMessage
  | .inspected message => some message
  | _ => none

def receivedIn (log : List Event) : List BackendMessage :=
  log.filterMap Event.received?

def inspectedIn (log : List Event) : List BackendMessage :=
  log.filterMap Event.inspected?

/-- The hook was given the messages of the server, each once and in wire order. -/
def SeesAll (log : List Event) : Prop :=
  inspectedIn log = receivedIn log

/-- The demultiplexer keeps the message. -/
def Event.kept : Event → Bool
  | .received message true => absorbed message
  | _ => false

/-- The hook was given what was not kept, in order. -/
def Ordered (log : List Event) : Prop :=
  inspectedIn log = receivedIn (log.filter fun event => !event.kept)

/-- Nothing was kept. -/
def Clean (log : List Event) : Prop :=
  ∀ event ∈ log, event.kept = false

theorem filterMap_filter_eq_iff {A B : Type} {f : A → Option B} {p : A → Bool} {l : List A}
    (hp : ∀ a, p a = false → (f a).isSome) :
    (l.filter p).filterMap f = l.filterMap f ↔ ∀ a ∈ l, p a = true := by
  constructor
  · intro h a ha
    by_contra hpa
    -- Leaving an element out makes the result shorter.
    obtain ⟨l₁, l₂, rfl⟩ := List.append_of_mem ha
    have hpa' : p a = false := Bool.eq_false_of_not_eq_true hpa
    obtain ⟨b, hb⟩ := Option.isSome_iff_exists.1 (hp a hpa')
    have hlength := congrArg List.length h
    have hle₁ := ((List.filter_sublist (l := l₁) (p := p)).filterMap f).length_le
    have hle₂ := ((List.filter_sublist (l := l₂) (p := p)).filterMap f).length_le
    simp only [List.filter_append, List.filter_cons, hpa', Bool.false_eq_true, ↓reduceIte,
      List.filterMap_append, List.filterMap_cons, hb, List.length_append, List.length_cons]
      at hlength
    omega
  · intro h
    rw [List.filter_eq_self.2 h]

theorem seesAll_iff_clean {log : List Event} (h : Ordered log) : SeesAll log ↔ Clean log := by
  have hkept : ∀ event : Event, (!event.kept) = false → event.received?.isSome := by
    intro event hevent
    cases event with
    | received message demuxed => rfl
    | inspected | performed => cases hevent
  unfold SeesAll Clean
  rw [h]
  unfold receivedIn
  rw [filterMap_filter_eq_iff hkept]
  simp only [Bool.not_eq_true']

theorem Ordered.append {log log' : List Event} (h : Ordered log) (h' : Ordered log') :
    Ordered (log ++ log') := by
  unfold Ordered inspectedIn receivedIn at *
  rw [List.filterMap_append, List.filter_append, List.filterMap_append, h, h']

theorem clean_nil : Clean [] := by
  intro event hevent
  cases hevent

theorem clean_cons {event : Event} {log : List Event} :
    Clean (event :: log) ↔ event.kept = false ∧ Clean log :=
  List.forall_mem_cons

theorem clean_append {log log' : List Event} : Clean (log ++ log') ↔ Clean log ∧ Clean log' := by
  unfold Clean
  exact List.forall_mem_append

/-! ## Frames -/

theorem inspectedIn_seen (log : List Event) : inspectedIn (seen log) = inspectedIn log := by
  unfold inspectedIn seen
  rw [List.filterMap_filter]
  congr 1
  funext event
  cases event <;> rfl

theorem ordered_seen {log : List Event} : Ordered (seen log) ↔ Ordered log := by
  have hreceived : receivedIn ((seen log).filter fun event => !event.kept) =
      receivedIn (log.filter fun event => !event.kept) := by
    unfold receivedIn seen
    rw [List.filterMap_filter, List.filterMap_filter, List.filterMap_filter]
    congr 1
    funext event
    cases event <;> rfl
  unfold Ordered
  rw [inspectedIn_seen, hreceived]

theorem clean_seen {log : List Event} : Clean (seen log) ↔ Clean log := by
  constructor
  · intro h event hevent
    cases hop : event.op? with
    | none => exact h event (List.mem_filter.2 ⟨hevent, by rw [hop]; rfl⟩)
    | some op =>
      cases event with
      | performed op => rfl
      | received | inspected => cases hop
  · intro h event hevent
    exact h event (List.mem_of_mem_filter hevent)

/-- A read whose message reaches the middleware. -/
def passes : Option (BackendMessage × Bool) → Bool
  | some (message, true) => !absorbed message
  | _ => true

theorem Ordered.after {f : Frame} (h : Ordered f.seen) (taken : Option (BackendMessage × Bool)) :
    Ordered (f.after taken).seen := by
  cases taken with
  | none => exact h
  | some taken =>
    obtain ⟨message, demuxed⟩ := taken
    cases demuxed with
    | false => exact h.append rfl
    | true =>
      refine h.append ?_
      unfold Ordered
      cases habsorbed : absorbed message with
      | false =>
        have hkept : (Event.received message true).kept = false := habsorbed
        rw [List.filter_cons_of_pos (by rw [hkept]; rfl)]
        rfl
      | true =>
        have hkept : (Event.received message true).kept = true := habsorbed
        rw [List.filter_cons_of_neg (by rw [hkept]; simp)]
        rfl

theorem clean_after {f : Frame} {taken : Option (BackendMessage × Bool)} :
    Clean (f.after taken).seen ↔ Clean f.seen ∧ passes taken = true := by
  cases taken with
  | none => simp [Frame.after, passes]
  | some taken =>
    obtain ⟨message, demuxed⟩ := taken
    cases demuxed <;> cases habsorbed : absorbed message <;>
      simp [Frame.after, Frame.read, passes, clean_append, clean_cons, clean_nil, Event.kept,
        habsorbed]

/-- A machine that goes from one read to the next, and what its reads do to its frame. -/
theorem mediation_of_reads {S : Type} (frame : S → Frame)
    (reading : S → Read → Option (BackendMessage × Bool)) (resume : S → Read → S)
    (hframe : ∀ s read, frame (resume s read) = (frame s).after (reading s read)) {s : S}
    (hs : Ordered (frame s).seen) (reads : List Read) :
    Ordered (frame (reads.foldl resume s)).seen ∧
      (Clean (frame (reads.foldl resume s)).seen ↔
        Clean (frame s).seen ∧
          AllAfter (fun before read => passes (reading (before.foldl resume s) read) = true)
            reads) := by
  induction reads using List.reverseRecOn with
  | nil => exact ⟨hs, fun h => ⟨h, allAfter_nil⟩, fun h => h.1⟩
  | append_singleton reads read ih =>
    rw [List.foldl_append, List.foldl_cons, List.foldl_nil, hframe]
    refine ⟨ih.1.after _, ?_⟩
    rw [clean_after, ih.2, and_assoc]
    refine and_congr_right fun _ => ?_
    constructor
    · intro h
      exact h.1.snoc h.2
    · intro h
      exact ⟨h.left, h reads read [] rfl⟩

/-! ## Establishment and `connect` -/

section Connect

variable {σ π ε ι δ : Type}

/-- The next read of an attempt reaches the middleware. -/
def PassesAt (setup : ClientSetup σ π ε ι) (state : σ) (before : List Read) (read : Read) : Prop :=
  passes ((establishClientSession setup state before).status.reading read) = true

instance (setup : ClientSetup σ π ε ι) (state : σ) (before : List Read) (read : Read) :
    Decidable (PassesAt setup state before read) :=
  inferInstanceAs (Decidable (_ = true))

theorem mediation_establishClientSession (setup : ClientSetup σ π ε ι) (state : σ)
    (reads : List Read) :
    Ordered (establishClientSession setup state reads).log ∧
      (Clean (establishClientSession setup state reads).log ↔
        AllAfter (PassesAt setup state) reads) := by
  cases hstart : setup.start state with
  | error error =>
    rw [establishClientSession_error hstart]
    refine ⟨rfl, ?_, ?_⟩
    · intro _ before read after _
      unfold PassesAt
      rw [establishClientSession_error hstart]
      rfl
    · intro _
      exact clean_nil
  | ok w =>
    have hempty : w.frame.seen = [] := congrArg seen (start_eq_ok hstart).1
    have hordered : Ordered w.frame.seen := by
      rw [hempty]
      rfl
    have hclean : Clean w.frame.seen := by
      rw [hempty]
      exact clean_nil
    have hmediation := mediation_of_reads
      (fun attempt : Attempt σ π ε ι => attempt.world.frame)
      (fun attempt read => attempt.status.reading read) (Attempt.resume setup)
      (fun attempt read => attempt.resume_frame read) (s := ⟨.awaiting .authentication, w⟩)
      hordered reads
    have hpasses : PassesAt setup state = fun before read =>
        passes ((establishFrom setup w before).status.reading read) = true := by
      funext before read
      unfold PassesAt
      rw [establishClientSession_ok hstart]
      rfl
    rw [establishClientSession_ok hstart, hpasses, ← ordered_seen, ← clean_seen]
    refine ⟨hmediation.1, hmediation.2.trans ?_⟩
    exact and_iff_right hclean

/-- The reads of an attempt reach the middleware. -/
def OncePasses (prepare : Prepare σ π ε ι δ) (state : σ) (reads : List Read) : Prop :=
  match prepare state with
  | (.ok setup, state) => AllAfter (PassesAt setup state) reads
  | (.error _, _) => True

/-- The reads of all attempts reach the middleware. -/
def ConnectPasses (component : ClientComponent σ π ε ι δ) (state : σ)
    (reads retryReads : List Read) : Prop :=
  OncePasses component.first state reads ∧
    match secondAttempt component (connectOnce component.first state reads) with
    | some (retry, state) => OncePasses retry state retryReads
    | none => True

theorem mediation_connectOnce (prepare : Prepare σ π ε ι δ) (state : σ) (reads : List Read) :
    Ordered (connectOnce prepare state reads).log ∧
      (Clean (connectOnce prepare state reads).log ↔ OncePasses prepare state reads) := by
  unfold connectOnce OncePasses
  cases prepare state with
  | mk result state' =>
    cases result with
    | error error =>
      exact ⟨rfl, fun _ => trivial, fun _ => clean_nil⟩
    | ok setup => exact mediation_establishClientSession setup state' reads

theorem mediation_connectCore (component : ClientComponent σ π ε ι δ) (state : σ)
    (reads retryReads : List Read) :
    Ordered (connectCore component state reads retryReads).2 ∧
      (Clean (connectCore component state reads retryReads).2 ↔
        ConnectPasses component state reads retryReads) := by
  have hfirst := mediation_connectOnce component.first state reads
  unfold connectCore ConnectPasses
  dsimp only
  cases secondAttempt component (connectOnce component.first state reads) with
  | none => exact ⟨hfirst.1, hfirst.2.trans (and_iff_left trivial).symm⟩
  | some attempt =>
    have hsecond := mediation_connectOnce attempt.1 attempt.2 retryReads
    exact ⟨hfirst.1.append hsecond.1, clean_append.trans (and_congr hfirst.2 hsecond.2)⟩

theorem seesAll_connectCore (component : ClientComponent σ π ε ι δ) (state : σ)
    (reads retryReads : List Read) :
    SeesAll (connectCore component state reads retryReads).2 ↔
      ConnectPasses component state reads retryReads := by
  obtain ⟨hordered, hclean⟩ := mediation_connectCore component state reads retryReads
  exact (seesAll_iff_clean hordered).trans hclean

end Connect

/-! ## Calls -/

section Calls

variable {σ π ε ι : Type} (setup : ClientSetup σ π ε ι)

/-- The next read of a query reaches the middleware. -/
def QueryPassesAt (query : Bytes) (w : World σ π) (before : List Read) (read : Read) : Prop :=
  passes ((simpleQuery setup query before w).status.reading read) = true

instance (query : Bytes) (w : World σ π) (before : List Read) (read : Read) :
    Decidable (QueryPassesAt setup query w before read) :=
  inferInstanceAs (Decidable (_ = true))

/-- The reads of a sequence of calls reach the middleware. -/
def CallsPass : World σ π → List ClientCall → Prop
  | _, [] => True
  | w, .receiveWire read :: calls => CallsPass (worldOf (receiveWire setup read w)) calls
  | w, .simpleQuery query reads :: calls =>
    AllAfter (QueryPassesAt setup query w) reads ∧
      match simpleQuery setup query reads w with
      | ⟨.done _, w'⟩ => CallsPass w' calls
      | _ => True

variable {setup} {w : World σ π}

theorem mediation_simpleQuery (query : Bytes) (hw : Ordered w.frame.seen) (reads : List Read) :
    Ordered (simpleQuery setup query reads w).world.frame.seen ∧
      (Clean (simpleQuery setup query reads w).world.frame.seen ↔
        Clean w.frame.seen ∧ AllAfter (QueryPassesAt setup query w) reads) := by
  have hstart : (Querying.ofResult (startQuery setup query w)).world.frame = w.frame :=
    startQuery_frame query w
  have hmediation := mediation_of_reads (fun querying : Querying σ π ε => querying.world.frame)
    (fun querying read => querying.status.reading read) (Querying.resume setup)
    (fun querying read => querying.resume_frame read)
    (s := .ofResult (startQuery setup query w)) (by rw [hstart]; exact hw) reads
  rw [hstart] at hmediation
  exact hmediation

theorem mediation_runCalls (calls : List ClientCall) (hw : Ordered w.frame.seen) :
    Ordered (runCalls setup w calls).frame.seen ∧
      (Clean (runCalls setup w calls).frame.seen ↔ Clean w.frame.seen ∧ CallsPass setup w calls) := by
  induction calls generalizing w with
  | nil => exact ⟨hw, (and_iff_left trivial).symm⟩
  | cons call calls ih =>
    cases call with
    | receiveWire read =>
      have hframe : (worldOf (receiveWire setup read w)).frame = _ := receiveWire_frame read w
      have hpasses : passes (read.toOption.map fun message => (message, false)) = true := by
        cases read <;> rfl
      have hordered : Ordered (worldOf (receiveWire setup read w)).frame.seen := by
        rw [hframe]
        exact hw.after _
      have hclean : Clean (worldOf (receiveWire setup read w)).frame.seen ↔
          Clean w.frame.seen := by
        rw [hframe, clean_after, hpasses]
        exact and_iff_left rfl
      obtain ⟨horderedAfter, hcleanAfter⟩ := ih hordered
      exact ⟨horderedAfter, hcleanAfter.trans (and_congr_left' hclean)⟩
    | simpleQuery query reads =>
      have hquery : _ ∧ (Clean (simpleQuery setup query reads w).world.frame.seen ↔ _) :=
        mediation_simpleQuery query hw reads
      unfold runCalls CallsPass
      generalize simpleQuery setup query reads w = querying at hquery ⊢
      obtain ⟨status, w'⟩ := querying
      cases status with
      | done messages =>
        obtain ⟨horderedAfter, hcleanAfter⟩ := ih hquery.1
        refine ⟨horderedAfter, hcleanAfter.trans ?_⟩
        rw [hquery.2, and_assoc]
      | awaiting | failed =>
        refine ⟨hquery.1, hquery.2.trans ?_⟩
        exact and_congr_right fun _ => (and_iff_left trivial).symm

theorem seesAll_runCalls (hw : w.log = []) (calls : List ClientCall) :
    SeesAll (runCalls setup w calls).log ↔ CallsPass setup w calls := by
  have hempty : w.frame.seen = [] := congrArg seen hw
  have hclean : Clean w.frame.seen := by
    rw [hempty]
    exact clean_nil
  have hcalls : Ordered (runCalls setup w calls).frame.seen ∧ _ :=
    mediation_runCalls calls (by rw [hempty]; rfl)
  rw [seesAll_iff_clean (ordered_seen.1 hcalls.1), ← clean_seen]
  exact hcalls.2.trans (and_iff_right hclean)

end Calls

/-! ## `accept` -/

section Accept

variable {σ π ε ι δ τ κ ρ β : Type}

theorem window_sublist_receivedIn (log : List Event) : (window log).Sublist (receivedIn log) := by
  induction log with
  | nil => exact List.Sublist.slnil
  | cons event log ih =>
    cases event with
    | received message demuxed =>
      cases demuxed with
      | false => exact ih.cons message
      | true => exact ih.cons_cons message
    | inspected | performed => exact ih

theorem statuses_sublist_receivedIn (component : ClientComponent σ π ε ι δ) (state : σ)
    (reads retryReads : List Read) :
    (connectCore component state reads retryReads).1.statuses.Sublist
      (receivedIn (connectCore component state reads retryReads).2) := by
  have hsuffix := log_suffix_connectCore component state reads retryReads
  cases hconnect : (connectCore component state reads retryReads).1 with
  | unreachable error state' => exact List.nil_sublist _
  | tried setup transcript =>
    obtain ⟨state', htranscript⟩ := connectCore_tried hconnect
    have hstatuses : transcript.demux.parameterStatuses.map statusMessage =
        (window transcript.log).filter isStatus := by
      rw [htranscript]
      exact statuses_establishClientSession state' _
    rw [hconnect] at hsuffix
    change (transcript.demux.parameterStatuses.map statusMessage).Sublist _
    rw [hstatuses]
    have hwindow : ((window transcript.log).filter isStatus).Sublist
        (receivedIn transcript.log) :=
      List.filter_sublist.trans (window_sublist_receivedIn _)
    exact hwindow.trans (hsuffix.sublist.filterMap Event.received?)

theorem seesAll_accept (intermediary : Intermediary σ π ε ι δ τ κ ρ β) (state : σ) (registry : κ)
    (reads retryReads : List Read) :
    SeesAll (connectCore intermediary.client state reads retryReads).2 ∧
        (accept intermediary state registry reads retryReads).world.relayed.Sublist
          (inspectedIn (connectCore intermediary.client state reads retryReads).2) ↔
      ConnectPasses intermediary.client state reads retryReads := by
  rw [← seesAll_connectCore]
  constructor
  · intro h
    exact h.1
  · intro hsees
    have hrelayed : (accept intermediary state registry reads retryReads).world.relayed <+:
        (connectCore intermediary.client state reads retryReads).1.statuses :=
      acceptAfter_relayed registry _
    refine ⟨hsees, ?_⟩
    rw [hsees]
    exact hrelayed.sublist.trans (statuses_sublist_receivedIn _ _ _ _)

/-! ## Everything -/

/-- Client-role middleware sees every server message once and in wire order, and nothing is relayed
past it, in `connect`, in the calls of a connection and in `accept`, exactly when no NoticeResponse,
ParameterStatus or NotificationResponse is read through the demultiplexer; while forwarding it
always does. -/
theorem client_middleware_sees_all :
    (∀ (component : ClientComponent σ π ε ι δ) (state : σ) (reads retryReads : List Read),
      SeesAll (connectCore component state reads retryReads).2 ↔
        ConnectPasses component state reads retryReads) ∧
    (∀ (setup : ClientSetup σ π ε ι) (w : World σ π) (calls : List ClientCall), w.log = [] →
      (SeesAll (runCalls setup w calls).log ↔ CallsPass setup w calls)) ∧
    (∀ (intermediary : Intermediary σ π ε ι δ τ κ ρ β) (state : σ) (registry : κ)
        (reads retryReads : List Read),
      SeesAll (connectCore intermediary.client state reads retryReads).2 ∧
          (accept intermediary state registry reads retryReads).world.relayed.Sublist
            (inspectedIn (connectCore intermediary.client state reads retryReads).2) ↔
        ConnectPasses intermediary.client state reads retryReads) ∧
    (∀ (handlers : Handlers σ) (audit : σ → List BackendMessage) (server : List BackendMessage)
        (conn : PgProto.Connection σ) (h : List (Session.SessionEntry σ ε)) (w : PgProto.World σ),
      Audits handlers audit → Session.FittingRun ε handlers audit server conn h w →
        Mediated audit server conn.upstream.received (audit conn.state) w) ∧
    (∀ (handlers : Handlers σ) (number : Nat) (message message' : BackendMessage),
      (∀ s, handlers.clientBackend s message = handlers.clientBackend s message') →
        (processBackend handlers { number := number, message := message } :
            Forward σ ε BackendForwarding) =
          processBackend handlers { number := number, message := message' }) := by
  refine ⟨?_, ?_, ?_, ?_, ?_⟩
  · intro component state reads retryReads
    exact seesAll_connectCore component state reads retryReads
  · intro setup w calls hw
    exact seesAll_runCalls hw calls
  · intro intermediary state registry reads retryReads
    exact seesAll_accept intermediary state registry reads retryReads
  · intro handlers audit server conn h w haudits hr
    exact Session.FittingRun.mediated haudits hr
  · intro handlers number message message' hsame
    exact processBackend_congr hsame

end Accept

def keyReads : List Read :=
  [.ok (.authentication .ok), .ok (.backendKeyData 7 (ascii "keys")), .ok (.readyForQuery .idle)]

def keyCalls : List ClientCall :=
  [.receiveWire (.ok (.noticeResponse ⟨[]⟩)),
    .simpleQuery (ascii "SELECT 1") [.ok (.commandComplete (ascii "SELECT 1")),
      .ok (.readyForQuery .idle)]]

def idleWorld : World Unit Unit :=
  { state := (), policy := (), demux := Demux.new, flushed := 1, log := [] }

/-- Handlers whose state is the list of server messages that the client role has seen. -/
def auditingHandlers : Handlers (List BackendMessage) :=
  { Handlers.identity (List BackendMessage) with
    clientBackend := fun seen message => (message, seen ++ [message]) }

theorem auditedLimit_pos : 0 < 8 := by
  decide

def auditedConnection : PgProto.Connection (List BackendMessage) :=
  Connection.new 64 64 [] (.bounded ⟨8, auditedLimit_pos⟩) none

theorem audits_auditingHandlers : Audits auditingHandlers id :=
  { clientBackend := fun _ _ => rfl
    clientFrontend := fun _ _ => rfl
    serverFrontend := fun _ _ => rfl
    serverBackend := fun _ _ => rfl }

/-- A call that is dropped while middleware looks at a notice of the server. -/
theorem fittingStep_notice :
    ∃ (outcome : CallOutcome Unit) (w : PgProto.World (List BackendMessage)),
      Session.FittingStep auditingHandlers id [.noticeResponse ⟨[]⟩] 0
        (World.new auditedConnection) .forwardBackend outcome w ∧
      w.conn.upstream.received = 1 :=
  ⟨_, _, Session.FittingStep.dropped _ rfl
    (Resume.LeadsWith.answered
      (show Fits id [.noticeResponse ⟨[]⟩] 0 (World.new auditedConnection) Request.receiveBackend
        (.ok (.noticeResponse ⟨[]⟩)) from rfl)
      Resume.LeadsWith.dropped), rfl⟩

theorem client_middleware_sees_key :
    SeesAll (connectCore forwardingIntermediary.client () keyReads []).2 ∧
      SeesAll (runCalls passwordClient idleWorld keyCalls).log ∧
      (accept forwardingIntermediary () [] keyReads []).world.relayed.Sublist
        (inspectedIn (connectCore forwardingIntermediary.client () keyReads []).2) ∧
      ∃ (h : List (Session.SessionEntry (List BackendMessage) Unit))
        (w : PgProto.World (List BackendMessage)),
        Session.FittingRun Unit auditingHandlers id [.noticeResponse ⟨[]⟩] auditedConnection h w ∧
          w.conn.state = [.noticeResponse ⟨[]⟩] := by
  have hconnect : ConnectPasses forwardingIntermediary.client () keyReads [] :=
    ⟨show AllAfter (PassesAt passwordClient ()) keyReads by decide +kernel, trivial⟩
  have hcalls : CallsPass passwordClient idleWorld keyCalls :=
    ⟨show AllAfter (QueryPassesAt passwordClient _ _) _ by decide +kernel, trivial⟩
  obtain ⟨hcomponent, hconnection, haccept, -, -⟩ :=
    @client_middleware_sees_all Unit Unit Unit Unit Unit Unit (List CancelKey) Unit Unit
  obtain ⟨-, -, -, hforward, -⟩ :=
    @client_middleware_sees_all (List BackendMessage) Unit Unit Unit Unit Unit Unit Unit Unit
  obtain ⟨outcome, w, hstep, hreceived⟩ := fittingStep_notice
  have hrun : Session.FittingRun Unit auditingHandlers id [.noticeResponse ⟨[]⟩] auditedConnection
      _ w := History.single hstep
  refine ⟨(hcomponent _ _ _ _).2 hconnect, (hconnection _ _ _ rfl).2 hcalls,
    ((haccept _ _ _ _ _).2 hconnect).2, _, w, hrun, ?_⟩
  have haccount := (hforward _ _ _ _ _ _ audits_auditingHandlers hrun).account
  rw [hreceived] at haccount
  exact haccount

/-- A notice before the first ReadyForQuery goes past the middleware, and so does a parameter
status, which is relayed all the same. -/
theorem startup_status_unseen :
    ¬ SeesAll (connectCore forwardingIntermediary.client () noticeReads []).2 ∧
      (accept forwardingIntermediary () [] statusReads []).world.relayed =
        [.parameterStatus (ascii "TimeZone") (ascii "UTC")] ∧
      .parameterStatus (ascii "TimeZone") (ascii "UTC") ∉
        inspectedIn (connectCore forwardingIntermediary.client () statusReads []).2 := by
  unfold SeesAll
  decide +kernel

end Component
end PgProto
