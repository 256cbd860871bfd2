import PgProto.Intermediary.WireOrder

/-!
# Cancellation — what a dropped call leaves behind

The caller may drop a forwarding call at any await and call again.  What the call owned in its local
variables is then gone; what the connection owns is not.

* `ownsNothing` — the awaits at which a call owns nothing;
* `Clients`, `Servers`, `Locals` — every message taken off a transport is accounted for: it has come
  to its end, or the connection owns it, or the running call does;
* `Upstream`, `Downstream` — what the ledger has let through is what was encoded, up to what the
  running call has still to encode;
* `cancellation_safe` — sessions in which calls are dropped only where they own nothing lose and
  duplicate nothing, and reorder nothing where no output passes the hold;
* `dropped_calls_lose_messages` — awaits at which a drop does lose messages.
-/

namespace PgProto

open Lib
open Pipeline (LedgerEntry)
open BackendHold (clear numbers takePending)

/-! ## What a log accounts for -/

/-- The message a step of the ledger emits. -/
def emit? (e : LedgerEntry) : Option BackendMessage :=
  match e.output with
  | .backend (.ok (.emit message)) => some message
  | _ => none

theorem emit?_eq_none {e : LedgerEntry}
    (h : ∀ message, e.output ≠ .backend (.ok (.emit message))) : emit? e = none := by
  unfold emit?
  split
  · next message heq => exact absurd heq (h message)
  · rfl

namespace Event

/-- Client messages that come to their end, or whose sequence or responses the ledger takes over. -/
def clients : Event → List Nat
  | .dismissed number | .queued number _ _ _ | .admitted number _ => [number]
  | _ => []

/-- Server messages of which no output is left: the last one was offered to the ledger, or the
ledger refused one. -/
def servers : Event → List Nat
  | .suppressed number _ => [number]
  | .projected (some number) 0 _ => [number]
  | .projected (some number) (_ + 1) entry => if (emit? entry).isSome then [] else [number]
  | _ => []

/-- Outputs the ledger emits, each with the server message it was made for. -/
def emits : Event → List (Option Nat × BackendMessage)
  | .projected source _ entry => (emit? entry).toList.map fun message => (source, message)
  | _ => []

/-- Local responses that are queued. -/
def responses : Event → List BackendMessage
  | .queued _ _ _ messages => messages
  | _ => []

/-- Local responses that leave the queue for good: a deferred one is put back. -/
def answers : Event → List BackendMessage
  | .projected none _ ⟨_, .emitLocal _ message, .backend (.ok (.emit _)), _⟩
  | .projected none _ ⟨_, .emitLocal _ message, .backend (.error _), _⟩ => [message]
  | _ => []

/-- Awaits at which a call ended. -/
def interruptions : Event → List Request
  | .interrupted request => [request]
  | _ => []

end Event

/-! ## Awaits at which a call owns nothing -/

/-- At these awaits everything is in the connection. -/
def Request.ownsNothing : Request → Bool
  | .frontendOperation _ _ | .observeTransition _ => false
  | .write _ unsent | .flush _ unsent => unsent == 0
  | _ => true

structure Phase.OwnsNothing (phase : Phase) : Prop where
  clients : phase.clients = []
  servers : phase.servers = []
  upstream : phase.unsentUpstream = []
  downstream : phase.unsentDownstream = []

theorem Suspended.ownsNothing {request : Request} {phase : Phase} (h : Suspended request phase)
    (hnothing : request.ownsNothing = true) : phase.OwnsNothing := by
  have hup : ∀ {number : Nat} {unsent : List (OperationId × FrontendMessage)},
      unsent.length = 0 → (Phase.writingUp number unsent).OwnsNothing := by
    intro number unsent hlength
    rw [List.length_eq_zero_iff.1 hlength]
    exact ⟨rfl, rfl, rfl, rfl⟩
  have hdown : ∀ {unsent : List (Option Nat × BackendMessage)} {number more : Nat},
      unsent.length + more = 0 → (Phase.writingDown unsent number more).OwnsNothing := by
    intro unsent number more hlength
    have hunsent : unsent = [] := List.length_eq_zero_iff.1 (by omega)
    have hmore : more = 0 := by omega
    rw [hunsent, hmore]
    exact ⟨rfl, rfl, rfl, rfl⟩
  cases h with
  | frontendOperation | observeUp | observeDown => cases hnothing
  | writeUp | flushUp => exact hup (eq_of_beq hnothing)
  | writeDown | flushDown => exact hdown (eq_of_beq hnothing)
  | _ => exact ⟨rfl, rfl, rfl, rfl⟩

section Cancellation

variable {σ ε : Type}

/-- A call ends early only where it owns nothing, and what is handed to an encoder can be encoded. -/
def dropSafe (r : Record σ) : Bool :=
  match r.event with
  | .interrupted request => request.ownsNothing
  | .sentUpstream _ _ message => (message.encode r.before.upstream.maxFrameLen).isOk
  | .sentDownstream _ message => (message.encode r.before.downstream.maxFrameLen).isOk
  | _ => true

attribute [local simp] Event.servers Event.sentUp Event.sentDown Event.forwards Phase.servers
  Phase.owing Phase.unsentUpstream Phase.unsentDownstream

variable {w w' : World σ} {phase phase' : Phase}

theorem dropSafe_interrupted {request : Request}
    (hsafe : ∀ r ∈ (w.logged (.interrupted request)).log, dropSafe r = true)
    (hsuspended : Suspended request phase) : phase.OwnsNothing :=
  hsuspended.ownsNothing (hsafe { before := w.conn, event := .interrupted request } (by simp))

theorem dropSafe_encodesUp {number : Nat} {id : OperationId} {message : FrontendMessage}
    {error : IoError} (hencode : message.encode w.conn.upstream.maxFrameLen = .error error) :
    ¬∀ r ∈ (w.logged (.sentUpstream number id message)).log, dropSafe r = true := by
  intro hsafe
  have hsent := hsafe { before := w.conn, event := .sentUpstream number id message } (by simp)
  simp [dropSafe, hencode, Except.isOk, Except.toBool] at hsent

theorem dropSafe_encodesDown {source : Option Nat} {message : BackendMessage} {error : IoError}
    (hencode : message.encode w.conn.downstream.maxFrameLen = .error error) :
    ¬∀ r ∈ (w.logged (.sentDownstream source message)).log, dropSafe r = true := by
  intro hsafe
  have hsent := hsafe { before := w.conn, event := .sentDownstream source message } (by simp)
  simp [dropSafe, hencode, Except.isOk, Except.toBool] at hsent

/-! ## Client messages -/

/-- The client messages taken off the transport, in order. -/
structure Clients (w : World σ) (phase : Phase) : Prop where
  numbers : gather Event.clients w.log ++
    (w.conn.pendingFrontend.toList.map PreparedFrontendForwarding.number ++ phase.clients) =
      List.range w.conn.downstream.received
  single : phase.clients ≠ [] → w.conn.pendingFrontend = none

theorem Clients.same (h : Clients w phase)
    (hlog : gather Event.clients w'.log = gather Event.clients w.log)
    (hpending : w'.conn.pendingFrontend = w.conn.pendingFrontend)
    (hphase : phase'.clients = phase.clients)
    (hreceived : w'.conn.downstream.received = w.conn.downstream.received) : Clients w' phase' := by
  refine ⟨?_, ?_⟩
  · rw [hlog, hpending, hphase, hreceived]
    exact h.numbers
  · rw [hpending, hphase]
    exact h.single

theorem Clients.settle {number : Nat} (h : Clients w phase) (hphase : phase.clients = [number])
    (hlog : gather Event.clients w'.log = gather Event.clients w.log ++ [number])
    (hpending : w'.conn.pendingFrontend = w.conn.pendingFrontend) (hphase' : phase'.clients = [])
    (hreceived : w'.conn.downstream.received = w.conn.downstream.received) : Clients w' phase' := by
  have hnone : w.conn.pendingFrontend = none := h.single (by simp [hphase])
  refine ⟨?_, fun hne => absurd hphase' hne⟩
  have hnumbers := h.numbers
  rw [hnone, hphase] at hnumbers
  rw [hlog, hpending, hnone, hphase', hreceived]
  simpa using hnumbers

theorem Clients.move (h : Clients w phase) (hmove : Move (w, phase) (w', phase'))
    (hsafe : ∀ r ∈ w'.log, dropSafe r = true) : Clients w' phase' := by
  cases hmove with
  | receiveFrontend hpending =>
    have hnumbers := h.numbers
    simp only [hpending, Phase.clients, Option.toList_none, List.map_nil, List.append_nil]
      at hnumbers
    refine ⟨?_, fun _ => hpending⟩
    simp [Connection.setTransport, Connection.transport, hpending, Phase.clients, hnumbers,
      List.range_succ]
  | takePrepared hpending =>
    refine ⟨?_, fun _ => rfl⟩
    simpa [hpending, Phase.clients] using h.numbers
  | retain sequence hnumber =>
    have hpending := h.single (by simp [Phase.clients])
    refine ⟨?_, fun hne => absurd rfl hne⟩
    simpa [hpending, hnumber, Phase.clients] using h.numbers
  | reject | suppressFrontend | refuseLocal _ | respond s messages _ _ | commit _ _ =>
    exact h.settle rfl (by simp [Event.clients]) rfl rfl rfl
  | interrupt hsuspended =>
    have hnothing := dropSafe_interrupted hsafe hsuspended
    exact h.same (by simp [Event.clients]) rfl hnothing.clients.symm rfl
  | wrote side count => exact h.same rfl (by simp) rfl (by cases side <;> rfl)
  | release _ _ _ _ =>
    exact h.same (by simp [flatMap_releasedEvents, Event.clients]) rfl rfl rfl
  | _ => exact h.same (by simp [Event.clients]) rfl rfl rfl

/-! ## Server messages -/

/-- The server messages taken off the transport, each once. -/
def Servers (w : World σ) (phase : Phase) : Prop :=
  (gather Event.servers w.log ++ (w.conn.backendHold.numbers ++ phase.servers)).Perm
    (List.range w.conn.upstream.received)

theorem Servers.same (h : Servers w phase)
    (hlog : gather Event.servers w'.log = gather Event.servers w.log)
    (hhold : w'.conn.backendHold.numbers ++ phase'.servers =
      w.conn.backendHold.numbers ++ phase.servers)
    (hreceived : w'.conn.upstream.received = w.conn.upstream.received) : Servers w' phase' := by
  rw [Servers, hlog, hhold, hreceived]
  exact h

/-- Messages `numbers` of the hold or of the running call come to their end. -/
theorem Servers.settle (numbers : List Nat) (h : Servers w phase)
    (hlog : gather Event.servers w'.log = gather Event.servers w.log ++ numbers)
    (hhold : (numbers ++ (w'.conn.backendHold.numbers ++ phase'.servers)).Perm
      (w.conn.backendHold.numbers ++ phase.servers))
    (hreceived : w'.conn.upstream.received = w.conn.upstream.received) : Servers w' phase' := by
  rw [Servers, hlog, hreceived, List.append_assoc]
  exact (List.Perm.append_left _ hhold).trans h

theorem numbers_released {numbers : List Nat} {entries : List LedgerEntry}
    (hlength : numbers.length = entries.length) :
    (releasedEvents numbers entries).flatMap Event.servers = numbers := by
  rw [flatMap_releasedEvents]
  calc ((numbers.zip entries).flatMap fun released => [released.1])
      _ = (numbers.zip entries).map Prod.fst := List.map_eq_flatMap.symm
      _ = numbers := List.map_fst_zip (Nat.le_of_eq hlength)

theorem Servers.move (h : Servers w phase) (hmove : Move (w, phase) (w', phase'))
    (hsafe : ∀ r ∈ w'.log, dropSafe r = true) : Servers w' phase' := by
  cases hmove with
  | receiveBackend s message bytes hpending =>
    have hbefore : (gather Event.servers w.log ++
        w.conn.backendHold.held.map Receipt.number).Perm
        (List.range w.conn.upstream.received) := by
      simpa [Servers, numbers, hpending] using h
    have hafter := hbefore.append_right [w.conn.upstream.received]
    simpa [Servers, numbers, Connection.setTransport, Connection.transport, List.range_succ]
      using hafter
  | hold hpending =>
    refine h.same (by simp) ?_ rfl
    simp [numbers, BackendHold.holdPending, hpending]
  | take output hpending houtput =>
    rcases outputs?_pos houtput with ⟨k, rfl⟩
    refine h.same (by simp) ?_ rfl
    simp [numbers, takePending, hpending]
  | @suppressBackend _ source _ _ _ _ hpending _ =>
    refine h.settle [source.number] (by simp) ?_ rfl
    simpa [numbers, takePending, hpending] using
      (List.perm_append_singleton source.number _).symm
  | @project _ number more message p _ =>
    -- A replacement may be several messages; the source is done with the last of them.
    cases more with
    | zero =>
      refine h.settle [number] (by simp) ?_ rfl
      simpa using (List.perm_append_singleton number _).symm
    | succ k =>
      refine h.same (by simp [emit?]) ?_ rfl
      simp
  -- A refusal ends the call, whatever was left of the replacement.
  | @refuse _ number more message reply p _ hreply =>
    have hnone : emit? ⟨w.conn.pipeline, .backend message, reply, p⟩ = none :=
      emit?_eq_none hreply
    refine h.settle [number] ?_ ?_ rfl
    · cases more with
      | zero => simp
      | succ k => simp [hnone]
    · simpa using (List.perm_append_singleton number _).symm
  | @release _ messages entries _ _ hlength hexec houtputs =>
    refine h.settle (w.conn.backendHold.held.map Receipt.number) ?_ ?_ rfl
    · have hnumbers := numbers_released (length_released hlength houtputs)
      simp [hnumbers]
    · simp [numbers, clear]
  | interrupt hsuspended =>
    have hnothing := dropSafe_interrupted hsafe hsuspended
    exact h.same (by simp) (by rw [hnothing.servers]; rfl) rfl
  | unencodableDown hencode => exact absurd hsafe (dropSafe_encodesDown hencode)
  | wrote side count => exact h.same rfl (by simp) (by cases side <;> rfl)
  | nextDown _ | nextOutput => exact h.same rfl rfl rfl
  | sendDown _ | _ => exact h.same (by simp) rfl rfl

/-! ## The ledger and the encoders -/

/-- What the ledger has forwarded was handed to the encoder, up to what the running call has left. -/
def Upstream (w : World σ) (phase : Phase) : Prop :=
  gather Event.forwards w.log = gather Event.sentUp w.log ++ phase.unsentUpstream

theorem Upstream.same (h : Upstream w phase)
    (hforwards : gather Event.forwards w'.log = gather Event.forwards w.log)
    (hsent : gather Event.sentUp w'.log = gather Event.sentUp w.log)
    (hphase : phase'.unsentUpstream = phase.unsentUpstream) : Upstream w' phase' := by
  rw [Upstream, hforwards, hsent, hphase]
  exact h

theorem Upstream.move (h : Upstream w phase) (hmove : Move (w, phase) (w', phase'))
    (hsafe : ∀ r ∈ w'.log, dropSafe r = true) : Upstream w' phase' := by
  cases hmove with
  | commit _ _ =>
    have hbefore : gather Event.forwards w.log = gather Event.sentUp w.log := by
      simpa [Upstream] using h
    simp [Upstream, hbefore]
  | sendUp _ =>
    simpa [Upstream] using h
  | unencodableUp hencode => exact absurd hsafe (dropSafe_encodesUp hencode)
  | interrupt hsuspended =>
    have hnothing := dropSafe_interrupted hsafe hsuspended
    exact h.same (by simp) (by simp)
      (by rw [hnothing.upstream]; rfl)
  | release _ _ _ _ =>
    exact h.same (by simp [flatMap_releasedEvents])
      (by simp [flatMap_releasedEvents]) rfl
  | _ => exact h.same (by simp) (by simp) rfl

/-- What the ledger has emitted was handed to the encoder, up to what the running call has left. -/
def Downstream (w : World σ) (phase : Phase) : Prop :=
  gather Event.emits w.log = gather Event.sentDown w.log ++ phase.unsentDownstream

theorem Downstream.same (h : Downstream w phase)
    (hemits : gather Event.emits w'.log = gather Event.emits w.log)
    (hsent : gather Event.sentDown w'.log = gather Event.sentDown w.log)
    (hphase : phase'.unsentDownstream = phase.unsentDownstream) : Downstream w' phase' := by
  rw [Downstream, hemits, hsent, hphase]
  exact h

theorem Downstream.emit {emitted : List (Option Nat × BackendMessage)} (h : Downstream w phase)
    (hphase : phase.unsentDownstream = [])
    (hemits : gather Event.emits w'.log = gather Event.emits w.log ++ emitted)
    (hsent : gather Event.sentDown w'.log = gather Event.sentDown w.log)
    (hphase' : phase'.unsentDownstream = emitted) : Downstream w' phase' := by
  have hbefore := h
  rw [Downstream, hphase, List.append_nil] at hbefore
  rw [Downstream, hemits, hsent, hphase', hbefore]

theorem emits_released {receipts : List (Receipt BackendMessage)} {messages : List BackendMessage}
    {entries : List LedgerEntry} (hlength : receipts.length = messages.length)
    (houtputs : entries.map Entry.output = messages.map (fun m => .backend (.ok (.emit m)))) :
    (releasedEvents (receipts.map Receipt.number) entries).flatMap Event.emits =
      (receipts.map fun receipt => some receipt.number).zip messages := by
  rw [flatMap_releasedEvents]
  induction receipts generalizing messages entries with
  | nil => rfl
  | cons receipt receipts ih =>
    cases messages with
    | nil => cases hlength
    | cons message messages =>
      cases entries with
      | nil => cases houtputs
      | cons e entries =>
        have hhead : e.output = .backend (.ok (.emit message)) := (List.cons.inj houtputs).1
        have hrest := ih (Nat.succ.inj hlength) (List.cons.inj houtputs).2
        have hemit : emit? e = some message := by simp [emit?, hhead]
        simp only [Event.emits] at hrest
        simp [Event.emits, hemit, hrest]

theorem Downstream.move (h : Downstream w phase) (hmove : Move (w, phase) (w', phase'))
    (hsafe : ∀ r ∈ w'.log, dropSafe r = true) : Downstream w' phase' := by
  cases hmove with
  | project _ | emitLocal _ _ =>
    exact h.emit rfl (by simp [Event.emits, emit?]) (by simp) rfl
  | release _ hlength _ houtputs =>
    have hemits := emits_released hlength houtputs
    exact h.emit rfl (by simp [hemits]) (by simp [flatMap_releasedEvents]) rfl
  | sendDown _ =>
    simpa [Downstream, Event.emits] using h
  | unencodableDown hencode => exact absurd hsafe (dropSafe_encodesDown hencode)
  | interrupt hsuspended =>
    have hnothing := dropSafe_interrupted hsafe hsuspended
    exact h.same (by simp [Event.emits]) (by simp)
      (by rw [hnothing.downstream]; rfl)
  | @refuse _ _ _ message reply p _ hreply =>
    have hnone : emit? ⟨w.conn.pipeline, .backend message, reply, p⟩ = none :=
      emit?_eq_none hreply
    exact h.same (by simp [Event.emits, hnone]) (by simp) rfl
  | deferLocal _ _ | dropLocal _ _ =>
    exact h.same (by simp [Event.emits, emit?]) (by simp) rfl
  | _ => exact h.same (by simp [Event.emits]) (by simp) rfl

/-! ## Local responses -/

/-- The queued local responses, in order. -/
def Locals (w : World σ) : Prop :=
  gather Event.responses w.log =
    gather Event.answers w.log ++ w.conn.pendingLocal.flatMap PendingLocalResponses.messages

theorem Locals.same (h : Locals w)
    (hresponses : gather Event.responses w'.log = gather Event.responses w.log)
    (hanswers : gather Event.answers w'.log = gather Event.answers w.log)
    (hqueue : w'.conn.pendingLocal.flatMap PendingLocalResponses.messages =
      w.conn.pendingLocal.flatMap PendingLocalResponses.messages) : Locals w' := by
  rw [Locals, hresponses, hanswers, hqueue]
  exact h

theorem Locals.move (h : Locals w) (hmove : Move (w, phase) (w', phase')) : Locals w' := by
  cases hmove with
  | respond s messages _ _ =>
    have hbefore := h
    rw [Locals] at hbefore
    simp [Locals, Event.responses, Event.answers, hbefore]
  | popEmpty hqueue => exact h.same rfl rfl (by simp [hqueue])
  | emitLocal hqueue _ | dropLocal hqueue _ =>
    have hbefore := h
    rw [Locals, hqueue] at hbefore
    simpa [Locals, Event.responses, Event.answers] using hbefore
  | deferLocal hqueue _ =>
    exact h.same (by simp [Event.responses]) (by simp [Event.answers]) (by simp [hqueue])
  | release _ _ _ _ =>
    exact h.same (by simp [flatMap_releasedEvents, Event.responses])
      (by simp [flatMap_releasedEvents, Event.answers]) rfl
  | wrote side count => exact h.same rfl rfl (by simp)
  | _ => exact h.same (by simp [Event.responses]) (by simp [Event.answers]) rfl

/-! ## Encodings -/

/-- Everything handed to an encoder was encoded. -/
structure Encodes (w : World σ) : Prop where
  upstream : ∀ sent ∈ gather Event.sentUp w.log,
    ∃ bytes, sent.2.2.encode w.conn.upstream.maxFrameLen = .ok bytes
  downstream : ∀ sent ∈ gather Event.sentDown w.log,
    ∃ bytes, sent.2.encode w.conn.downstream.maxFrameLen = .ok bytes

theorem Encodes.same (h : Encodes w)
    (hup : gather Event.sentUp w'.log = gather Event.sentUp w.log)
    (hdown : gather Event.sentDown w'.log = gather Event.sentDown w.log)
    (hupstream : w'.conn.upstream.maxFrameLen = w.conn.upstream.maxFrameLen)
    (hdownstream : w'.conn.downstream.maxFrameLen = w.conn.downstream.maxFrameLen) :
    Encodes w' := by
  refine ⟨?_, ?_⟩
  · rw [hup, hupstream]
    exact h.upstream
  · rw [hdown, hdownstream]
    exact h.downstream

theorem Encodes.move (h : Encodes w) (hmove : Move (w, phase) (w', phase'))
    (hsafe : ∀ r ∈ w'.log, dropSafe r = true) : Encodes w' := by
  cases hmove with
  | @sendUp _ number id message _ bytes hencode =>
    refine ⟨?_, by simpa [Connection.setTransport] using h.downstream⟩
    intro sent hsent
    have hcases : sent ∈ gather Event.sentUp w.log ∨ sent = (number, id, message) := by
      simpa using hsent
    rcases hcases with hold | rfl
    · exact h.upstream sent hold
    · exact ⟨bytes, hencode⟩
  | @sendDown _ source message _ _ _ bytes hencode =>
    refine ⟨by simpa [Connection.setTransport] using h.upstream, ?_⟩
    intro sent hsent
    have hcases : sent ∈ gather Event.sentDown w.log ∨ sent = (source, message) := by
      simpa using hsent
    rcases hcases with hold | rfl
    · exact h.downstream sent hold
    · exact ⟨bytes, hencode⟩
  | unencodableUp hencode => exact absurd hsafe (dropSafe_encodesUp hencode)
  | unencodableDown hencode => exact absurd hsafe (dropSafe_encodesDown hencode)
  | release _ _ _ _ =>
    exact h.same (by simp [flatMap_releasedEvents])
      (by simp [flatMap_releasedEvents]) rfl rfl
  | wrote side count => exact h.same rfl rfl (by cases side <;> rfl) (by cases side <;> rfl)
  | _ => exact h.same (by simp) (by simp) rfl rfl

/-! ## Sessions -/

theorem fst_mem_clients {event : Event} {number : Nat}
    (h : number ∈ event.forwards.map Prod.fst) : event.clients = [number] := by
  cases event with
  | admitted n entries =>
    rcases List.mem_map.1 h with ⟨sent, hsent, rfl⟩
    rcases List.mem_map.1 hsent with ⟨_, _, rfl⟩
    rfl
  | _ => cases h

/-- What is forwarded follows the order in which client messages are taken over. -/
theorem forwards_sorted {log : List (Record σ)}
    (h : (gather Event.clients log).Pairwise (· < ·)) :
    ((gather Event.forwards log).map Prod.fst).Pairwise (· ≤ ·) := by
  have hclients := List.pairwise_flatMap.1 h
  rw [gather, List.map_flatMap]
  refine List.pairwise_flatMap.2 ⟨?_, ?_⟩
  · -- One record forwards for one client message.
    intro r _
    refine List.pairwise_of_forall_mem_list ?_
    intro a ha b hb
    have hsame := (fst_mem_clients ha).symm.trans (fst_mem_clients hb)
    exact Nat.le_of_eq (List.cons.inj hsame).1
  · refine hclients.2.imp ?_
    intro r r' hlt a ha b hb
    apply Nat.le_of_lt
    apply hlt
    · simp [fst_mem_clients ha]
    · simp [fst_mem_clients hb]

/-- Nothing is lost or duplicated. -/
structure Intact (w : World σ) : Prop where
  /-- Every client message has been taken over, once and in order, or is retained. -/
  clients : gather Event.clients w.log ++
    w.conn.pendingFrontend.toList.map PreparedFrontendForwarding.number =
      List.range w.conn.downstream.received
  /-- Every server message has come to its end, or is held or pending, once. -/
  servers : (gather Event.servers w.log ++ w.conn.backendHold.numbers).Perm
    (List.range w.conn.upstream.received)
  /-- Every local response has left for good or is queued, in order. -/
  locals : Locals w
  /-- What the ledger has forwarded is encoded and has reached the transport. -/
  forwarded : ∀ sent ∈ gather Event.forwards w.log,
    ∃ bytes, sent.2.2.encode w.conn.upstream.maxFrameLen = .ok bytes
  upstream : w.conn.upstream.wire =
    upstreamBytes w.conn.upstream.maxFrameLen (gather Event.forwards w.log)
  /-- What the ledger has emitted is encoded and has reached the transport. -/
  emitted : ∀ sent ∈ gather Event.emits w.log,
    ∃ bytes, sent.2.encode w.conn.downstream.maxFrameLen = .ok bytes
  downstream : w.conn.downstream.wire =
    downstreamBytes w.conn.downstream.maxFrameLen (gather Event.emits w.log)
  /-- What is forwarded follows the order of receipt. -/
  requests : ((gather Event.forwards w.log).map Prod.fst).Pairwise (· ≤ ·)

/-- What the invariants of the machine say about a connection. -/
structure Accounted (w : World σ) (phase : Phase) : Prop where
  clients : Clients w phase
  servers : Servers w phase
  locals : Locals w
  forwards : Upstream w phase
  emits : Downstream w phase
  encodes : Encodes w
  wires : Wires w

theorem Accounted.move (h : Accounted w phase) (hmove : Move (w, phase) (w', phase'))
    (hsafe : ∀ r ∈ w'.log, dropSafe r = true) : Accounted w' phase' where
  clients := h.clients.move hmove hsafe
  servers := h.servers.move hmove hsafe
  locals := h.locals.move hmove
  forwards := h.forwards.move hmove hsafe
  emits := h.emits.move hmove hsafe
  encodes := h.encodes.move hmove hsafe
  wires := h.wires.move hmove

theorem accounted_new (downstreamLimit upstreamLimit : Nat) (state : σ) (policy : PipelinePolicy)
    (limits : Option BackendHoldLimits) :
    Accounted (World.new (Connection.new downstreamLimit upstreamLimit state policy limits))
      .idle where
  clients := ⟨rfl, fun _ => rfl⟩
  servers := List.Perm.refl _
  locals := rfl
  forwards := rfl
  emits := rfl
  encodes := ⟨fun _ h => (List.not_mem_nil h).elim, fun _ h => (List.not_mem_nil h).elim⟩
  wires := ⟨rfl, rfl⟩

theorem Accounted.emits_eq (h : Accounted w .idle) :
    gather Event.emits w.log = gather Event.sentDown w.log := by
  simpa [Downstream] using h.emits

theorem Accounted.intact (h : Accounted w .idle) : Intact w := by
  have hforwards : gather Event.forwards w.log = gather Event.sentUp w.log := by
    simpa [Upstream] using h.forwards
  have hclients : gather Event.clients w.log ++
      w.conn.pendingFrontend.toList.map PreparedFrontendForwarding.number =
        List.range w.conn.downstream.received := by
    simpa [Phase.clients] using h.clients.numbers
  have hsorted : (gather Event.clients w.log).Pairwise (· < ·) := by
    have hrange : (List.range w.conn.downstream.received).Pairwise (· < ·) := List.pairwise_lt_range
    rw [← hclients] at hrange
    exact hrange.sublist (List.sublist_append_left _ _)
  exact
    { clients := hclients
      servers := by simpa [Servers] using h.servers
      locals := h.locals
      forwarded := by rw [hforwards]; exact h.encodes.upstream
      upstream := by rw [hforwards]; exact h.wires.upstream
      emitted := by rw [h.emits_eq]; exact h.encodes.downstream
      downstream := by rw [h.emits_eq]; exact h.wires.downstream
      requests := forwards_sorted hsorted }

/-- In every session in which calls end early only at awaits where they own nothing, and everything
handed to an encoder can be encoded: after every call and every drop, nothing is lost or duplicated,
and the ledger has advanced only for messages whose encoding has reached the transport.  Where no
output is produced while an earlier message is held, nothing is reordered either. -/
theorem cancellation_safe {handlers : Handlers σ} {downstreamLimit upstreamLimit : Nat} {state : σ}
    {policy : PipelinePolicy} {limits : Option BackendHoldLimits}
    {h : List (Session.SessionEntry σ ε)} {w : World σ}
    (hr : Session.Run ε handlers
      (Connection.new downstreamLimit upstreamLimit state policy limits) h w)
    (hsafe : ∀ r ∈ w.log, dropSafe r = true) :
    Intact w ∧ ((∀ r ∈ w.log, KeepsOrder r) →
      ((gather Event.emits w.log).filterMap Prod.fst).Pairwise (· ≤ ·)) := by
  have haccounted : Accounted w .idle :=
    hr.invariant_when (fun r => dropSafe r = true) Accounted hsafe
      (accounted_new downstreamLimit upstreamLimit state policy limits)
      fun h hmove hcond => h.move hmove hcond
  refine ⟨haccounted.intact, ?_⟩
  intro horder
  have hline : Line w .idle :=
    hr.invariant_when KeepsOrder Line horder (line_new rfl) fun h hmove hcond => h.move hmove hcond
  rw [haccounted.emits_eq]
  exact hline.sorted.sublist (List.sublist_append_left _ _)

end Cancellation

/-- A query is dropped while its last byte is being written and a row while the middleware looks at
it; the next calls go on. -/
theorem cancellation_safe_retry :
    ∃ (h : List (Session.SessionEntry Unit Unit)) (w : World Unit),
      Session.Run Unit (Handlers.identity Unit) holdingConnection h w ∧
      gather Event.interruptions w.log =
        [.write .upstream 0, .backendOperation (some 0) (.dataRow ⟨[none]⟩)] ∧
      outputs w.log = [0] ∧ Intact w ∧
      ((gather Event.emits w.log).filterMap Prod.fst).Pairwise (· ≤ ·) := by
  obtain ⟨h, w, hr, hdrops, houtputs, hsafe, horder⟩ := Session.exists_identity_run holdingConnection
      (fun _ w => gather Event.interruptions w.log =
          [.write .upstream 0, .backendOperation (some 0) (.dataRow ⟨[none]⟩)] ∧
        outputs w.log = [0] ∧ (∀ r ∈ w.log, dropSafe r = true) ∧ ∀ r ∈ w.log, KeepsOrder r)
      [(.forwardFrontend, List.replicate 3 (Session.fromClient (.query []) (.forward (.query [])))),
       (.forwardBackend,
        List.replicate 1 (Session.fromServer (.dataRow ⟨[none]⟩) .hold .keepHolding)),
       (.forwardNext,
        List.replicate 8 (Session.fromServer (.dataRow ⟨[none]⟩) (.forward (.dataRow ⟨[none]⟩))
          .keepHolding))] (by decide +kernel)
  obtain ⟨hintact, hresponses⟩ := cancellation_safe hr hsafe
  exact ⟨h, w, hr, hdrops, houtputs, hintact, hresponses horder⟩

/-- Dropped in `frontend_operation`, a call takes the client's message with it: nothing of the
connection holds it.  Dropped in `observe_transition`, it leaves a ledger that has forwarded a message
of which no byte has reached the transport. -/
theorem dropped_calls_lose_messages :
    (∃ (h : List (Session.SessionEntry Unit Unit)) (w : World Unit),
      Session.Run Unit (Handlers.identity Unit) holdingConnection h w ∧
      gather Event.interruptions w.log = [.frontendOperation 0 (.query [])] ∧
      w.conn.downstream.received = 1 ∧ w.conn.pendingFrontend = none ∧ w.conn.pendingLocal = [] ∧
      w.conn.pipeline.operations = [] ∧ w.conn.upstream.wire = [] ∧ ¬Intact w) ∧
    (∃ (h : List (Session.SessionEntry Unit Unit)) (w : World Unit),
      Session.Run Unit (Handlers.identity Unit) holdingConnection h w ∧
      h.map Entry.input = [.forwardFrontend] ∧
      (gather Event.forwards w.log).map Prod.snd = [(0, .query [])] ∧
      w.conn.upstream.wire = [] ∧ ¬Intact w) := by
  constructor
  · obtain ⟨h, w, hr, hdrop, hreceived, hpending, hlocal, hledger, hwire, hclients⟩ :=
        Session.exists_identity_run holdingConnection
        (fun _ w => gather Event.interruptions w.log = [.frontendOperation 0 (.query [])] ∧
          w.conn.downstream.received = 1 ∧ w.conn.pendingFrontend = none ∧
          w.conn.pendingLocal = [] ∧ w.conn.pipeline.operations = [] ∧ w.conn.upstream.wire = [] ∧
          gather Event.clients w.log = [])
        [(.forwardFrontend,
          List.replicate 1 (Session.fromClient (.query []) (.forward (.query []))))]
        (by decide +kernel)
    refine ⟨h, w, hr, hdrop, hreceived, hpending, hlocal, hledger, hwire, ?_⟩
    intro hintact
    have hnumbers := hintact.clients
    simp [hclients, hpending, hreceived] at hnumbers
  · obtain ⟨h, w, hr, hcalls, hforwards, hwire, hbytes⟩ :=
        Session.exists_identity_run holdingConnection
        (fun h w => h.map Entry.input = [.forwardFrontend] ∧
          gather Event.forwards w.log = [(0, 0, .query [])] ∧
          w.conn.upstream.wire = [] ∧
          upstreamBytes w.conn.upstream.maxFrameLen (gather Event.forwards w.log) ≠ [])
        [(.forwardFrontend,
          List.replicate 2 (Session.fromClient (.query []) (.forward (.query []))))]
        (by decide +kernel)
    refine ⟨h, w, hr, hcalls, by rw [hforwards]; rfl, hwire, ?_⟩
    intro hintact
    exact hbytes (hintact.upstream.symm.trans hwire)

end PgProto
