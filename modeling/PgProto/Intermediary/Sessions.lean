import PgProto.Intermediary.Simulation

/-!
# Sessions — runs of an intermediary connection

A session is a finite sequence of forwarding calls on one connection, with whatever the middleware
and the transports answer, in which every call may be dropped at any of its awaits.

* `Session.Run.reach` — a session is a path of the machine from idle to idle, so that an invariant of
  the machine holds after every call and in every state a drop can leave;
* `Session.Run.ledger` — the ledger steps of a session form a run of the ledger;
* `Session.Run.wires` — what has reached the transports is the encoding of what was sent;
* `Session.play` — the session of given calls against given answers.
-/

namespace PgProto

open Lib
open Pipeline (LedgerEntry)

/-! ## Calls -/

inductive ForwardCall
  | forwardFrontend
  | forwardBackend
  | forwardNext
  | flushBackendHold
  | prepareBackendTeardown
  deriving DecidableEq, Repr

inductive CallResult
  | frontend (outcome : FrontendForwarding)
  | backend (outcome : BackendForwarding)
  | next (outcome : ForwardedMessage)
  | batch (outcome : BackendBatchForwarding)
  deriving DecidableEq, Repr

/-- The body of a call. -/
def perform {σ ε : Type} (handlers : Handlers σ) : ForwardCall → Forward σ ε CallResult
  | .forwardFrontend => do
    let outcome ← forwardFrontend handlers
    return .frontend outcome
  | .forwardBackend => do
    let outcome ← forwardBackend handlers
    return .backend outcome
  | .forwardNext => do
    let outcome ← forwardNext handlers
    return .next outcome
  | .flushBackendHold => do
    let outcome ← flushBackendHold handlers
    return .batch outcome
  | .prepareBackendTeardown => do
    let outcome ← prepareBackendTeardown handlers
    return .batch outcome

inductive CallOutcome (ε : Type)
  | returned (result : CallResult)
  | failed (error : ForwardError ε)
  | dropped (request : Request)

/-- The call returned an error. -/
def CallOutcome.hasFailed {ε : Type} : CallOutcome ε → Bool
  | .failed _ => true
  | _ => false

namespace Session

variable {σ ε : Type}

/-- One call.  A panic has no step.  Middleware that is dropped may have changed the shared state. -/
inductive Step (handlers : Handlers σ) : World σ → ForwardCall → CallOutcome ε → World σ → Prop
  | returned {w w' : World σ} {call : ForwardCall} {result : CallResult} :
      ((perform handlers call : Forward σ ε CallResult) w).Leads (.returned (.ok result)) w' →
      Step handlers w call (.returned result) w'
  | failed {w w' : World σ} {call : ForwardCall} {error : ForwardError ε} :
      ((perform handlers call : Forward σ ε CallResult) w).Leads
        (.returned (.error (.failed error))) w' →
      Step handlers w call (.failed error) w'
  | dropped {w w' : World σ} {call : ForwardCall} {request : Request} (s : σ) :
      ((perform handlers call : Forward σ ε CallResult) w).Leads (.dropped request) w' →
      Step handlers w call (.dropped request) ((w'.setState s).logged (.interrupted request))

abbrev SessionEntry (σ ε : Type) := Entry (World σ) ForwardCall (CallOutcome ε)

/-- The finite sessions of a connection. -/
abbrev Run (ε : Type) (handlers : Handlers σ) (conn : Connection σ)
    (h : List (SessionEntry σ ε)) (w : World σ) : Prop :=
  History (Step handlers) (World.new conn) h w

/-! ## Sessions as paths of the machine -/

variable {handlers : Handlers σ} {w : World σ} {conn : Connection σ} {h : List (SessionEntry σ ε)}

theorem perform_goes {x : World σ × Phase} (call : ForwardCall) (hreach : Reach x (w, .idle)) :
    Goes (ε := ε) x (perform handlers call) .idle w := by
  have hreturn {α : Type} {m : Forward σ ε α} {result : α → CallResult} (hm : Goes x m .idle w) :
      Goes x (m >>= fun a => pure (result a)) .idle w := by
    rw [Goes, Async.wp_bind]
    exact Async.wp_mono hm (fun _ _ h => h) fun _ _ h => h
  cases call with
  | forwardFrontend => exact hreturn (forwardFrontend_goes hreach)
  | forwardBackend => exact hreturn (forwardBackend_goes hreach)
  | forwardNext => exact hreturn (forwardNext_goes hreach)
  | flushBackendHold => exact hreturn (flushBackendHoldFor_goes hreach)
  | prepareBackendTeardown => exact hreturn (prepareBackendTeardown_goes hreach)

theorem Step.reach {x : World σ × Phase} {w' : World σ} {call : ForwardCall}
    {outcome : CallOutcome ε} (hstep : Step handlers w call outcome w')
    (hreach : Reach x (w, .idle)) : Reach x (w', .idle) := by
  have hgoes : Goes (ε := ε) x (perform handlers call) .idle w := perform_goes call hreach
  cases hstep with
  | returned hleads | failed hleads => exact Resume.Holds.sound hgoes hleads
  | dropped s hleads =>
    rcases Resume.Holds.sound hgoes hleads with ⟨phase, hsuspended, hphase⟩
    exact (hphase.tail (.state s)).tail (.interrupt hsuspended)

theorem Run.reach (hr : Run ε handlers conn h w) : Reach (World.new conn, .idle) (w, .idle) := by
  induction hr with
  | nil => exact .refl
  | snoc _ hstep ih => exact hstep.reach ih

/-- An invariant of the machine holds at the end of every session. -/
theorem Run.invariant (Inv : World σ → Phase → Prop) (hr : Run ε handlers conn h w)
    (hnew : Inv (World.new conn) .idle)
    (hmove : ∀ {w phase w' phase'}, Inv w phase → Move (w, phase) (w', phase') → Inv w' phase') :
    Inv w .idle :=
  hr.reach.invariant hnew hmove

/-- The same for an invariant that needs a condition on what the session does: when every record of
the session meets it, the invariant holds at the end. -/
theorem Run.invariant_when (Cond : Record σ → Prop) (Inv : World σ → Phase → Prop)
    (hr : Run ε handlers conn h w) (hcond : ∀ r ∈ w.log, Cond r) (hnew : Inv (World.new conn) .idle)
    (hmove : ∀ {w phase w' phase'}, Inv w phase → Move (w, phase) (w', phase') →
      (∀ r ∈ w'.log, Cond r) → Inv w' phase') : Inv w .idle := by
  refine hr.invariant (fun w phase => (∀ r ∈ w.log, Cond r) → Inv w phase) (fun _ => hnew) ?_ hcond
  intro w phase w' phase' hinv hstep hcond'
  rcases hstep.log_append with ⟨more, hlog⟩
  refine hmove (hinv ?_) hstep hcond'
  intro r hr
  exact hcond' r (by rw [hlog]; exact List.mem_append_left more hr)

/-! ## Sessions against given answers -/

/-- Answers for the awaits of one call, in order; a call whose script ends is dropped. -/
abbrev Script (σ ε : Type) := List ((r : Request) → Option (Answer σ ε r))

/-- The outcome of a call against a script, and what it leaves; nothing for a panic. -/
def callWith (handlers : Handlers σ) (w : World σ) (call : ForwardCall) (script : Script σ ε) :
    Option (CallOutcome ε × World σ) :=
  match ((perform handlers call : Forward σ ε CallResult) w).drive script with
  | (.returned (.ok result), t) => some (.returned result, t)
  | (.returned (.error (.failed error)), t) => some (.failed error, t)
  | (.returned (.error (.panicked _)), _) => none
  | (.dropped request, t) => some (.dropped request, t.logged (.interrupted request))

theorem callWith_step {t : World σ} {call : ForwardCall} {script : Script σ ε}
    {outcome : CallOutcome ε} (hcall : callWith handlers w call script = some (outcome, t)) :
    Step handlers w call outcome t := by
  have hleads := Resume.drive_leads ((perform handlers call : Forward σ ε CallResult) w) script
  unfold callWith at hcall
  revert hleads hcall
  generalize ((perform handlers call : Forward σ ε CallResult) w).drive script = result
  intro hcall hleads
  rcases result with ⟨(⟨error | error⟩ | result) | request, u⟩
  · cases hcall
    exact Step.failed hleads
  · cases hcall
  · cases hcall
    exact Step.returned hleads
  · cases hcall
    exact Step.dropped u.conn.state hleads

def play (handlers : Handlers σ) :
    World σ → List (ForwardCall × Script σ ε) → Option (List (SessionEntry σ ε) × World σ)
  | w, [] => some ([], w)
  | w, (call, script) :: calls =>
    match callWith handlers w call script with
    | none => none
    | some (outcome, t) =>
      match play handlers t calls with
      | none => none
      | some (h, u) => some (⟨w, call, outcome, t⟩ :: h, u)

theorem play_history {calls : List (ForwardCall × Script σ ε)} {t : World σ}
    (hplay : play handlers w calls = some (h, t)) : History (Step handlers) w h t := by
  induction calls generalizing w h with
  | nil =>
    cases hplay
    exact History.nil
  | cons input calls ih =>
    rcases input with ⟨call, script⟩
    cases hcall : callWith handlers w call script with
    | none => simp [play, hcall] at hplay
    | some r =>
      rcases r with ⟨outcome, m⟩
      cases hrest : play handlers m calls with
      | none => simp [play, hcall, hrest] at hplay
      | some r =>
        rcases r with ⟨h', u⟩
        have heq : Entry.mk w call outcome m :: h' = h ∧ u = t := by
          simpa [play, hcall, hrest] using hplay
        rcases heq with ⟨rfl, rfl⟩
        exact (History.single (callWith_step hcall)).append (ih hrest)

theorem exists_run (calls : List (ForwardCall × Script σ ε))
    (P : List (SessionEntry σ ε) → World σ → Prop)
    [DecidablePred fun r : List (SessionEntry σ ε) × World σ => P r.1 r.2]
    (hplay : (play handlers (World.new conn) calls).any (fun r => decide (P r.1 r.2)) = true) :
    ∃ h w, Run ε handlers conn h w ∧ P h w := by
  rcases (Option.any_eq_true _ _).1 hplay with ⟨⟨h, w⟩, hresult, hdecide⟩
  exact ⟨h, w, play_history hresult, (decide_eq_true_iff (p := P (h, w).1 (h, w).2)).1 hdecide⟩

theorem exists_identity_run (conn : Connection Unit)
    (P : List (SessionEntry Unit Unit) → World Unit → Prop)
    [DecidablePred fun r : List (SessionEntry Unit Unit) × World Unit => P r.1 r.2]
    (calls : List (ForwardCall × Script Unit Unit))
    (hplay : (play (Handlers.identity Unit) (World.new conn) calls).any
      (fun r => decide (P r.1 r.2)) = true) :
    ∃ h w, Run Unit (Handlers.identity Unit) conn h w ∧ P h w :=
  exists_run calls P hplay

/-- Answers to a call that forwards a client message. -/
def fromClient (message : FrontendMessage) (output : FrontendMiddlewareOutput) :
    (r : Request) → Option (Answer Unit Unit r)
  | .receiveFrontend => some (.ok message)
  | .frontendOperation _ _ => some (.ok output, ())
  | .observeTransition _ => some ()
  | .write _ _ => some (.ok 64)
  | .flush _ _ => some (.ok ())
  | _ => none

/-- Answers to a call that forwards a server message or flushes the hold. -/
def fromServer (message : BackendMessage) (output : BackendMiddlewareOutput)
    (batch : BackendBatchOutput) : (r : Request) → Option (Answer Unit Unit r)
  | .receiveBackend => some (.ok message)
  | .backendOperation _ _ => some (.ok output, ())
  | .flushBackendOperations _ _ _ => some (.ok batch, ())
  | .observeTransition _ => some ()
  | .write _ _ => some (.ok 64)
  | .flush _ _ => some (.ok ())
  | _ => none

/-- The call that forwards a client message, with more answers than it asks for. -/
def sends (message : FrontendMessage) (output : FrontendMiddlewareOutput) :
    ForwardCall × Script Unit Unit :=
  (.forwardFrontend, List.replicate 9 (fromClient message output))

/-- The call that forwards a server message. -/
def returns (message : BackendMessage) (output : BackendMiddlewareOutput)
    (batch : BackendBatchOutput) : ForwardCall × Script Unit Unit :=
  (.forwardBackend, List.replicate 9 (fromServer message output batch))

/-- The call that flushes the hold: nothing is received, so the message is immaterial. -/
def releases (batch : BackendBatchOutput) : ForwardCall × Script Unit Unit :=
  (.flushBackendHold, List.replicate 9 (fromServer .emptyQueryResponse .hold batch))

end Session

/-- A connection of one outstanding operation that may hold four messages. -/
def holdingConnection : Connection Unit :=
  Connection.new 64 64 () .noPipeline (some ⟨4, 64, by decide, by decide⟩)

/-- A connection of up to eight outstanding operations. -/
def pipeliningConnection : Connection Unit :=
  Connection.new 64 64 () (.bounded ⟨8, by decide⟩) none

/-! ## What a log says -/

section Invariants

variable {σ ε : Type}

/-- What the events of a log amount to, in order. -/
def gather {α : Type} (f : Event → List α) (log : List (Record σ)) : List α :=
  log.flatMap fun r => f r.event

section Gather

variable {α : Type} (f : Event → List α)

@[simp] theorem gather_append (log more : List (Record σ)) :
    gather f (log ++ more) = gather f log ++ gather f more := by
  simp [gather]

@[simp] theorem gather_cons (r : Record σ) (log : List (Record σ)) :
    gather f (r :: log) = f r.event ++ gather f log := by
  simp [gather]

@[simp] theorem gather_nil : gather f ([] : List (Record σ)) = [] := rfl

@[simp] theorem gather_loggedAll (c : Connection σ) (events : List Event) :
    gather f (events.map fun event => { before := c, event := event }) = events.flatMap f := by
  simp [gather, List.flatMap_map]

theorem flatMap_releasedEvents (numbers : List Nat) (entries : List LedgerEntry) :
    (releasedEvents numbers entries).flatMap f =
      (numbers.zip entries).flatMap fun released => f (.projected (some released.1) 0 released.2) := by
  rw [releasedEvents, ← List.map_uncurry_zip_eq_zipWith, List.flatMap_map]
  rfl

end Gather

/-! ## The ledger of a session -/

/-- The steps of the ledger in an event. -/
def Event.entries : Event → List LedgerEntry
  | .queued _ entry _ _ | .projected _ _ entry | .suppressed _ entry => [entry]
  | .admitted _ entries => entries
  | _ => []

abbrev ledgerOf (log : List (Record σ)) : List LedgerEntry := gather Event.entries log

theorem entries_releasedEvents {numbers : List Nat} {entries : List LedgerEntry}
    (hlength : numbers.length = entries.length) :
    (releasedEvents numbers entries).flatMap Event.entries = entries := by
  rw [flatMap_releasedEvents]
  calc ((numbers.zip entries).flatMap fun released => [released.2])
      _ = (numbers.zip entries).map Prod.snd := List.map_eq_flatMap.symm
      _ = entries := List.map_snd_zip (Nat.le_of_eq hlength.symm)

variable {receipts : List (Receipt BackendMessage)} {messages : List BackendMessage}
  {w w' : World σ} {phase phase' : Phase} {handlers : Handlers σ} {conn : Connection σ}
  {h : List (Session.SessionEntry σ ε)}

theorem length_released {entries : List LedgerEntry} (hlength : receipts.length = messages.length)
    (houtputs : entries.map Entry.output = messages.map (fun m => .backend (.ok (.emit m)))) :
    (receipts.map Receipt.number).length = entries.length := by
  have hcounts := congrArg List.length houtputs
  simp only [List.length_map] at hcounts
  simp [hlength, hcounts]

theorem forall_released {P : Record σ → LedgerEntry → Prop} {c : Connection σ}
    {log : List (Record σ)} {entries : List LedgerEntry}
    (h : ∀ r ∈ log ++ (releasedEvents (receipts.map Receipt.number) entries).map
      (fun event => { before := c, event := event }), ∀ e ∈ r.event.entries, P r e)
    (hlength : receipts.length = messages.length)
    (houtputs : entries.map Entry.output = messages.map (fun m => .backend (.ok (.emit m)))) :
    ∀ e ∈ entries, ∃ r : Record σ, r.before = c ∧ P r e := by
  intro e he
  rw [← entries_releasedEvents (length_released hlength houtputs)] at he
  rcases List.mem_flatMap.1 he with ⟨event, hevent, hentry⟩
  refine ⟨{ before := c, event := event }, rfl, ?_⟩
  exact h _ (List.mem_append_right _ (List.mem_map_of_mem hevent)) e hentry

theorem Move.ledger (hmove : Move (w, phase) (w', phase')) :
    ∃ entries, ledgerOf w'.log = ledgerOf w.log ++ entries ∧
      History Pipeline.Step w.conn.pipeline entries w'.conn.pipeline := by
  cases hmove with
  | commit hhistory _ => exact ⟨_, by simp [Event.entries], hhistory⟩
  | @respond _ number request _ admission _ p s messages haccept _ =>
    have hstep : Pipeline.Step w.conn.pipeline (.frontend request .local)
        (.frontend (.ok admission)) p := by
      simp [Pipeline.Step, Calls, Pipeline.call, haccept, Except.map]
    exact ⟨_, by simp [Event.entries], History.single hstep⟩
  | suppressBackend _ hstep | project hstep | refuse hstep _ | emitLocal _ hstep
  | deferLocal _ hstep | dropLocal _ hstep =>
    exact ⟨_, by simp [Event.entries], History.single hstep⟩
  | @release _ messages entries _ _ hlength hexec houtputs =>
    refine ⟨entries, ?_, .of_exec _ hexec⟩
    have hentries := entries_releasedEvents (length_released hlength houtputs)
    simp [hentries]
  | _ => exact ⟨[], by simp [Event.entries], by simpa using History.nil⟩

theorem Session.Run.ledger {policy : PipelinePolicy} (hr : Session.Run ε handlers conn h w)
    (hconn : conn.pipeline = Pipeline.new policy) :
    Pipeline.Run policy (ledgerOf w.log) w.conn.pipeline := by
  refine hr.invariant (fun w _ => Pipeline.Run policy (ledgerOf w.log) w.conn.pipeline) ?_ ?_
  · have hnew : (World.new conn).conn.pipeline = Pipeline.new policy := hconn
    rw [hnew]
    exact History.nil
  · intro w phase w' phase' hrun hmove
    rcases hmove.ledger with ⟨entries, hlog, hhistory⟩
    rw [hlog]
    exact hrun.append hhistory

/-! ## The wires -/

/-- The encoding of a message, empty when there is none. -/
def encoded (encoding : Except IoError Bytes) : Bytes :=
  match encoding with
  | .ok bytes => bytes
  | .error _ => []

/-- Messages handed to the encoder of the server side, each with the client message it was admitted
for. -/
def Event.sentUp : Event → List (Nat × OperationId × FrontendMessage)
  | .sentUpstream number operation message => [(number, operation, message)]
  | _ => []

/-- Messages handed to the encoder of the client side, each with the server message it was made
for. -/
def Event.sentDown : Event → List (Option Nat × BackendMessage)
  | .sentDownstream source message => [(source, message)]
  | _ => []

def upstreamBytes (limit : Nat) (sent : List (Nat × OperationId × FrontendMessage)) : Bytes :=
  sent.flatMap fun s => encoded (s.2.2.encode limit)

def downstreamBytes (limit : Nat) (sent : List (Option Nat × BackendMessage)) : Bytes :=
  sent.flatMap fun s => encoded (s.2.encode limit)

/-- What was written and what waits in the buffers is what was sent, in order. -/
structure Wires (w : World σ) : Prop where
  upstream : w.conn.upstream.wire =
    upstreamBytes w.conn.upstream.maxFrameLen (gather Event.sentUp w.log)
  downstream : w.conn.downstream.wire =
    downstreamBytes w.conn.downstream.maxFrameLen (gather Event.sentDown w.log)

@[simp] theorem Transport.wire_advance (t : Transport) (count : Nat) :
    (t.advance count).wire = t.wire := by
  simp [Transport.wire, Transport.advance]

@[simp] theorem Transport.wire_append (t : Transport) (bytes : Bytes) :
    (t.append bytes).wire = t.wire ++ bytes := by
  simp [Transport.wire, Transport.append]

attribute [local simp] Event.sentUp Event.sentDown

theorem Wires.same (h : Wires w) (hup : gather Event.sentUp w'.log = gather Event.sentUp w.log)
    (hdown : gather Event.sentDown w'.log = gather Event.sentDown w.log)
    (hupstream : w'.conn.upstream.wire = w.conn.upstream.wire ∧
      w'.conn.upstream.maxFrameLen = w.conn.upstream.maxFrameLen)
    (hdownstream : w'.conn.downstream.wire = w.conn.downstream.wire ∧
      w'.conn.downstream.maxFrameLen = w.conn.downstream.maxFrameLen) : Wires w' := by
  refine ⟨?_, ?_⟩
  · rw [hup, hupstream.1, hupstream.2]
    exact h.upstream
  · rw [hdown, hdownstream.1, hdownstream.2]
    exact h.downstream

theorem Wires.sendUp {number : Nat} {id : OperationId} {message : FrontendMessage} {t : Transport}
    (h : Wires w) (hwire : t.wire = w.conn.upstream.wire ++ encoded (message.encode t.maxFrameLen))
    (hlimit : t.maxFrameLen = w.conn.upstream.maxFrameLen) :
    Wires ((w.logged (.sentUpstream number id message)).setTransport .upstream t) := by
  refine ⟨?_, ?_⟩
  · have hup := h.upstream
    rw [← hlimit] at hup
    simp [Connection.setTransport, upstreamBytes, hwire, hup]
  · simpa [Connection.setTransport] using h.downstream

theorem Wires.sendDown {source : Option Nat} {message : BackendMessage} {t : Transport}
    (h : Wires w)
    (hwire : t.wire = w.conn.downstream.wire ++ encoded (message.encode t.maxFrameLen))
    (hlimit : t.maxFrameLen = w.conn.downstream.maxFrameLen) :
    Wires ((w.logged (.sentDownstream source message)).setTransport .downstream t) := by
  refine ⟨?_, ?_⟩
  · simpa [Connection.setTransport] using h.upstream
  · have hdown := h.downstream
    rw [← hlimit] at hdown
    simp [Connection.setTransport, downstreamBytes, hwire, hdown]

theorem Wires.move (h : Wires w) (hmove : Move (w, phase) (w', phase')) : Wires w' := by
  cases hmove with
  | @sendUp _ _ _ message _ bytes hencode =>
    have hbytes : encoded (message.encode w.conn.upstream.maxFrameLen) = bytes := by
      rw [hencode]
      rfl
    exact h.sendUp (by rw [Transport.wire_append]; exact congrArg _ hbytes.symm) rfl
  | @sendDown _ _ message _ _ _ bytes hencode =>
    have hbytes : encoded (message.encode w.conn.downstream.maxFrameLen) = bytes := by
      rw [hencode]
      rfl
    exact h.sendDown (by rw [Transport.wire_append]; exact congrArg _ hbytes.symm) rfl
  | unencodableUp hencode =>
    -- The transport keeps its bytes, and the encoding is empty.
    exact h.sendUp (t := w.conn.upstream) (by simp [hencode, encoded]) rfl
  | unencodableDown hencode =>
    exact h.sendDown (t := w.conn.downstream) (by simp [hencode, encoded]) rfl
  | wrote side count =>
    cases side with
    | upstream => exact h.same rfl rfl ⟨Transport.wire_advance _ _, rfl⟩ ⟨rfl, rfl⟩
    | downstream => exact h.same rfl rfl ⟨rfl, rfl⟩ ⟨Transport.wire_advance _ _, rfl⟩
  | release _ _ _ _ =>
    exact h.same (by simp [flatMap_releasedEvents])
      (by simp [flatMap_releasedEvents]) ⟨rfl, rfl⟩ ⟨rfl, rfl⟩
  | _ => exact h.same (by simp) (by simp) ⟨rfl, rfl⟩ ⟨rfl, rfl⟩

theorem Session.Run.wires (hr : Session.Run ε handlers conn h w) (hup : conn.upstream.wire = [])
    (hdown : conn.downstream.wire = []) : Wires w :=
  hr.invariant (fun w _ => Wires w) ⟨hup, hdown⟩ fun hwires hmove => hwires.move hmove

/-! ## What is sent upstream -/

/-- Messages the ledger forwards, each with the client message it was admitted for. -/
def Event.forwards : Event → List (Nat × OperationId × FrontendMessage)
  | .admitted number entries => (entries.filterMap forward?).map fun sent => (number, sent)
  | _ => []

/-- What was sent to the server, and what the running call has still to send, is what the ledger has
forwarded, in order and less what was lost. -/
def Sends (w : World σ) (phase : Phase) : Prop :=
  (gather Event.sentUp w.log ++ phase.unsentUpstream).Sublist (gather Event.forwards w.log)

attribute [local simp] Event.forwards Phase.unsentUpstream

theorem Sends.same (h : Sends w phase)
    (hforwards : gather Event.forwards w'.log = gather Event.forwards w.log)
    (hsent : (gather Event.sentUp w'.log ++ phase'.unsentUpstream).Sublist
      (gather Event.sentUp w.log ++ phase.unsentUpstream)) : Sends w' phase' := by
  rw [Sends, hforwards]
  exact hsent.trans h

theorem Sends.move (h : Sends w phase) (hmove : Move (w, phase) (w', phase')) :
    Sends w' phase' := by
  cases hmove with
  | commit _ _ =>
    have hbefore : (gather Event.sentUp w.log).Sublist (gather Event.forwards w.log) := by
      simpa [Sends] using h
    simpa [Sends] using hbefore
  | sendUp _ | unencodableUp _ =>
    exact h.same (by simp) (by simp)
  | interrupt _ =>
    refine h.same (by simp) ?_
    simp
  | release _ _ _ _ =>
    exact h.same (by simp [flatMap_releasedEvents])
      (by simp [flatMap_releasedEvents])
  | state s | wrote side count | nextUp | endUp => exact h
  | _ => exact h.same (by simp) (by simp)

/-- A session sends nothing upstream but what the ledger has forwarded, and that in order. -/
theorem Session.Run.sends (hr : Session.Run ε handlers conn h w) :
    (gather Event.sentUp w.log).Sublist (gather Event.forwards w.log) := by
  have hsends : Sends w .idle :=
    hr.invariant Sends (List.nil_sublist _) fun hsends hmove => hsends.move hmove
  simpa [Sends] using hsends

end Invariants
end PgProto
