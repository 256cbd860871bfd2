import PgProto.Intermediary.Forwarding
import PgProto.Intermediary.Machine

/-!
# Simulation — every forwarding call is a path of the machine

Each forwarding function is followed through its body once.  `Goes x m phase w` says: if the machine
has reached `w` from `x`, then whatever the environment answers, the machine can follow `m` — it is
in a suspended phase at every await, idle when `m` fails, and in `phase` when `m` returns.

* `forwardFrontend_goes`, `forwardBackend_goes`, `forwardNext_goes`, `flushBackendHoldFor_goes` —
  the public calls lead from idle to idle.
-/

namespace PgProto

open Lib
open Async (wp_bind wp_mono wp_ask)
open Pipeline (LedgerEntry)

section Simulation

variable {σ ε α : Type} {x : World σ × Phase} {w : World σ}

/-- The machine can be where the call is suspended. -/
def Suspends (x : World σ × Phase) (request : Request) (w : World σ) : Prop :=
  ∃ phase, Suspended request phase ∧ Reach x (w, phase)

/-- The machine is idle after a failure; a panic ends the run. -/
def Stops (x : World σ × Phase) : Stop ε → World σ → Prop
  | .failed _, w => Reach x (w, .idle)
  | .panicked _, _ => True

/-- The machine can follow the computation from `w` and is then in `phase`. -/
def Goes (x : World σ × Phase) (m : Forward σ ε α) (phase : Phase) (w : World σ) : Prop :=
  m.wp (Suspends x) (Stops x) (fun _ t => Reach x (t, phase)) w

/-! ## Primitives -/

section Primitives

variable {I : Request → World σ → Prop} {F : Stop ε → World σ → Prop}

@[simp] theorem wp_connection {Q : Connection σ → World σ → Prop} :
    (connection : Forward σ ε (Connection σ)).wp I F Q w ↔ Q w.conn w := Iff.rfl

variable {Q : Unit → World σ → Prop}

@[simp] theorem wp_record {event : Event} :
    (record event : Forward σ ε Unit).wp I F Q w ↔ Q () (w.logged event) := Iff.rfl

@[simp] theorem wp_recordAll {events : List Event} :
    (recordAll events : Forward σ ε Unit).wp I F Q w ↔ Q () (w.loggedAll events) := Iff.rfl

@[simp] theorem wp_update {f : Connection σ → Connection σ} :
    (update f : Forward σ ε Unit).wp I F Q w ↔ Q () (w.update f) := Iff.rfl

@[simp] theorem wp_intercept {μ : Type} {handler : σ → μ → μ × σ} {message : μ}
    {Q : μ → World σ → Prop} :
    (intercept handler message : Forward σ ε μ).wp I F Q w ↔
      Q (handler w.conn.state message).1 (w.setState (handler w.conn.state message).2) := Iff.rfl

theorem wp_interceptAll {μ : Type} {handler : σ → μ → μ × σ} {messages : List μ}
    {Q : List μ → World σ → Prop} (h : ∀ passed s, Q passed (w.setState s)) :
    (interceptAll handler messages : Forward σ ε (List μ)).wp I F Q w := by
  induction messages generalizing w Q with
  | nil => exact h [] w.conn.state
  | cons message messages ih =>
    simp only [interceptAll, wp_bind, wp_intercept]
    apply ih
    intro passed s
    exact h _ s

theorem wp_sendEncoded_error {side : Side} {unsent : Nat} {error : IoError} :
    (sendEncoded side unsent (.error error) : Forward σ ε Unit).wp I F Q w ↔
      F (.failed (.io error)) w := Iff.rfl

theorem wp_sendEncoded_ok {side : Side} {unsent : Nat} {bytes : Bytes} :
    (sendEncoded side unsent (.ok bytes) : Forward σ ε Unit).wp I F Q w ↔
      (flushTransport side unsent : Forward σ ε Unit).wp I F Q
        (w.setTransport side ((w.conn.transport side).append bytes)) := Iff.rfl

end Primitives

/-! ## Transports -/

variable {side : Side} {unsent number : Nat} {phase : Phase} {messages : List BackendMessage}
  {items : List FrontendSequenceItem} {entries : List LedgerEntry} {handlers : Handlers σ}
  {source : Receipt BackendMessage} {reason : BackendFlushReason}

theorem drain_goes {rounds : Nat} (hsuspended : Suspended (.write side unsent) phase)
    (hreach : Reach x (w, phase)) :
    (drain side unsent rounds : Forward σ ε Unit).wp (Suspends x) (Stops x)
      (fun _ t => Reach x (t, phase) ∧ t.conn.pendingLocal = w.conn.pendingLocal) w := by
  induction rounds generalizing w with
  | zero => exact ⟨hreach, rfl⟩
  | succ rounds ih =>
    simp only [drain, wp_bind, wp_connection]
    split
    · exact ⟨hreach, rfl⟩
    · simp only [wp_bind, wp_ask]
      refine ⟨⟨phase, hsuspended, hreach⟩, ?_⟩
      intro answer
      rcases answer with error | written
      · exact hreach.tail (.interrupt hsuspended)
      · cases written with
        | zero => exact hreach.tail (.interrupt hsuspended)
        | succ n =>
          simp only [wp_bind, wp_update]
          refine wp_mono (ih (hreach.tail (.wrote side (n + 1)))) (fun _ _ h => h) ?_
          intro _ t ht
          refine ⟨ht.1, ht.2.trans ?_⟩
          cases side with
          | upstream | downstream => rfl

theorem flushTransport_goes (hwrite : Suspended (.write side unsent) phase)
    (hflush : Suspended (.flush side unsent) phase) (hreach : Reach x (w, phase)) :
    (flushTransport side unsent : Forward σ ε Unit).wp (Suspends x) (Stops x)
      (fun _ t => Reach x (t, phase) ∧ t.conn.pendingLocal = w.conn.pendingLocal) w := by
  simp only [flushTransport, wp_bind, wp_connection]
  refine wp_mono (drain_goes hwrite hreach) (fun _ _ h => h) ?_
  rintro _ t ⟨ht, hqueue⟩
  refine ⟨⟨phase, hflush, ht⟩, ?_⟩
  intro answer
  rcases answer with error | ⟨⟩
  · exact ht.tail (.interrupt hflush)
  · exact ⟨ht, hqueue⟩

theorem sendUpstream_goes {id : OperationId} {message : FrontendMessage}
    {unsent : List (OperationId × FrontendMessage)}
    (hreach : Reach x (w, .sendingUp number ((id, message) :: unsent))) :
    Goes (ε := ε) x (sendUpstream number id unsent.length message) (.sendingUp number unsent)
      w := by
  simp only [Goes, sendUpstream, wp_bind, wp_record, wp_connection]
  cases hencode : message.encode w.conn.upstream.maxFrameLen with
  | error error =>
    simp only [World.logged, hencode, wp_sendEncoded_error]
    exact hreach.tail (.unencodableUp hencode)
  | ok bytes =>
    simp only [World.logged, hencode, wp_sendEncoded_ok]
    have hflush := flushTransport_goes (ε := ε) .writeUp .flushUp (hreach.tail (.sendUp hencode))
    exact wp_mono hflush (fun _ _ h => h) fun _ _ h => h.1.tail .nextUp

theorem sendDownstream_goes {source : Option Nat} {message : BackendMessage}
    {unsent : List (Option Nat × BackendMessage)} {more : Nat}
    (hreach : Reach x (w, .sendingDown ((source, message) :: unsent) number more)) :
    (sendDownstream source (unsent.length + more) message : Forward σ ε Unit).wp (Suspends x)
      (Stops x) (fun _ t => Reach x (t, .writingDown unsent number more) ∧
        t.conn.pendingLocal = w.conn.pendingLocal) w := by
  simp only [sendDownstream, wp_bind, wp_record, wp_connection]
  cases hencode : message.encode w.conn.downstream.maxFrameLen with
  | error error =>
    simp only [World.logged, hencode, wp_sendEncoded_error]
    exact hreach.tail (.unencodableDown hencode)
  | ok bytes =>
    simp only [World.logged, hencode, wp_sendEncoded_ok]
    exact flushTransport_goes .writeDown .flushDown (hreach.tail (.sendDown hencode))

theorem observeTransition_goes {observation : ProtocolTransitionObservation}
    (hsuspended : Suspended (.observeTransition observation) phase) (hreach : Reach x (w, phase)) :
    Goes (ε := ε) x (observeTransition observation) phase w := by
  refine ⟨⟨phase, hsuspended, hreach⟩, ?_⟩
  intro state
  exact hreach.tail (.state state)

/-! ## Local responses -/

theorem flushEntry_goes {operation : OperationId} {rest : List PendingLocalResponses}
    (hreach : Reach x (w, .flushing))
    (hqueue : w.conn.pendingLocal = { operation, messages } :: rest) :
    (flushEntry operation rest messages : Forward σ ε Bool).wp (Suspends x) (Stops x)
      (fun used t =>
        if used then Reach x (t, .flushing) ∧ t.conn.pendingLocal = rest
        else Reach x (t, .idle)) w := by
  induction messages generalizing w with
  | nil => exact ⟨hreach.tail (.popEmpty hqueue), rfl⟩
  | cons message messages ih =>
    simp only [flushEntry, wp_bind, wp_update, wp_connection]
    have hpipeline : (w.update fun c =>
        { c with pendingLocal := { operation, messages } :: rest }).conn.pipeline =
        w.conn.pipeline := rfl
    rw [hpipeline]
    cases hemit : w.conn.pipeline.tryEmitLocal operation message with
    | error panic => trivial
    | ok r =>
      rcases r with ⟨result, next⟩
      have hstep := Pipeline.step_emitLocal hemit
      simp only [wp_bind, wp_record, wp_update]
      rcases result with error | action
      · exact hreach.tail (.dropLocal hqueue hstep)
      · -- The ledger hands back the message it was offered.
        rcases Pipeline.acceptResponse_message hemit with rfl | rfl
        · simp only [wp_bind]
          have hsend := sendDownstream_goes (ε := ε) (hreach.tail (.emitLocal hqueue hstep))
          refine wp_mono hsend (fun _ _ h => h) ?_
          rintro _ t ⟨ht, hqueue'⟩
          exact ih ((ht.tail .nextOutput).tail .endOutputs) hqueue'
        · exact hreach.tail (.deferLocal hqueue hstep)

theorem flushEntries_goes {queue : List PendingLocalResponses} (hreach : Reach x (w, .flushing))
    (hqueue : w.conn.pendingLocal = queue) :
    Goes (ε := ε) x (flushEntries queue) .idle w := by
  induction queue generalizing w with
  | nil => exact hreach.tail (.endFlush hqueue)
  | cons pending rest ih =>
    simp only [Goes, flushEntries, wp_bind]
    refine wp_mono (flushEntry_goes hreach hqueue) (fun _ _ h => h) ?_
    intro used t ht
    cases used with
    | true =>
      simp only [if_true] at ht
      exact ih ht.1 ht.2
    | false => simpa using ht

theorem flushLocalResponses_goes (hreach : Reach x (w, .flushing)) :
    Goes (ε := ε) x flushLocalResponses .idle w := by
  simp only [Goes, flushLocalResponses, wp_bind, wp_connection]
  exact flushEntries_goes hreach rfl

/-! ## Client messages -/

theorem sendItems_goes (hreach : Reach x (w, .sendingUp number (forwardedItems items))) :
    Goes (ε := ε) x (sendItems number items) (.sendingUp number []) w := by
  induction items generalizing w with
  | nil => exact hreach
  | cons item items ih =>
    cases haction : item.admission.intoAction with
    | discard id =>
      have hitems : forwardedItems (item :: items) = forwardedItems items := by
        simp [forwardedItems, haction, FrontendAction.forwarded?]
      rw [hitems] at hreach
      simp only [Goes, sendItems, haction]
      exact ih hreach
    | forward id message =>
      have hitems : forwardedItems (item :: items) = (id, message) :: forwardedItems items := by
        simp [forwardedItems, haction, FrontendAction.forwarded?]
      rw [hitems] at hreach
      -- What follows the optional observation.
      have hsend : ∀ t, Reach x (t, .sendingUp number ((id, message) :: forwardedItems items)) →
          (do
            sendUpstream number id (forwardedItems items).length message
            let messages ← sendItems number items
            return message :: messages : Forward σ ε (List FrontendMessage)).wp
            (Suspends x) (Stops x) (fun _ u => Reach x (u, .sendingUp number [])) t := by
        intro t ht
        simp only [wp_bind]
        refine wp_mono (sendUpstream_goes ht) (fun _ _ h => h) ?_
        intro _ u hu
        rw [wp_bind]
        exact wp_mono (ih hu) (fun _ _ h => h) fun _ _ h => h
      simp only [Goes, sendItems, haction]
      cases item.transition with
      | none => exact hsend w hreach
      | some transition =>
        rw [wp_bind]
        refine wp_mono (observeTransition_goes .observeUp hreach) (fun _ _ h => h) ?_
        intro _ t ht
        exact hsend t ht

theorem forwardedItems_eq (houtputs : entries.map Entry.output =
      items.map fun item => Reply.frontend (.ok item.admission)) :
    forwardedItems items = entries.filterMap forward? := by
  induction items generalizing entries with
  | nil =>
    have hnil : entries = [] := by simpa using houtputs
    simp [hnil, forwardedItems]
  | cons item items ih =>
    cases entries with
    | nil => cases houtputs
    | cons e entries =>
      simp only [List.map_cons, List.cons.injEq] at houtputs
      have hfirst : forward? e = item.admission.intoAction.forwarded? := by
        simp [forward?, houtputs.1]
      have hrest := ih houtputs.2
      simp only [forwardedItems] at hrest
      simp only [forwardedItems, List.filterMap_cons, hfirst, hrest]

/-- Every step of a preflighted sequence admits a message for forwarding. -/
theorem admitsForward_of_exec {p q : Pipeline} {messages : List FrontendMessage}
    (hexec : exec Pipeline.call p (messages.map fun m => Call.frontend m .forward) =
      .ok (entries, q)) (houtputs : entries.map Entry.output =
      items.map fun item => Reply.frontend (.ok item.admission)) :
    ∀ e ∈ entries, AdmitsForward e := by
  have hinputs : entries.map Entry.input = messages.map fun m => Call.frontend m .forward :=
    exec_inputs hexec
  intro e he
  have hinput : e.input ∈ messages.map fun m => Call.frontend m .forward :=
    hinputs ▸ List.mem_map_of_mem he
  have houtput : e.output ∈ items.map fun item => Reply.frontend (.ok item.admission) :=
    houtputs ▸ List.mem_map_of_mem he
  rcases List.mem_map.1 hinput with ⟨message, -, hmessage⟩
  rcases List.mem_map.1 houtput with ⟨item, -, hitem⟩
  exact ⟨message, item.admission, hmessage.symm, hitem.symm⟩

theorem forwardPreparedFrontend_goes {prepared : PreparedFrontendForwarding}
    (hreach : Reach x (w, .prepared prepared.number)) :
    Goes (ε := ε) x (forwardPreparedFrontend prepared) .idle w := by
  simp only [Goes, forwardPreparedFrontend, wp_bind, wp_connection]
  cases hprepared : w.conn.pipeline.prepareFrontendSequence .forward prepared.messages with
  | error panic => trivial
  | ok result =>
    rcases result with error | ⟨items, next⟩
    · exact hreach.tail (.retain prepared rfl)
    · rcases Pipeline.prepareFrontendSequence_exec hprepared with ⟨entries, hexec, houtputs⟩
      have hentries := Pipeline.entries_eq hexec
      have hcommit := hreach.tail
        (.commit (.of_exec _ hexec) (admitsForward_of_exec hexec houtputs))
      rw [← forwardedItems_eq houtputs] at hcommit
      simp only [wp_bind, wp_record, wp_update, hentries]
      refine wp_mono (sendItems_goes hcommit) (fun _ _ h => h) ?_
      intro messages t ht
      have hidle : Reach x (t, .idle) := ht.tail .endUp
      split
      · exact hidle
      · split
        · exact hidle
        · cases messages.getLast? with
          | some message => exact hidle
          | none => trivial

theorem respondLocally_goes {request : FrontendMessage} {responses : List BackendMessage}
    (hreach : Reach x (w, .answered number (.respond request responses))) :
    Goes (ε := ε) x (respondLocally handlers number request responses) .idle w := by
  simp only [Goes, respondLocally, wp_bind, wp_connection]
  cases haccept : w.conn.pipeline.acceptFrontend request .local with
  | error panic => trivial
  | ok r =>
    rcases r with ⟨result, next⟩
    rcases result with error | admission
    · exact hreach.tail (.refuseLocal haccept)
    · simp only [wp_bind, wp_update]
      cases haction : admission.intoAction with
      | forward id message => trivial
      | discard id =>
        rw [wp_bind]
        apply wp_interceptAll
        intro messages s
        simp only [wp_bind, wp_record, wp_update]
        have hmove := hreach.tail (.respond s messages haccept haction)
        exact wp_mono (flushLocalResponses_goes hmove) (fun _ _ h => h) fun _ _ h => h

theorem processFrontend_goes {source : Receipt FrontendMessage}
    (hreach : Reach x (w, .deciding source.number)) :
    Goes (ε := ε) x (processFrontend handlers source) .idle w := by
  simp only [Goes, processFrontend, wp_bind, wp_intercept, wp_connection, wp_ask]
  have hpassed := hreach.tail (.state (handlers.serverFrontend w.conn.state source.message).2)
  refine ⟨⟨_, .frontendOperation, hpassed⟩, ?_⟩
  rintro ⟨result, state⟩
  simp only [wp_update]
  have hstate := hpassed.tail (.state state)
  rcases result with error | output
  · exact hstate.tail .reject
  · have hanswered := hstate.tail (.answer output)
    simp only [wp_bind, wp_record]
    cases output with
    | forward message =>
      simp only [wp_bind, wp_intercept]
      exact forwardPreparedFrontend_goes ((hanswered.tail .prepare).tail (.state _))
    | forwardThenFlush message =>
      simp only [wp_bind, wp_intercept]
      exact forwardPreparedFrontend_goes
        (((hanswered.tail .prepareThenFlush).tail (.state _)).tail (.state _))
    | suppress message => exact hanswered.tail .suppressFrontend
    | respond request responses => exact respondLocally_goes hanswered

theorem forwardFrontend_goes (hreach : Reach x (w, .idle)) :
    Goes (ε := ε) x (forwardFrontend handlers) .idle w := by
  simp only [Goes, forwardFrontend, wp_bind, wp_connection]
  cases hpending : w.conn.pendingFrontend with
  | some prepared =>
    simp only [wp_bind, wp_update]
    exact forwardPreparedFrontend_goes (hreach.tail (.takePrepared hpending))
  | none =>
    simp only [receiveFrontend, wp_bind, wp_ask]
    refine ⟨⟨.idle, .receiveFrontend, hreach⟩, ?_⟩
    intro answer
    rcases answer with error | message
    · exact hreach.tail (.interrupt .receiveFrontend)
    · have hreceived := hreach.tail (.receiveFrontend hpending)
      exact processFrontend_goes hreceived

/-! ## Server messages -/

theorem emitBackend_goes {more : Nat} {message : BackendMessage}
    (hreach : Reach x (w, .projecting number (more + 1))) :
    Goes (ε := ε) x (emitBackend number more message) (.projecting number more) w := by
  simp only [Goes, emitBackend, advanceBackend, wp_bind, wp_connection]
  cases haccept : w.conn.pipeline.acceptBackend message with
  | error panic => trivial
  | ok r =>
    rcases r with ⟨result, next⟩
    have hstep := Pipeline.step_backend haccept
    simp only [wp_bind, wp_record, wp_update]
    rcases result with error | action
    · exact hreach.tail (.refuse hstep (by simp))
    · rcases Pipeline.acceptResponse_message haccept with rfl | rfl
      · have hemitted := hreach.tail (.project hstep)
        -- What follows the optional observation.
        have hsend : ∀ t,
            Reach x (t, .sendingDown [(some number, message)] number more) →
            (do
              sendDownstream (some number) more message
              return message : Forward σ ε BackendMessage).wp (Suspends x) (Stops x)
              (fun _ u => Reach x (u, .projecting number more)) t := by
          intro t ht
          rw [wp_bind]
          have hgoes := sendDownstream_goes (ε := ε) ht
          rw [List.length_nil, Nat.zero_add] at hgoes
          exact wp_mono hgoes (fun _ _ h => h) fun _ _ h => h.1.tail .nextOutput
        simp only [Async.wp_pure]
        cases w.conn.pipeline.backendTransitionId message with
        | none => exact hsend _ hemitted
        | some transition =>
          rw [wp_bind]
          refine wp_mono (observeTransition_goes .observeDown hemitted) (fun _ _ h => h) ?_
          intro _ t ht
          exact hsend t ht
      · exact hreach.tail (.refuse hstep (by simp))

theorem emitAll_goes (hreach : Reach x (w, .projecting number messages.length)) :
    Goes (ε := ε) x (emitAll handlers number messages) (.projecting number 0) w := by
  induction messages generalizing w with
  | nil => exact hreach
  | cons message messages ih =>
    simp only [Goes, emitAll, wp_bind, wp_intercept]
    have hpassed := hreach.tail (.state (handlers.serverBackend w.conn.state message).2)
    refine wp_mono (emitBackend_goes hpassed) (fun _ _ h => h) ?_
    intro _ t ht
    rw [wp_bind]
    exact wp_mono (ih ht) (fun _ _ h => h) fun _ _ h => h

theorem applyOutput_goes {bytes : Nat} {output : BackendMiddlewareOutput}
    (hreach : Reach x (w, .idle)) (hpending : w.conn.backendHold.pending = some (source, bytes)) :
    Goes (ε := ε) x (applyOutput handlers source bytes output) .flushing
      (w.logged (.backendAnswered source.number output)) := by
  cases output with
  | forward message =>
    simp only [Goes, applyOutput, wp_bind, wp_update, wp_intercept]
    have htaken := hreach.tail (.take (.forward message) hpending rfl)
    have hpassed := htaken.tail
      (.state (handlers.serverBackend w.conn.state message).2)
    refine wp_mono (emitBackend_goes hpassed) (fun _ _ h => h) ?_
    intro _ t ht
    exact ht.tail .endOutputs
  | expand messages =>
    cases messages with
    -- An empty expansion is refused, and the message stays pending.
    | nil => exact hreach.tail (.keepPending (.expand []) hpending rfl)
    | cons message messages =>
      simp only [Goes, applyOutput, wp_bind, wp_update]
      have htaken := hreach.tail (.take (.expand (message :: messages)) hpending rfl)
      refine wp_mono (emitAll_goes htaken) (fun _ _ h => h) ?_
      intro _ t ht
      exact ht.tail .endOutputs
  | suppress message =>
    simp only [Goes, applyOutput, advanceBackend, wp_bind, wp_update, wp_connection]
    have hpipeline : ((w.logged (.backendAnswered source.number (.suppress message))).update
        fun c => { c with backendHold := c.backendHold.takePending }).conn.pipeline =
        w.conn.pipeline := rfl
    rw [hpipeline]
    cases haccept : w.conn.pipeline.acceptBackend message with
    | error panic => trivial
    | ok r =>
      rcases r with ⟨result, next⟩
      have hmove := hreach.tail (.suppressBackend hpending (Pipeline.step_backend haccept))
      simp only [wp_bind, wp_record, wp_update]
      rcases result with error | action
      · exact hmove
      · rcases Pipeline.acceptResponse_message haccept with rfl | rfl
        · exact hmove.tail .startFlush
        · exact hmove
  | hold =>
    simp only [Goes, applyOutput, wp_bind, wp_connection]
    cases hlimits : (w.logged (.backendAnswered source.number .hold)).conn.backendHoldLimits with
    | none => exact hreach.tail (.keepPending .hold hpending rfl)
    | some limits => exact (hreach.tail (.hold hpending)).tail .startFlush

theorem processPendingBackend_goes (hreach : Reach x (w, .idle)) :
    Goes (ε := ε) x (processPendingBackend handlers) .idle w := by
  simp only [Goes, processPendingBackend, wp_bind, wp_connection]
  cases hpending : w.conn.backendHold.pending with
  | none => trivial
  | some pending =>
    rcases pending with ⟨source, bytes⟩
    simp only [wp_bind, wp_ask]
    refine ⟨⟨.idle, .backendOperation, hreach⟩, ?_⟩
    rintro ⟨result, state⟩
    simp only [wp_update]
    have hstate := hreach.tail (.state state)
    rcases result with error | output
    · exact hstate
    · simp only [wp_bind, wp_record]
      refine wp_mono (applyOutput_goes hstate hpending) (fun _ _ h => h) ?_
      intro outcome t ht
      rw [wp_bind]
      exact wp_mono (flushLocalResponses_goes ht) (fun _ _ h => h) fun _ _ h => h

theorem sendReleased_goes {outputs : List (Nat × BackendMessage)} (hne : outputs ≠ [])
    (hreach : Reach x
      (w, .sendingDown (outputs.map fun output => (some output.1, output.2)) 0 0)) :
    Goes (ε := ε) x (sendReleased outputs) .flushing w := by
  induction outputs generalizing w with
  | nil => exact absurd rfl hne
  | cons output outputs ih =>
    simp only [Goes, sendReleased, wp_bind]
    have hgoes := sendDownstream_goes (ε := ε) hreach
    rw [List.length_map, Nat.add_zero] at hgoes
    refine wp_mono hgoes (fun _ _ h => h) ?_
    rintro _ t ⟨ht, -⟩
    by_cases hlast : outputs = []
    · subst hlast
      exact (ht.tail .nextOutput).tail .endOutputs
    · exact ih hlast (ht.tail (.nextDown (by simpa using hlast)))

section Idle

variable (hreach : Reach x (w, .idle))
include hreach

theorem releaseHold_goes {replacements : List BackendMessage}
    (hheld : w.conn.backendHold.held ≠ []) :
    Goes (ε := ε) x (releaseHold handlers replacements) .idle w := by
  rw [Goes, releaseHold, wp_bind]
  apply wp_interceptAll
  intro messages s
  have hstate := hreach.tail (.state s)
  cases hframes : firstUnencodable messages with
  | some error => exact hstate
  | none =>
    simp only [wp_bind, wp_connection]
    have hheld' : (w.setState s).conn.backendHold.held ≠ [] := hheld
    generalize w.setState s = t at hstate hheld'
    cases hprepared : t.conn.pipeline.prepareBackendReplacements t.conn.backendHold.messages
        messages with
    | error panic => trivial
    | ok result =>
      rcases result with error | next
      · exact hstate
      · rcases Pipeline.prepareBackendReplacements_iff.1 hprepared with
          ⟨hlength, -, ⟨entries, hexec, houtputs⟩, -⟩
        have hlength' : t.conn.backendHold.held.length = messages.length := by
          simpa [BackendHold.messages] using hlength
        have hrelease := hstate.tail (.release hheld' hlength' hexec houtputs)
        simp only [wp_bind, wp_recordAll, wp_update, Pipeline.entries_eq hexec]
        have houts : (t.conn.backendHold.held.map fun receipt => some receipt.number).zip
            messages = ((t.conn.backendHold.held.map Receipt.number).zip messages).map
              fun output => (some output.1, output.2) := by
          simp [List.zip_map_left, Function.comp_def]
        have hne : (t.conn.backendHold.held.map Receipt.number).zip messages ≠ [] := by
          rw [Ne, ← List.length_eq_zero_iff, List.length_zip, List.length_map, ← hlength',
            Nat.min_self, List.length_eq_zero_iff]
          exact hheld'
        rw [houts] at hrelease
        refine wp_mono (sendReleased_goes hne hrelease) (fun _ _ h => h) ?_
        intro _ u hu
        rw [wp_bind]
        exact wp_mono (flushLocalResponses_goes hu) (fun _ _ h => h) fun _ _ h => h

theorem flushBackendHoldFor_goes :
    Goes (ε := ε) x (flushBackendHoldFor handlers reason) .idle w := by
  simp only [Goes, flushBackendHoldFor, wp_bind, wp_connection]
  split
  · exact hreach
  · rename_i hheld
    cases w.conn.pipeline.backendOperationIds w.conn.backendHold.messages with
    | error panic => trivial
    | ok ids =>
      simp only [wp_bind, wp_ask]
      refine ⟨⟨.idle, .flushBackendOperations, hreach⟩, ?_⟩
      rintro ⟨result, state⟩
      simp only [wp_update]
      have hstate := hreach.tail (.state state)
      rcases result with error | output
      · exact hstate
      · cases output with
        | keepHolding => exact hstate
        | replaceOneToOne replacements => exact releaseHold_goes hstate hheld

theorem requireRelease_goes {refusal : ForwardError ε} :
    Goes x (requireRelease handlers reason refusal) .idle w := by
  rw [Goes, requireRelease, wp_bind]
  refine wp_mono (flushBackendHoldFor_goes hreach) (fun _ _ h => h) ?_
  intro outcome t ht
  cases outcome with
  | released messages | empty | kept => exact ht

theorem processBackend_goes (hnumber : source.number = w.conn.upstream.received) :
    Goes (ε := ε) x (processBackend handlers source) .idle (w.received .upstream) := by
  simp only [Goes, processBackend, wp_bind, wp_intercept, wp_connection]
  generalize hpassed : handlers.clientBackend (w.received .upstream).conn.state source.message =
    passed
  have hhold : ((w.received .upstream).setState passed.2).conn.backendHold =
      w.conn.backendHold := rfl
  rw [hhold]
  cases hpending : w.conn.backendHold.pending with
  | some pending =>
    simp only [BackendHold.setPending, hpending]
    trivial
  | none =>
    simp only [BackendHold.setPending, hpending, wp_bind, wp_update]
    have hreceived := hreach.tail
      (.receiveBackend passed.2 passed.1 (retainedBytes passed.1) hpending)
    rw [← hnumber] at hreceived
    split
    · rw [wp_bind]
      refine wp_mono (requireRelease_goes hreceived) (fun _ _ h => h) ?_
      intro _ t ht
      exact processPendingBackend_goes ht
    · exact processPendingBackend_goes hreceived

/-- `receive_wire_raw` and what a call does with the message. -/
theorem receiveBackend_goes {k : Receipt BackendMessage → Forward σ ε α}
    (hk : ∀ source : Receipt BackendMessage, source.number = w.conn.upstream.received →
      Goes x (k source) phase (w.received .upstream)) : Goes x (receiveBackend >>= k) phase w := by
  simp only [Goes, receiveBackend, wp_bind, wp_ask]
  refine ⟨⟨.idle, .receiveBackend, hreach⟩, ?_⟩
  intro answer
  rcases answer with error | message
  · exact hreach.tail (.interrupt .receiveBackend)
  · exact hk ⟨w.conn.upstream.received, message⟩ rfl

theorem makeRoom_goes : Goes (ε := ε) x (makeRoom handlers) .idle w := by
  simp only [Goes, makeRoom, wp_bind, wp_connection]
  split
  · exact requireRelease_goes hreach
  · exact hreach

theorem forwardBackend_goes : Goes (ε := ε) x (forwardBackend handlers) .idle w := by
  simp only [Goes, forwardBackend, wp_bind, wp_connection]
  cases w.conn.backendHold.pending with
  | some pending => exact processPendingBackend_goes hreach
  | none =>
    rw [wp_bind]
    refine wp_mono (makeRoom_goes hreach) (fun _ _ h => h) ?_
    intro _ t ht
    exact receiveBackend_goes ht fun source hnumber => processBackend_goes ht hnumber

theorem prepareBackendTeardown_goes :
    Goes (ε := ε) x (prepareBackendTeardown handlers) .idle w := by
  rw [Goes, prepareBackendTeardown, wp_bind]
  refine wp_mono (flushBackendHoldFor_goes hreach) (fun _ _ h => h) ?_
  intro outcome t ht
  cases outcome with
  | released messages | empty | kept => exact ht

/-! ## Both directions -/

theorem pollTransports_goes : Goes (ε := ε) x (pollTransports handlers) .idle w := by
  simp only [Goes, pollTransports, wp_bind, wp_connection]
  cases hpending : w.conn.pendingFrontend with
  | some prepared =>
    apply receiveBackend_goes hreach
    intro source hnumber
    rw [Goes, wp_bind]
    exact wp_mono (processBackend_goes hreach hnumber) (fun _ _ h => h) fun _ _ h => h
  | none =>
    simp only [wp_bind, wp_ask]
    refine ⟨⟨.idle, .receiveEither, hreach⟩, ?_⟩
    rintro ((error | message) | (error | message))
    · exact hreach.tail (.interrupt .receiveEither)
    · rw [wp_bind, takeFrontend]
      simp only [wp_bind, wp_connection, wp_update, Async.wp_pure]
      exact wp_mono (processFrontend_goes (hreach.tail (.receiveFrontend hpending)))
        (fun _ _ h => h) fun _ _ h => h
    · exact hreach.tail (.interrupt .receiveEither)
    · rw [wp_bind, takeBackend]
      simp only [wp_bind, wp_connection, wp_update, Async.wp_pure]
      exact wp_mono (processBackend_goes hreach rfl) (fun _ _ h => h) fun _ _ h => h

theorem forwardNext_goes : Goes (ε := ε) x (forwardNext handlers) .idle w := by
  simp only [Goes, forwardNext, wp_bind, wp_connection]
  cases w.conn.backendHold.pending with
  | some pending =>
    rw [wp_bind]
    exact wp_mono (processPendingBackend_goes hreach) (fun _ _ h => h) fun _ _ h => h
  | none =>
    rw [wp_bind]
    refine wp_mono (makeRoom_goes hreach) (fun _ _ h => h) ?_
    intro _ t ht
    simp only [wp_bind, wp_connection]
    cases hpending : t.conn.pendingFrontend with
    | none => exact pollTransports_goes ht
    | some prepared =>
      simp only [wp_bind, wp_update, Async.wp_attempt]
      refine wp_mono (forwardPreparedFrontend_goes (ht.tail (.takePrepared hpending)))
        ?_ fun _ _ h => h
      -- Only a full ledger is not the end of the call.
      intro stop u hu
      cases stop with
      | panicked abort => trivial
      | failed error =>
        cases error with
        | frontend error =>
          cases error with
          | capacity message => exact pollTransports_goes hu
          | illegal state message => exact hu
        | _ => exact hu

end Idle

end Simulation
end PgProto
