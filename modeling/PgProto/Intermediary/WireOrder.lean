import PgProto.Codec.Framing
import PgProto.Intermediary.Sessions

/-!
# WireOrder — outputs leave in the order of their sources

Every server message is numbered on receipt.  Its outputs, whether it is forwarded, expanded or
released from the hold, carry its number to the encoder.  As long as the boundary middleware lets no
message pass one that is held, the numbers leave in ascending order.

* `Line` — the numbers sent, in flight, held and pending, in one ascending line;
* `wire_order` — outputs are in order in every session in which nothing overtakes the hold;
* `refused_barrier_overtakes` — a barrier whose flush was refused overtakes the held rows.

Towards the server there is nothing to hold: `server_reads_forwarded` says that it reads what the
ledger has forwarded.
-/

namespace PgProto

open Lib
open Pipeline (LedgerEntry)
open Phase (owing servers unsentDownstream)

section WireOrder

variable {σ ε : Type}

/-! ## Outputs and their sources -/

/-- The server message for which a record hands an output to the encoder. -/
def Record.output? (r : Record σ) : Option Nat :=
  match r.event with
  | .sentDownstream source _ => source
  | _ => none

/-- The server messages for which outputs were handed to the encoder, output by output. -/
def outputs (log : List (Record σ)) : List Nat :=
  (gather Event.sentDown log).filterMap Prod.fst

/-- No output is sent for a message while an earlier one is held. -/
def NotAhead (log : List (Record σ)) : Prop :=
  ∀ r ∈ log, ∀ number, r.output? = some number →
    ∀ receipt ∈ r.before.backendHold.held, ¬receipt.number < number

/-- The middleware's answer for the pending message. -/
def Record.decision? (r : Record σ) : Option BackendMiddlewareOutput :=
  match r.event with
  | .backendAnswered _ output => some output
  | _ => none

/-- The middleware answers the pending message with output only when nothing is held. -/
def KeepsOrder (r : Record σ) : Prop :=
  ∀ output ∈ r.decision?, (outputs? output).isSome → r.before.backendHold.held = []

instance : DecidablePred (KeepsOrder (σ := σ)) := fun r =>
  inferInstanceAs (Decidable (∀ output ∈ r.decision?, _ → _))

/-- Server messages with outputs that are not encoded yet. -/
def inFlight (phase : Phase) : List Nat :=
  phase.unsentDownstream.filterMap Prod.fst ++ phase.servers

def BackendHold.numbers (hold : BackendHold) : List Nat :=
  hold.held.map Receipt.number ++ hold.pending.toList.map fun pending => pending.1.number

/-! ## The line -/

/-- Everything the connection has had to do with, in the order in which it should leave. -/
def line (w : World σ) (phase : Phase) : List Nat :=
  outputs w.log ++ (inFlight phase ++ w.conn.backendHold.numbers)

structure Line (w : World σ) (phase : Phase) : Prop where
  sorted : (line w phase).Pairwise (· ≤ ·)
  received : ∀ number ∈ line w phase, number < w.conn.upstream.received
  clear : inFlight phase ≠ [] → w.conn.backendHold.held = []
  notAhead : NotAhead w.log

variable {w w' : World σ} {phase phase' : Phase}

@[simp] theorem outputs_append (log more : List (Record σ)) :
    outputs (log ++ more) = outputs log ++ outputs more := by
  simp [outputs]

@[simp] theorem outputs_cons (r : Record σ) (log : List (Record σ)) :
    outputs (r :: log) = r.output?.toList ++ outputs log := by
  rcases r with ⟨before, event⟩
  cases event with
  | sentDownstream source message =>
    cases source with
    | none | some number => simp [outputs, Record.output?, Event.sentDown]
  | _ => simp [outputs, Record.output?, Event.sentDown]

@[simp] theorem outputs_nil : outputs ([] : List (Record σ)) = [] := rfl

theorem notAhead_append {log more : List (Record σ)} :
    NotAhead (log ++ more) ↔ NotAhead log ∧ NotAhead more := by
  simp [NotAhead, or_imp, forall_and]

theorem notAhead_of_outputs {log : List (Record σ)} (h : outputs log = []) : NotAhead log := by
  intro r hr number hnumber
  rcases List.append_of_mem hr with ⟨before, after, rfl⟩
  simp [hnumber] at h

/-- A move that brings nothing new into the line and puts nothing in flight while something is
held. -/
theorem Line.shrink (h : Line w phase) (hlog : NotAhead w'.log)
    (hline : (line w' phase').Sublist (line w phase))
    (hclear : inFlight phase' ≠ [] → w'.conn.backendHold.held = [])
    (hreceived : w'.conn.upstream.received = w.conn.upstream.received) : Line w' phase' := by
  refine ⟨h.sorted.sublist hline, ?_, hclear, hlog⟩
  intro number hnumber
  rw [hreceived]
  exact h.received number (hline.subset hnumber)

theorem Line.quiet (h : Line w phase) (more : List (Record σ)) (hlog : w'.log = w.log ++ more)
    (hmore : outputs more = [])
    (hline : (inFlight phase' ++ w'.conn.backendHold.numbers).Sublist
      (inFlight phase ++ w.conn.backendHold.numbers))
    (hclear : inFlight phase' ≠ [] → w'.conn.backendHold.held = [])
    (hreceived : w'.conn.upstream.received = w.conn.upstream.received) : Line w' phase' := by
  refine h.shrink ?_ ?_ hclear hreceived
  · rw [hlog]
    exact notAhead_append.2 ⟨h.notAhead, notAhead_of_outputs hmore⟩
  · simp only [line, hlog, outputs_append, hmore, List.append_nil]
    exact List.Sublist.append_left hline _

/-- A move that leaves the hold alone and has nothing in flight before or after it. -/
theorem Line.aside (h : Line w phase) (more : List (Record σ)) (hlog : w'.log = w.log ++ more)
    (hmore : outputs more = []) (hflight : inFlight phase' = [])
    (hhold : w'.conn.backendHold = w.conn.backendHold)
    (hreceived : w'.conn.upstream.received = w.conn.upstream.received) : Line w' phase' := by
  refine h.quiet more hlog hmore ?_ (fun hne => absurd hflight hne) hreceived
  rw [hflight, hhold]
  exact List.sublist_append_right _ _

attribute [local simp] inFlight unsentDownstream servers Record.output? BackendHold.numbers

variable {entries : List LedgerEntry} {message : BackendMessage} {number more : Nat}
  {source : Option Nat} {unsent : List (Option Nat × BackendMessage)}
  {output : BackendMiddlewareOutput} {messages : List BackendMessage}

theorem outputs_released {c : Connection σ} {numbers : List Nat} :
    outputs ((releasedEvents numbers entries).map fun event => { before := c, event := event }) =
      [] := by
  simp [outputs, flatMap_releasedEvents, Event.sentDown]

/-! ## Moves -/

theorem Line.receiveBackend (h : Line w .idle) {s : σ} {bytes : Nat}
    (hpending : w.conn.backendHold.pending = none) :
    Line (((w.received .upstream).setState s).setHold
      { w.conn.backendHold with
        pending := some (⟨w.conn.upstream.received, message⟩, bytes) }) .idle := by
  have hbefore : line w .idle =
      outputs w.log ++ w.conn.backendHold.held.map Receipt.number := by
    simp [line, hpending]
  have hsorted := h.sorted
  have hreceived := h.received
  rw [hbefore] at hsorted hreceived
  have hafter : line (((w.received .upstream).setState s).setHold
      { w.conn.backendHold with
        pending := some (⟨w.conn.upstream.received, message⟩, bytes) }) .idle =
      (outputs w.log ++ w.conn.backendHold.held.map Receipt.number) ++
        [w.conn.upstream.received] := by
    simp [line]
  refine ⟨?_, ?_, by simp, h.notAhead⟩
  · rw [hafter]
    refine List.pairwise_append.2 ⟨hsorted, List.pairwise_singleton _ _, ?_⟩
    intro a ha b hb
    rw [List.mem_singleton.1 hb]
    exact Nat.le_of_lt (hreceived a ha)
  · rw [hafter]
    intro number hnumber
    show number < w.conn.upstream.received + 1
    rcases List.mem_append.1 hnumber with hnumber | hnumber
    · exact Nat.lt_succ_of_lt (hreceived number hnumber)
    · rw [List.mem_singleton.1 hnumber]
      exact Nat.lt_succ_self _

theorem Line.project {entry : LedgerEntry} {p : Pipeline}
    (h : Line w (.projecting number (more + 1))) :
    Line ((w.logged (.projected (some number) more entry)).setPipeline p)
      (.sendingDown [(some number, message)] number more) := by
  have hclear : w.conn.backendHold.held = [] := h.clear (by simp [owing])
  have hbefore : line w (.projecting number (more + 1)) =
      outputs w.log ++ number :: w.conn.backendHold.numbers := by
    simp [line, owing]
  have hafter : line ((w.logged (.projected (some number) more entry)).setPipeline p)
      (.sendingDown [(some number, message)] number more) =
      outputs w.log ++ number :: (owing number more ++ w.conn.backendHold.numbers) := by
    simp [line]
  have hsorted := h.sorted
  have hreceived := h.received
  rw [hbefore] at hsorted hreceived
  have hmem : ∀ n ∈ owing number more, n = number := by
    intro n hn
    cases more with
    | zero => cases hn
    | succ k => exact List.mem_singleton.1 hn
  refine ⟨?_, ?_, fun _ => hclear, ?_⟩
  · rw [hafter]
    cases more with
    | zero => exact hsorted
    | succ k =>
      -- The number stands in the line a second time, right behind itself.
      rcases List.pairwise_append.1 hsorted with ⟨hout, hrest, hcross⟩
      refine List.pairwise_append.2 ⟨hout, ?_, ?_⟩
      · refine List.pairwise_cons.2 ⟨?_, hrest⟩
        intro b hb
        rcases List.mem_cons.1 hb with rfl | hb
        · exact Nat.le_refl _
        · exact (List.pairwise_cons.1 hrest).1 b hb
      · intro a ha b hb
        rcases List.mem_cons.1 hb with rfl | hb
        · exact hcross a ha b List.mem_cons_self
        · exact hcross a ha b hb
  · rw [hafter]
    intro n hn
    refine hreceived n ?_
    simp only [List.mem_append, List.mem_cons] at hn ⊢
    rcases hn with hn | hn | hn | hn
    · exact Or.inl hn
    · exact Or.inr (Or.inl hn)
    · exact Or.inr (Or.inl (hmem n hn))
    · exact Or.inr (Or.inr hn)
  · exact notAhead_append.2 ⟨h.notAhead, notAhead_of_outputs (by simp)⟩

theorem Line.notAhead_sent (h : Line w (.sendingDown ((source, message) :: unsent) number more)) :
    NotAhead (w.log ++ [{ before := w.conn, event := .sentDownstream source message }]) := by
  refine notAhead_append.2 ⟨h.notAhead, ?_⟩
  intro r hr n hn receipt hreceipt
  rw [List.mem_singleton.1 hr] at hn hreceipt
  have hsource : source = some n := hn
  have hheld : w.conn.backendHold.held = [] :=
    h.clear (by simp [hsource])
  have hreceipt' : receipt ∈ w.conn.backendHold.held := hreceipt
  rw [hheld] at hreceipt'
  cases hreceipt'

theorem Line.sendDown {t : Transport}
    (h : Line w (.sendingDown ((source, message) :: unsent) number more)) :
    Line ((w.logged (.sentDownstream source message)).setTransport .downstream t)
      (.writingDown unsent number more) := by
  have hclear : inFlight (.writingDown unsent number more) ≠ [] →
      w.conn.backendHold.held = [] := by
    intro hne
    apply h.clear
    cases source with
    | none => exact hne
    | some n => simp
  refine h.shrink h.notAhead_sent ?_ hclear rfl
  cases source with
  | none | some n =>
    simp [line, Connection.setTransport]

theorem Line.unencodableDown (h : Line w (.sendingDown ((source, message) :: unsent) number more)) :
    Line (w.logged (.sentDownstream source message)) .idle := by
  refine h.shrink h.notAhead_sent ?_
    (by simp) rfl
  cases source with
  | none | some n =>
    simp [line]

theorem outputs?_pos (h : outputs? output = some more) : ∃ k, more = k + 1 := by
  cases output with
  | forward message => exact ⟨0, by simpa [outputs?] using h.symm⟩
  | expand messages =>
    cases messages with
    | nil => cases h
    | cons message messages => exact ⟨messages.length, by simpa [outputs?] using h.symm⟩
  | suppress message | hold => cases h

theorem Line.take {source : Receipt BackendMessage} {bytes : Nat} (h : Line w .idle)
    (hpending : w.conn.backendHold.pending = some (source, bytes))
    (houtput : outputs? output = some more) (hheld : w.conn.backendHold.held = []) :
    Line ((w.logged (.backendAnswered source.number output)).setHold
      w.conn.backendHold.takePending) (.projecting source.number more) := by
  rcases outputs?_pos houtput with ⟨k, rfl⟩
  refine h.shrink ?_ ?_ (fun _ => hheld) rfl
  · exact notAhead_append.2 ⟨h.notAhead, notAhead_of_outputs (by simp)⟩
  · simp [line, owing, BackendHold.takePending, hheld, hpending]

theorem sources_zip {receipts : List (Receipt BackendMessage)}
    (hlength : receipts.length = messages.length) :
    ((receipts.map fun receipt => some receipt.number).zip messages).filterMap Prod.fst =
      receipts.map Receipt.number := by
  induction receipts generalizing messages with
  | nil => rfl
  | cons receipt receipts ih =>
    cases messages with
    | nil => cases hlength
    | cons message messages => simp [ih (Nat.succ.inj hlength)]

theorem Line.release {p : Pipeline} (h : Line w .idle)
    (hlength : w.conn.backendHold.held.length = messages.length) :
    Line (((w.loggedAll
        (releasedEvents (w.conn.backendHold.held.map Receipt.number) entries)).setPipeline
        p).setHold w.conn.backendHold.clear)
      (.sendingDown
        ((w.conn.backendHold.held.map fun receipt => some receipt.number).zip messages) 0 0) := by
  refine h.shrink ?_ ?_ (fun _ => rfl) rfl
  · exact notAhead_append.2 ⟨h.notAhead, notAhead_of_outputs outputs_released⟩
  · have hflight : inFlight (.sendingDown
        ((w.conn.backendHold.held.map fun receipt => some receipt.number).zip messages) 0 0) =
        w.conn.backendHold.held.map Receipt.number := by
      simp [owing, sources_zip hlength]
    have hidle : inFlight .idle = [] := rfl
    simp only [line, hflight, hidle, World.log_setHold, World.log_setPipeline, World.log_loggedAll,
      outputs_append, outputs_released, World.conn_setHold, List.append_nil]
    simp [BackendHold.clear]

theorem Line.move (h : Line w phase) (hmove : Move (w, phase) (w', phase'))
    (hkeeps : ∀ r ∈ w'.log, KeepsOrder r) : Line w' phase' := by
  cases hmove with
  | receiveBackend s message bytes hpending => exact h.receiveBackend hpending
  | project hstep => exact h.project
  | sendDown hencode => exact h.sendDown
  | @take _ source _ _ output hpending houtput =>
    have hkept := hkeeps ⟨w.conn, .backendAnswered source.number output⟩ (by simp)
    exact h.take hpending houtput (hkept output rfl (by simp [houtput]))
  | release _ hlength _ _ => exact h.release hlength
  | hold hpending =>
    refine h.shrink ?_ ?_ (by simp) rfl
    · exact notAhead_append.2 ⟨h.notAhead, notAhead_of_outputs (by simp)⟩
    · simp [line, BackendHold.holdPending, hpending]
  | suppressBackend hpending _ =>
    refine h.quiet [_, _] (List.append_assoc _ _ _) rfl ?_ (by simp) rfl
    simp [BackendHold.takePending]
  | state _ | nextDown _ => exact h.quiet [] (by simp) rfl (List.Sublist.refl _) h.clear rfl
  | wrote side count =>
    refine h.quiet [] (by simp) rfl ?_ ?_ ?_
    · simp
    · simpa using h.clear
    · cases side <;> rfl
  | nextOutput => exact h.quiet [] (by simp) rfl (by simp) h.clear rfl
  | receiveFrontend _ | takePrepared _ | prepare | prepareThenFlush | retain _ _ =>
    exact h.aside [] (by simp) rfl rfl rfl rfl
  | sendUp _ => exact h.aside [_] rfl rfl rfl rfl rfl
  | nextUp | endUp | endOutputs | startFlush | endFlush _ | popEmpty _ =>
    exact h.aside [] (by simp) rfl rfl rfl rfl
  | unencodableDown _ => exact h.unencodableDown
  | _ => exact h.aside [_] rfl rfl rfl rfl rfl

theorem line_new {conn : Connection σ} (hhold : conn.backendHold = BackendHold.default) :
    Line (World.new conn) .idle := by
  have hline : line (World.new conn) .idle = [] := by
    simp [line, World.new, hhold, BackendHold.default]
  refine ⟨by simp [hline], by simp [hline], ?_, notAhead_of_outputs rfl⟩
  simp

/-! ## Sessions -/

/-- In every session of a connection with batching enabled whose middleware produces output for the
pending message only when nothing is held, outputs are handed to the encoder in the order in which
their sources were received, none of them while an earlier message is held; nothing that has reached
the transport belongs to a message behind one that is held; and the client's bytes are the encodings
of the outputs in that order. -/
theorem wire_order {handlers : Handlers σ} {downstreamLimit upstreamLimit : Nat} {state : σ}
    {policy : PipelinePolicy} {limits : BackendHoldLimits}
    {h : List (Session.SessionEntry σ ε)} {w : World σ}
    (hr : Session.Run ε handlers
      (Connection.new downstreamLimit upstreamLimit state policy (some limits)) h w)
    (hkeeps : ∀ r ∈ w.log, KeepsOrder r) :
    (outputs w.log).Pairwise (· ≤ ·) ∧ NotAhead w.log ∧
      (∀ number ∈ outputs w.log, ∀ receipt ∈ w.conn.backendHold.held, number ≤ receipt.number) ∧
      w.conn.downstream.wire =
        downstreamBytes w.conn.downstream.maxFrameLen (gather Event.sentDown w.log) := by
  have hline : Line w .idle :=
    hr.invariant_when KeepsOrder Line hkeeps (line_new rfl) fun h hmove hcond => h.move hmove hcond
  have hsorted : (outputs w.log).Pairwise (· ≤ ·) :=
    hline.sorted.sublist (List.sublist_append_left _ _)
  have hbehind : ∀ number ∈ outputs w.log, ∀ receipt ∈ w.conn.backendHold.held,
      number ≤ receipt.number := by
    intro number hnumber receipt hreceipt
    apply (List.pairwise_append.1 hline.sorted).2.2 number hnumber
    apply List.mem_append_right
    exact List.mem_append_left _ (List.mem_map_of_mem hreceipt)
  exact ⟨hsorted, hline.notAhead, hbehind, (hr.wires rfl rfl).downstream⟩

end WireOrder

/-- A row is held; the barrier behind it releases the hold and follows. -/
theorem wire_order_released_row :
    ∃ (h : List (Session.SessionEntry Unit Unit)) (w : World Unit),
      Session.Run Unit (Handlers.identity Unit) holdingConnection h w ∧
      outputs w.log = [0, 1] ∧ (outputs w.log).Pairwise (· ≤ ·) ∧ NotAhead w.log := by
  obtain ⟨h, w, hr, houtputs, hkeeps⟩ := Session.exists_identity_run holdingConnection
      (fun _ w => outputs w.log = [0, 1] ∧ ∀ r ∈ w.log, KeepsOrder r)
      [Session.sends (.query []) (.forward (.query [])),
       Session.returns (.dataRow ⟨[none]⟩) .hold .keepHolding,
       Session.returns (.commandComplete []) (.forward (.commandComplete []))
         (.replaceOneToOne [.dataRow ⟨[none]⟩])] (by decide +kernel)
  have hordered := wire_order hr hkeeps
  exact ⟨h, w, hr, houtputs, hordered.1, hordered.2.1⟩

/-- The flush before a barrier is refused and the caller calls again: the barrier leaves ahead of
the row that is held. -/
theorem refused_barrier_overtakes :
    ∃ (h : List (Session.SessionEntry Unit Unit)) (w : World Unit),
      Session.Run Unit (Handlers.identity Unit) holdingConnection h w ∧
      h.map Entry.input =
        [.forwardFrontend, .forwardBackend, .forwardBackend, .forwardBackend, .flushBackendHold] ∧
      outputs w.log = [1, 0] ∧ ¬(outputs w.log).Pairwise (· ≤ ·) ∧ ¬NotAhead w.log := by
  obtain ⟨h, w, hr, hcalls, houtputs, r, hmem, houtput, hheld⟩ :=
      Session.exists_identity_run holdingConnection
      (fun h w => h.map Entry.input =
          [.forwardFrontend, .forwardBackend, .forwardBackend, .forwardBackend, .flushBackendHold] ∧
        outputs w.log = [1, 0] ∧
        ∃ r ∈ w.log, r.output? = some 1 ∧ r.before.backendHold.held.map Receipt.number = [0])
      [Session.sends (.query []) (.forward (.query [])),
       Session.returns (.dataRow ⟨[none]⟩) .hold .keepHolding,
       Session.returns (.commandComplete []) .hold .keepHolding,
       Session.returns (.commandComplete []) (.forward (.commandComplete [])) .keepHolding,
       Session.releases (.replaceOneToOne [.dataRow ⟨[none]⟩])] (by decide +kernel)
  refine ⟨h, w, hr, hcalls, houtputs, by rw [houtputs]; decide, ?_⟩
  intro hnotAhead
  have hzero : 0 ∈ r.before.backendHold.held.map Receipt.number := by simp [hheld]
  rcases List.mem_map.1 hzero with ⟨receipt, hreceipt, hnumber⟩
  exact hnotAhead r hmem 1 houtput receipt hreceipt (by rw [hnumber]; decide)

/-! ## What the server reads -/

section Upstream

variable {σ ε : Type} (codec : PgCodec Direction.frontend)

theorem word_of_encode {message : FrontendMessage} {bytes : Bytes}
    (h : message.encode codec.maxFrameLen = .ok bytes) : codec.decoder.Word bytes message := by
  obtain ⟨frame, hframe, hbytes⟩ := except_bind_eq_ok.mp h
  exact codec.decoder_word (by rw [PgCodec.encode, hbytes]; rfl) (Frontend.decode_of_toFrame hframe)

theorem upstreamBytes_words (sent : List (Nat × OperationId × FrontendMessage)) :
    ∃ words read, List.Sublist read (sent.map Prod.snd) ∧
      upstreamBytes codec.maxFrameLen sent = words.flatten ∧
      List.Forall₂ codec.decoder.Word words (read.map Prod.snd) := by
  induction sent with
  | nil => exact ⟨[], [], .slnil, rfl, .nil⟩
  | cons s sent ih =>
    obtain ⟨words, read, hread, hwords, hdecode⟩ := ih
    rw [upstreamBytes, List.flatMap_cons]
    cases hencode : s.2.2.encode codec.maxFrameLen with
    | error error => exact ⟨words, read, hread.cons _, hwords, hdecode⟩
    | ok bytes =>
      exact ⟨bytes :: words, s.2 :: read, hread.cons_cons _, congrArg (bytes ++ ·) hwords,
        .cons (word_of_encode codec hencode) hdecode⟩

theorem forwards_sublist (log : List (Record σ)) :
    ((gather Event.forwards log).map Prod.snd).Sublist ((ledgerOf log).filterMap forward?) := by
  induction log with
  | nil => exact .slnil
  | cons r log ih =>
    simp only [gather_cons, List.map_append, List.filterMap_append]
    refine List.Sublist.append ?_ ih
    cases r.event with
    | admitted number entries => simp [Event.forwards, Event.entries, Function.comp_def]
    | _ => exact List.nil_sublist _

end Upstream

end PgProto
