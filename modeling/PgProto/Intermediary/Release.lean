import PgProto.Intermediary.Cancellation

/-!
# Release — the release of a held span as one step

`flush_backend_hold_for` checks a replaced span against a copy of the ledger and installs the copy
only when the whole span passes.  What it does not check is that the frames fit the client's
transport, and that the local responses which become due are accepted; both come after the ledger
has moved and the hold is empty.

* `passAll`, `flushable` — what role middleware makes of the replacements, and what becomes of the
  local responses, without the effects;
* `decided` — the environment of one flush: the decision is given and no write fails;
* `Completes` — whatever the ledger emits in place of the held span can also be sent;
* `release_atomic` — the replacements the ledger accepts, and when a flush that releases nothing
  changes nothing.
-/

namespace PgProto

open Lib
open Async

section Release

variable {σ ε : Type}

/-! ## The parts of a release, without their effects -/

def passAll {μ : Type} (handler : σ → μ → μ × σ) : σ → List μ → List μ × σ
  | s, [] => ([], s)
  | s, message :: messages =>
    let passed := handler s message
    let rest := passAll handler passed.2 messages
    (passed.1 :: rest.1, rest.2)

/-- Whether an entry of the queue is used up, and the ledger after it; nothing when a response is
rejected or does not fit into a frame. -/
def flushableEntry (limit : Nat) (operation : OperationId) :
    Pipeline → List BackendMessage → Option (Pipeline × Bool)
  | p, [] => some (p, true)
  | p, message :: messages =>
    match p.tryEmitLocal operation message with
    | .ok (.ok (.emit emitted), next) =>
      if (emitted.encode limit).isOk then flushableEntry limit operation next messages else none
    | .ok (.ok (.deferred _), next) => some (next, false)
    | _ => none

/-- The local responses which become due are accepted and fit into frames. -/
def flushable (limit : Nat) : Pipeline → List PendingLocalResponses → Bool
  | _, [] => true
  | p, pending :: rest =>
    match flushableEntry limit pending.operation p pending.messages with
    | none => false
    | some (_, false) => true
    | some (next, true) => flushable limit next rest

/-- The environment of one flush: the middleware decides as given, and writing does not fail. -/
def decided (decision : Except ε BackendBatchOutput × σ) : (r : Request) → Answer σ ε r → Prop
  | .flushBackendOperations _ _ _, answer => answer = decision
  | .write _ _, answer => ∃ count, answer = .ok (count + 1)
  | .flush _ _, answer => answer = .ok ()
  | _, _ => True

instance decided_nonempty (decision : Except ε BackendBatchOutput × σ) (r : Request) :
    Nonempty { answer : Answer σ ε r // decided decision r answer } := by
  cases r with
  | receiveFrontend => exact ⟨.ok .flush, trivial⟩
  | receiveBackend => exact ⟨.ok .parseComplete, trivial⟩
  | receiveEither => exact ⟨.inl (.ok .flush), trivial⟩
  | frontendOperation _ message | backendOperation _ message =>
    exact ⟨(.ok (.forward message), decision.2), trivial⟩
  | flushBackendOperations _ _ _ => exact ⟨decision, rfl⟩
  | observeTransition _ => exact ⟨decision.2, trivial⟩
  | write _ _ => exact ⟨.ok 1, 0, rfl⟩
  | flush _ _ => exact ⟨.ok (), rfl⟩

/-! ## Sending while no write fails -/

section Sending

variable {decision : Except ε BackendBatchOutput × σ} {w : World σ}

/-- Only the bytes on the client's transport have changed. -/
structure OnlyWrote (w t : World σ) : Prop where
  pipeline : t.conn.pipeline = w.conn.pipeline
  hold : t.conn.backendHold = w.conn.backendHold
  queue : t.conn.pendingLocal = w.conn.pendingLocal
  limit : t.conn.downstream.maxFrameLen = w.conn.downstream.maxFrameLen

theorem OnlyWrote.refl (w : World σ) : OnlyWrote w w :=
  ⟨rfl, rfl, rfl, rfl⟩

theorem OnlyWrote.after {w t u : World σ} (h' : OnlyWrote t u) (h : OnlyWrote w t) :
    OnlyWrote w u :=
  ⟨h'.pipeline.trans h.pipeline, h'.hold.trans h.hold, h'.queue.trans h.queue,
    h'.limit.trans h.limit⟩

variable {allowed : (r : Request) → Answer σ ε r → Prop} {I : Request → World σ → Prop}
  {F : Stop ε → World σ → Prop} {Q : Unit → World σ → Prop}

@[simp] theorem wp_under_connection {Q : Connection σ → World σ → Prop} :
    ((connection : Forward σ ε (Connection σ)).under allowed).wp I F Q w ↔ Q w.conn w := Iff.rfl

@[simp] theorem wp_under_update {f : Connection σ → Connection σ} :
    ((update f : Forward σ ε Unit).under allowed).wp I F Q w ↔ Q () (w.update f) := Iff.rfl

@[simp] theorem wp_under_record {event : Event} :
    ((record event : Forward σ ε Unit).under allowed).wp I F Q w ↔ Q () (w.logged event) := Iff.rfl

@[simp] theorem wp_under_recordAll {events : List Event} :
    ((recordAll events : Forward σ ε Unit).under allowed).wp I F Q w ↔
      Q () (w.loggedAll events) := Iff.rfl

@[simp] theorem wp_under_intercept {μ : Type} {handler : σ → μ → μ × σ} {message : μ}
    {Q : μ → World σ → Prop} :
    ((intercept handler message : Forward σ ε μ).under allowed).wp I F Q w ↔
      Q (handler w.conn.state message).1 (w.setState (handler w.conn.state message).2) := Iff.rfl

/-- The computation, in the environment of one flush. -/
abbrev DecidedWp {α : Type} (decision : Except ε BackendBatchOutput × σ) (m : Forward σ ε α)
    (F : World σ → Prop) (Q : α → World σ → Prop) (w : World σ) : Prop :=
  (m.under (decided decision)).wp (fun _ _ => True) (fun _ => F) Q w

theorem drain_decided (unsent rounds : Nat) :
    DecidedWp decision (drain .downstream unsent rounds) (fun _ => False)
      (fun _ t => OnlyWrote w t) w := by
  induction rounds generalizing w with
  | zero => exact .refl w
  | succ rounds ih =>
    simp only [DecidedWp, drain, wp_under_bind, wp_under_connection]
    split
    · exact .refl w
    · simp only [wp_under_bind, Async.wp_under_ask, true_and]
      rintro answer ⟨count, rfl⟩
      simp only [wp_under_bind, wp_under_update]
      refine wp_mono ih (fun _ _ h => h) ?_
      intro _ t ht
      exact ht.after ⟨rfl, rfl, rfl, rfl⟩

theorem flushTransport_decided (unsent : Nat) :
    DecidedWp decision (flushTransport .downstream unsent) (fun _ => False)
      (fun _ t => OnlyWrote w t) w := by
  simp only [DecidedWp, flushTransport, wp_under_bind, wp_under_connection]
  refine wp_mono (drain_decided unsent _) (fun _ _ h => h) ?_
  intro _ t ht
  simp only [wp_under_bind, Async.wp_under_ask, true_and]
  rintro answer rfl
  exact ht

/-- While no write fails, sending succeeds exactly when the message fits into a frame. -/
theorem sendDownstream_decided (source : Option Nat) (unsent : Nat) (message : BackendMessage) :
    DecidedWp decision (sendDownstream source unsent message)
      (fun t => (message.encode w.conn.downstream.maxFrameLen).isOk = false ∧ OnlyWrote w t)
      (fun _ t => (message.encode w.conn.downstream.maxFrameLen).isOk = true ∧ OnlyWrote w t) w := by
  simp only [DecidedWp, sendDownstream, wp_under_bind, wp_under_record, wp_under_connection,
    World.conn_logged]
  cases hencode : message.encode w.conn.downstream.maxFrameLen with
  | error error => exact ⟨rfl, ⟨rfl, rfl, rfl, rfl⟩⟩
  | ok bytes =>
    simp only [sendEncoded, wp_under_bind, wp_under_update]
    refine wp_mono (flushTransport_decided unsent) (fun _ _ h => h.elim) ?_
    intro _ t ht
    exact ⟨rfl, ht.after ⟨rfl, rfl, rfl, rfl⟩⟩

/-! ## Local responses -/

/-- An entry of the queue is flushed as `flushableEntry` says. -/
theorem flushEntry_decided (operation : OperationId) (rest : List PendingLocalResponses)
    (messages : List BackendMessage) :
    DecidedWp decision (flushEntry operation rest messages)
      (fun t => flushableEntry w.conn.downstream.maxFrameLen operation w.conn.pipeline messages =
        none ∧ t.conn.backendHold = w.conn.backendHold)
      (fun used t => flushableEntry w.conn.downstream.maxFrameLen operation w.conn.pipeline
          messages = some (t.conn.pipeline, used) ∧
        t.conn.backendHold = w.conn.backendHold ∧
        t.conn.downstream.maxFrameLen = w.conn.downstream.maxFrameLen) w := by
  induction messages generalizing w with
  | nil => exact ⟨rfl, rfl, rfl⟩
  | cons message messages ih =>
    simp only [DecidedWp, flushEntry, wp_under_bind, wp_under_update, wp_under_connection,
      flushableEntry]
    rcases htry : w.conn.pipeline.tryEmitLocal operation message with
      panic | ⟨refusal | emitted | deferred, next⟩
    · simp only [World.update, htry]
      exact ⟨trivial, rfl⟩
    · simp only [World.update, htry]
      exact ⟨trivial, rfl⟩
    · simp only [World.update, htry, wp_under_bind, wp_under_record, wp_under_update]
      refine wp_mono (sendDownstream_decided none 0 emitted) ?_ ?_
      · rintro _ t ⟨hencode, ht⟩
        refine ⟨if_neg ?_, ht.hold⟩
        exact Bool.eq_false_iff.1 hencode
      · rintro _ t ⟨hencode, ht⟩
        refine wp_mono ih ?_ ?_
        · rintro _ u ⟨hnone, hhold⟩
          rw [ht.pipeline, ht.limit] at hnone
          exact ⟨(if_pos hencode).trans hnone, hhold.trans ht.hold⟩
        · rintro used u ⟨hsome, hhold, hlimit⟩
          rw [ht.pipeline, ht.limit] at hsome
          exact ⟨(if_pos hencode).trans hsome, hhold.trans ht.hold, hlimit.trans ht.limit⟩
    · simp only [World.update, htry]
      exact ⟨rfl, rfl, rfl⟩

theorem flushEntries_decided (queue : List PendingLocalResponses) :
    DecidedWp decision (flushEntries queue)
      (fun t => flushable w.conn.downstream.maxFrameLen w.conn.pipeline queue = false ∧
        t.conn.backendHold = w.conn.backendHold)
      (fun _ t => flushable w.conn.downstream.maxFrameLen w.conn.pipeline queue = true ∧
        t.conn.backendHold = w.conn.backendHold) w := by
  induction queue generalizing w with
  | nil => exact ⟨rfl, rfl⟩
  | cons pending rest ih =>
    simp only [DecidedWp, flushEntries, wp_under_bind, flushable]
    refine wp_mono (flushEntry_decided pending.operation rest pending.messages) ?_ ?_
    · rintro _ t ⟨hnone, hhold⟩
      rw [hnone]
      exact ⟨rfl, hhold⟩
    · rintro used t ⟨hsome, hhold, hlimit⟩
      rw [hsome]
      cases used with
      | false => exact ⟨rfl, hhold⟩
      | true =>
        refine wp_mono ih ?_ ?_ <;>
        · rintro _ u ⟨hrest, hhold'⟩
          rw [hlimit] at hrest
          exact ⟨hrest, hhold'.trans hhold⟩

theorem flushLocalResponses_decided :
    DecidedWp decision flushLocalResponses
      (fun t => flushable w.conn.downstream.maxFrameLen w.conn.pipeline w.conn.pendingLocal =
        false ∧ t.conn.backendHold = w.conn.backendHold)
      (fun _ t => flushable w.conn.downstream.maxFrameLen w.conn.pipeline w.conn.pendingLocal =
        true ∧ t.conn.backendHold = w.conn.backendHold) w := by
  simp only [DecidedWp, flushLocalResponses, wp_under_bind, wp_under_connection]
  exact flushEntries_decided _

/-! ## The released span -/

/-- Every message fits into a frame. -/
def allFit (limit : Nat) (messages : List BackendMessage) : Bool :=
  messages.all fun message => (message.encode limit).isOk

theorem sendReleased_decided (outputs : List (Nat × BackendMessage)) :
    DecidedWp decision (sendReleased outputs)
      (fun t => allFit w.conn.downstream.maxFrameLen (outputs.map Prod.snd) = false ∧
        OnlyWrote w t)
      (fun _ t => allFit w.conn.downstream.maxFrameLen (outputs.map Prod.snd) = true ∧
        OnlyWrote w t) w := by
  induction outputs generalizing w with
  | nil => exact ⟨rfl, .refl w⟩
  | cons output rest ih =>
    obtain ⟨number, message⟩ := output
    simp only [DecidedWp, sendReleased, wp_under_bind]
    refine wp_mono (sendDownstream_decided (some number) rest.length message) ?_ ?_
    · rintro _ t ⟨hencode, ht⟩
      exact ⟨by simp [allFit, hencode], ht⟩
    · rintro _ t ⟨hencode, ht⟩
      refine wp_mono ih ?_ ?_ <;>
      · rintro _ u ⟨hrest, hu⟩
        rw [ht.limit] at hrest
        refine ⟨?_, hu.after ht⟩
        simpa [allFit, hencode] using hrest

theorem wp_under_interceptAll {μ : Type} {handler : σ → μ → μ × σ} {messages : List μ}
    {Q : List μ → World σ → Prop} (h : Q (passAll handler w.conn.state messages).1
      (w.setState (passAll handler w.conn.state messages).2)) :
    ((interceptAll handler messages : Forward σ ε (List μ)).under (decided decision)).wp
      (fun _ _ => True) F Q w := by
  induction messages generalizing w Q with
  | nil => exact h
  | cons message messages ih =>
    simp only [interceptAll, wp_under_bind, wp_under_intercept]
    exact ih h

end Sending

/-! ## The flush -/

/-- The ledger, the hold with its bytes and its pending message, and the client's transport are as
they were. -/
def Untouched (c c' : Connection σ) : Prop :=
  c'.pipeline = c.pipeline ∧ c'.backendHold = c.backendHold ∧ c'.downstream = c.downstream

/-- Role middleware makes `messages` of the replacements, and the ledger emits them as it would emit
the held span, which takes it to `next`. -/
def Accepted (handlers : Handlers σ) (c : Connection σ)
    (decision : Except ε BackendBatchOutput × σ) (messages : List BackendMessage)
    (next : Pipeline) : Prop :=
  ∃ replacements, c.backendHold.held ≠ [] ∧ decision.1 = .ok (.replaceOneToOne replacements) ∧
    (passAll handlers.serverBackend decision.2 replacements).1 = messages ∧
    c.pipeline.SpansAs c.backendHold.messages messages next

variable {messages : List BackendMessage}

theorem Accepted.unique {handlers : Handlers σ} {c : Connection σ}
    {decision : Except ε BackendBatchOutput × σ} {messages' : List BackendMessage}
    {next next' : Pipeline} (h : Accepted handlers c decision messages next)
    (h' : Accepted handlers c decision messages' next') : messages' = messages ∧ next' = next := by
  obtain ⟨replacements, -, hdecision, rfl, hspan⟩ := h
  obtain ⟨replacements', -, hdecision', rfl, hspan'⟩ := h'
  cases hdecision.symm.trans hdecision'
  have hprepared := Pipeline.prepareBackendReplacements_iff.2 hspan
  cases hprepared.symm.trans (Pipeline.prepareBackendReplacements_iff.2 hspan')
  exact ⟨rfl, rfl⟩

/-- The replacements fit into frames of the client's transport, and the local responses that become
due are accepted and fit as well. -/
def Sendable (c : Connection σ) (messages : List BackendMessage) (next : Pipeline) : Prop :=
  allFit c.downstream.maxFrameLen messages = true ∧
    flushable c.downstream.maxFrameLen next c.pendingLocal = true

/-- Whatever the ledger emits in place of the held span can also be sent. -/
def Completes (handlers : Handlers σ) (c : Connection σ)
    (decision : Except ε BackendBatchOutput × σ) : Prop :=
  ∀ messages next, Accepted handlers c decision messages next → Sendable c messages next

theorem firstUnencodable_eq_none (h : ∀ m ∈ messages, m.isReconstructable = true) :
    firstUnencodable messages = none := by
  unfold firstUnencodable
  rw [List.findSome?_eq_none_iff]
  intro message hmessage
  have hencodes := h message hmessage
  unfold BackendMessage.isReconstructable at hencodes
  cases hframe : message.toFrame with
  | error error => simp [hframe, Except.toBool] at hencodes
  | ok frame => rfl

section Flush

variable {handlers : Handlers σ} {decision : Except ε BackendBatchOutput × σ} {w : World σ}

/-- What a failed flush leaves behind. -/
def FlushFails (handlers : Handlers σ) (w : World σ) (decision : Except ε BackendBatchOutput × σ)
    (t : World σ) : Prop :=
  (Untouched w.conn t.conn ∧ ∀ messages next, ¬ Accepted handlers w.conn decision messages next) ∨
    ∃ messages next, Accepted handlers w.conn decision messages next ∧
      ¬ Sendable w.conn messages next ∧ t.conn.backendHold.held = []

/-- What a flush that returns leaves behind. -/
def FlushReturns (handlers : Handlers σ) (w : World σ)
    (decision : Except ε BackendBatchOutput × σ) (outcome : BackendBatchForwarding)
    (t : World σ) : Prop :=
  (Untouched w.conn t.conn ∧ ∀ messages next, ¬ Accepted handlers w.conn decision messages next) ∨
    ∃ messages next, Accepted handlers w.conn decision messages next ∧
      Sendable w.conn messages next ∧ outcome = .released messages

theorem releaseHold_decided {replacements : List BackendMessage}
    (hheld : w.conn.backendHold.held ≠ [])
    (hdecision : decision.1 = .ok (.replaceOneToOne replacements)) :
    DecidedWp decision (releaseHold handlers replacements)
      (FlushFails handlers w decision) (FlushReturns handlers w decision)
      (w.setState decision.2) := by
  set passed := (passAll handlers.serverBackend decision.2 replacements).1
  -- whatever is accepted is what the middleware makes of these replacements
  have haccepted : ∀ {messages next}, Accepted handlers w.conn decision messages next →
      passed = messages ∧ w.conn.pipeline.SpansAs w.conn.backendHold.messages messages next := by
    rintro messages next ⟨replacements', -, hdecision', hmessages, hspan⟩
    cases hdecision.symm.trans hdecision'
    exact ⟨hmessages, hspan⟩
  have hrefused : (∀ next, w.conn.pipeline.prepareBackendReplacements w.conn.backendHold.messages
      passed ≠ .ok (.ok next)) →
      ∀ messages next, ¬ Accepted handlers w.conn decision messages next := by
    rintro hrefused messages next haccept
    obtain ⟨rfl, hspan⟩ := haccepted haccept
    exact hrefused next (Pipeline.prepareBackendReplacements_iff.2 hspan)
  simp only [DecidedWp, releaseHold, wp_under_bind]
  apply wp_under_interceptAll
  have hstate : (w.setState decision.2).conn.state = decision.2 := rfl
  rw [hstate]
  cases hframes : firstUnencodable passed with
  | some error =>
    refine Or.inl ⟨⟨rfl, rfl, rfl⟩, hrefused ?_⟩
    intro next hprepared
    obtain ⟨-, hencodes, -⟩ := Pipeline.prepareBackendReplacements_iff.1 hprepared
    rw [firstUnencodable_eq_none hencodes] at hframes
    cases hframes
  | none =>
    simp only [wp_under_bind, wp_under_connection, World.conn_setState]
    rcases hprepared : w.conn.pipeline.prepareBackendReplacements w.conn.backendHold.messages
        passed with panic | error | next
    · exact Or.inl ⟨⟨rfl, rfl, rfl⟩, hrefused (by simp [hprepared])⟩
    · exact Or.inl ⟨⟨rfl, rfl, rfl⟩, hrefused (by simp [hprepared])⟩
    · have hspans := Pipeline.prepareBackendReplacements_iff.1 hprepared
      have haccept : Accepted handlers w.conn decision _ next :=
        ⟨replacements, hheld, hdecision, rfl, hspans⟩
      obtain ⟨hlength, -⟩ := hspans
      have hspan : ((w.conn.backendHold.held.map Receipt.number).zip passed).map Prod.snd =
          passed := by
        apply List.map_snd_zip
        simpa [BackendHold.messages] using hlength.symm.le
      simp only [wp_under_bind, wp_under_recordAll, wp_under_update]
      refine wp_mono (sendReleased_decided _) ?_ ?_
      · rintro _ t ⟨hfit, ht⟩
        rw [hspan] at hfit
        refine Or.inr ⟨_, next, haccept, ?_, congrArg BackendHold.held ht.hold⟩
        rintro ⟨hfit', -⟩
        exact Bool.false_ne_true (hfit.symm.trans hfit')
      · rintro _ t ⟨hfit, ht⟩
        rw [hspan] at hfit
        simp only [wp_under_bind]
        refine wp_mono flushLocalResponses_decided ?_ ?_
        · rintro _ u ⟨hflush, hu⟩
          rw [ht.limit, ht.pipeline, ht.queue] at hflush
          refine Or.inr ⟨_, next, haccept, ?_, congrArg BackendHold.held (hu.trans ht.hold)⟩
          rintro ⟨-, hflush'⟩
          exact Bool.false_ne_true (hflush.symm.trans hflush')
        · rintro _ u ⟨hflush, -⟩
          rw [ht.limit, ht.pipeline, ht.queue] at hflush
          exact Or.inr ⟨_, next, haccept, ⟨hfit, hflush⟩, rfl⟩

theorem flushBackendHoldFor_decided (reason : BackendFlushReason) :
    DecidedWp decision (flushBackendHoldFor handlers reason)
      (FlushFails handlers w decision) (FlushReturns handlers w decision) w := by
  simp only [DecidedWp, flushBackendHoldFor, wp_under_bind, wp_under_connection]
  split
  next hempty =>
    refine Or.inl ⟨⟨rfl, rfl, rfl⟩, ?_⟩
    rintro messages next ⟨-, hheld, -⟩
    exact hheld hempty
  next hheld =>
    obtain ⟨ids, hids⟩ := w.conn.pipeline.backendOperationIds_ok w.conn.backendHold.messages
    simp only [hids, wp_under_bind, Async.wp_under_ask, true_and]
    rintro answer rfl
    simp only [wp_under_update]
    rcases hdecision : answer.1 with error | _ | replacements
    case ok.replaceOneToOne => exact releaseHold_decided hheld hdecision
    all_goals
      refine Or.inl ⟨⟨rfl, rfl, rfl⟩, ?_⟩
      rintro messages next ⟨_, _, hreplace, _⟩
      cases hdecision.symm.trans hreplace

end Flush

/-- **A release is atomic.**  The ledger accepts a replacement exactly when every message of it
encodes, both spans are emitted completely, and they end in the same ledger.  And while writing does
not fail, a flush that does not release the span leaves everything as it was, in exactly the
connections in which whatever the ledger emits in place of the span can also be sent. -/
theorem release_atomic (handlers : Handlers σ) :
    (∀ (p q : Pipeline) (sources replacements : List BackendMessage),
      p.prepareBackendReplacements sources replacements = .ok (.ok q) ↔
        sources.length = replacements.length ∧
        (∀ m ∈ replacements, m.isReconstructable = true) ∧
        p.EmitsSpan replacements q ∧
        ∃ r, p.EmitsSpan sources r ∧ r.operations = q.operations ∧
          r.requestState = q.requestState ∧ r.responseState = q.responseState) ∧
    ∀ (reason : BackendFlushReason) (w : World σ) (decision : Except ε BackendBatchOutput × σ),
      (∀ result t,
        ((flushBackendHoldFor handlers reason).under (decided decision) w).Leads
          (.returned result) t →
        (∀ messages, result ≠ .ok (.released messages)) → Untouched w.conn t.conn) ↔
      Completes handlers w.conn decision := by
  refine ⟨fun _ _ _ _ => Pipeline.prepareBackendReplacements_iff, ?_⟩
  intro reason w decision
  constructor
  · intro hatomic messages next haccepted
    obtain ⟨result, t, hleads⟩ := Resume.exists_returned
      ((flushBackendHoldFor handlers reason).under (decided decision) w)
    have hflush := Resume.Holds.sound (flushBackendHoldFor_decided reason) hleads
    rcases result with stop | outcome
    · rcases hflush with ⟨-, hnone⟩ | ⟨_, _, ⟨_, hheld, -⟩, -, hcleared⟩
      · exact absurd haccepted (hnone messages next)
      · -- the call failed after the span had left the hold
        obtain ⟨-, hhold, -⟩ := hatomic _ t hleads (by simp)
        rw [hhold] at hcleared
        exact absurd hcleared hheld
    · rcases hflush with ⟨-, hnone⟩ | ⟨messages', next', haccepted', hsendable, -⟩
      · exact absurd haccepted (hnone messages next)
      · obtain ⟨rfl, rfl⟩ := haccepted.unique haccepted'
        exact hsendable
  · intro hcompletes result t hleads hother
    have hflush := Resume.Holds.sound (flushBackendHoldFor_decided reason) hleads
    rcases result with stop | outcome
    · rcases hflush with ⟨huntouched, -⟩ | ⟨messages, next, haccepted, hnot, -⟩
      · exact huntouched
      · exact absurd (hcompletes messages next haccepted) hnot
    · rcases hflush with ⟨huntouched, -⟩ | ⟨messages, next, -, -, rfl⟩
      · exact huntouched
      · exact absurd rfl (hother messages)

/-- A row is held, and the flush releases it as it is.  It does not fit into a frame of the client's
transport: the call fails, the row has left the hold, and nothing was written. -/
theorem released_row_lost :
    ∃ (h : List (Session.SessionEntry Unit Unit)) (w : World Unit),
      Session.Run Unit (Handlers.identity Unit)
        (Connection.new 9 64 () .noPipeline (some ⟨4, 64, by decide, by decide⟩)) h w ∧
      gather Event.interruptions w.log = [] ∧
      ∃ e ∈ h, e.input = .flushBackendHold ∧ e.output.hasFailed = true ∧
        e.before.conn.backendHold.messages = [.dataRow ⟨[none]⟩] ∧
        e.after.conn.backendHold.messages = [] ∧ e.after.conn.downstream.wire = [] := by
  apply Session.exists_run
    [Session.sends (.query []) (.forward (.query [])),
     Session.returns (.dataRow ⟨[none]⟩) .hold .keepHolding,
     Session.releases (.replaceOneToOne [.dataRow ⟨[none]⟩])]
  decide +kernel

end Release
end PgProto
