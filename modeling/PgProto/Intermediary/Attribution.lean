import PgProto.Intermediary.Sessions
import PgProto.Pipeline.Attribution

/-!
# Attribution — the operation a held message is shown with

The boundary middleware is told the operation of a server message twice: when it decides on the
message, from the ledger as it stands, and when a held message is about to be released, from a copy
of the ledger that has projected the messages held before it.  The two agree, with each other and
with the operation which the message then advances, if no held message has ended an operation that
the new one would also fit.

* `lastAnswer` — the decision on a server message;
* `Record.attributesSafely` — the condition;
* `Attributing` — the invariant of the machine;
* `attribution_stable` — a message is committed to the operation it was shown with.
-/

namespace PgProto

open Lib
open Pipeline (LedgerEntry ended)

/-! ## What the middleware is told -/

section Attribution

variable {σ ε : Type}

/-- The server message that an event decides on. -/
def Event.answered? : Event → Option Nat
  | .backendAnswered number _ => some number
  | _ => none

/-- The last time the boundary middleware decided on the server message with this number. -/
def lastAnswer (log : List (Record σ)) (number : Nat) : Option (Record σ) :=
  (log.filter fun r => decide (r.event.answered? = some number)).getLast?

variable {w : World σ} {source : Receipt BackendMessage}

theorem connection_bind {α : Type} (f : Connection σ → Forward σ ε α) :
    (connection >>= f : Forward σ ε α) w = f w.conn w := rfl

/-- `process_pending_backend` asks with the operation which the ledger finds, and nothing but the
shared state changes before the answer is logged. -/
theorem processPendingBackend_asks (handlers : Handlers σ) {bytes : Nat}
    (hpending : w.conn.backendHold.pending = some (source, bytes)) :
    ∃ k, (processPendingBackend handlers : Forward σ ε BackendForwarding) w =
        .wait w (.backendOperation (w.conn.pipeline.backendOperationId source.message)
          source.message) k ∧
      ∀ output s, k (.ok output, s) = (do
        record (.backendAnswered source.number output)
        let outcome ← applyOutput handlers source bytes output
        flushLocalResponses
        return outcome : Forward σ ε BackendForwarding) (w.setState s) := by
  rw [processPendingBackend, connection_bind, hpending]
  exact ⟨_, rfl, fun _ _ => rfl⟩

/-- `flush_backend_hold_for` asks with the operations which a copy of the ledger finds. -/
theorem flushBackendHoldFor_asks (handlers : Handlers σ) (reason : BackendFlushReason)
    {ids : List (Option OperationId)} (hheld : w.conn.backendHold.held ≠ [])
    (hids : w.conn.pipeline.backendOperationIds w.conn.backendHold.messages = .ok ids) :
    ∃ k, (flushBackendHoldFor handlers reason : Forward σ ε BackendBatchForwarding) w =
        .wait w (.flushBackendOperations (ids.zip w.conn.backendHold.messages)
          w.conn.backendHold.heldBytes reason) k ∧
      ∀ replacements s, k (.ok (.replaceOneToOne replacements), s) =
        (releaseHold handlers replacements : Forward σ ε BackendBatchForwarding) (w.setState s) := by
  rw [flushBackendHoldFor, connection_bind, if_neg hheld, hids]
  exact ⟨_, rfl, fun _ _ => rfl⟩

/-! ## The condition -/

/-- What the decisions on server messages and the calls made while some are held have to respect. -/
def Record.attributesSafely (r : Record σ) : Bool :=
  match r.event with
  | .backendAnswered _ .hold =>
    -- A message that is held is no error, fits the operation which the held ones leave in front,
    -- and fits none that they end.
    r.before.backendHold.pending.all fun pending =>
      isAsynchronous pending.1.message ||
        (!decide (pending.1.message.variant = .errorResponse) &&
          r.before.pipeline.fitsInFront r.before.backendHold.messages pending.1.message)
  -- No message overtakes those that are held.
  | .backendAnswered _ _ => r.before.backendHold.held.isEmpty
  -- What is released in place of a held message is of its variant.
  | .projected (some number) _ e =>
    r.before.backendHold.held.all fun source =>
      decide (source.number ≠ number) ||
        e.input.response?.all fun message =>
          decide (message.variant = source.message.variant)
  -- While messages are held, no Sync is cancelled and no local request is rejected.
  | event =>
    r.before.backendHold.held.isEmpty ||
      event.entries.all fun e => !Pipeline.isError e.input && !e.before.cancelsSync e.input

/-! ## The decision on a message -/

/-- The last decision on the server message, and that it was the pending one. -/
structure Asked (log : List (Record σ)) (source : Receipt BackendMessage)
    (output : BackendMiddlewareOutput) (a : Record σ) : Prop where
  last : lastAnswer log source.number = some a
  event : a.event = .backendAnswered source.number output
  pending : ∃ bytes, a.before.backendHold.pending = some (source, bytes)

theorem lastAnswer_append {log more : List (Record σ)} {number : Nat}
    (h : ∀ r ∈ more, r.event.answered? ≠ some number) :
    lastAnswer (log ++ more) number = lastAnswer log number := by
  have hnone : more.filter (fun r => decide (r.event.answered? = some number)) = [] := by
    rw [List.filter_eq_nil_iff]
    intro r hr
    simpa using h r hr
  rw [lastAnswer, List.filter_append, hnone, List.append_nil, lastAnswer]

theorem Asked.append {log more : List (Record σ)} {output : BackendMiddlewareOutput} {a : Record σ}
    (h : Asked log source output a) (hmore : ∀ r ∈ more, r.event.answered? ≠ some source.number) :
    Asked (log ++ more) source output a :=
  ⟨(lastAnswer_append hmore).trans h.last, h.event, h.pending⟩

theorem asked_logged {bytes : Nat} (hpending : w.conn.backendHold.pending = some (source, bytes))
    (output : BackendMiddlewareOutput) :
    Asked (w.logged (.backendAnswered source.number output)).log source output
      { before := w.conn, event := .backendAnswered source.number output } := by
  refine ⟨?_, rfl, bytes, hpending⟩
  simp [lastAnswer, World.logged, Event.answered?]

/-- The record shows the held message with this operation. -/
def ShownAs (r : Record σ) (source : Receipt BackendMessage) (id : OperationId) : Prop :=
  ∃ (i : Nat) (ids : List (Option OperationId)), r.before.backendHold.held[i]? = some source ∧
    r.before.pipeline.backendOperationIds r.before.backendHold.messages = .ok ids ∧
    ids[i]? = some (some id)

/-- A server message that is committed as it came is committed to the operation it was shown with. -/
def Attributed (before : List (Record σ)) (r : Record σ) : Prop :=
  ∀ number unsent e message, r.event = .projected (some number) unsent e →
    e.input = .backend message → e.output = .backend (.ok (.emit message)) →
    isAsynchronous message = false →
    ∃ source output a, source.number = number ∧ Asked before source output a ∧
      (source.message = message → (output = .hold ∨ ∃ m, output = .forward m) →
        ∃ id, Pipeline.emittedId e = some id ∧
          a.before.pipeline.backendOperationId message = some id ∧
          (output = .hold → ShownAs r source id))

/-! ## The invariant -/

/-- A held message was shown with the operation which those held before it leave in front. -/
structure Awaits (w : World σ) (i : Nat) (source : Receipt BackendMessage) : Prop where
  received : source.number < w.conn.upstream.received
  distinct : ∀ pending, w.conn.backendHold.pending = some pending →
    pending.1.number ≠ source.number
  plain : source.message.variant ≠ .errorResponse
  asked : ∃ a, Asked w.log source .hold a ∧ (isAsynchronous source.message = false →
    ∃ key, w.conn.pipeline.owingKeys[ended ((w.conn.backendHold.messages).take i)
        w.conn.pipeline.owingKeys]? = some key ∧
      a.before.pipeline.backendOperationId source.message = some key.1)

/-- Outputs of a server message are left, and the next one is the first if it is forwarded. -/
def OwesNext (w : World σ) (number : Nat) : Nat → Prop
  | 0 => True
  | more + 1 => w.conn.backendHold.held = [] ∧ ∃ source output a, source.number = number ∧
      Asked w.log source output a ∧ output ≠ .hold ∧
      ∀ m, output = .forward m → more = 0 ∧ a.before.pipeline = w.conn.pipeline

/-- Outputs of a server message are left after the first. -/
def OwesMore (w : World σ) (number : Nat) : Nat → Prop
  | 0 => True
  | _ + 1 => w.conn.backendHold.held = [] ∧ ∃ source output a, source.number = number ∧
      Asked w.log source output a ∧ output ≠ .hold ∧ ∀ m, output ≠ .forward m

def Owed (w : World σ) : Phase → Prop
  | .projecting number more => OwesNext w number more
  | .sendingDown _ number more | .writingDown _ number more => OwesMore w number more
  | _ => True

structure Attributing (w : World σ) (phase : Phase) : Prop where
  wf : w.conn.pipeline.Wf
  log : AllAfter Attributed w.log
  held : ∀ i source, w.conn.backendHold.held[i]? = some source → Awaits w i source
  pending : ∀ pending, w.conn.backendHold.pending = some pending →
    pending.1.number < w.conn.upstream.received
  owed : Owed w phase

/-! ## Moves -/

/-- The server message that an event commits. -/
def Event.committed? : Event → Option Nat
  | .projected source _ _ => source
  | _ => none

theorem attributed_of_other {before : List (Record σ)} {r : Record σ}
    (h : r.event.committed? = none) : Attributed before r := by
  intro number unsent e message hevent
  rw [hevent] at h
  cases h

section Moves

variable {w w' : World σ} {phase phase' : Phase} {more : List (Record σ)}

variable {source : Receipt BackendMessage} {bytes number : Nat} {c : Connection σ}
  {output : BackendMiddlewareOutput} {message : BackendMessage} {reply : Reply} {p : Pipeline}
  {entries : List LedgerEntry} {r : Record σ} {messages : List BackendMessage}

theorem Awaits.next {i : Nat} (h : Awaits w i source) (hlog : w'.log = w.log ++ more)
    (hmore : ∀ r ∈ more, r.event.answered? ≠ some source.number)
    (hheld : w'.conn.backendHold.messages.take i = w.conn.backendHold.messages.take i)
    (hpending : ∀ pending, w'.conn.backendHold.pending = some pending →
      pending.1.number ≠ source.number)
    (hreceived : w.conn.upstream.received ≤ w'.conn.upstream.received)
    (hkeys : ∃ keys, w'.conn.pipeline.owingKeys = w.conn.pipeline.owingKeys ++ keys) :
    Awaits w' i source := by
  rcases h.asked with ⟨a, hasked, hfront⟩
  refine ⟨lt_of_lt_of_le h.received hreceived, hpending, h.plain, a, ?_, ?_⟩
  · rw [hlog]
    exact hasked.append hmore
  · intro hsync
    rcases hfront hsync with ⟨key, hkey, hid⟩
    rcases hkeys with ⟨keys, hkeys⟩
    refine ⟨key, ?_, hid⟩
    have hlt := (List.getElem?_eq_some_iff.1 hkey).1
    rw [hheld, hkeys, Pipeline.ended_append hlt, List.getElem?_append_left hlt]
    exact hkey

/-- Nothing is read from the server or held back. -/
structure Unread (w w' : World σ) : Prop where
  hold : w'.conn.backendHold = w.conn.backendHold
  received : w'.conn.upstream.received = w.conn.upstream.received

theorem Attributing.next (h : Attributing w phase) (hlog : w'.log = w.log ++ more)
    (hmore : ∀ r ∈ more, r.event.answered? = none)
    (hcommits : ∀ l₁ r l₂, more = l₁ ++ r :: l₂ → Attributed (w.log ++ l₁) r)
    (hsame : Unread w w')
    (hwf : w'.conn.pipeline.Wf)
    (hkeys : w.conn.backendHold.held ≠ [] →
      ∃ keys, w'.conn.pipeline.owingKeys = w.conn.pipeline.owingKeys ++ keys)
    (howed : Owed w' phase') : Attributing w' phase' := by
  refine ⟨hwf, ?_, ?_, ?_, howed⟩
  · rw [hlog]
    exact h.log.append hcommits
  · intro i source hsource
    rw [hsame.hold] at hsource
    have hsome : w.conn.backendHold.held ≠ [] := by
      intro hnone
      simp [hnone] at hsource
    apply (h.held i source hsource).next hlog
    · intro r hr
      rw [hmore r hr]
      exact nofun
    · rw [hsame.hold]
    · rw [hsame.hold]
      exact (h.held i source hsource).distinct
    · exact Nat.le_of_eq hsame.received.symm
    · exact hkeys hsome
  · rw [hsame.hold, hsame.received]
    exact h.pending

theorem Attributing.quiet (h : Attributing w phase) (hlog : w'.log = w.log ++ more)
    (hmore : ∀ r ∈ more, r.event.answered? = none ∧ r.event.committed? = none)
    (hsame : Unread w w')
    (hpipeline : w'.conn.pipeline = w.conn.pipeline) (howed : Owed w' phase') :
    Attributing w' phase' := by
  apply h.next hlog
  · intro r hr
    exact (hmore r hr).1
  · rintro l₁ r l₂ rfl
    exact attributed_of_other (hmore r (by simp)).2
  · exact hsame
  · rw [hpipeline]
    exact h.wf
  · intro _
    exact ⟨[], by rw [hpipeline, List.append_nil]⟩
  · exact howed

/-- A decision on the pending message, after which the held messages are the same. -/
theorem Attributing.decide (h : Attributing w phase)
    (hpending : w.conn.backendHold.pending = some (source, bytes))
    (output : BackendMiddlewareOutput) (hlog : w'.log = w.log ++
      [{ before := w.conn, event := .backendAnswered source.number output }])
    (hheld : w'.conn.backendHold.held = w.conn.backendHold.held)
    (hpending' : ∀ pending, w'.conn.backendHold.pending = some pending →
      w.conn.backendHold.pending = some pending)
    (hreceived : w'.conn.upstream.received = w.conn.upstream.received)
    (hpipeline : w'.conn.pipeline = w.conn.pipeline) (howed : Owed w' phase') :
    Attributing w' phase' := by
  refine ⟨by rw [hpipeline]; exact h.wf, ?_, ?_, ?_, howed⟩
  · rw [hlog]
    exact h.log.snoc (attributed_of_other rfl)
  · intro i other hother
    rw [hheld] at hother
    have hawaits := h.held i other hother
    apply hawaits.next hlog
    · intro r hr
      rw [List.mem_singleton.1 hr]
      intro hsame
      exact hawaits.distinct _ hpending (Option.some.inj hsame)
    · rw [BackendHold.messages, BackendHold.messages, hheld]
    · intro pending hsome
      exact hawaits.distinct pending (hpending' pending hsome)
    · exact Nat.le_of_eq hreceived.symm
    · exact ⟨[], by rw [hpipeline, List.append_nil]⟩
  · intro pending hsome
    rw [hreceived]
    exact h.pending pending (hpending' pending hsome)

/-! ### Decisions -/

theorem Record.attributesSafely_hold
    (h : (Record.mk c (.backendAnswered number .hold)).attributesSafely = true)
    (hpending : c.backendHold.pending = some (source, bytes)) :
    source.message.variant ≠ .errorResponse ∧ (isAsynchronous source.message = false →
      c.pipeline.fitsInFront c.backendHold.messages source.message = true) := by
  simp only [Record.attributesSafely, hpending, Option.all_some, Bool.or_eq_true, Bool.and_eq_true,
    Bool.not_eq_true', decide_eq_false_iff_not] at h
  rcases h with hasync | ⟨herror, hfits⟩
  · refine ⟨?_, fun hsync => absurd (hsync.symm.trans hasync) nofun⟩
    intro herror
    rw [isAsynchronous, herror] at hasync
    cases hasync
  · exact ⟨herror, fun _ => hfits⟩

theorem Record.attributesSafely_direct
    (h : (Record.mk c (.backendAnswered number output)).attributesSafely = true)
    (houtput : output ≠ .hold) : c.backendHold.held = [] := by
  cases output with
  | hold => exact absurd rfl houtput
  | _ => simpa [Record.attributesSafely] using h

theorem Attributing.hold (h : Attributing w .idle)
    (hpending : w.conn.backendHold.pending = some (source, bytes))
    (hsafe : (Record.mk w.conn (.backendAnswered source.number .hold)).attributesSafely = true) :
    Attributing ((w.logged (.backendAnswered source.number .hold)).setHold
      (w.conn.backendHold.holdPending source bytes)) .idle := by
  rcases Record.attributesSafely_hold hsafe hpending with ⟨herror, hfits⟩
  refine ⟨h.wf, h.log.snoc (attributed_of_other rfl), ?_, ?_, trivial⟩
  · intro i other hother
    have hsplit : (w.conn.backendHold.held ++ [source])[i]? = some other := hother
    have hmessages : (w.conn.backendHold.holdPending source bytes).messages =
        w.conn.backendHold.messages ++ [source.message] := by
      simp [BackendHold.messages, BackendHold.holdPending]
    rcases Nat.lt_or_ge i w.conn.backendHold.held.length with hlt | hge
    · -- One of those that were held before: its decision is not the one just logged.
      rw [List.getElem?_append_left hlt] at hsplit
      have hawaits := h.held i other hsplit
      refine hawaits.next rfl ?_ ?_ ?_ (Nat.le_refl _) ⟨[], (List.append_nil _).symm⟩
      · intro r hr
        rw [List.mem_singleton.1 hr]
        intro hsame
        exact hawaits.distinct _ hpending (Option.some.inj hsame)
      · show (w.conn.backendHold.holdPending source bytes).messages.take i = _
        rw [hmessages, List.take_append_of_le_length]
        simpa [BackendHold.messages] using Nat.le_of_lt hlt
      · intro pending hnone
        cases hnone
    · -- The message that is held now.
      rw [List.getElem?_append_right hge] at hsplit
      have hlast : i = w.conn.backendHold.held.length ∧ source = other := by
        rcases List.getElem?_eq_some_iff.1 hsplit with ⟨hzero, hget⟩
        simp only [List.length_singleton, Nat.lt_one_iff] at hzero
        refine ⟨by omega, ?_⟩
        simpa [hzero] using hget
      rcases hlast with ⟨rfl, rfl⟩
      have hnone : ∀ other, (w.conn.backendHold.holdPending source bytes).pending = some other →
          other.1.number ≠ source.number := by
        intro other hother
        cases hother
      refine ⟨h.pending _ hpending, hnone, herror, _, asked_logged hpending .hold, ?_⟩
      intro hsync
      have htake : (w.conn.backendHold.holdPending source bytes).messages.take
          w.conn.backendHold.held.length = w.conn.backendHold.messages := by
        rw [hmessages, List.take_left' (by simp [BackendHold.messages])]
      show ∃ key, w.conn.pipeline.owingKeys[ended ((w.conn.backendHold.holdPending source
        bytes).messages.take w.conn.backendHold.held.length) w.conn.pipeline.owingKeys]? = some key ∧ _
      rw [htake]
      exact h.wf.backendOperationId_of_fitsInFront hsync (hfits hsync)
  · intro pending hnone
    cases hnone

theorem Attributing.take (h : Attributing w .idle) {outputs : Nat}
    (hpending : w.conn.backendHold.pending = some (source, bytes))
    (houtput : outputs? output = some outputs)
    (hsafe : (Record.mk w.conn (.backendAnswered source.number output)).attributesSafely = true) :
    Attributing ((w.logged (.backendAnswered source.number output)).setHold
      w.conn.backendHold.takePending) (.projecting source.number outputs) := by
  have hhold : output ≠ .hold := by
    rintro rfl
    cases houtput
  have hnone := Record.attributesSafely_direct hsafe hhold
  refine h.decide hpending output rfl rfl (fun _ hsome => nomatch hsome) rfl rfl ?_
  cases outputs with
  | zero => trivial
  | succ outputs =>
    refine ⟨hnone, source, output, _, rfl, asked_logged hpending output, hhold, ?_⟩
    rintro m rfl
    cases houtput
    exact ⟨rfl, rfl⟩

theorem Attributing.receive (h : Attributing w .idle) (s : σ) (message : BackendMessage)
    (bytes : Nat) :
    Attributing (((w.received .upstream).setState s).setHold
      { w.conn.backendHold with pending := some (⟨w.conn.upstream.received, message⟩, bytes) })
      .idle := by
  refine ⟨h.wf, h.log, ?_, ?_, trivial⟩
  · intro i source hsource
    have hawaits := h.held i source hsource
    refine hawaits.next (List.append_nil w.log).symm (List.forall_mem_nil _) rfl ?_ ?_ ?_
    · rintro pending hpending hsame
      cases hpending
      exact absurd hsame (Nat.ne_of_gt hawaits.received)
    · exact Nat.le_succ _
    · exact ⟨[], (List.append_nil _).symm⟩
  · rintro pending hpending
    cases hpending
    exact Nat.lt_succ_self _

/-! ### Commits -/

theorem Attributing.suppress (h : Attributing w .idle)
    (hpending : w.conn.backendHold.pending = some (source, bytes))
    (hstep : Pipeline.Step w.conn.pipeline (.backend message) reply p) (hsafe : (Record.mk w.conn
      (.backendAnswered source.number (.suppress message))).attributesSafely = true) :
    Attributing ((((w.logged (.backendAnswered source.number (.suppress message))).setHold
        w.conn.backendHold.takePending).logged
      (.suppressed source.number ⟨w.conn.pipeline, .backend message, reply, p⟩)).setPipeline p)
      .idle := by
  have hnone := Record.attributesSafely_direct hsafe nofun
  have hdecided : Attributing ((w.logged (.backendAnswered source.number
      (.suppress message))).setHold w.conn.backendHold.takePending) .idle :=
    h.decide hpending (.suppress message) rfl rfl (fun _ hsome => nomatch hsome) rfl rfl trivial
  refine ⟨h.wf.step hstep, hdecided.log.snoc (attributed_of_other rfl), ?_, hdecided.pending,
    trivial⟩
  intro i other hother
  exact absurd (show w.conn.backendHold.held[i]? = some other from hother) (by simp [hnone])

theorem Attributing.refuse {more : Nat} (h : Attributing w (.projecting number (more + 1)))
    (hstep : Pipeline.Step w.conn.pipeline (.backend message) reply p)
    (hrefused : ∀ m, reply ≠ .backend (.ok (.emit m))) :
    Attributing ((w.logged (.projected (some number) more
      ⟨w.conn.pipeline, .backend message, reply, p⟩)).setPipeline p) .idle := by
  rcases h.owed with ⟨hnone, -⟩
  refine ⟨h.wf.step hstep, h.log.snoc ?_, ?_, h.pending, trivial⟩
  · intro number' unsent e m hevent _ houtput _
    cases hevent
    exact absurd houtput (hrefused m)
  · intro i other hother
    exact absurd (show w.conn.backendHold.held[i]? = some other from hother) (by simp [hnone])

/-- A message that is emitted to an operation advances the one in front. -/
theorem emittedId_of_emit {e : LedgerEntry} {head : Operation} {rest : List Operation}
    (houtput : e.output = .backend (.ok (.emit message)))
    (hops : e.before.operations = head :: rest) (hsync : isAsynchronous message = false) :
    Pipeline.emittedId e = some head.id := by
  simp [Pipeline.emittedId, Pipeline.emission?, houtput, hops, hsync]

theorem Attributing.project {more : Nat} (h : Attributing w (.projecting number (more + 1)))
    (hstep : Pipeline.Step w.conn.pipeline (.backend message)
      (.backend (.ok (.emit message))) p) :
    Attributing ((w.logged (.projected (some number) more
      ⟨w.conn.pipeline, .backend message, .backend (.ok (.emit message)), p⟩)).setPipeline p)
      (.sendingDown [(some number, message)] number more) := by
  rcases h.owed with ⟨hnone, source, output, a, hnumber, hasked, hhold, hforward⟩
  have hquiet : ∀ r ∈ [Record.mk w.conn (.projected (some number) more
      ⟨w.conn.pipeline, .backend message, .backend (.ok (.emit message)), p⟩)],
      r.event.answered? = none := by
    intro r hr
    rw [List.mem_singleton.1 hr]
    rfl
  refine ⟨h.wf.step hstep, h.log.snoc ?_, ?_, h.pending, ?_⟩
  · intro number' unsent e m hevent hinput _ hsync
    cases hevent
    cases hinput
    refine ⟨source, output, a, hnumber, hasked, ?_⟩
    rintro - (hheld | ⟨m, hm⟩)
    · exact absurd hheld hhold
    · rcases h.wf.backendOperationId_of_emit hstep hsync with ⟨head, rest, hops, -, hid⟩
      refine ⟨head.id, emittedId_of_emit rfl hops hsync, ?_, fun hheld => absurd hheld hhold⟩
      rw [(hforward m hm).2]
      exact hid
  · intro i other hother
    exact absurd (show w.conn.backendHold.held[i]? = some other from hother) (by simp [hnone])
  · cases more with
    | zero => trivial
    | succ more =>
      refine ⟨hnone, source, output, a, hnumber, ?_, hhold, ?_⟩
      · apply hasked.append
        intro r hr
        rw [hquiet r hr]
        exact nofun
      · intro m hm
        exact absurd (hforward m hm).1 (Nat.succ_ne_zero more)

theorem answered?_released {numbers : List Nat} {event : Event}
    (h : event ∈ releasedEvents numbers entries) : event.answered? = none := by
  rw [releasedEvents, ← List.map_uncurry_zip_eq_zipWith] at h
  rcases List.mem_map.1 h with ⟨⟨number, e⟩, -, rfl⟩
  rfl

theorem released_split {held : List (Receipt BackendMessage)} {l₁ l₂ : List (Record σ)}
    (h : (releasedEvents (held.map Receipt.number) entries).map
      (fun event => { before := c, event := event }) = l₁ ++ r :: l₂) :
    ∃ source e, held[l₁.length]? = some source ∧ entries[l₁.length]? = some e ∧
      r = { before := c, event := .projected (some source.number) 0 e } := by
  have hget : ((releasedEvents (held.map Receipt.number) entries).map
      (fun event => Record.mk c event))[l₁.length]? = some r := by
    rw [h]
    simp
  simp only [releasedEvents, List.getElem?_map, List.getElem?_zipWith] at hget
  cases hsource : held[l₁.length]? with
  | none => simp [hsource] at hget
  | some source =>
    cases he : entries[l₁.length]? with
    | none => simp [hsource, he] at hget
    | some e => exact ⟨source, e, rfl, rfl, by simpa [hsource, he] using hget.symm⟩

theorem released_variants {q : Pipeline} (hlength : c.backendHold.held.length = messages.length)
    (hexec : exec Pipeline.call p (messages.map .backend) = .ok (entries, q))
    (hsafe : ∀ r ∈ (releasedEvents (c.backendHold.held.map Receipt.number) entries).map
      (fun event => Record.mk c event), r.attributesSafely = true) :
    c.backendHold.messages.map BackendMessage.variant =
      messages.map BackendMessage.variant := by
  have hinputs := exec_inputs hexec
  apply List.ext_getElem?
  intro j
  rw [BackendHold.messages, List.map_map, List.getElem?_map, List.getElem?_map]
  cases hsource : c.backendHold.held[j]? with
  | none =>
    have hnone : messages[j]? = none := by
      rw [List.getElem?_eq_none_iff] at hsource ⊢
      omega
    rw [hnone]
    rfl
  | some source =>
    have hlt : j < messages.length := by
      rw [← hlength]
      exact (List.getElem?_eq_some_iff.1 hsource).1
    have hmessage : messages[j]? = some messages[j] := List.getElem?_eq_getElem hlt
    have hinput : (entries.map Entry.input)[j]? = some (.backend messages[j]) := by
      rw [hinputs, List.getElem?_map, hmessage]
      rfl
    rw [List.getElem?_map] at hinput
    rcases Option.map_eq_some_iff.1 hinput with ⟨e, he, hbackend⟩
    have hmem : Record.mk c (.projected (some source.number) 0 e) ∈
        (releasedEvents (c.backendHold.held.map Receipt.number) entries).map
          (fun event => Record.mk c event) := by
      refine List.mem_map_of_mem (List.mem_of_getElem? (i := j) ?_)
      simp [releasedEvents, List.getElem?_zipWith, hsource, he]
    have hvariant := hsafe _ hmem
    simp only [Record.attributesSafely, List.all_eq_true, Bool.or_eq_true, decide_eq_true_eq,
      hbackend, Call.response?, Option.all_some] at hvariant
    rcases hvariant source (List.mem_of_getElem? hsource) with hne | hvariant
    · exact absurd rfl hne
    · rw [hmessage]
      exact congrArg some hvariant.symm

/-- The held messages are released, each to the operation that it was shown with. -/
theorem Attributing.release (h : Attributing w .idle) {unsent : List (Option Nat × BackendMessage)}
    (hlength : w.conn.backendHold.held.length = messages.length)
    (hexec : exec Pipeline.call w.conn.pipeline (messages.map .backend) = .ok (entries, p))
    (houtputs : entries.map Entry.output = messages.map (fun m => .backend (.ok (.emit m))))
    (hsafe : ∀ r ∈ (releasedEvents (w.conn.backendHold.held.map Receipt.number) entries).map
      (fun event => Record.mk w.conn event), r.attributesSafely = true) :
    Attributing (((w.loggedAll (releasedEvents (w.conn.backendHold.held.map Receipt.number)
      entries)).setPipeline p).setHold w.conn.backendHold.clear) (.sendingDown unsent 0 0) := by
  have hvariants := released_variants hlength hexec hsafe
  have herror : ∀ m ∈ w.conn.backendHold.messages, m.variant ≠ .errorResponse := by
    intro m hm
    rcases List.mem_map.1 hm with ⟨source, hsource, rfl⟩
    rcases List.getElem?_of_mem hsource with ⟨i, hi⟩
    exact (h.held i source hi).plain
  rcases h.wf.span hexec houtputs hvariants herror with ⟨ids, hids, hspan⟩
  refine ⟨?_, h.log.append ?_, ?_, h.pending, trivial⟩
  · exact History.invariant h.wf (fun _ _ _ _ hwf hstep => hwf.step hstep) (.of_exec _ hexec)
  · intro l₁ r l₂ hsplit
    rcases released_split hsplit with ⟨source, e, hsource, he, rfl⟩
    intro number unsent' e' m hevent hinput houtput hsync
    cases hevent
    rcases (h.held _ source hsource).asked with ⟨a, hasked, hfront⟩
    refine ⟨source, .hold, a, rfl, hasked.append ?_, ?_⟩
    · -- The steps of the span before this one decide on nothing.
      intro r hr
      have hmem := hsplit ▸ List.mem_append_left (_ :: l₂) hr
      rcases List.mem_map.1 hmem with ⟨event, hevent, rfl⟩
      show event.answered? ≠ some source.number
      rw [answered?_released hevent]
      exact nofun
    · rintro rfl -
      have hmessage : w.conn.backendHold.messages[l₁.length]? = some source.message := by
        rw [BackendHold.messages, List.getElem?_map, hsource]
        rfl
      rcases hspan _ e _ he hmessage with ⟨hwf, hstep, hkeys, hid⟩
      rcases hfront hsync with ⟨key, hkey, hattributed⟩
      rw [hinput, houtput] at hstep
      rcases hwf.backendOperationId_of_emit hstep hsync with ⟨head, rest, hops, hhead, hfound⟩
      -- Both are the operation in front once the messages held before are in.
      have hsame : key = head.key := by
        rw [hkeys, List.head?_drop, hkey] at hhead
        exact Option.some.inj hhead
      subst hsame
      refine ⟨head.id, emittedId_of_emit houtput hops hsync, hattributed, fun _ => ?_⟩
      refine ⟨l₁.length, ids, hsource, hids, ?_⟩
      rw [hid, hfound]
  · intro i other hother
    cases hother

/-! ### Client messages and local responses -/

/-- While messages are held, no Sync is cancelled and no local request is rejected. -/
theorem Record.attributesSafely_ledger (h : r.attributesSafely = true)
    (hquiet : r.event.answered? = none ∧ r.event.committed? = none)
    (hheld : r.before.backendHold.held ≠ []) :
    ∀ e ∈ r.event.entries, Pipeline.isError e.input = false ∧
      e.before.cancelsSync e.input = false := by
  rcases r with ⟨before, event⟩
  have hempty : before.backendHold.held.isEmpty = false := by simpa using hheld
  intro e he
  cases event with
  | backendAnswered number output => cases hquiet.1
  | projected source unsent entry =>
    cases source with
    | some number => cases hquiet.2
    | none =>
      cases List.mem_singleton.1 he
      simpa [Record.attributesSafely, hempty, Event.entries] using h
  | admitted number entries =>
    have hall : ∀ e ∈ entries, Pipeline.isError e.input = false ∧
        e.before.cancelsSync e.input = false := by
      simpa [Record.attributesSafely, hempty, Event.entries] using h
    exact hall e he
  | queued number entry responses messages | suppressed number entry =>
    cases List.mem_singleton.1 he
    simpa [Record.attributesSafely, hempty, Event.entries] using h
  | _ => cases he

theorem Attributing.ledger (h : Attributing w phase) (hlog : w'.log = w.log ++ [r])
    (hquiet : r.event.answered? = none ∧ r.event.committed? = none)
    (hbefore : r.before.backendHold = w.conn.backendHold)
    (hsame : Unread w w')
    (hsteps : History Pipeline.Step w.conn.pipeline r.event.entries w'.conn.pipeline)
    (hclient : ∀ e ∈ r.event.entries, ∀ message, e.input ≠ .backend message)
    (hsafe : r.attributesSafely = true) (howed : Owed w' phase') : Attributing w' phase' := by
  apply h.next hlog
  · intro r' hr'
    rw [List.mem_singleton.1 hr']
    exact hquiet.1
  · intro l₁ r' l₂ hsplit
    have hmem : r' ∈ [r] := by rw [hsplit]; simp
    rw [List.mem_singleton.1 hmem]
    exact attributed_of_other hquiet.2
  · exact hsame
  · exact History.invariant h.wf (fun _ _ _ _ hwf hstep => hwf.step hstep) hsteps
  · intro hheld
    rw [← hbefore] at hheld
    apply h.wf.owingKeys_history hsteps
    intro e he
    exact ⟨hclient e he, Record.attributesSafely_ledger hsafe hquiet hheld e he⟩
  · exact howed

theorem Attributing.call (h : Attributing w phase) {call : Call} (hlog : w'.log = w.log ++ [r])
    (hquiet : r.event.answered? = none ∧ r.event.committed? = none)
    (hbefore : r.before.backendHold = w.conn.backendHold)
    (hsame : Unread w w')
    (hentries : r.event.entries = [⟨w.conn.pipeline, call, reply, w'.conn.pipeline⟩])
    (hstep : Pipeline.Step w.conn.pipeline call reply w'.conn.pipeline)
    (hclient : ∀ message, call ≠ .backend message) (hsafe : r.attributesSafely = true)
    (howed : Owed w' phase') : Attributing w' phase' := by
  refine h.ledger hlog hquiet hbefore hsame ?_ ?_ hsafe howed
  · rw [hentries]
    exact History.single hstep
  · intro e he
    rw [hentries] at he
    rw [List.mem_singleton.1 he]
    exact hclient

/-! ### All moves -/

theorem Owed.append (h : Owed w phase) (hlog : w'.log = w.log ++ more)
    (hmore : ∀ r ∈ more, r.event.answered? = none)
    (hheld : w'.conn.backendHold.held = w.conn.backendHold.held)
    (hpipeline : w'.conn.pipeline = w.conn.pipeline) : Owed w' phase := by
  have hasked : ∀ {source output a}, Asked w.log source output a → Asked w'.log source output a := by
    intro source output a hasked
    rw [hlog]
    apply hasked.append
    intro r hr
    rw [hmore r hr]
    exact nofun
  have hnext : ∀ {number unsent}, OwesNext w number unsent → OwesNext w' number unsent := by
    intro number unsent h
    cases unsent with
    | zero => trivial
    | succ unsent =>
      rcases h with ⟨hnone, source, output, a, hnumber, hlast, hrest⟩
      refine ⟨hheld.trans hnone, source, output, a, hnumber, hasked hlast, ?_⟩
      rw [hpipeline]
      exact hrest
  have hlater : ∀ {number unsent}, OwesMore w number unsent → OwesMore w' number unsent := by
    intro number unsent h
    cases unsent with
    | zero => trivial
    | succ unsent =>
      rcases h with ⟨hnone, source, output, a, hnumber, hlast, hrest⟩
      exact ⟨hheld.trans hnone, source, output, a, hnumber, hasked hlast, hrest⟩
  cases phase with
  | projecting number unsent => exact hnext h
  | sendingDown outputs number unsent | writingDown outputs number unsent => exact hlater h
  | _ => trivial

theorem OwesMore.next {unsent : Nat} (h : OwesMore w number unsent) : OwesNext w number unsent := by
  cases unsent with
  | zero => trivial
  | succ unsent =>
    rcases h with ⟨hnone, source, output, a, hnumber, hlast, hhold, hforward⟩
    exact ⟨hnone, source, output, a, hnumber, hlast, hhold, fun m hm => absurd hm (hforward m)⟩

theorem Owed.still (h : Owed w phase) (hlog : w'.log = w.log)
    (hheld : w'.conn.backendHold.held = w.conn.backendHold.held)
    (hpipeline : w'.conn.pipeline = w.conn.pipeline) : Owed w' phase :=
  h.append (hlog.trans (List.append_nil _).symm) (List.forall_mem_nil _) hheld hpipeline

theorem Attributing.still (h : Attributing w phase) (hlog : w'.log = w.log)
    (hsame : Unread w w')
    (hpipeline : w'.conn.pipeline = w.conn.pipeline) (howed : Owed w' phase') :
    Attributing w' phase' :=
  h.quiet (hlog.trans (List.append_nil _).symm) (List.forall_mem_nil _) hsame hpipeline howed

/-- A move that logs an event which neither decides on a server message nor commits one. -/
theorem Attributing.logs (h : Attributing w phase) (hlog : w'.log = w.log ++ [r])
    (hquiet : r.event.answered? = none ∧ r.event.committed? = none)
    (hsame : Unread w w')
    (hpipeline : w'.conn.pipeline = w.conn.pipeline) (howed : Owed w' phase') :
    Attributing w' phase' := by
  apply h.quiet hlog _ hsame hpipeline howed
  intro r' hr'
  rw [List.mem_singleton.1 hr']
  exact hquiet

theorem Attributing.move (h : Attributing w phase) (hmove : Move (w, phase) (w', phase'))
    (hsafe : ∀ r ∈ w'.log, r.attributesSafely = true) : Attributing w' phase' := by
  cases hmove with
  | state s => exact h.still rfl ⟨rfl, rfl⟩ rfl (h.owed.still rfl rfl rfl)
  | wrote side count =>
    cases side with
    | upstream | downstream => exact h.still rfl ⟨rfl, rfl⟩ rfl (h.owed.still rfl rfl rfl)
  -- Client messages.
  | receiveFrontend _ | takePrepared _ | prepare | prepareThenFlush | retain _ _ =>
    exact h.still rfl ⟨rfl, rfl⟩ rfl trivial
  | reject | answer output | suppressFrontend | refuseLocal _ =>
    exact h.logs rfl ⟨rfl, rfl⟩ ⟨rfl, rfl⟩ rfl trivial
  | commit hhistory hadmits =>
    refine h.ledger rfl ⟨rfl, rfl⟩ rfl ⟨rfl, rfl⟩ hhistory ?_ (hsafe _ (by simp)) trivial
    intro e he message hinput
    rcases hadmits e he with ⟨_, _, hfrontend, -⟩
    rw [hfrontend] at hinput
    cases hinput
  | @respond _ number request responses admission _ p s messages haccept _ =>
    have hstep : Pipeline.Step w.conn.pipeline (.frontend request .local)
        (.frontend (.ok admission)) p := by
      simp [Pipeline.Step, Calls, Pipeline.call, haccept, Except.map]
    exact h.call rfl ⟨rfl, rfl⟩ rfl ⟨rfl, rfl⟩ rfl hstep (by simp) (hsafe _ (by simp)) trivial
  -- Sends.
  | sendUp _ | unencodableUp _ | unencodableDown _ | interrupt _ =>
    exact h.logs rfl ⟨rfl, rfl⟩ ⟨rfl, rfl⟩ rfl trivial
  | nextUp | endUp | endOutputs => exact h.still rfl ⟨rfl, rfl⟩ rfl trivial
  | @sendDown _ source message unsent number more bytes _ =>
    have howed : Owed w (.writingDown unsent number more) := h.owed
    exact h.logs rfl ⟨rfl, rfl⟩ ⟨rfl, rfl⟩ rfl (howed.append rfl (by simp [Event.answered?]) rfl rfl)
  | nextDown _ => exact h.still rfl ⟨rfl, rfl⟩ rfl h.owed
  | nextOutput => exact h.still rfl ⟨rfl, rfl⟩ rfl (OwesMore.next h.owed)
  -- Server messages.
  | receiveBackend s message bytes hnone => exact h.receive s message bytes
  | keepPending output hpending houtput =>
    exact h.decide hpending output rfl rfl (fun _ hsome => hsome) rfl rfl trivial
  | suppressBackend hpending hstep =>
    exact h.suppress hpending hstep (hsafe _ (by simp))
  | hold hpending => exact h.hold hpending (hsafe _ (by simp))
  | take output hpending houtput => exact h.take hpending houtput (hsafe _ (by simp))
  | project hstep => exact h.project hstep
  | refuse hstep hrefused => exact h.refuse hstep hrefused
  | release _ hlength hexec houtputs =>
    exact h.release hlength hexec houtputs fun r hr => hsafe r (List.mem_append_right _ hr)
  -- Local responses.
  | startFlush | endFlush _ | popEmpty _ => exact h.still rfl ⟨rfl, rfl⟩ rfl trivial
  | emitLocal _ hstep | deferLocal _ hstep | dropLocal _ hstep =>
    exact h.call rfl ⟨rfl, rfl⟩ rfl ⟨rfl, rfl⟩ rfl hstep (by simp) (hsafe _ (by simp)) trivial

end Moves

/-! ## Sessions -/

/-- **Stable attribution.**  In a session whose records all respect the condition, let a server
message be committed to the ledger.  If it is the message which the boundary middleware was last
asked about under its number, and the decision was to forward or to hold it, then the operation that
the middleware was shown, the one that it was shown again when the held messages were released, and
the one that the message advances are the same. -/
theorem attribution_stable {handlers : Handlers σ} {conn : Connection σ} {policy : PipelinePolicy}
    {h : List (Session.SessionEntry σ ε)} {w : World σ} (hr : Session.Run ε handlers conn h w)
    (hconn : conn.pipeline = Pipeline.new policy) (hhold : conn.backendHold = BackendHold.default)
    (hsafe : ∀ r ∈ w.log, r.attributesSafely = true)
    {before after : List (Record σ)} {r : Record σ} (hlog : w.log = before ++ r :: after)
    {number unsent : Nat} {e : LedgerEntry} {message : BackendMessage}
    (hevent : r.event = .projected (some number) unsent e)
    (hinput : e.input = .backend message) (houtput : e.output = .backend (.ok (.emit message)))
    (hsync : isAsynchronous message = false) :
    ∃ source output a, source.number = number ∧ Asked before source output a ∧
      (source.message = message → (output = .hold ∨ ∃ m, output = .forward m) →
        ∃ id, Pipeline.emittedId e = some id ∧
          a.before.pipeline.backendOperationId message = some id ∧
          (output = .hold → ShownAs r source id)) := by
  have hinv : Attributing w .idle := by
    apply hr.invariant_when (fun r => r.attributesSafely = true) Attributing hsafe
    · have hpipeline : (World.new conn).conn.pipeline = Pipeline.new policy := hconn
      have hnothing : (World.new conn).conn.backendHold = BackendHold.default := hhold
      refine ⟨by rw [hpipeline]; exact Pipeline.wf_new policy, allAfter_nil, ?_, ?_, trivial⟩
      · intro i source hsource
        rw [hnothing] at hsource
        cases hsource
      · intro pending hpending
        rw [hnothing] at hpending
        cases hpending
    · intro w phase w' phase' hinv hmove hsafe'
      exact hinv.move hmove hsafe'
  exact hinv.log before r after hlog number unsent e message hevent hinput houtput hsync

end Attribution

/-- A connection of up to eight outstanding operations that may hold four messages. -/
def batchingConnection : Connection Unit :=
  { holdingConnection with pipeline := pipeliningConnection.pipeline }

/-- The event commits the server message to the ledger as it came. -/
def Event.commits (event : Event) (number : Nat) (message : BackendMessage) : Bool :=
  match event with
  | .projected (some n) _ e =>
    decide (n = number ∧ e.input = .backend message ∧
      e.output = .backend (.ok (.emit message)))
  | _ => false

theorem Event.commits_eq_true {event : Event} {number : Nat} {message : BackendMessage}
    (h : event.commits number message = true) :
    ∃ unsent e, event = .projected (some number) unsent e ∧ e.input = .backend message ∧
      e.output = .backend (.ok (.emit message)) := by
  unfold Event.commits at h
  split at h
  · rename_i n unsent e
    obtain ⟨rfl, hinput, houtput⟩ := of_decide_eq_true h
    exact ⟨unsent, e, rfl, hinput, houtput⟩
  · cases h

/-- A Parse and a Bind are pipelined, and their answers are held and released together. -/
theorem attribution_stable_parse_bind :
    ∃ (h : List (Session.SessionEntry Unit Unit)) (w : World Unit) (r a : Record Unit)
      (e : LedgerEntry) (id : Nat),
      Session.Run Unit (Handlers.identity Unit) batchingConnection h w ∧ r ∈ w.log ∧
      r.event.commits 1 .bindComplete = true ∧ a.event = .backendAnswered 1 .hold ∧
      r.event.entries = [e] ∧ Pipeline.emittedId e = some id ∧
      a.before.pipeline.backendOperationId .bindComplete = some id ∧
      ShownAs r ⟨1, .bindComplete⟩ id := by
  obtain ⟨h, w, hr, hsafe, ⟨r, hmem, hcommits⟩, hanswers⟩ :=
      Session.exists_identity_run batchingConnection
      (fun _ w => (∀ r ∈ w.log, r.attributesSafely = true) ∧
        (∃ r ∈ w.log, r.event.commits 1 .bindComplete = true) ∧
        ∀ a ∈ w.log, a.event.answered? = some 1 → a.event = .backendAnswered 1 .hold ∧
          a.before.backendHold.pending = some (⟨1, .bindComplete⟩, 5))
      [Session.sends (.parse ⟨[], [], []⟩) (.forward (.parse ⟨[], [], []⟩)),
       Session.sends (.bind ⟨[], [], [], [], []⟩) (.forward (.bind ⟨[], [], [], [], []⟩)),
       Session.returns .parseComplete .hold .keepHolding,
       Session.returns .bindComplete .hold .keepHolding,
       Session.releases (.replaceOneToOne [.parseComplete, .bindComplete])] (by decide +kernel)
  obtain ⟨unsent, e, hevent, hinput, houtput⟩ := Event.commits_eq_true hcommits
  obtain ⟨before, after, hlog⟩ := List.append_of_mem hmem
  obtain ⟨⟨n, m⟩, output, a, hnumber, hasked, hshown⟩ :=
    attribution_stable hr rfl rfl hsafe hlog hevent hinput houtput rfl
  cases hnumber
  -- The last decision on the message is one of the log's.
  have ha : a ∈ w.log := by
    rw [hlog]
    exact List.mem_append_left _ (List.mem_filter.1 (List.mem_of_getLast? hasked.last)).1
  have hanswered : a.event.answered? = some 1 := by
    rw [hasked.event]
    rfl
  obtain ⟨hhold, hpending⟩ := hanswers a ha hanswered
  obtain ⟨bytes, hsource⟩ := hasked.pending
  cases hhold.symm.trans hasked.event
  cases hpending.symm.trans hsource
  obtain ⟨id, hemitted, hdecided, hreleased⟩ := hshown rfl (Or.inl rfl)
  refine ⟨h, w, r, a, e, id, hr, hmem, hcommits, hhold, ?_, hemitted, hdecided, hreleased rfl⟩
  rw [hevent]
  rfl

/-- Two Parses are pipelined.  The middleware decides to hold both answers and is told the first
operation each time; when they are released the second is shown with, and advances, the other. -/
theorem held_answers_reattributed :
    ∃ (h : List (Session.SessionEntry Unit Unit)) (w : World Unit),
      Session.Run Unit (Handlers.identity Unit) batchingConnection h w ∧
      (h.map Entry.input = [.forwardFrontend, .forwardFrontend, .forwardBackend, .forwardBackend,
        .flushBackendHold] ∧
      (∃ a ∈ w.log, a.event = .backendAnswered 1 .hold ∧
        a.before.backendHold.pending = some (⟨1, .parseComplete⟩, 5) ∧
        a.before.pipeline.backendOperationId .parseComplete = some 0) ∧
      ∃ r ∈ w.log, r.event.commits 1 .parseComplete = true ∧
        r.before.pipeline.backendOperationIds [.parseComplete, .parseComplete] =
          .ok [some 0, some 1] ∧
        ∃ e ∈ r.event.entries, Pipeline.emittedId e = some 1) :=
  Session.exists_run
    [Session.sends (.parse ⟨[], [], []⟩) (.forward (.parse ⟨[], [], []⟩)),
     Session.sends (.parse ⟨[], [], []⟩) (.forward (.parse ⟨[], [], []⟩)),
     Session.returns .parseComplete .hold .keepHolding,
     Session.returns .parseComplete .hold .keepHolding,
     Session.releases (.replaceOneToOne [.parseComplete, .parseComplete])] _
    (by decide +kernel)

end PgProto
