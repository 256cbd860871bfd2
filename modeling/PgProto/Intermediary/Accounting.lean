import Mathlib.Algebra.GroupWithZero.Nat
import PgProto.Intermediary.Cancellation
import PgProto.Intermediary.Steady

/-!
# Accounting — where every server message is

A server message is pending, held, or consumed: by a decision that forwards, expands or suppresses
it, or by a release of the hold.

* `Consumption` — the messages taken off the transport, each in exactly one place; an invariant of
  the machine, whatever is dropped or fails;
* `HoldOk` — the counters of the hold, and the room which the gate leaves for a pending message;
* `Clean`, `Told` — a call goes on only while the ledger refuses nothing, and returns what it does
  refuse;
* `exact_once_accounting` — the three together, over sessions.
-/

namespace PgProto

open Lib
open Async (wp_bind wp_mono)
open Pipeline (LedgerEntry)

section Accounting

variable {σ ε : Type}

/-! ## Consumption -/

namespace Record

/-- Server messages consumed by a decision. -/
def decides (r : Record σ) : List Nat :=
  match r.event with
  | .backendAnswered number output => if (outputs? output).isSome then [number] else []
  | .suppressed number _ => [number]
  | _ => []

/-- Server messages consumed by a release: the ledger takes a message which is in the hold. -/
def releases (r : Record σ) : List Nat :=
  match r.event with
  | .projected (some number) _ _ =>
    if number ∈ r.before.backendHold.held.map Receipt.number then [number] else []
  | _ => []

end Record

abbrev decidedIn (log : List (Record σ)) : List Nat := log.flatMap Record.decides

abbrev releasedIn (log : List (Record σ)) : List Nat := log.flatMap Record.releases

/-- The ledger took what was released. -/
def ReleasesEmitted (log : List (Record σ)) : Prop :=
  ∀ r ∈ log, r.releases ≠ [] → ∀ e ∈ r.event.entries, (emit? e).isSome = true

/-- Every message taken off the transport is consumed, held or pending, and only one of these.  What
the running call has still to offer to the ledger was consumed by a decision. -/
structure Consumption (w : World σ) (phase : Phase) : Prop where
  numbers : (decidedIn w.log ++ (releasedIn w.log ++ w.conn.backendHold.numbers)).Perm
    (List.range w.conn.upstream.received)
  owing : ∀ number ∈ phase.servers, number ∈ decidedIn w.log
  emitted : ReleasesEmitted w.log

section Moves

variable {w w' : World σ} {phase phase' : Phase}

theorem Consumption.notMem_held (h : Consumption w phase) {number : Nat}
    (hdecided : number ∈ decidedIn w.log) :
    number ∉ w.conn.backendHold.held.map Receipt.number := by
  intro hheld
  have hnodup : (decidedIn w.log ++ (releasedIn w.log ++ w.conn.backendHold.numbers)).Nodup :=
    h.numbers.nodup_iff.2 List.nodup_range
  have hdisjoint := (List.nodup_append.1 hnodup).2.2 number hdecided number
  refine hdisjoint ?_ rfl
  exact List.mem_append_right _ (List.mem_append_left _ hheld)

theorem Consumption.consume (h : Consumption w phase) {more : List (Record σ)}
    (hlog : w'.log = w.log ++ more)
    (hhold : (decidedIn more ++ (releasedIn more ++ w'.conn.backendHold.numbers)).Perm
      w.conn.backendHold.numbers)
    (hreceived : w'.conn.upstream.received = w.conn.upstream.received)
    (howing : ∀ number ∈ phase'.servers, number ∈ decidedIn w.log ++ decidedIn more)
    (hemitted : ReleasesEmitted more) : Consumption w' phase' := by
  have hdecided : decidedIn w'.log = decidedIn w.log ++ decidedIn more := by
    rw [decidedIn, hlog, List.flatMap_append]
  have hreleased : releasedIn w'.log = releasedIn w.log ++ releasedIn more := by
    rw [releasedIn, hlog, List.flatMap_append]
  refine ⟨?_, ?_, ?_⟩
  · rw [hdecided, hreleased, hreceived]
    calc
      List.Perm
          (decidedIn w.log ++ decidedIn more ++
            (releasedIn w.log ++ releasedIn more ++ w'.conn.backendHold.numbers))
          (decidedIn w.log ++ (decidedIn more ++ (releasedIn w.log ++
            (releasedIn more ++ w'.conn.backendHold.numbers)))) := by
        simp only [List.append_assoc, List.Perm.refl]
      List.Perm _ (decidedIn w.log ++ (releasedIn w.log ++ (decidedIn more ++
            (releasedIn more ++ w'.conn.backendHold.numbers)))) :=
        (List.perm_append_comm_assoc _ _ _).append_left _
      List.Perm _ (decidedIn w.log ++ (releasedIn w.log ++ w.conn.backendHold.numbers)) :=
        (hhold.append_left _).append_left _
      List.Perm _ (List.range w.conn.upstream.received) := h.numbers
  · rw [hdecided]
    exact howing
  · intro r hr hne
    rw [hlog] at hr
    rcases List.mem_append.1 hr with hr | hr
    · exact h.emitted r hr hne
    · exact hemitted r hr hne

/-- A move that consumes nothing: its records are about no server message, or about one that was
consumed before. -/
theorem Consumption.same (h : Consumption w phase) {more : List (Record σ)}
    (hlog : w'.log = w.log ++ more) (hdecides : ∀ r ∈ more, r.decides = [])
    (hreleases : ∀ r ∈ more, r.releases = [])
    (hhold : w'.conn.backendHold.numbers = w.conn.backendHold.numbers)
    (hreceived : w'.conn.upstream.received = w.conn.upstream.received)
    (howing : ∀ number ∈ phase'.servers, number ∈ decidedIn w.log) : Consumption w' phase' := by
  have hdecided : decidedIn more = [] := List.flatMap_eq_nil_iff.2 hdecides
  have hreleased : releasedIn more = [] := List.flatMap_eq_nil_iff.2 hreleases
  refine h.consume hlog ?_ hreceived ?_ ?_
  · rw [hdecided, hreleased, hhold]
    exact List.Perm.refl _
  · intro number hnumber
    exact List.mem_append_left _ (howing number hnumber)
  · intro r hr hne
    exact absurd (hreleases r hr) hne

variable {entries : List LedgerEntry}

theorem releasedIn_released {c : Connection σ}
    (hlength : (c.backendHold.held.map Receipt.number).length = entries.length) :
    releasedIn ((releasedEvents (c.backendHold.held.map Receipt.number) entries).map fun event =>
      { before := c, event := event }) = c.backendHold.held.map Receipt.number := by
  rw [releasedIn, List.flatMap_map, flatMap_releasedEvents fun event =>
    Record.releases { before := c, event := event }]
  calc
    _ = ((c.backendHold.held.map Receipt.number).zip entries).flatMap fun released =>
          [released.1] := by
        apply List.flatMap_congr
        intro released hmem
        exact if_pos (List.of_mem_zip hmem).1
    _ = ((c.backendHold.held.map Receipt.number).zip entries).map Prod.fst :=
        List.map_eq_flatMap.symm
    _ = c.backendHold.held.map Receipt.number := List.map_fst_zip (Nat.le_of_eq hlength)

theorem decidedIn_released (c : Connection σ) (numbers : List Nat) (entries : List LedgerEntry) :
    decidedIn ((releasedEvents numbers entries).map fun event =>
      { before := c, event := event }) = [] := by
  rw [decidedIn, List.flatMap_map, flatMap_releasedEvents fun event =>
    Record.decides { before := c, event := event }]
  exact List.flatMap_eq_nil_iff.2 fun _ _ => rfl

theorem mem_entries_of_released {numbers : List Nat} {event : Event}
    (hevent : event ∈ releasedEvents numbers entries) : ∀ e ∈ event.entries, e ∈ entries := by
  rw [releasedEvents, ← List.map_uncurry_zip_eq_zipWith] at hevent
  obtain ⟨released, hmem, rfl⟩ := List.mem_map.1 hevent
  intro e he
  rw [List.mem_singleton.1 he]
  exact (List.of_mem_zip hmem).2

theorem isSome_emit?_of_span {messages : List BackendMessage}
    (houtputs : entries.map Entry.output = messages.map fun m => .backend (.ok (.emit m)))
    {e : LedgerEntry} (he : e ∈ entries) : (emit? e).isSome = true := by
  have houtput : e.output ∈ entries.map Entry.output := List.mem_map_of_mem he
  rw [houtputs] at houtput
  obtain ⟨message, -, hemit⟩ := List.mem_map.1 houtput
  simp [emit?, ← hemit]

theorem Consumption.move (h : Consumption w phase) (hmove : Move (w, phase) (w', phase')) :
    Consumption w' phase' := by
  cases hmove with
  | receiveBackend s message bytes hpending =>
    refine ⟨?_, List.forall_mem_nil _, h.emitted⟩
    have hbefore : (decidedIn w.log ++ (releasedIn w.log ++
        w.conn.backendHold.held.map Receipt.number)).Perm
        (List.range w.conn.upstream.received) := by
      simpa [BackendHold.numbers, hpending] using h.numbers
    have hafter := hbefore.append_right [w.conn.upstream.received]
    simpa [BackendHold.numbers, Connection.setTransport, Connection.transport,
      List.range_succ] using hafter
  | keepPending output hpending houtput =>
    exact h.same rfl (by simp [Record.decides, houtput]) (by simp [Record.releases]) rfl rfl h.owing
  | hold hpending =>
    refine h.same rfl (by simp [Record.decides, outputs?]) (by simp [Record.releases]) ?_ rfl
      h.owing
    simp [BackendHold.numbers, BackendHold.holdPending, hpending]
  | @take _ source _ more output hpending houtput =>
    refine h.consume rfl ?_ rfl ?_ (by simp [ReleasesEmitted, Record.releases])
    · simpa [Record.decides, Record.releases, houtput, BackendHold.numbers,
        BackendHold.takePending, hpending] using (List.perm_append_singleton _ _).symm
    · -- what is left to be offered is the message just consumed
      intro number hnumber
      cases more with
      | zero => cases hnumber
      | succ k =>
        rw [List.mem_singleton.1 hnumber]
        simp [Record.decides, houtput]
  | @suppressBackend _ source _ message reply p hpending _ =>
    have hmore : (((w.logged (.backendAnswered source.number (.suppress message))).setHold
          w.conn.backendHold.takePending).logged
        (.suppressed source.number ⟨w.conn.pipeline, .backend message, reply, p⟩)).log =
        w.log ++ [_, _] := List.append_assoc _ _ _
    refine h.consume hmore ?_ rfl (List.forall_mem_nil _)
      (by simp [ReleasesEmitted, Record.releases])
    simpa [Record.decides, Record.releases, outputs?, BackendHold.numbers,
      BackendHold.takePending, hpending] using (List.perm_append_singleton _ _).symm
  | @project _ number more message p _ =>
    have howing := h.owing number (by simp [Phase.servers, Phase.owing])
    have hheld := h.notMem_held howing
    refine h.same rfl (by simp [Record.decides]) (by simpa [Record.releases] using hheld) rfl rfl ?_
    intro number' hnumber'
    cases more with
    | zero => cases hnumber'
    | succ k =>
      rw [List.mem_singleton.1 hnumber']
      exact howing
  | @refuse _ number more message reply p _ hreply =>
    have hheld := h.notMem_held (h.owing number (by simp [Phase.servers, Phase.owing]))
    exact h.same rfl (by simp [Record.decides]) (by simpa [Record.releases] using hheld) rfl rfl
      (List.forall_mem_nil _)
  | @release _ messages entries _ _ hlength hexec houtputs =>
    refine h.consume rfl ?_ rfl (List.forall_mem_nil _) ?_
    · rw [releasedIn_released (length_released hlength houtputs), decidedIn_released]
      simp [BackendHold.numbers, BackendHold.clear]
    · intro r hr _ e he
      obtain ⟨event, hevent, rfl⟩ := List.mem_map.1 hr
      exact isSome_emit?_of_span houtputs (mem_entries_of_released hevent e he)
  -- The other moves neither take a message from upstream nor end one.
  | wrote side count =>
    exact h.same (List.append_nil _).symm (by simp) (by simp) (by simp)
      (by cases side <;> rfl) h.owing
  | interrupt _ | unencodableDown _ =>
    exact h.same rfl (by simp [Record.decides]) (by simp [Record.releases]) rfl rfl
      (List.forall_mem_nil _)
  | sendDown _ =>
    exact h.same rfl (by simp [Record.decides]) (by simp [Record.releases]) rfl rfl h.owing
  | nextDown _ | nextOutput | state s =>
    exact h.same (List.append_nil _).symm (by simp) (by simp) rfl rfl h.owing
  | _ =>
    first
    | exact h.same (List.append_nil _).symm (by simp) (by simp) rfl rfl (List.forall_mem_nil _)
    | exact h.same rfl (by simp [Record.decides]) (by simp [Record.releases]) rfl rfl
        (List.forall_mem_nil _)

end Moves

/-! ## Refusals -/

/-- The step of the ledger which refuses an output of a server message, or a suppressed one. -/
def Event.refused? : Event → Option LedgerEntry
  | .projected (some _) _ entry | .suppressed _ entry =>
    if (emit? entry).isSome then none else some entry
  | _ => none

/-- The error for such a step. -/
def refusal? (entry : LedgerEntry) : Option (ForwardError ε) :=
  match entry.output with
  | .backend (.ok (.deferred message)) => some (.deferred message)
  | .backend (.error error) => some (.backend error)
  | _ => none

/-- The ledger has refused nothing. -/
def Clean (w t : World σ) : Prop :=
  ∃ more, t.log = w.log ++ more ∧ ∀ r ∈ more, r.event.refused? = none

/-- What the ledger has refused is what the call fails with. -/
def Told (w : World σ) (stop : Stop ε) (t : World σ) : Prop :=
  ∃ more, t.log = w.log ++ more ∧ ∀ r ∈ more, ∀ entry, r.event.refused? = some entry →
    ∃ error, refusal? entry = some error ∧ stop = .failed error

theorem Clean.refl (w : World σ) : Clean w w :=
  ⟨[], (List.append_nil _).symm, List.forall_mem_nil _⟩

variable {w t : World σ}

theorem Clean.trans {u : World σ} (h : Clean w t) (h' : Clean t u) : Clean w u := by
  obtain ⟨more, hmore, hclean⟩ := h
  obtain ⟨rest, hrest, hclean'⟩ := h'
  refine ⟨more ++ rest, by rw [hrest, hmore, List.append_assoc], ?_⟩
  intro r hr
  rcases List.mem_append.1 hr with hr | hr
  · exact hclean r hr
  · exact hclean' r hr

theorem Clean.told (h : Clean w t) (stop : Stop ε) : Told w stop t := by
  obtain ⟨more, hmore, hclean⟩ := h
  refine ⟨more, hmore, ?_⟩
  intro r hr entry hentry
  rw [hclean r hr] at hentry
  cases hentry

theorem Told.after {u : World σ} {stop : Stop ε} (h' : Told t stop u) (h : Clean w t) :
    Told w stop u := by
  obtain ⟨more, hmore, hclean⟩ := h
  obtain ⟨rest, hrest, htold⟩ := h'
  refine ⟨more ++ rest, by rw [hrest, hmore, List.append_assoc], ?_⟩
  intro r hr entry hentry
  rcases List.mem_append.1 hr with hr | hr
  · rw [hclean r hr] at hentry
    cases hentry
  · exact htold r hr entry hentry

theorem clean_logged {event : Event} (h : event.refused? = none) : Clean w (w.logged event) := by
  refine ⟨[_], rfl, ?_⟩
  intro r hr
  rw [List.mem_singleton.1 hr]
  exact h

theorem refused?_eq_none {event : Event} (h : event.server? = none) : event.refused? = none := by
  cases event with
  | projected source unsent entry =>
    cases source with
    | none => rfl
    | some number => cases h
  | suppressed number entry => cases h
  | _ => rfl

/-! ## The hold -/

/-- The sizes of the held messages. -/
def BackendHold.sizes (hold : BackendHold) : List Nat :=
  hold.held.map fun receipt => retainedBytes receipt.message

/-- The counters of the hold, and the room for a pending message. -/
structure HoldOk (c : Connection σ) : Prop where
  bytes : c.backendHold.heldBytes = min c.backendHold.sizes.sum u64Max
  pending : ∀ {source bytes}, c.backendHold.pending = some (source, bytes) →
    bytes = retainedBytes source.message
  disabled : c.backendHoldLimits = none → c.backendHold.held = []
  count : ∀ {limits}, c.backendHoldLimits = some limits →
    c.backendHold.held.length ≤ limits.maxMessages
  room : ∀ {limits}, c.backendHoldLimits = some limits → c.backendHold.pending ≠ none →
    c.backendHold.held.length < limits.maxMessages ∧ c.backendHold.heldBytes < limits.maxBytes
  last : ∀ {limits earlier receipt}, c.backendHoldLimits = some limits →
    c.backendHold.held = earlier ++ [receipt] →
      c.backendHold.heldBytes < limits.maxBytes + retainedBytes receipt.message

section HoldOk

variable {c c' : Connection σ}

theorem HoldOk.same (h : HoldOk c) (hhold : c'.backendHold = c.backendHold)
    (hlimits : c'.backendHoldLimits = c.backendHoldLimits) : HoldOk c' := by
  refine ⟨?_, ?_, ?_, ?_, ?_, ?_⟩
  · rw [hhold]
    exact h.bytes
  · rw [hhold]
    exact h.pending
  · rw [hhold, hlimits]
    exact h.disabled
  · rw [hhold, hlimits]
    exact h.count
  · rw [hhold, hlimits]
    exact h.room
  · rw [hhold, hlimits]
    exact h.last

theorem HoldOk.takePending (h : HoldOk c) (hhold : c'.backendHold = c.backendHold.takePending)
    (hlimits : c'.backendHoldLimits = c.backendHoldLimits) : HoldOk c' where
  bytes := by
    rw [hhold]
    exact h.bytes
  pending hpending := by
    rw [hhold] at hpending
    cases hpending
  disabled := by
    rw [hhold, hlimits]
    exact h.disabled
  count := by
    rw [hhold, hlimits]
    exact h.count
  room _ hpending := by
    rw [hhold] at hpending
    exact absurd rfl hpending
  last := by
    rw [hhold, hlimits]
    exact h.last

theorem HoldOk.clear (h : HoldOk c) (hhold : c'.backendHold = c.backendHold.clear) :
    HoldOk c' where
  bytes := by
    rw [hhold]
    rfl
  pending := by
    rw [hhold]
    exact h.pending
  disabled _ := by
    rw [hhold]
    rfl
  count _ := by
    rw [hhold]
    exact Nat.zero_le _
  room {limits} _ _ := by
    rw [hhold]
    exact ⟨limits.maxMessages_pos, limits.maxBytes_pos⟩
  last _ hheld := by
    rw [hhold] at hheld
    simp [BackendHold.clear] at hheld

variable {source : Receipt BackendMessage}

theorem HoldOk.setPending (h : HoldOk c) (hroom : c.backendHoldIsFull = false)
    (hhold : c'.backendHold =
      { c.backendHold with pending := some (source, retainedBytes source.message) })
    (hlimits : c'.backendHoldLimits = c.backendHoldLimits) : HoldOk c' where
  bytes := by
    rw [hhold]
    exact h.bytes
  pending hpending := by
    rw [hhold] at hpending
    cases hpending
    rfl
  disabled := by
    rw [hhold, hlimits]
    exact h.disabled
  count := by
    rw [hhold, hlimits]
    exact h.count
  room {limits} hsome _ := by
    rw [hlimits] at hsome
    rw [hhold]
    simpa [Connection.backendHoldIsFull, hsome] using hroom
  last := by
    rw [hhold, hlimits]
    exact h.last

theorem saturatingAdd_min (a b : Nat) :
    saturatingAdd (min a u64Max) b = min (a + b) u64Max := by
  simp only [saturatingAdd, u64Max]
  omega

theorem HoldOk.holdPending (h : HoldOk c) {bytes : Nat}
    (hpending : c.backendHold.pending = some (source, bytes)) {limits : BackendHoldLimits}
    (hsome : c.backendHoldLimits = some limits)
    (hhold : c'.backendHold = c.backendHold.holdPending source bytes)
    (hlimits : c'.backendHoldLimits = c.backendHoldLimits) : HoldOk c' := by
  obtain ⟨hcount, hroom⟩ := h.room hsome (by simp [hpending])
  have hbytes := h.pending hpending
  subst hbytes
  rw [hsome] at hlimits
  refine ⟨?_, ?_, ?_, ?_, ?_, ?_⟩
  · rw [hhold]
    simp only [BackendHold.holdPending, BackendHold.sizes, List.map_append, List.map_cons,
      List.map_nil, List.sum_append, List.sum_singleton]
    rw [h.bytes, saturatingAdd_min]
    rfl
  · intro _ _ hpending'
    rw [hhold] at hpending'
    cases hpending'
  · intro hnone
    rw [hlimits] at hnone
    cases hnone
  · intro limits' hsome'
    cases hlimits.symm.trans hsome'
    rw [hhold]
    simp only [BackendHold.holdPending, List.length_append, List.length_singleton]
    exact hcount
  · intro _ _ hpending'
    rw [hhold] at hpending'
    exact absurd rfl hpending'
  · intro limits' earlier receipt hsome' hheld
    cases hlimits.symm.trans hsome'
    rw [hhold] at hheld ⊢
    obtain ⟨-, hlast⟩ := List.append_inj' hheld rfl
    cases hlast
    simp only [BackendHold.holdPending, saturatingAdd]
    omega

theorem HoldOk.not_full (h : HoldOk c) (hempty : c.backendHold.held = []) :
    c.backendHoldIsFull = false := by
  have hbytes : c.backendHold.heldBytes = 0 := by
    rw [h.bytes, BackendHold.sizes, hempty]
    rfl
  cases hsome : c.backendHoldLimits with
  | none => simp [Connection.backendHoldIsFull, hsome]
  | some limits =>
    have hmessages := limits.maxMessages_pos
    have hmax := limits.maxBytes_pos
    simp [Connection.backendHoldIsFull, hsome, hempty, hbytes]
    omega

end HoldOk

/-! ## Calls -/

/-- The hold stays as it is, and the ledger refuses nothing. -/
structure HoldKept (w t : World σ) : Prop where
  hold : t.conn.backendHold = w.conn.backendHold
  limits : t.conn.backendHoldLimits = w.conn.backendHoldLimits
  clean : Clean w t

/-- The slot of the pending message was free. -/
def SlotWasFree (stop : Stop ε) : Prop := stop ≠ .panicked .pendingSource

theorem Clean.of_log (h : t.log = w.log) : Clean w t :=
  ⟨[], by rw [h, List.append_nil], List.forall_mem_nil _⟩

theorem hold_relation : ClientSteadyRelation (HoldKept (σ := σ)) (SlotWasFree (ε := ε)) where
  refl w := ⟨rfl, rfl, .refl w⟩
  trans ht hu := ⟨hu.hold.trans ht.hold, hu.limits.trans ht.limits, ht.clean.trans hu.clean⟩
  logged w _ hevent := ⟨rfl, rfl, clean_logged (refused?_eq_none hevent)⟩
  state _ _ := ⟨rfl, rfl, .of_log rfl⟩
  pipeline _ _ := ⟨rfl, rfl, .of_log rfl⟩
  queue _ _ := ⟨rfl, rfl, .of_log rfl⟩
  bytes w side _ _ := by
    cases side with
    | upstream | downstream => exact ⟨rfl, rfl, .of_log rfl⟩
  io _ := by simp [SlotWasFree]
  backend _ := by simp [SlotWasFree]
  panicked {abort} habort := by
    rintro ⟨⟩
    cases habort
  slot _ _ := ⟨rfl, rfl, .of_log rfl⟩
  received _ := ⟨rfl, rfl, .of_log rfl⟩
  frontend _ := by simp [SlotWasFree]
  middleware _ := by simp [SlotWasFree]

theorem hold_steady (handlers : Handlers σ) :
    ClientSteady handlers fun _ (m : Forward σ ε _) => m.Keeps HoldKept SlotWasFree :=
  hold_relation.clientSteady handlers

/-- Where a call that started in `w₀` goes on. -/
structure Sound (w₀ t : World σ) : Prop where
  hold : HoldOk t.conn
  clean : Clean w₀ t

/-- Where it stops short. -/
structure Stopped (w₀ : World σ) (stop : Stop ε) (t : World σ) : Prop where
  hold : HoldOk t.conn
  told : Told w₀ stop t
  free : SlotWasFree stop

/-- The rest of a call that started in `w₀`. -/
abbrev Accounts {α : Type} (w₀ : World σ) (m : Forward σ ε α) (Q : α → World σ → Prop)
    (w : World σ) : Prop :=
  m.wp (fun _ => Sound w₀) (Stopped w₀) Q w

section Calls

variable {α : Type} {w₀ w : World σ}

theorem Sound.kept {t : World σ} (h : Sound w₀ w) (hkept : HoldKept w t) : Sound w₀ t :=
  ⟨h.hold.same hkept.hold hkept.limits, h.clean.trans hkept.clean⟩

theorem Sound.stopped (h : Sound w₀ w) {stop : Stop ε} (hstop : SlotWasFree stop) :
    Stopped w₀ stop w :=
  ⟨h.hold, h.clean.told stop, hstop⟩

theorem Sound.failed (h : Sound w₀ w) (error : ForwardError ε) : Stopped w₀ (.failed error) w :=
  h.stopped (by simp [SlotWasFree])

theorem Sound.panicked (h : Sound w₀ w) {abort : Abort} (habort : abort ≠ .pendingSource) :
    Stopped w₀ (.panicked abort : Stop ε) w :=
  h.stopped fun hstop => habort (Stop.panicked.inj hstop)

theorem Sound.accounts (h : Sound w₀ w) {m : Forward σ ε α}
    (hm : m.Keeps HoldKept SlotWasFree) :
    Accounts w₀ m (fun _ t => HoldKept w t ∧ Sound w₀ t) w := by
  apply hm.wp
  · intro _ t ht
    exact h.kept ht
  · intro _ t hstop ht
    exact (h.kept ht).stopped hstop
  · intro a t ht
    exact ⟨ht, h.kept ht⟩

theorem Sound.interrupted (h : Sound w₀ w) (request : Request) (error : IoError)
    (Q : α → World σ → Prop) : Accounts w₀ (interrupted request error : Forward σ ε α) Q w := by
  have hlogged : Sound w₀ (w.logged (.interrupted request)) :=
    ⟨h.hold.same rfl rfl, h.clean.trans (clean_logged rfl)⟩
  exact hlogged.failed (.io error)

theorem Accounts.bind {β : Type} {m : Forward σ ε α} {f : α → Forward σ ε β}
    {Q : α → World σ → Prop} {Q' : β → World σ → Prop} (hm : Accounts w₀ m Q w)
    (hf : ∀ a t, Q a t → Accounts w₀ (f a) Q' t) : Accounts w₀ (m >>= f) Q' w :=
  wp_bind.2 (wp_mono hm (fun _ _ hstop => hstop) hf)

/-- How a step of the ledger on a server message is logged. -/
def Event.Marks (event : LedgerEntry → Event) : Prop :=
  ∀ entry, (event entry).refused? = if (emit? entry).isSome then none else some entry

theorem advanceBackend_accounts {event : LedgerEntry → Event} (hevent : Event.Marks event)
    (message : BackendMessage) (h : Sound w₀ w) :
    Accounts w₀ (advanceBackend event message : Forward σ ε BackendMessage)
      (fun _ t => Sound w₀ t) w := by
  simp only [advanceBackend, wp_bind, wp_connection]
  cases haccept : w.conn.pipeline.acceptBackend message with
  | error panic => exact h.panicked (by simp)
  | ok result =>
    obtain ⟨result, next⟩ := result
    simp only [wp_bind, wp_record, wp_update]
    generalize hentry : (⟨w.conn.pipeline, .backend message, .backend result, next⟩ :
      LedgerEntry) = entry
    have hmark := hevent entry
    have hclean : (emit? entry).isSome = true → Sound w₀ ((w.logged (event entry)).update
        fun c => { c with pipeline := next }) := by
      intro hemit
      refine ⟨h.hold.same rfl rfl, h.clean.trans ?_⟩
      exact (clean_logged (by rw [hmark, if_pos hemit])).trans (.of_log rfl)
    have htold : ∀ error : ForwardError ε, refusal? entry = some error →
        Stopped w₀ (.failed error) ((w.logged (event entry)).update
          fun c => { c with pipeline := next }) := by
      intro error herror
      refine ⟨h.hold.same rfl rfl, Told.after ?_ h.clean, by simp [SlotWasFree]⟩
      refine ⟨[_], rfl, ?_⟩
      intro r hr refused hrefused
      rw [List.mem_singleton.1 hr] at hrefused
      replace hrefused := hmark.symm.trans hrefused
      split at hrefused
      · cases hrefused
      · cases hrefused
        exact ⟨error, herror, rfl⟩
    subst hentry
    rcases result with error | message | message
    · exact htold _ rfl
    · exact hclean rfl
    · exact htold _ rfl

theorem emitBackend_accounts (number unsent : Nat) (message : BackendMessage) (h : Sound w₀ w) :
    Accounts w₀ (emitBackend number unsent message : Forward σ ε BackendMessage)
      (fun _ t => Sound w₀ t) w := by
  rw [Accounts, emitBackend, wp_bind, wp_connection]
  refine (advanceBackend_accounts (fun _ => rfl) message h).bind ?_
  intro message' t ht
  have hsend : ∀ u, Sound w₀ u → Accounts w₀
      (do sendDownstream (some number) unsent message'
          return message' : Forward σ ε BackendMessage) (fun _ t => Sound w₀ t) u :=
    fun u hu => (hu.accounts (hold_relation.steady.keeps_sendDownstream _ _ _)).bind fun _ _ hv => hv.2
  cases w.conn.pipeline.backendTransitionId message with
  | none => exact hsend t ht
  | some transition =>
    exact (ht.accounts (hold_relation.steady.keeps_observeTransition _)).bind fun _ u hu => hsend u hu.2

variable (handlers : Handlers σ)

theorem emitAll_accounts (number : Nat) (messages : List BackendMessage) :
    ∀ {w : World σ}, Sound w₀ w →
      Accounts w₀ (emitAll handlers number messages : Forward σ ε (List BackendMessage))
        (fun _ t => Sound w₀ t) w := by
  induction messages with
  | nil =>
    intro w h
    exact h
  | cons message messages ih =>
    intro w h
    refine (h.accounts (hold_relation.keeps_intercept _ _)).bind ?_
    intro passed t ht
    refine (emitBackend_accounts _ _ _ ht.2).bind ?_
    intro emitted u hu
    exact (ih hu).bind fun _ _ hv => hv

theorem applyOutput_accounts {source : Receipt BackendMessage}
    {bytes : Nat} (output : BackendMiddlewareOutput) (h : Sound w₀ w)
    (hpending : w.conn.backendHold.pending = some (source, bytes)) :
    Accounts w₀ (applyOutput handlers source bytes output : Forward σ ε BackendForwarding)
      (fun _ t => Sound w₀ t) w := by
  have htake : Sound w₀ (w.update fun c => { c with backendHold := c.backendHold.takePending }) :=
    ⟨h.hold.takePending rfl rfl, h.clean.trans (.of_log rfl)⟩
  rcases output with message | (_ | ⟨message, messages⟩) | message | _
  · rw [Accounts, applyOutput, wp_bind, wp_update]
    refine (htake.accounts (hold_relation.keeps_intercept _ _)).bind ?_
    intro passed t ht
    exact (emitBackend_accounts _ _ _ ht.2).bind fun _ _ hu => hu
  · exact h.failed _
  · rw [Accounts, applyOutput, wp_bind, wp_update]
    exact (emitAll_accounts _ _ _ htake).bind fun _ _ hu => hu
  · rw [Accounts, applyOutput, wp_bind, wp_update]
    exact (advanceBackend_accounts (fun _ => rfl) _ htake).bind fun _ _ hu => hu
  · rw [Accounts, applyOutput, wp_bind, wp_connection]
    cases hlimits : w.conn.backendHoldLimits with
    | none => exact h.failed _
    | some limits =>
      exact ⟨h.hold.holdPending hpending hlimits rfl rfl, h.clean.trans (.of_log rfl)⟩

theorem Sound.setState (h : Sound w₀ w) (state : σ) : Sound w₀ (w.setState state) :=
  ⟨h.hold.same rfl rfl, h.clean.trans (.of_log rfl)⟩

theorem processPendingBackend_accounts (h : Sound w₀ w) :
    Accounts w₀ (processPendingBackend handlers : Forward σ ε BackendForwarding)
      (fun _ t => Sound w₀ t) w := by
  rw [Accounts, processPendingBackend, wp_bind, wp_connection]
  cases hpending : w.conn.backendHold.pending with
  | none => exact h.panicked (by simp)
  | some pending =>
    obtain ⟨source, bytes⟩ := pending
    refine ⟨h, ?_⟩
    rintro ⟨answer, state⟩
    rcases answer with error | output
    · exact (h.setState state).failed _
    · have hlogged : Sound w₀ ((w.setState state).logged
          (.backendAnswered source.number output)) :=
        ⟨h.hold.same rfl rfl, (h.setState state).clean.trans (clean_logged rfl)⟩
      refine (applyOutput_accounts handlers output hlogged hpending).bind ?_
      intro _ t ht
      exact (ht.accounts hold_relation.steady.keeps_flushLocalResponses).bind fun _ _ hu => hu.2

/-- What a flush does to the hold. -/
structure Flushed (w t : World σ) (outcome : BackendBatchForwarding) : Prop where
  pending : t.conn.backendHold.pending = w.conn.backendHold.pending
  limits : t.conn.backendHoldLimits = w.conn.backendHoldLimits
  held : outcome ≠ .kept → t.conn.backendHold.held = []

theorem clean_released (numbers : List Nat) {messages : List BackendMessage}
    {entries : List LedgerEntry}
    (houtputs : entries.map Entry.output = messages.map fun m => .backend (.ok (.emit m))) :
    Clean w (w.loggedAll (releasedEvents numbers entries)) := by
  refine ⟨_, rfl, ?_⟩
  intro r hr
  obtain ⟨event, hevent, rfl⟩ := List.mem_map.1 hr
  rw [releasedEvents, ← List.map_uncurry_zip_eq_zipWith] at hevent
  obtain ⟨released, hmem, rfl⟩ := List.mem_map.1 hevent
  exact if_pos (isSome_emit?_of_span houtputs (List.of_mem_zip hmem).2)

theorem releaseHold_accounts (replacements : List BackendMessage) (h : Sound w₀ w) :
    Accounts w₀ (releaseHold handlers replacements : Forward σ ε BackendBatchForwarding)
      (fun outcome t => Sound w₀ t ∧ Flushed w t outcome) w := by
  refine (h.accounts (hold_relation.steady.keeps_interceptAll (hold_relation.keeps_intercept _) _)).bind ?_
  rintro messages t ⟨hkept, ht⟩
  cases firstUnencodable messages with
  | some error => exact ht.failed _
  | none =>
    simp only [wp_bind, wp_connection]
    cases hprepared : t.conn.pipeline.prepareBackendReplacements t.conn.backendHold.messages
        messages with
    | error panic => exact ht.panicked (by simp)
    | ok result =>
      rcases result with error | next
      · exact ht.failed _
      · obtain ⟨-, -, ⟨entries, hexec, houtputs⟩, -⟩ :=
          Pipeline.prepareBackendReplacements_iff.1 hprepared
        rw [Pipeline.entries_eq hexec, wp_bind, wp_recordAll, wp_bind, wp_update]
        have hreleased : Sound w₀ ((t.loggedAll (releasedEvents
            (t.conn.backendHold.held.map Receipt.number) entries)).update fun c =>
              { c with pipeline := next, backendHold := c.backendHold.clear }) :=
          ⟨ht.hold.clear rfl,
            (ht.clean.trans (clean_released _ houtputs)).trans (.of_log rfl)⟩
        refine (hreleased.accounts (hold_relation.steady.keeps_sendReleased _)).bind ?_
        rintro _ u ⟨hsent, hu⟩
        refine (hu.accounts hold_relation.steady.keeps_flushLocalResponses).bind ?_
        rintro _ v ⟨hflushed, hv⟩
        refine ⟨hv, ?_, ?_, ?_⟩
        · rw [hflushed.hold, hsent.hold]
          exact congrArg (fun hold => hold.clear.pending) hkept.hold
        · rw [hflushed.limits, hsent.limits]
          exact hkept.limits
        · intro _
          rw [hflushed.hold, hsent.hold]
          rfl

theorem flushBackendHoldFor_accounts (reason : BackendFlushReason) (h : Sound w₀ w) :
    Accounts w₀ (flushBackendHoldFor handlers reason : Forward σ ε BackendBatchForwarding)
      (fun outcome t => Sound w₀ t ∧ Flushed w t outcome) w := by
  rw [Accounts, flushBackendHoldFor, wp_bind, wp_connection]
  split
  · rename_i hempty
    exact ⟨h, rfl, rfl, fun _ => hempty⟩
  · split
    · exact h.panicked (by simp)
    · refine ⟨h, ?_⟩
      rintro ⟨answer, state⟩
      have hstate := h.setState state
      rcases answer with error | _ | replacements
      · exact hstate.failed _
      · exact ⟨hstate, rfl, rfl, fun hne => absurd rfl hne⟩
      · refine wp_mono (releaseHold_accounts handlers replacements hstate)
          (fun _ _ hstop => hstop) ?_
        rintro outcome t ⟨ht, hflushed⟩
        exact ⟨ht, hflushed.pending, hflushed.limits, hflushed.held⟩

theorem requireRelease_accounts (reason : BackendFlushReason) (refusal : ForwardError ε)
    (h : Sound w₀ w) :
    Accounts w₀ (requireRelease handlers reason refusal)
      (fun _ t => Sound w₀ t ∧ t.conn.backendHold.pending = w.conn.backendHold.pending ∧
        t.conn.backendHoldIsFull = false) w := by
  refine (flushBackendHoldFor_accounts handlers reason h).bind ?_
  rintro outcome t ⟨ht, hflushed⟩
  cases outcome with
  | kept => exact ht.failed _
  | released messages | empty =>
    exact ⟨ht, hflushed.pending, ht.hold.not_full (hflushed.held (by simp))⟩

theorem makeRoom_accounts (h : Sound w₀ w) :
    Accounts w₀ (makeRoom handlers : Forward σ ε Unit)
      (fun _ t => Sound w₀ t ∧ t.conn.backendHold.pending = w.conn.backendHold.pending ∧
        t.conn.backendHoldIsFull = false) w := by
  rw [Accounts, makeRoom, wp_bind, wp_connection]
  split
  · exact requireRelease_accounts handlers _ _ h
  · rename_i hfull
    exact ⟨h, rfl, Bool.eq_false_iff.2 hfull⟩

theorem processBackend_accounts (source : Receipt BackendMessage) (h : Sound w₀ w)
    (hnone : w.conn.backendHold.pending = none) (hroom : w.conn.backendHoldIsFull = false) :
    Accounts w₀ (processBackend handlers source : Forward σ ε BackendForwarding)
      (fun _ t => Sound w₀ t) w := by
  refine (h.accounts (hold_relation.keeps_intercept _ _)).bind ?_
  rintro message t ⟨hkept, ht⟩
  rw [Accounts, wp_bind, wp_connection]
  have hset : t.conn.backendHold.setPending { number := source.number, message } =
      some { t.conn.backendHold with
        pending := some ({ number := source.number, message }, retainedBytes message) } := by
    rw [BackendHold.setPending, hkept.hold, hnone]
  have hfull : t.conn.backendHoldIsFull = false := by
    rw [Connection.backendHoldIsFull, hkept.hold, hkept.limits]
    exact hroom
  have hpending : Sound w₀ (t.update fun c => { c with backendHold :=
      { t.conn.backendHold with
        pending := some ({ number := source.number, message }, retainedBytes message) } }) :=
    ⟨ht.hold.setPending hfull rfl rfl, ht.clean.trans (.of_log rfl)⟩
  simp only [hset, wp_bind, wp_update]
  split
  · refine (requireRelease_accounts handlers _ _ hpending).bind ?_
    rintro _ u ⟨hu, -⟩
    exact processPendingBackend_accounts handlers hu
  · exact processPendingBackend_accounts handlers hpending

theorem takeBackend_accounts (message : BackendMessage) (h : Sound w₀ w)
    (hnone : w.conn.backendHold.pending = none) (hroom : w.conn.backendHoldIsFull = false) :
    Accounts w₀ (do
      let source ← takeBackend message
      processBackend handlers source : Forward σ ε BackendForwarding) (fun _ t => Sound w₀ t) w := by
  have htaken : Sound w₀ (w.update fun c =>
      { c with upstream := { c.upstream with received := c.upstream.received + 1 } }) :=
    ⟨h.hold.same rfl rfl, h.clean.trans (.of_log rfl)⟩
  exact processBackend_accounts handlers _ htaken hnone hroom

theorem receiveBackend_accounts (h : Sound w₀ w) (hnone : w.conn.backendHold.pending = none)
    (hroom : w.conn.backendHoldIsFull = false) :
    Accounts w₀ (do
      let source ← receiveBackend
      processBackend handlers source : Forward σ ε BackendForwarding) (fun _ t => Sound w₀ t) w := by
  simp only [receiveBackend, wp_bind, Async.wp_ask]
  refine ⟨h, ?_⟩
  rintro (error | message)
  · exact h.interrupted _ _ _
  · exact wp_bind.1 (takeBackend_accounts handlers message h hnone hroom)

theorem forwardBackend_accounts (h : Sound w₀ w) :
    Accounts w₀ (forwardBackend handlers : Forward σ ε BackendForwarding)
      (fun _ t => Sound w₀ t) w := by
  rw [Accounts, forwardBackend, wp_bind, wp_connection]
  cases hpending : w.conn.backendHold.pending with
  | some pending => exact processPendingBackend_accounts handlers h
  | none =>
    refine (makeRoom_accounts handlers h).bind ?_
    rintro _ t ⟨ht, hnone, hroom⟩
    exact receiveBackend_accounts handlers ht (hnone.trans hpending) hroom

theorem pollTransports_accounts (h : Sound w₀ w)
    (hnone : w.conn.backendHold.pending = none) (hroom : w.conn.backendHoldIsFull = false) :
    Accounts w₀ (pollTransports handlers : Forward σ ε ForwardedMessage)
      (fun _ t => Sound w₀ t) w := by
  rw [Accounts, pollTransports, wp_bind, wp_connection]
  cases w.conn.pendingFrontend with
  | some prepared =>
    refine wp_bind.2 (wp_mono (wp_bind.1
      (receiveBackend_accounts handlers h hnone hroom)) (fun _ _ hstop => hstop) ?_)
    intro source t ht
    exact Accounts.bind ht fun _ _ hu => hu
  | none =>
    show Async.wp (Async.ask _ >>= _) _ _ _ _
    rw [wp_bind, Async.wp_ask]
    refine ⟨h, ?_⟩
    rintro ((error | message) | (error | message))
    · exact h.interrupted _ _ _
    · refine (h.accounts ((hold_steady handlers).keeps_takeFrontend message)).bind ?_
      rintro source t ⟨-, ht⟩
      exact (ht.accounts ((hold_steady handlers).keeps_processFrontend source)).bind
        fun _ _ hu => hu.2
    · exact h.interrupted _ _ _
    · refine wp_bind.2 (wp_mono (wp_bind.1
        (takeBackend_accounts handlers message h hnone hroom)) (fun _ _ hstop => hstop) ?_)
      intro source t ht
      exact Accounts.bind ht fun _ _ hu => hu

theorem forwardNext_accounts (h : Sound w₀ w) :
    Accounts w₀ (forwardNext handlers : Forward σ ε ForwardedMessage)
      (fun _ t => Sound w₀ t) w := by
  rw [Accounts, forwardNext, wp_bind, wp_connection]
  cases hpending : w.conn.backendHold.pending with
  | some pending => exact (processPendingBackend_accounts handlers h).bind fun _ _ ht => ht
  | none =>
    refine (makeRoom_accounts handlers h).bind ?_
    rintro _ t ⟨ht, hnone, hroom⟩
    have hfree := hnone.trans hpending
    rw [Accounts, wp_bind, wp_connection]
    cases t.conn.pendingFrontend with
    | none => exact pollTransports_accounts handlers ht hfree hroom
    | some prepared =>
      have hemptied : HoldKept t (t.update fun c => { c with pendingFrontend := none }) :=
        ⟨rfl, rfl, .of_log rfl⟩
      show Async.wp (Async.attempt (forwardPreparedFrontend prepared) >>= _) _ _ _ _
      rw [wp_bind, Async.wp_attempt]
      apply ((hold_steady handlers).keeps_forwardPreparedFrontend prepared).wp
      · intro _ u hu
        exact (ht.kept hemptied).kept hu
      · intro stop u hstop hu
        -- A refusal for capacity leaves the hold as it was, so that there is still room.
        have hkept := hold_relation (ε := ε).trans hemptied hu
        have hpoll : Accounts w₀ (pollTransports handlers : Forward σ ε ForwardedMessage)
            (fun _ t => Sound w₀ t) u := by
          refine pollTransports_accounts handlers (ht.kept hkept) ?_ ?_
          · rw [hkept.hold, hfree]
          · rw [Connection.backendHoldIsFull, hkept.hold, hkept.limits]
            exact hroom
        have hfail : Stopped w₀ stop u := (ht.kept hkept).stopped hstop
        cases stop with
        | panicked abort => exact hfail
        | failed error =>
          cases error with
          | frontend refusal =>
            cases refusal with
            | capacity message => exact hpoll
            | illegal state message => exact hfail
          | _ => exact hfail
      · intro outcome u hu
        exact (ht.kept hemptied).kept hu

theorem prepareBackendTeardown_accounts (h : Sound w₀ w) :
    Accounts w₀ (prepareBackendTeardown handlers : Forward σ ε BackendBatchForwarding)
      (fun _ t => Sound w₀ t) w := by
  refine (flushBackendHoldFor_accounts handlers .teardown h).bind ?_
  rintro outcome t ⟨ht, -⟩
  cases outcome with
  | kept => exact ht.failed _
  | released messages | empty => exact ht

theorem perform_accounts (call : ForwardCall) (h : Sound w₀ w) :
    Accounts w₀ (perform handlers call : Forward σ ε CallResult) (fun _ t => Sound w₀ t) w := by
  cases call with
  | forwardFrontend =>
    exact (h.accounts ((hold_steady handlers).keeps_forwardFrontend)).bind fun _ _ ht => ht.2
  | forwardBackend => exact (forwardBackend_accounts handlers h).bind fun _ _ ht => ht
  | forwardNext => exact (forwardNext_accounts handlers h).bind fun _ _ ht => ht
  | flushBackendHold =>
    exact (flushBackendHoldFor_accounts handlers .explicit h).bind fun _ _ ht => ht.1
  | prepareBackendTeardown =>
    exact (prepareBackendTeardown_accounts handlers h).bind fun _ _ ht => ht

end Calls
/-! ## Sessions -/

/-- A call tells what the ledger has refused. -/
def CallOutcome.Tells (outcome : CallOutcome ε) (w t : World σ) : Prop :=
  ∃ more, t.log = w.log ++ more ∧ ∀ r ∈ more, ∀ entry, r.event.refused? = some entry →
    ∃ error, refusal? entry = some error ∧ outcome = .failed error

theorem Clean.tells (h : Clean w t) (outcome : CallOutcome ε) : outcome.Tells w t := by
  obtain ⟨more, hmore, hclean⟩ := h
  refine ⟨more, hmore, ?_⟩
  intro r hr entry hentry
  rw [hclean r hr] at hentry
  cases hentry

theorem Told.tells {error : ForwardError ε} (h : Told w (.failed error) t) :
    (CallOutcome.failed error).Tells w t := by
  obtain ⟨more, hmore, htold⟩ := h
  refine ⟨more, hmore, ?_⟩
  intro r hr entry hentry
  obtain ⟨error', herror, heq⟩ := htold r hr entry hentry
  cases heq
  exact ⟨error, herror, rfl⟩

theorem Session.Step.accounts {handlers : Handlers σ} {call : ForwardCall} {outcome : CallOutcome ε}
    (h : HoldOk w.conn) (hstep : Session.Step handlers w call outcome t) :
    HoldOk t.conn ∧ outcome.Tells w t := by
  have hcall : Accounts w (perform handlers call : Forward σ ε CallResult)
      (fun _ t => Sound w t) w := perform_accounts handlers call ⟨h, .refl w⟩
  cases hstep with
  | returned hleads =>
    have hsound := Resume.Holds.sound hcall hleads
    exact ⟨hsound.hold, hsound.clean.tells _⟩
  | failed hleads =>
    have hstopped := Resume.Holds.sound hcall hleads
    exact ⟨hstopped.hold, hstopped.told.tells⟩
  | dropped s hleads =>
    have hsound : Sound w _ := Resume.Holds.sound hcall hleads
    exact ⟨hsound.hold.same rfl rfl,
      ((hsound.setState s).clean.trans (clean_logged rfl)).tells _⟩

theorem holdOk_new (downstreamLimit upstreamLimit : Nat) (state : σ) (policy : PipelinePolicy)
    (limits : Option BackendHoldLimits) :
    HoldOk (Connection.new downstreamLimit upstreamLimit state policy limits) where
  bytes := rfl
  pending hpending := by cases hpending
  disabled _ := rfl
  count _ := Nat.zero_le _
  room _ hpending := absurd rfl hpending
  last _ hheld := by simp [Connection.new, BackendHold.default] at hheld

theorem consumption_new (downstreamLimit upstreamLimit : Nat) (state : σ) (policy : PipelinePolicy)
    (limits : Option BackendHoldLimits) :
    Consumption (World.new (Connection.new downstreamLimit upstreamLimit state policy limits))
      .idle where
  numbers := List.Perm.refl _
  owing _ hnumber := absurd hnumber List.not_mem_nil
  emitted _ hr := absurd hr List.not_mem_nil

theorem Session.Run.holdOk {handlers : Handlers σ} {downstreamLimit upstreamLimit : Nat} {state : σ}
    {policy : PipelinePolicy} {limits : Option BackendHoldLimits}
    {h : List (Session.SessionEntry σ ε)} (hr : Session.Run ε handlers
      (Connection.new downstreamLimit upstreamLimit state policy limits) h w) : HoldOk w.conn := by
  induction hr with
  | nil => exact holdOk_new downstreamLimit upstreamLimit state policy limits
  | snoc _ hstep ih => exact (hstep.accounts ih).1

/-- The server messages of a connection between two calls. -/
structure ServerAccount (w : World σ) : Prop where
  /-- Each message is pending or held, or consumed by one decision or by one release. -/
  places : (decidedIn w.log ++ (releasedIn w.log ++ w.conn.backendHold.numbers)).Perm
    (List.range w.conn.upstream.received)
  /-- What was consumed has been offered to the ledger, to the last output or to a refusal. -/
  ended : (gather Event.servers w.log).Perm (decidedIn w.log ++ releasedIn w.log)
  /-- What was released was committed. -/
  released : ReleasesEmitted w.log
  hold : HoldOk w.conn

/-- In every session without I/O errors: between calls each server message is in exactly one place
and consumed exactly once, the counters of the hold are right, and it respects its limits; the call
in which the ledger refuses an output returns the refusal; and no call finds the slot of the
pending message taken. -/
theorem exact_once_accounting {handlers : Handlers σ} {downstreamLimit upstreamLimit : Nat}
    {state : σ} {policy : PipelinePolicy} {limits : Option BackendHoldLimits}
    {h : List (Session.SessionEntry σ ε)} {w : World σ}
    (hr : Session.Run ε handlers
      (Connection.new downstreamLimit upstreamLimit state policy limits) h w)
    (hsafe : ∀ r ∈ w.log, dropSafe r = true) :
    ServerAccount w ∧ (∀ e ∈ h, e.output.Tells e.before e.after) ∧
      ∀ call t, ¬((perform handlers call : Forward σ ε CallResult) w).Leads
        (.returned (.error (.panicked .pendingSource))) t := by
  have hconsumption : Consumption w .idle :=
    hr.invariant Consumption (consumption_new downstreamLimit upstreamLimit state policy limits)
      fun h hmove => h.move hmove
  have hservers : Servers w .idle :=
    hr.invariant_when (fun r => dropSafe r = true) Servers hsafe (List.Perm.refl _)
      fun h hmove hcond => h.move hmove hcond
  refine ⟨⟨hconsumption.numbers, ?_, hconsumption.emitted, hr.holdOk⟩, ?_, ?_⟩
  · -- Both lists together with what is pending or held make up all that was received.
    have hended : (gather Event.servers w.log ++ w.conn.backendHold.numbers).Perm
        ((decidedIn w.log ++ releasedIn w.log) ++ w.conn.backendHold.numbers) := by
      rw [List.append_assoc]
      refine List.Perm.trans ?_ hconsumption.numbers.symm
      simpa [Servers, Phase.servers] using hservers
    exact (List.perm_append_right_iff _).1 hended
  · intro e he
    obtain ⟨h₁, h₂, -, hbefore, hstep, -⟩ := hr.mem_split he
    exact (hstep.accounts (Session.Run.holdOk hbefore)).2
  · intro call t hleads
    have hcall : Accounts w (perform handlers call : Forward σ ε CallResult)
        (fun _ t => Sound w t) w := perform_accounts handlers call ⟨hr.holdOk, .refl w⟩
    exact (Resume.Holds.sound hcall hleads).free rfl

end Accounting

/-- A row is held and released, and the next one forwarded. -/
theorem exact_once_accounting_rows :
    ∃ (h : List (Session.SessionEntry Unit Unit)) (w : World Unit),
      Session.Run Unit (Handlers.identity Unit) holdingConnection h w ∧
      releasedIn w.log = [0] ∧ decidedIn w.log = [1] ∧ w.conn.backendHold.numbers = [] ∧
      ServerAccount w := by
  obtain ⟨h, w, hr, hreleased, hdecided, hhold, hsafe⟩ :=
      Session.exists_identity_run holdingConnection
      (fun _ w => releasedIn w.log = [0] ∧ decidedIn w.log = [1] ∧ w.conn.backendHold.numbers = [] ∧
        ∀ r ∈ w.log, dropSafe r = true)
      [Session.sends (.query []) (.forward (.query [])),
       Session.returns (.dataRow ⟨[none]⟩) .hold .keepHolding,
       Session.releases (.replaceOneToOne [.dataRow ⟨[none]⟩]),
       Session.returns (.dataRow ⟨[none]⟩) (.forward (.dataRow ⟨[none]⟩))
         .keepHolding] (by decide +kernel)
  exact ⟨h, w, hr, hreleased, hdecided, hhold, (exact_once_accounting hr hsafe).1⟩

/-- The call is a flush which returns `Released`. -/
def CallOutcome.isReleased {ε : Type} : CallOutcome ε → Bool
  | .returned (.batch (.released _)) => true
  | _ => false

/-- A release that is committed and written may still end in an error: the `ReadyForQuery` of one
query is released, and the local response of the next one, which is now due, is refused.  The message
is neither pending nor held, no decision has consumed it, and no flush has returned `Released`. -/
theorem released_by_failed_flush :
    ∃ (h : List (Session.SessionEntry Unit Unit)) (w : World Unit),
      Session.Run Unit (Handlers.identity Unit)
        (Connection.new 64 64 () (.bounded ⟨8, by decide⟩) (some ⟨4, 64, by decide, by decide⟩)) h w ∧
      (∀ r ∈ w.log, dropSafe r = true) ∧
      h.map (fun e => (e.input, e.output.hasFailed)) =
        [(.forwardFrontend, false), (.forwardFrontend, false), (.forwardBackend, false),
         (.forwardBackend, false), (.flushBackendHold, true)] ∧
      h.all (fun e => !e.output.isReleased) = true ∧
      w.conn.upstream.received = 2 ∧ decidedIn w.log = [0] ∧ w.conn.backendHold.numbers = [] ∧
      releasedIn w.log = [1] :=
  Session.exists_run
    [Session.sends (.query []) (.forward (.query [])),
     Session.sends (.query []) (.respond (.query []) [.parseComplete]),
     Session.returns .emptyQueryResponse (.forward .emptyQueryResponse) .keepHolding,
     Session.returns (.readyForQuery .idle) .hold .keepHolding,
     Session.releases (.replaceOneToOne [.readyForQuery .idle])] _ (by decide +kernel)

end PgProto
