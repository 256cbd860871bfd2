import PgProto.Intermediary.Sessions
import PgProto.Intermediary.Steady
import PgProto.Pipeline.Progress

/-!
# Slot — the prepared client sequence across calls

A client sequence which the ledger refuses is put back into `pending_frontend`, and no other client
message is read while it is there.  This file follows the slot through the bodies of the calls:

* `SlotKept` — the part of the calls which serves the server side leaves the slot as it is;
* `AdmittedFrom` — the sequence was committed to the ledger before the call awaited anything;
* `SlotStep` — everything a call can do with the slot.
-/

namespace PgProto

open Lib
open Async (wp_bind keeps_pure wp_conseq)

section Slot

variable {σ ε α : Type}

/-! ## Frames -/

/-- The slot is as it was, no client message was read, and the log has only grown. -/
structure SlotKept (w t : World σ) : Prop where
  pending : t.conn.pendingFrontend = w.conn.pendingFrontend
  received : t.conn.downstream.received = w.conn.downstream.received
  log : ∃ more, t.log = w.log ++ more

instance : Std.Refl (SlotKept (σ := σ)) :=
  ⟨fun w => ⟨rfl, rfl, [], (List.append_nil w.log).symm⟩⟩

instance : IsTrans (World σ) SlotKept where
  trans w t u hw hu := by
    obtain ⟨more, hmore⟩ := hw.log
    obtain ⟨rest, hrest⟩ := hu.log
    refine ⟨hu.pending.trans hw.pending, hu.received.trans hw.received, more ++ rest, ?_⟩
    rw [hrest, hmore, List.append_assoc]

/-- The call did not end by a refusal of a client message. -/
def NotFrontend : Stop ε → Prop
  | .failed (.frontend _) => False
  | _ => True

/-- The computation has nothing to do with the slot. -/
abbrev Spares (m : Forward σ ε α) : Prop := m.Keeps SlotKept NotFrontend

/-! ### Primitives -/

theorem spares_connection : Spares (connection : Forward σ ε (Connection σ)) :=
  Async.keeps_get.bind fun _ => keeps_pure _

theorem spares_record (event : Event) : Spares (record event : Forward σ ε Unit) :=
  Async.keeps_modify fun _ => ⟨rfl, rfl, _, rfl⟩

theorem spares_recordAll (events : List Event) : Spares (recordAll events : Forward σ ε Unit) :=
  Async.keeps_modify fun _ => ⟨rfl, rfl, _, rfl⟩

theorem spares_update {f : Connection σ → Connection σ}
    (hpending : ∀ c, (f c).pendingFrontend = c.pendingFrontend)
    (hreceived : ∀ c, (f c).downstream.received = c.downstream.received) :
    Spares (update f : Forward σ ε Unit) :=
  Async.keeps_modify fun w => ⟨hpending w.conn, hreceived w.conn, [], (List.append_nil w.log).symm⟩

theorem spares_failed {error : ForwardError ε} (h : NotFrontend (.failed error)) :
    Spares (failed error : Forward σ ε α) :=
  Async.keeps_fail h

theorem spares_panicked (abort : Abort) : Spares (panicked abort : Forward σ ε α) :=
  Async.keeps_fail trivial

theorem slot_relation : SteadyRelation (SlotKept (σ := σ)) (NotFrontend (ε := ε)) where
  refl w := refl w
  trans ht hu := trans_of SlotKept ht hu
  logged _ _ _ := ⟨rfl, rfl, _, rfl⟩
  state w _ := ⟨rfl, rfl, [], (List.append_nil w.log).symm⟩
  pipeline w _ := ⟨rfl, rfl, [], (List.append_nil w.log).symm⟩
  queue w _ := ⟨rfl, rfl, [], (List.append_nil w.log).symm⟩
  bytes w side _ hreceived := by
    cases side with
    | upstream => exact ⟨rfl, rfl, [], (List.append_nil w.log).symm⟩
    | downstream => exact ⟨rfl, hreceived, [], (List.append_nil w.log).symm⟩
  io _ := trivial
  backend _ := trivial
  panicked _ := trivial

theorem slot_steady (handlers : Handlers σ) :
    ServerSteady handlers fun _ (m : Forward σ ε _) => Spares m :=
  { slot_relation.steady with
    logged := spares_record
    loggedAll := spares_recordAll
    hold := fun _ => spares_update (fun _ => rfl) fun _ => rfl
    released := fun _ => spares_update (fun _ => rfl) fun _ => rfl
    serverBackend := slot_relation.keeps_intercept _
    consult := fun _ _ _ hf => (Async.keeps_ask _).bind fun answer =>
      .bind (spares_update (fun _ => rfl) fun _ => rfl) fun _ => hf answer
    consultFlush := fun _ _ _ _ hf => (Async.keeps_ask _).bind fun answer =>
      .bind (spares_update (fun _ => rfl) fun _ => rfl) fun _ => hf answer
    refused := fun {_ error} herror => spares_failed (by cases error <;> trivial)
    aborted := spares_panicked }

/-! ### Server messages -/

theorem spares_takeBackend (message : BackendMessage) :
    Spares (takeBackend message : Forward σ ε (Receipt BackendMessage)) :=
  spares_connection.bind fun _ =>
    .bind (spares_update (fun _ => rfl) fun _ => rfl) fun _ => keeps_pure _

theorem spares_receiveBackend : Spares (receiveBackend : Forward σ ε (Receipt BackendMessage)) := by
  apply (Async.keeps_ask _).bind
  intro answer
  rcases answer with error | message
  · exact slot_relation.steady.keeps_interrupted _ _
  · exact spares_takeBackend message

theorem spares_processBackend (handlers : Handlers σ) (source : Receipt BackendMessage) :
    Spares (processBackend handlers source : Forward σ ε BackendForwarding) := by
  rw [processBackend_eq]
  exact (slot_relation.keeps_intercept _ _).bind fun _ =>
    (slot_steady handlers).keeps_processInspected _ _

theorem spares_forwardBackend (handlers : Handlers σ) :
    Spares (forwardBackend handlers : Forward σ ε BackendForwarding) := by
  apply spares_connection.bind
  intro c
  split
  · exact (slot_steady handlers).keeps_processPendingBackend
  · exact (slot_steady handlers).keeps_makeRoom.bind fun _ => spares_receiveBackend.bind fun _ =>
      spares_processBackend handlers _

/-! ## Admission -/

/-- The sequence was committed to the ledger when as many client messages had been read as in `w`,
and the slot is empty. -/
structure AdmittedFrom (prepared : PreparedFrontendForwarding) (w t : World σ) : Prop where
  pending : t.conn.pendingFrontend = none
  received : t.conn.downstream.received = w.conn.downstream.received
  log : ∃ more, t.log = w.log ++ more
  admitted : ∃ r ∈ t.log, ∃ entries, r.event = .admitted prepared.number entries ∧
    entries.map Entry.input = prepared.messages.map (fun message => .frontend message .forward) ∧
    r.before.downstream.received = w.conn.downstream.received

variable {prepared : PreparedFrontendForwarding} {w : World σ} {stop : Stop ε}

theorem AdmittedFrom.kept {t u : World σ} (h : AdmittedFrom prepared w t) (hkept : SlotKept t u) :
    AdmittedFrom prepared w u := by
  obtain ⟨more, hmore⟩ := h.log
  obtain ⟨rest, hrest⟩ := hkept.log
  obtain ⟨r, hr, hadmitted⟩ := h.admitted
  refine ⟨hkept.pending.trans h.pending, hkept.received.trans h.received,
    ⟨more ++ rest, ?_⟩, r, ?_, hadmitted⟩
  · rw [hrest, hmore, List.append_assoc]
  · rw [hrest]
    exact List.mem_append_left rest hr

/-- What happened before the admission does not matter, if it read no client message. -/
theorem AdmittedFrom.of_kept {t u : World σ} (h : AdmittedFrom prepared t u)
    (hreceived : t.conn.downstream.received = w.conn.downstream.received)
    (hlog : ∃ more, t.log = w.log ++ more) : AdmittedFrom prepared w u := by
  obtain ⟨more, hmore⟩ := hlog
  obtain ⟨rest, hrest⟩ := h.log
  obtain ⟨r, hr, entries, hevent, hinputs, hbefore⟩ := h.admitted
  refine ⟨h.pending, h.received.trans hreceived, ⟨more ++ rest, ?_⟩,
    r, hr, entries, hevent, hinputs, hbefore.trans hreceived⟩
  rw [hrest, hmore, List.append_assoc]

/-- How a sequence is not admitted: the ledger refuses it and it is put back, or panics. -/
inductive Unadmitted (prepared : PreparedFrontendForwarding) (w : World σ) :
    Stop ε → World σ → Prop
  | refused {error : FrontendProjectionError} :
      w.conn.pipeline.prepareFrontendSequence .forward prepared.messages = .ok (.error error) →
      Unadmitted prepared w (.failed (.frontend error)) (w.setPendingFrontend (some prepared))
  | panicked {panic : Panic} :
      w.conn.pipeline.prepareFrontendSequence .forward prepared.messages = .error panic →
      Unadmitted prepared w (.panicked (.ledger panic)) w

/-- The sequence is in the ledger before the first message of it is sent. -/
theorem forwardPreparedFrontend_admits (prepared : PreparedFrontendForwarding)
    (hnone : w.conn.pendingFrontend = none) :
    (forwardPreparedFrontend prepared : Forward σ ε FrontendForwarding).wp
      (fun _ => AdmittedFrom prepared w)
      (fun stop t => Unadmitted prepared w stop t ∨ NotFrontend stop ∧ AdmittedFrom prepared w t)
      (fun _ => AdmittedFrom prepared w) w := by
  simp only [forwardPreparedFrontend, wp_bind, wp_connection]
  cases hprepare : w.conn.pipeline.prepareFrontendSequence .forward prepared.messages with
  | error panic => exact Or.inl (.panicked hprepare)
  | ok result =>
    rcases result with error | ⟨items, next⟩
    · exact Or.inl (.refused hprepare)
    · obtain ⟨h, hexec, -⟩ := Pipeline.prepareFrontendSequence_exec hprepare
      have hcommitted : AdmittedFrom prepared w
          ((w.logged (.admitted prepared.number (w.conn.pipeline.entries
            (prepared.messages.map fun message => .frontend message .forward)))).setPipeline
              next) := by
        refine ⟨hnone, rfl, ⟨_, rfl⟩, _, List.mem_append_right _ (List.mem_singleton_self _),
          _, rfl, ?_, rfl⟩
        rw [Pipeline.entries_eq hexec]
        exact exec_inputs hexec
      simp only [wp_bind, wp_record, wp_update]
      apply (slot_relation.steady.keeps_sendItems prepared.number items).wp
      · intro _ t ht
        exact hcommitted.kept ht
      · intro stop t hstop ht
        exact Or.inr ⟨hstop, hcommitted.kept ht⟩
      · intro messages t ht
        have hadmitted := hcommitted.kept ht
        split
        · exact hadmitted
        · split
          · exact hadmitted
          · split
            · exact hadmitted
            · exact Or.inr ⟨trivial, hadmitted⟩

/-! ## Decisions -/

/-- The sequence that role middleware makes of a decision to forward. -/
inductive Prepares (handlers : Handlers σ) (number : Nat) :
    FrontendMiddlewareOutput → PreparedFrontendForwarding → Prop
  | forward (s : σ) (message : FrontendMessage) :
      Prepares handlers number (.forward message)
        { number := number
          source := (handlers.clientFrontend s message).1
          messages := [(handlers.clientFrontend s message).1] }
  | forwardThenFlush (s : σ) (message : FrontendMessage) :
      Prepares handlers number (.forwardThenFlush message)
        { number := number
          source := message
          messages :=
            [(handlers.clientFrontend s message).1,
             (handlers.clientFrontend (handlers.clientFrontend s message).2 .flush).1] }

/-- The log has the decision that the sequence was made of. -/
def Decided (handlers : Handlers σ) (log : List (Record σ))
    (prepared : PreparedFrontendForwarding) : Prop :=
  ∃ r ∈ log, ∃ output, r.event = .frontendAnswered prepared.number output ∧
    Prepares handlers prepared.number output prepared

theorem Decided.append {handlers : Handlers σ} {log : List (Record σ)}
    (h : Decided handlers log prepared) (more : List (Record σ)) :
    Decided handlers (log ++ more) prepared := by
  obtain ⟨r, hr, hdecided⟩ := h
  exact ⟨r, List.mem_append_left more hr, hdecided⟩

/-- The boundary middleware answered a client message itself. -/
def Event.responds : Event → Bool
  | .frontendAnswered _ (.respond _ _) => true
  | _ => false

/-- A client message is answered locally only while the ledger has room. -/
def Record.RespondsInRoom (r : Record σ) : Prop :=
  r.event.responds = true → r.before.pipeline.HasRoom

instance : DecidablePred (Record.RespondsInRoom (σ := σ)) := fun r =>
  inferInstanceAs (Decidable (r.event.responds = true → r.before.pipeline.HasRoom))

/-- The call ended in a refusal for capacity. -/
def ForwardError.isCapacity : ForwardError ε → Bool
  | .frontend (.capacity _) => true
  | _ => false

/-- How a call may fail in `t`: a refusal for capacity leaves a sequence in the slot. -/
def Fails (P : World σ → Prop) : Stop ε → World σ → Prop
  | .panicked _, _ => True
  | .failed error, t => P t ∧ (error.isCapacity = true → (∀ r ∈ t.log, r.RespondsInRoom) →
      t.conn.pendingFrontend ≠ none)

/-- `P` holds wherever the computation stops, and it loses nothing for capacity. -/
def Retains (P : World σ → Prop) (m : Forward σ ε α) (t : World σ) : Prop :=
  m.wp (fun _ => P) (Fails P) (fun _ => P) t

section Retains

variable {P P' : World σ → Prop} {m : Forward σ ε α} {t : World σ}

theorem Fails.imp (h : Fails P stop t) (hP : P t → P' t) : Fails P' stop t := by
  cases stop with
  | failed error => exact ⟨hP h.1, h.2⟩
  | panicked abort => trivial

theorem NotFrontend.fails (hstop : NotFrontend stop) (h : P t) : Fails P stop t := by
  cases stop with
  | panicked abort => trivial
  | failed error =>
    refine ⟨h, ?_⟩
    intro hcapacity
    cases error with
    | frontend refusal => exact hstop.elim
    | _ => cases hcapacity

theorem Retains.imp (h : Retains P m t) (hP : ∀ u, P u → P' u) : Retains P' m t :=
  wp_conseq h (fun _ => hP) (fun _ u hu => hu.imp (hP u)) fun _ => hP

theorem Retains.map {β : Type} (f : α → β) (h : Retains P m t) :
    Retains P (m >>= fun a => pure (f a)) t := by
  rw [Retains, wp_bind]
  exact h

theorem Retains.of_spares (hspares : Spares m) (hP : ∀ u, SlotKept t u → P u) : Retains P m t :=
  hspares.wp (fun _ => hP) (fun _ u hstop hu => hstop.fails (hP u hu)) fun _ => hP

end Retains

/-! ## A client message is read -/

/-- One client message was read since `w`, and a sequence in the slot is the one for it. -/
structure Settled (handlers : Handlers σ) (w t : World σ) : Prop where
  received : t.conn.downstream.received = w.conn.downstream.received + 1
  log : ∃ more, t.log = w.log ++ more
  pending : ∀ prepared, t.conn.pendingFrontend = some prepared →
    prepared.number = w.conn.downstream.received ∧ Decided handlers t.log prepared

section Settled

variable {handlers : Handlers σ} {w t u : World σ}

theorem Settled.kept (h : Settled handlers w t) (hkept : SlotKept t u) : Settled handlers w u := by
  obtain ⟨more, hmore⟩ := h.log
  obtain ⟨rest, hrest⟩ := hkept.log
  refine ⟨hkept.received.trans h.received, ⟨more ++ rest, ?_⟩, ?_⟩
  · rw [hrest, hmore, List.append_assoc]
  · intro prepared hprepared
    rw [hkept.pending] at hprepared
    rw [hrest]
    exact ⟨(h.pending prepared hprepared).1, (h.pending prepared hprepared).2.append rest⟩

variable {prepared : PreparedFrontendForwarding}

theorem Settled.admitted (h : Settled handlers w t) (hadmitted : AdmittedFrom prepared t u) :
    Settled handlers w u := by
  obtain ⟨more, hmore⟩ := h.log
  obtain ⟨rest, hrest⟩ := hadmitted.log
  refine ⟨hadmitted.received.trans h.received, ⟨more ++ rest, ?_⟩, ?_⟩
  · rw [hrest, hmore, List.append_assoc]
  · intro prepared hprepared
    rw [hadmitted.pending] at hprepared
    cases hprepared

theorem Settled.spares (h : Settled handlers w t) {m : Forward σ ε α} (hspares : Spares m) :
    Retains (Settled handlers w) m t :=
  .of_spares hspares fun _ => h.kept

/-- The sequence is committed or, if the ledger refuses it, put into the slot. -/
theorem forwardPreparedFrontend_retains (h : Settled handlers w t)
    (hnone : t.conn.pendingFrontend = none) (hnumber : prepared.number = w.conn.downstream.received)
    (hdecided : Decided handlers t.log prepared) :
    Retains (Settled handlers w)
      (forwardPreparedFrontend prepared : Forward σ ε FrontendForwarding) t := by
  apply wp_conseq (forwardPreparedFrontend_admits prepared hnone)
  · intro _ u hu
    exact h.admitted hu
  · rintro stop u (hrefused | ⟨hstop, hu⟩)
    · cases hrefused with
      | refused _ =>
        refine ⟨⟨h.received, h.log, ?_⟩, ?_⟩
        · intro retained hretained
          cases hretained
          exact ⟨hnumber, hdecided⟩
        · intro _ _
          exact Option.some_ne_none prepared
      | panicked _ => trivial
    · exact hstop.fails (h.admitted hu)
  · intro _ u hu
    exact h.admitted hu

/-- A refused local answer is gone, but with room it is not refused for capacity. -/
theorem respondLocally_retains {number : Nat} {request : FrontendMessage}
    {responses : List BackendMessage} {r : Record σ} (h : Settled handlers w t)
    (hr : r ∈ t.log) (hresponds : r.event.responds = true)
    (hbefore : r.before.pipeline = t.conn.pipeline) :
    Retains (Settled handlers w) (respondLocally handlers number request responses :
      Forward σ ε FrontendForwarding) t := by
  simp only [Retains, respondLocally, wp_bind, wp_connection]
  cases haccept : t.conn.pipeline.acceptFrontend request .local with
  | error panic => exact h.spares (spares_panicked _)
  | ok result =>
    rcases result with ⟨error | admission, next⟩
    · refine ⟨h.kept ⟨rfl, rfl, _, rfl⟩, ?_⟩
      intro hcapacity hroom
      cases error with
      | illegal state message => cases hcapacity
      | capacity refused =>
        have hfree := hroom r (List.mem_append_left _ hr) hresponds
        rw [hbefore] at hfree
        exact absurd hfree (Pipeline.acceptFrontend_capacity haccept)
    · simp only [wp_bind, wp_update]
      have hnext : Settled handlers w (t.setPipeline next) :=
        h.kept ⟨rfl, rfl, [], (List.append_nil t.log).symm⟩
      cases admission.intoAction with
      | forward id message => exact hnext.spares (spares_panicked _)
      | discard id =>
        apply hnext.spares
        exact (slot_relation.steady.keeps_interceptAll (slot_relation.keeps_intercept _) _).bind
          fun _ => (spares_record _).bind fun _ =>
            .bind (spares_update (fun _ => rfl) fun _ => rfl) fun _ =>
              slot_relation.steady.keeps_flushLocalResponses.bind fun _ => keeps_pure _

theorem processFrontend_retains (handlers : Handlers σ) (message : FrontendMessage) {w : World σ}
    (hnone : w.conn.pendingFrontend = none) :
    Retains (Settled handlers w) (processFrontend handlers
      { number := w.conn.downstream.received, message := message } :
      Forward σ ε FrontendForwarding) (w.received .downstream) := by
  have hsettled : ∀ s, Settled handlers w ((w.received .downstream).setState s) := by
    intro s
    refine ⟨rfl, ⟨[], (List.append_nil w.log).symm⟩, ?_⟩
    intro prepared hprepared
    exact absurd hprepared (by simp [hnone])
  simp only [Retains, processFrontend, wp_bind, wp_intercept, wp_connection, Async.wp_ask,
    wp_update]
  refine ⟨hsettled _, ?_⟩
  rintro ⟨answer, s⟩
  cases answer with
  | error error =>
    exact (hsettled s).spares ((spares_record _).bind fun _ => spares_failed trivial)
  | ok output =>
    -- The decision is logged before anything is made of it.
    have hlogged : Settled handlers w (((w.received .downstream).setState s).logged
        (.frontendAnswered w.conn.downstream.received output)) :=
      (hsettled s).kept ⟨rfl, rfl, _, rfl⟩
    have hstate : ∀ s', Settled handlers w ((((w.received .downstream).setState s).logged
        (.frontendAnswered w.conn.downstream.received output)).setState s') :=
      fun _ => hlogged.kept ⟨rfl, rfl, [], (List.append_nil _).symm⟩
    have hmem := List.mem_append_right w.log (List.mem_singleton_self
      (Record.mk ((w.received .downstream).setState s).conn
        (.frontendAnswered w.conn.downstream.received output)))
    cases output with
    | forward message =>
      simp only [wp_bind, wp_record, wp_intercept]
      exact forwardPreparedFrontend_retains (hstate _) hnone rfl
        ⟨_, hmem, _, rfl, .forward s message⟩
    | forwardThenFlush message =>
      simp only [wp_bind, wp_record, wp_intercept]
      exact forwardPreparedFrontend_retains (hstate _) hnone rfl
        ⟨_, hmem, _, rfl, .forwardThenFlush s message⟩
    | suppress message =>
      exact hlogged.spares ((spares_record _).bind fun _ => keeps_pure _)
    | respond request responses =>
      exact respondLocally_retains hlogged hmem rfl rfl

end Settled

/-! ## Whole calls -/

/-- Everything a call can do with the slot. -/
inductive SlotStep (handlers : Handlers σ) (w t : World σ) : Prop
  | kept : SlotKept w t → SlotStep handlers w t
  | admitted {prepared : PreparedFrontendForwarding} : w.conn.pendingFrontend = some prepared →
      AdmittedFrom prepared w t → SlotStep handlers w t
  | settled : w.conn.pendingFrontend = none → Settled handlers w t → SlotStep handlers w t

section Calls

variable {handlers : Handlers σ} {w t u : World σ}

theorem SlotStep.append_kept (h : SlotStep handlers w t) (hkept : SlotKept t u) :
    SlotStep handlers w u := by
  cases h with
  | kept ht => exact .kept (trans_of SlotKept ht hkept)
  | admitted hslot ht => exact .admitted hslot (ht.kept hkept)
  | settled hslot ht => exact .settled hslot (ht.kept hkept)

theorem SlotStep.of_kept (h : SlotStep handlers t u) (hkept : SlotKept w t) :
    SlotStep handlers w u := by
  cases h with
  | kept hu => exact .kept (trans_of SlotKept hkept hu)
  | admitted hslot hu =>
    exact .admitted (hkept.pending.symm.trans hslot) (hu.of_kept hkept.received hkept.log)
  | settled hslot hu =>
    obtain ⟨more, hmore⟩ := hkept.log
    obtain ⟨rest, hrest⟩ := hu.log
    refine .settled (hkept.pending.symm.trans hslot) ⟨?_, ⟨more ++ rest, ?_⟩, ?_⟩
    · rw [hu.received, hkept.received]
    · rw [hrest, hmore, List.append_assoc]
    · rw [← hkept.received]
      exact hu.pending

variable {m : Forward σ ε α} {prepared : PreparedFrontendForwarding}

theorem SlotKept.retains (hkept : SlotKept w t) (h : Retains (SlotStep handlers t) m t) :
    Retains (SlotStep handlers w) m t :=
  h.imp fun _ hu => hu.of_kept hkept

theorem retains_of_spares (hspares : Spares m) : Retains (SlotStep handlers w) m w :=
  .of_spares hspares fun _ => .kept

theorem retry_admits (prepared : PreparedFrontendForwarding) (w : World σ) :
    (forwardPreparedFrontend prepared : Forward σ ε FrontendForwarding).wp
      (fun _ => AdmittedFrom prepared w)
      (fun stop t => Unadmitted prepared (w.setPendingFrontend none) stop t ∨
        NotFrontend stop ∧ AdmittedFrom prepared w t)
      (fun _ => AdmittedFrom prepared w) (w.setPendingFrontend none) := by
  have hadmitted : ∀ u, AdmittedFrom prepared (w.setPendingFrontend none) u →
      AdmittedFrom prepared w u :=
    fun u hu => hu.of_kept rfl ⟨[], (List.append_nil w.log).symm⟩
  apply wp_conseq (forwardPreparedFrontend_admits prepared rfl)
  · intro _ u hu
    exact hadmitted u hu
  · intro stop u hu
    exact hu.imp id fun hstop => ⟨hstop.1, hadmitted u hstop.2⟩
  · intro _ u hu
    exact hadmitted u hu

theorem Unadmitted.kept (h : Unadmitted prepared (w.setPendingFrontend none) stop t)
    (hslot : w.conn.pendingFrontend = some prepared) :
    (∃ error, stop = .failed (.frontend error) ∧ SlotKept w t) ∨
      ∃ abort, stop = .panicked abort := by
  cases h with
  | refused _ => exact Or.inl ⟨_, rfl, hslot.symm, rfl, [], (List.append_nil w.log).symm⟩
  | panicked _ => exact Or.inr ⟨_, rfl⟩

theorem forwardFrontend_retains (handlers : Handlers σ) (w : World σ) :
    Retains (SlotStep handlers w) (forwardFrontend handlers : Forward σ ε FrontendForwarding) w := by
  simp only [Retains, forwardFrontend, wp_bind, wp_connection]
  cases hslot : w.conn.pendingFrontend with
  | none =>
    simp only [receiveFrontend, takeFrontend, wp_bind, Async.wp_ask]
    refine ⟨.kept (refl w), ?_⟩
    rintro (error | message)
    · exact ⟨.kept ⟨rfl, rfl, _, rfl⟩, fun hcapacity => by cases hcapacity⟩
    · exact (processFrontend_retains handlers message hslot).imp fun _ => .settled hslot
  | some prepared =>
    simp only [wp_bind, wp_update]
    apply wp_conseq (retry_admits prepared w)
    · intro _ u hu
      exact .admitted hslot hu
    · rintro stop u (hrefused | ⟨hstop, hu⟩)
      · rcases hrefused.kept hslot with ⟨error, rfl, hkept⟩ | ⟨abort, rfl⟩
        · refine ⟨.kept hkept, fun _ _ => ?_⟩
          rw [hkept.pending, hslot]
          exact Option.some_ne_none prepared
        · trivial
      · exact hstop.fails (.admitted hslot hu)
    · intro _ u hu
      exact .admitted hslot hu

theorem pollTransports_retains (handlers : Handlers σ) (w : World σ) :
    Retains (SlotStep handlers w) (pollTransports handlers : Forward σ ε ForwardedMessage) w := by
  simp only [Retains, pollTransports, wp_bind, wp_connection]
  cases hslot : w.conn.pendingFrontend with
  | some prepared =>
    exact retains_of_spares (spares_receiveBackend.bind fun _ =>
      (spares_processBackend handlers _).bind fun _ => keeps_pure _)
  | none =>
    simp only [wp_bind, Async.wp_ask]
    refine ⟨.kept (refl w), ?_⟩
    rintro ((error | message) | (error | message))
    · exact retains_of_spares (slot_relation.steady.keeps_interrupted _ _)
    · exact ((processFrontend_retains handlers message hslot).imp fun _ => .settled hslot).map _
    · exact retains_of_spares (slot_relation.steady.keeps_interrupted _ _)
    · exact retains_of_spares ((spares_takeBackend message).bind fun _ =>
        (spares_processBackend handlers _).bind fun _ => keeps_pure _)

theorem forwardNext_retains (handlers : Handlers σ) (w : World σ) :
    Retains (SlotStep handlers w) (forwardNext handlers : Forward σ ε ForwardedMessage) w := by
  simp only [Retains, forwardNext, wp_bind, wp_connection]
  cases w.conn.backendHold.pending with
  | some pending =>
    exact retains_of_spares ((slot_steady handlers).keeps_processPendingBackend.bind fun _ =>
      keeps_pure _)
  | none =>
    simp only [wp_bind]
    apply (slot_steady handlers).keeps_makeRoom.wp
    · intro _ t ht
      exact .kept ht
    · intro stop t hstop ht
      exact hstop.fails (.kept ht)
    · intro _ t ht
      rw [wp_bind, wp_connection]
      cases hslot : t.conn.pendingFrontend with
      | none => exact ht.retains (pollTransports_retains handlers t)
      | some prepared =>
        simp only [wp_bind, wp_update, Async.wp_attempt]
        have hslot' : w.conn.pendingFrontend = some prepared := ht.pending.symm.trans hslot
        have hstep : ∀ u, AdmittedFrom prepared t u → SlotStep handlers w u :=
          fun u hu => .admitted hslot' (hu.of_kept ht.received ht.log)
        apply wp_conseq (retry_admits prepared t)
        · intro _ u hu
          exact hstep u hu
        · rintro stop u (hrefused | ⟨hstop, hu⟩)
          · rcases hrefused.kept hslot with ⟨error, rfl, hkept⟩ | ⟨abort, rfl⟩
            · have hback := trans_of SlotKept ht hkept
              cases error with
              | capacity message => exact hback.retains (pollTransports_retains handlers u)
              | illegal state message => exact ⟨.kept hback, fun hcapacity => by cases hcapacity⟩
            · trivial
          · cases stop with
            | panicked abort => trivial
            | failed error =>
              cases error with
              | frontend refusal => exact hstop.elim
              | _ => exact hstop.fails (hstep u hu)
        · intro outcome u hu
          exact hstep u hu

theorem perform_retains (handlers : Handlers σ) (call : ForwardCall) (w : World σ) :
    Retains (SlotStep handlers w) (perform handlers call : Forward σ ε CallResult) w := by
  cases call with
  | forwardFrontend => exact (forwardFrontend_retains handlers w).map _
  | forwardNext => exact (forwardNext_retains handlers w).map _
  | forwardBackend =>
    exact retains_of_spares ((spares_forwardBackend handlers).bind fun _ => keeps_pure _)
  | flushBackendHold =>
    exact retains_of_spares (((slot_steady handlers).keeps_flushBackendHoldFor _).bind fun _ =>
      keeps_pure _)
  | prepareBackendTeardown =>
    exact retains_of_spares ((slot_steady handlers).keeps_prepareBackendTeardown.bind fun _ =>
      keeps_pure _)

/-! ## Calls that serve the slot -/

/-- The calls that offer the sequence in the slot to the ledger before anything else. -/
def ServesSlot (c : Connection σ) : ForwardCall → Prop
  | .forwardFrontend => True
  | .forwardNext => c.backendHold.pending = none ∧ c.backendHoldIsFull = false
  | _ => False

/-- A sequence in the slot that the ledger accepts is admitted by the next call that serves the
slot, however the call ends. -/
theorem ServesSlot.admits {call : ForwardCall} (hcall : ServesSlot w.conn call)
    (hslot : w.conn.pendingFrontend = some prepared)
    (haccepts : ∃ items q, w.conn.pipeline.prepareFrontendSequence .forward prepared.messages =
      .ok (.ok (items, q))) {outcome : Outcome Request (Except (Stop ε) CallResult)}
    (hleads : ((perform handlers call : Forward σ ε CallResult) w).Leads outcome t) :
    AdmittedFrom prepared w t := by
  have hretry : (forwardPreparedFrontend prepared : Forward σ ε FrontendForwarding).wp
      (fun _ => AdmittedFrom prepared w)
      (fun stop t => NotFrontend stop ∧ AdmittedFrom prepared w t)
      (fun _ => AdmittedFrom prepared w) (w.setPendingFrontend none) := by
    apply Async.wp_mono (retry_admits prepared w)
    · rintro stop u (hrefused | hu)
      · rcases haccepts with ⟨items, q, haccepts⟩
        cases hrefused with
        | refused herror => cases herror.symm.trans haccepts
        | panicked hpanic => cases hpanic.symm.trans haccepts
      · exact hu
    · intro _ _ hu
      exact hu
  apply Async.wp_sound (m := perform handlers call) (s := w) _ hleads
  cases call with
  | forwardFrontend =>
    simp only [perform, forwardFrontend, wp_bind, wp_connection, hslot, wp_update]
    exact Async.wp_mono hretry (fun _ _ hu => hu.2) fun _ _ hu => hu
  | forwardNext =>
    rcases hcall with ⟨hpending, hfull⟩
    simp only [perform, forwardNext, makeRoom, wp_bind, wp_connection, hpending, hfull,
      Bool.false_eq_true, if_false, Async.wp_pure, hslot, wp_update, Async.wp_attempt]
    apply Async.wp_mono hretry
    · rintro stop u ⟨hstop, hu⟩
      cases stop with
      | panicked abort => exact hu
      | failed error =>
        cases error with
        | frontend refusal => exact hstop.elim
        | _ => exact hu
    · intro _ _ hu
      exact hu
  | _ => exact hcall.elim

end Calls
end Slot
end PgProto
