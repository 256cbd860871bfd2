import PgProto.Intermediary.Slot

/-!
# Backpressure — client messages the ledger has no room for

A client message that is refused for capacity waits in the slot, as the sequence which the decision
on it has led to, and it is the next client message to reach the ledger.  Three things break this in
the source.  `Respond` hands its message to the ledger without a slot to return to.  The capacity is
checked before the legality, so that a message waits which is never accepted.  And a sequence of two
messages does not fit a ledger of one record, even an empty one.

* `Pipeline.Wf.prepareFrontendSequence_ok` — the sequences the ledger accepts;
* `Session.Run.slot` — the slot throughout a session;
* `refused_message_waits` — what becomes of a message that is refused for capacity.
-/

namespace PgProto

open Lib

/-! ## Sequences the ledger accepts -/

namespace Pipeline

/-- Every message can be encoded and is legal in the request state that those before it lead to. -/
def legalFrom : RequestState → List FrontendMessage → Bool
  | _, [] => true
  | state, message :: messages =>
    message.isReconstructable &&
      match projectFrontend state message.variant with
      | .ok (some (_, next)) => legalFrom next messages
      | _ => false

/-- There is room for the first message, and for the others as each adds its record. -/
def RoomFor (p : Pipeline) (messages : List FrontendMessage) : Prop :=
  p.HasRoom ∧
    ∀ i < messages.length, 0 < i → p.operations.length + i ≠ p.policy.operationLimit

instance (p : Pipeline) (messages : List FrontendMessage) : Decidable (p.RoomFor messages) :=
  inferInstanceAs (Decidable (p.HasRoom ∧
    ∀ i < messages.length, 0 < i → p.operations.length + i ≠ p.policy.operationLimit))

variable {message : FrontendMessage} {messages : List FrontendMessage} {p : Pipeline}

theorem legalFrom_cons {state : RequestState} (h : legalFrom state (message :: messages) = true) :
    message.isReconstructable = true ∧ ∃ kind next,
      projectFrontend state message.variant = .ok (some (kind, next)) ∧
        legalFrom next messages = true := by
  simp only [legalFrom, Bool.and_eq_true] at h
  refine ⟨h.1, ?_⟩
  rcases hproject : projectFrontend state message.variant with panic | _ | ⟨kind, next⟩
  · simp [hproject] at h
  · simp [hproject] at h
  · exact ⟨kind, next, rfl, by simpa [hproject] using h.2⟩

/-- An accepted message adds its record, unless it is inert and the ledger is empty. -/
theorem length_enqueue (message : FrontendVariant) (state : RequestState) (record : Operation)
    (os : List Operation) :
    (enqueue message state record os).length = os.length + 1 ∨
      os = [] ∧ enqueue message state record os = [] := by
  cases os with
  | nil =>
    by_cases hinert : record.isInert = true
    · exact Or.inr ⟨rfl, by simp [enqueue, hinert]⟩
    · exact Or.inl (by simp [enqueue, hinert])
  | cons o os => exact Or.inl (by simp [enqueue, length_cancelSyncFor])

/-- Room for a sequence is room for the rest of it once the first message is in. -/
theorem RoomFor.tail {q : Pipeline} (h : p.RoomFor (message :: messages))
    (hpolicy : q.policy = p.policy) (hlength : q.operations.length = p.operations.length + 1 ∨
      p.operations.length = 0 ∧ q.operations.length = 0) (hne : messages ≠ []) :
    q.RoomFor messages := by
  have hpos := List.length_pos_iff.2 hne
  have hlimit := p.policy.operationLimit_pos
  rcases hlength with hlength | ⟨hempty, hempty'⟩
  · refine ⟨fun hfull => ?_, fun i hi _ => ?_⟩
    · refine absurd hfull ?_
      rw [hlength, hpolicy]
      exact h.2 1 (Nat.succ_lt_succ hpos) Nat.one_pos
    · have hnext := h.2 (i + 1) (Nat.succ_lt_succ hi) (Nat.succ_pos i)
      rw [hlength, hpolicy]
      omega
  · refine ⟨fun hfull => ?_, fun i hi hi' => ?_⟩
    · rw [hempty', hpolicy] at hfull
      omega
    · rw [hempty', hpolicy, ← hempty]
      exact h.2 i (Nat.lt_succ_of_lt hi) hi'

/-- A legal message with room is accepted, and leads to the request state it is classified for. -/
theorem Wf.acceptFrontend_ok (hwf : p.Wf) (howned : p.CopyOwned) (hroom : p.HasRoom)
    {kind : OperationKind} {next : RequestState}
    (hproject : projectFrontend p.requestState message.variant = .ok (some (kind, next))) :
    ∃ admission q, p.acceptFrontend message .forward = .ok (.ok admission, q) ∧
      q.policy = p.policy ∧ q.requestState = next ∧
      (q.operations.length = p.operations.length + 1 ∨
        p.operations.length = 0 ∧ q.operations.length = 0) := by
  rcases frontendPhase_ok howned (projectFrontend_open hproject) with ⟨phase, hphase⟩
  refine ⟨_, _, hwf.acceptFrontend_eq hroom hproject hphase .forward, rfl, rfl, ?_⟩
  rcases length_enqueue message.variant p.requestState
    (Operation.admitted p.nextId kind next .forward) p.operations with h | ⟨hempty, h⟩
  · exact Or.inl h
  · exact Or.inr ⟨List.length_eq_zero_iff.2 hempty, List.length_eq_zero_iff.2 h⟩

theorem Wf.prepareFrontendSequence_ok (hwf : p.Wf) (howned : p.CopyOwned)
    (hroom : p.RoomFor messages) (hlegal : legalFrom p.requestState messages = true) :
    ∃ items q, p.prepareFrontendSequence .forward messages = .ok (.ok (items, q)) := by
  -- The conditions are about the ledger before the sequence, and each message passes them on.
  induction messages generalizing p with
  | nil => exact ⟨[], p, rfl⟩
  | cons message messages ih =>
    rcases legalFrom_cons hlegal with ⟨hencodes, kind, next, hproject, hrest⟩
    rcases hwf.acceptFrontend_ok howned hroom.1 hproject with
      ⟨admission, q, haccept, hpolicy, hnext, hlength⟩
    have hstep : Step p (.frontend message .forward) (.frontend (.ok admission)) q := by
      simp [Step, Calls, call, haccept, Except.map]
    have howned' : q.CopyOwned := by
      apply howned.of_not_ends hwf (hwf.effect_of_step hstep)
      rintro head rest response ⟨-, hresponse, -⟩
      cases hresponse
    have htail : ∃ items r, q.prepareFrontendSequence .forward messages = .ok (.ok (items, r)) := by
      by_cases hne : messages = []
      · subst hne
        exact ⟨[], q, rfl⟩
      · exact ih (hwf.step hstep) howned' (hroom.tail hpolicy hlength hne) (hnext ▸ hrest)
    rcases htail with ⟨items, r, htail⟩
    refine ⟨{ transition := p.frontendTransitionId message, admission := admission } :: items, r, ?_⟩
    simp only [prepareFrontendSequence, hencodes, if_true, haccept, htail]

end Pipeline

/-! ## The slot throughout a session -/

/-- The call ended in a refusal for capacity. -/
def CallOutcome.isCapacity {ε : Type} : CallOutcome ε → Bool
  | .failed error => error.isCapacity
  | _ => false

section Backpressure

variable {σ ε : Type} {handlers : Handlers σ} {w t : World σ}

/-- A sequence in the slot is the one for the client message read last. -/
def SlotCurrent (handlers : Handlers σ) (w : World σ) : Prop :=
  ∀ prepared, w.conn.pendingFrontend = some prepared →
    w.conn.downstream.received = prepared.number + 1 ∧ Decided handlers w.log prepared

/-- The sequence was committed to the ledger before another client message was read. -/
def AdmittedInTurn (prepared : PreparedFrontendForwarding) (log : List (Record σ)) : Prop :=
  ∃ r ∈ log, ∃ entries, r.event = .admitted prepared.number entries ∧
    entries.map Entry.input = prepared.messages.map (fun message => .frontend message .forward) ∧
    r.before.downstream.received = prepared.number + 1

/-- The sequence waits in the slot with its client message the last one read, or was admitted. -/
def InTurn (prepared : PreparedFrontendForwarding) (w : World σ) : Prop :=
  (w.conn.pendingFrontend = some prepared ∧ w.conn.downstream.received = prepared.number + 1) ∨
    AdmittedInTurn prepared w.log

theorem SlotStep.log (h : SlotStep handlers w t) : ∃ more, t.log = w.log ++ more := by
  cases h with
  | kept ht | admitted _ ht | settled _ ht => exact ht.log

theorem SlotCurrent.step (hcurrent : SlotCurrent handlers w) (hstep : SlotStep handlers w t) :
    SlotCurrent handlers t := by
  intro prepared hprepared
  cases hstep with
  | kept ht =>
    obtain ⟨more, hmore⟩ := ht.log
    obtain ⟨hnumber, hdecided⟩ := hcurrent prepared (ht.pending.symm.trans hprepared)
    rw [ht.received, hmore]
    exact ⟨hnumber, hdecided.append more⟩
  | admitted _ ht => exact absurd (ht.pending.symm.trans hprepared) nofun
  | settled _ ht =>
    obtain ⟨hnumber, hdecided⟩ := ht.pending prepared hprepared
    rw [ht.received, hnumber]
    exact ⟨rfl, hdecided⟩

/-- While the sequence waits no client message is read, so that none can overtake it. -/
theorem InTurn.step {prepared : PreparedFrontendForwarding} (h : InTurn prepared w)
    (hstep : SlotStep handlers w t) : InTurn prepared t := by
  rcases h with ⟨hslot, hnumber⟩ | ⟨r, hr, hadmitted⟩
  · cases hstep with
    | kept ht => exact Or.inl ⟨ht.pending.trans hslot, ht.received.trans hnumber⟩
    | admitted hslot' ht =>
      cases hslot.symm.trans hslot'
      obtain ⟨r, hr, entries, hevent, hinputs, hbefore⟩ := ht.admitted
      exact Or.inr ⟨r, hr, entries, hevent, hinputs, hbefore.trans hnumber⟩
    | settled hnone _ => exact absurd (hslot.symm.trans hnone) nofun
  · obtain ⟨more, hmore⟩ := hstep.log
    refine Or.inr ⟨r, ?_, hadmitted⟩
    rw [hmore]
    exact List.mem_append_left more hr

theorem Session.Step.slot {call : ForwardCall} {outcome : CallOutcome ε}
    (hstep : Session.Step handlers w call outcome t) :
    SlotStep handlers w t ∧ (outcome.isCapacity = true → (∀ r ∈ t.log, r.RespondsInRoom) →
      t.conn.pendingFrontend ≠ none) := by
  have hretains : Retains (SlotStep handlers w) (perform handlers call : Forward σ ε CallResult) w :=
    perform_retains handlers call w
  cases hstep with
  | returned hleads => exact ⟨Resume.Holds.sound hretains hleads, nofun⟩
  | failed hleads => exact Resume.Holds.sound hretains hleads
  | dropped s hleads =>
    have hdropped : SlotStep handlers w _ := Resume.Holds.sound hretains hleads
    exact ⟨hdropped.append_kept ⟨rfl, rfl, _, rfl⟩, nofun⟩

variable {h : List (Session.SessionEntry σ ε)}

/-- Throughout a session the slot holds the sequence for the client message read last. -/
theorem Session.Run.slot {conn : Connection σ} (hr : Session.Run ε handlers conn h w)
    (hempty : conn.pendingFrontend = none) : SlotCurrent handlers w := by
  refine History.invariant ?_ (fun _ _ _ _ hcurrent hstep => hcurrent.step hstep.slot.1) hr
  intro prepared hprepared
  exact absurd (hempty.symm.trans hprepared) nofun

theorem Session.log_append (hr : History (Session.Step handlers) w h t) :
    ∃ more, t.log = w.log ++ more := by
  induction hr with
  | nil => exact ⟨[], (List.append_nil w.log).symm⟩
  | snoc _ hstep ih =>
    obtain ⟨more, hmore⟩ := ih
    obtain ⟨rest, hrest⟩ := hstep.slot.1.log
    exact ⟨more ++ rest, by rw [hrest, hmore, List.append_assoc]⟩

/-- **No client message is lost to backpressure.**  In a session whose middleware answers a client
message itself only while the ledger has room, let a call end in a refusal for capacity.  Then the
connection retains the sequence made of the decision on the client message it read last.  From then
on it waits in the slot and no other client message is read, or it has been admitted before any
other was read.  As long as it waits, a call that serves the slot admits it if it is legal in the
request state of the ledger, if the ledger has room for all of it, and if a COPY phase has its
owner. -/
theorem refused_message_waits {policy : PipelinePolicy} {conn : Connection σ}
    {h : List (Session.SessionEntry σ ε)} {e : Session.SessionEntry σ ε}
    (hr : Session.Run ε handlers conn h w) (hconn : conn.pipeline = Pipeline.new policy)
    (hempty : conn.pendingFrontend = none) (hroom : ∀ r ∈ w.log, r.RespondsInRoom) (he : e ∈ h)
    (hrefused : e.output.isCapacity = true) :
    ∃ prepared, e.after.conn.pendingFrontend = some prepared ∧
      e.after.conn.downstream.received = prepared.number + 1 ∧
      Decided handlers e.after.log prepared ∧ InTurn prepared w ∧
      (w.conn.pendingFrontend = some prepared → w.conn.pipeline.CopyOwned →
        w.conn.pipeline.RoomFor prepared.messages →
        Pipeline.legalFrom w.conn.pipeline.requestState prepared.messages = true →
        ∀ call, ServesSlot w.conn call → ∀ outcome t,
          ((perform handlers call : Forward σ ε CallResult) w).Leads outcome t →
          AdmittedFrom prepared w t) := by
  rcases hr.mem_split he with ⟨h₁, h₂, rfl, hbefore, hstep, hafter⟩
  have hcurrent : SlotCurrent handlers e.after := (Session.Run.slot hbefore hempty).step hstep.slot.1
  have hroom' : ∀ r ∈ e.after.log, r.RespondsInRoom := by
    intro r hr
    obtain ⟨more, hmore⟩ := Session.log_append hafter
    apply hroom
    rw [hmore]
    exact List.mem_append_left more hr
  rcases Option.ne_none_iff_exists'.1 (hstep.slot.2 hrefused hroom') with ⟨prepared, hprepared⟩
  obtain ⟨hnumber, hdecided⟩ := hcurrent prepared hprepared
  have hturn : InTurn prepared w :=
    hafter.invariant (Or.inl ⟨hprepared, hnumber⟩) fun s _ _ s' hs hstep => hs.step hstep.slot.1
  refine ⟨prepared, hprepared, hnumber, hdecided, hturn, ?_⟩
  intro hslot howned hspace hlegal call hcall outcome t hleads
  have hwf : w.conn.pipeline.Wf := (hr.ledger hconn).wf
  exact hcall.admits hslot (hwf.prepareFrontendSequence_ok howned hspace hlegal) hleads

end Backpressure

/-- A second Query waits for the answer to the first. -/
theorem refused_message_waits_query :
    ∃ (h : List (Session.SessionEntry Unit Unit)) (w : World Unit)
      (prepared : PreparedFrontendForwarding),
      Session.Run Unit (Handlers.identity Unit) holdingConnection h w ∧
      h.map (fun e => e.output.isCapacity) = [false, true, false] ∧
      w.conn.pendingFrontend = some prepared ∧
      ∀ outcome t, ((perform (Handlers.identity Unit) .forwardFrontend :
        Forward Unit Unit CallResult) w).Leads outcome t → AdmittedFrom prepared w t := by
  obtain ⟨h, w, hr, hcapacity, hroom, ⟨e, he, hrefused, hafter⟩, hslot, hstate, hspace⟩ :=
      Session.exists_identity_run holdingConnection
      (fun h w => h.map (fun e => e.output.isCapacity) = [false, true, false] ∧
        (∀ r ∈ w.log, r.RespondsInRoom) ∧
        (∃ e ∈ h, e.output.isCapacity = true ∧
          e.after.conn.pendingFrontend = w.conn.pendingFrontend) ∧
        w.conn.pendingFrontend = some ⟨1, .query [], [.query []]⟩ ∧
        w.conn.pipeline.requestState = .ready ∧ w.conn.pipeline.RoomFor [.query []])
      [Session.sends (.query []) (.forward (.query [])),
       Session.sends (.query []) (.forward (.query [])),
       Session.returns (.readyForQuery .idle) (.forward (.readyForQuery .idle))
         .keepHolding] (by decide +kernel)
  rcases refused_message_waits hr rfl rfl hroom he hrefused with
    ⟨prepared, hprepared, -, -, -, hadmits⟩
  have hslot' : w.conn.pendingFrontend = some prepared := hafter.symm.trans hprepared
  cases hslot.symm.trans hslot'
  have howned : w.conn.pipeline.CopyOwned := by
    rintro (hcopy | hcopy) <;> exact absurd (hstate.symm.trans hcopy) nofun
  refine ⟨h, w, _, hr, hcapacity, hslot, ?_⟩
  exact hadmits hslot howned hspace (by rw [hstate]; decide +kernel) .forwardFrontend trivial

/-- A ledger of one record.  A Query that is answered locally behind another one is refused for
capacity and is gone.  A Parse that is to be followed by a Flush is refused for capacity by the
empty ledger, again and again.  And CopyData behind a Query is refused for capacity, retained, and
refused as illegal once the ledger is empty. -/
theorem capacity_refusals_lost :
    (∃ (h : List (Session.SessionEntry Unit Unit)) (w : World Unit),
      Session.Run Unit (Handlers.identity Unit) holdingConnection h w ∧
      h.map (fun e => e.output.isCapacity) = [false, true] ∧
      w.conn.downstream.received = 2 ∧ w.conn.pendingFrontend = none ∧
      (gather Event.forwards w.log).map Prod.fst = [0]) ∧
    (∃ (h : List (Session.SessionEntry Unit Unit)) (w : World Unit),
      Session.Run Unit (Handlers.identity Unit) holdingConnection h w ∧
      h.map (fun e => e.output.isCapacity) = [true, true] ∧
      w.conn.pipeline.operations = [] ∧ w.conn.pendingFrontend ≠ none) ∧
    (∃ (h : List (Session.SessionEntry Unit Unit)) (w : World Unit),
      Session.Run Unit (Handlers.identity Unit) holdingConnection h w ∧
      h.map (fun e => e.output.isCapacity) = [false, true, false, false] ∧
      h.map (fun e => e.output.hasFailed) = [false, true, false, true] ∧
      w.conn.pipeline.operations = [] ∧ w.conn.pendingFrontend ≠ none) := by
  refine ⟨?_, ?_, ?_⟩
  · exact Session.exists_run
      [Session.sends (.query []) (.forward (.query [])),
       Session.sends (.query []) (.respond (.query []) [.readyForQuery .idle])] _
      (by decide +kernel)
  · exact Session.exists_run
      [Session.sends (.parse ⟨[], [], []⟩) (.forwardThenFlush (.parse ⟨[], [], []⟩)),
       (.forwardFrontend, [])] _
      (by decide +kernel)
  · exact Session.exists_run
      [Session.sends (.query []) (.forward (.query [])),
       Session.sends (.copyData []) (.forward (.copyData [])),
       Session.returns (.readyForQuery .idle) (.forward (.readyForQuery .idle)) .keepHolding,
       (.forwardFrontend, [])] _
      (by decide +kernel)

end PgProto
