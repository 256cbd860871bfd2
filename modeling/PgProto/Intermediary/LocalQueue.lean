import PgProto.Intermediary.Sessions
import PgProto.Pipeline.LocalRecords

/-!
# LocalQueue — local responses and their operations

The responses of locally handled requests wait in `pending_local` until the ledger has come to their
operation.  The ledger never looks at that queue: it discards records whether responses wait for them
or not.

* `Backed` — every entry with messages left has its live record in the ledger, in the same order;
* `Backed.step`, `Backed.emit` — what a step of the ledger does to that;
* `local_responses_deliverable` — the queue stays backed in every session in which no step strikes a
  record that responses wait for, and responses are queued for live records only;
* `error_strands_local_response` — an error from the server strands the responses of a later local
  request.
-/

namespace PgProto

open Lib
open Pipeline (LedgerEntry)

/-! ## The queue against the ledger -/

def PendingLocalResponses.waits (pending : PendingLocalResponses) : Bool :=
  !pending.messages.isEmpty

/-- The operations for which responses are left. -/
def waitingIds (queue : List PendingLocalResponses) : List OperationId :=
  (queue.filter PendingLocalResponses.waits).map PendingLocalResponses.operation

theorem waitingIds_cons_subset (pending : PendingLocalResponses)
    (queue : List PendingLocalResponses) : waitingIds queue ⊆ waitingIds (pending :: queue) := by
  apply List.map_subset
  by_cases hwaits : pending.waits
  · simp [hwaits]
  · simp [hwaits]

/-- The entry belongs to this record, and only its last message may be the record's last response. -/
structure PendingLocalResponses.Fits (pending : PendingLocalResponses)
    (key : OperationId × OperationKind) : Prop where
  operation : pending.operation = key.1
  unfinished : ∀ message ∈ pending.messages.dropLast,
    responseIsTerminal key.2 message.variant = false

/-- Every entry with messages left has its record among those the ledger waits for, in order. -/
def Backed (queue : List PendingLocalResponses) (os : List Operation) : Prop :=
  ∃ ks, ks.Sublist (owed os) ∧
    List.Forall₂ PendingLocalResponses.Fits (queue.filter PendingLocalResponses.waits) ks

/-- Responses are queued for a record the ledger waits for, and none but the last of them ends it. -/
def answerable (entry : LedgerEntry) (messages : List BackendMessage) : Bool :=
  messages.isEmpty ||
    match entry.input with
    | .frontend request handling =>
      match classifyFrontend entry.before.requestState request.variant with
      | .ok (some (kind, next)) =>
        !(Operation.admitted entry.before.nextId kind next handling).isInert &&
          messages.dropLast.all fun message => !responseIsTerminal kind message.variant
      | _ => false
    | _ => false

theorem backed_nil (os : List Operation) : Backed [] os :=
  ⟨[], List.nil_sublist _, List.Forall₂.nil⟩

variable {entries queue : List PendingLocalResponses} {ks : List (OperationId × OperationKind)}
  {p p' : Pipeline} {messages : List BackendMessage} {reply : Reply}

theorem map_operation_of_fits (hfits : List.Forall₂ PendingLocalResponses.Fits entries ks) :
    entries.map PendingLocalResponses.operation = ks.map Prod.fst := by
  induction hfits with
  | nil => rfl
  | cons hhead _ ih => rw [List.map_cons, List.map_cons, hhead.operation, ih]

/-- Keys of waiting entries are not struck when their identities are not. -/
theorem avoids_of_fits {os : List Operation}
    (hfits : List.Forall₂ PendingLocalResponses.Fits entries ks)
    (hentries : ∀ pending ∈ entries, pending.operation ∈ waitingIds queue)
    (hstruck : ∀ o ∈ os, o.id ∉ waitingIds queue) : ∀ k ∈ ks, ∀ o ∈ os, o.id ≠ k.1 := by
  intro k hk o ho hid
  have hmem : k.1 ∈ entries.map PendingLocalResponses.operation := by
    rw [map_operation_of_fits hfits]
    exact List.mem_map_of_mem hk
  rcases List.mem_map.1 hmem with ⟨pending, hpending, heq⟩
  apply hstruck o ho
  rw [hid, ← heq]
  exact hentries pending hpending

/-- A step of the ledger which emits no response of the queue. -/
theorem Backed.step {call : Call} (h : Backed queue p.operations) (hwf : p.Wf)
    (hstep : Pipeline.Step p call reply p')
    (hcall : ∀ id m, call = .emitLocal id m → ∀ message, reply ≠ .backend (.ok (.emit message)))
    (hstruck : ∀ o ∈ p.struck call, o.id ∉ waitingIds queue) : Backed queue p'.operations := by
  rcases h with ⟨ks, hks, hfits⟩
  refine ⟨ks, hwf.owed_effect (hwf.effect_of_step hstep) hks ?_ ?_, hfits⟩
  · exact avoids_of_fits hfits (fun pending hpending => List.mem_map_of_mem hpending) hstruck
  · -- The server completes forwarded records only.
    intro message head rest hreply hops hresponse haddr _
    cases call with
    | frontend _ _ => cases hresponse
    | emitLocal id m => exact absurd hreply (hcall id m rfl _)
    | backend _ =>
      have horigin : head.origin = .forwarded := haddr
      rw [hops] at hks
      simpa [owed_cons, Operation.isOwed, horigin] using hks

theorem Backed.emit {operation : OperationId} {message : BackendMessage}
    {rest : List PendingLocalResponses}
    (h : Backed ({ operation, messages := message :: messages } :: rest) p.operations) (hwf : p.Wf)
    (hstep : Pipeline.Step p (.emitLocal operation message) reply p')
    (hstruck : ∀ o ∈ p.struck (.emitLocal operation message),
      o.id ∉ waitingIds ({ operation, messages } :: rest)) :
    Backed ({ operation, messages } :: rest) p'.operations := by
  have heffect := hwf.effect_of_step hstep
  rcases h with ⟨ks, hks, hfits⟩
  simp only [PendingLocalResponses.waits, List.isEmpty_cons, Bool.not_false,
    List.filter_cons_of_pos] at hfits
  rcases List.forall₂_cons_left_iff.1 hfits with ⟨k, ks', hfit, hrest, rfl⟩
  have hbehind : ∀ pending ∈ rest.filter PendingLocalResponses.waits,
      pending.operation ∈ waitingIds ({ operation, messages } :: rest) := by
    intro pending hpending
    apply List.mem_map_of_mem
    rcases List.mem_filter.1 hpending with ⟨hmem, hwaits⟩
    exact List.mem_filter.2 ⟨List.mem_cons_of_mem _ hmem, hwaits⟩
  cases messages with
  | nil =>
    -- The entry is used up, so its record may go.
    refine ⟨ks', hwf.owed_effect heffect ?_ ?_ ?_, hrest⟩
    · exact (List.sublist_cons_self k ks').trans hks
    · exact avoids_of_fits hrest hbehind hstruck
    · intro m head rest' _ hops _ haddr _
      have hlocal : head.origin = .local ∧ head.id = operation := haddr
      have howed : head.isOwed = true := by
        simp [Operation.isOwed, hlocal.1, hwf.headLive hops]
      rw [hops, owed_cons, howed] at hks
      exact hks.tail
  | cons next messages =>
    have hfit' : PendingLocalResponses.Fits { operation, messages := next :: messages } k :=
      ⟨hfit.operation, fun m hm => hfit.unfinished m (List.mem_cons_of_mem _ hm)⟩
    have hfits' : List.Forall₂ PendingLocalResponses.Fits
        (({ operation, messages := next :: messages } :: rest).filter
          PendingLocalResponses.waits) (k :: ks') := by
      simpa [PendingLocalResponses.waits] using List.Forall₂.cons hfit' hrest
    refine ⟨k :: ks', hwf.owed_effect heffect hks ?_ ?_, hfits'⟩
    · exact avoids_of_fits hfits' (fun pending hpending => List.mem_map_of_mem hpending) hstruck
    · -- More messages follow, so this one does not end the record.
      intro m head rest' _ hops hresponse haddr hlast
      have hlocal : head.origin = .local ∧ head.id = operation := haddr
      have howed : head.isOwed = true := by
        simp [Operation.isOwed, hlocal.1, hwf.headLive hops]
      rw [hops, owed_cons, howed] at hks
      cases hks with
      | cons _ hsub => exact hsub
      | cons_cons _ _ =>
        have hmessage : message = m := Option.some.inj hresponse
        have hunfinished := hfit.unfinished message List.mem_cons_self
        rw [hmessage] at hunfinished
        have hunfinished' : responseIsTerminal head.kind m.variant = false := hunfinished
        rw [hlast] at hunfinished'
        cases hunfinished'

theorem Backed.respond {request : FrontendMessage} {admission : FrontendAdmission}
    {id : OperationId} (h : Backed queue p.operations) (hwf : p.Wf)
    (haccept : p.acceptFrontend request .local = .ok (.ok admission, p'))
    (haction : admission.intoAction = .discard id) (hanswerable : answerable
      ⟨p, .frontend request .local, .frontend (.ok admission), p'⟩ messages = true)
    (hstruck : ∀ o ∈ p.struck (.frontend request .local), o.id ∉ waitingIds queue) :
    Backed (queue ++ [{ operation := id, messages }]) p'.operations := by
  have heffect := hwf.effect_frontend haccept
  have hid : id = p.nextId :=
    FrontendAction.discard.inj (haction.symm.trans heffect.local_action)
  rcases h with ⟨ks, hks, hfits⟩
  have havoids := avoids_of_fits hfits (fun pending hpending => List.mem_map_of_mem hpending) hstruck
  cases heffect with
  | @accepted _ _ kind next _ _ hproject _ =>
    have hclass := projectFrontend_classify hproject
    have hkept := Pipeline.sublist_owed_cancelSyncFor hclass hks havoids
    cases messages with
    | nil =>
      refine ⟨ks, ?_, by simpa [PendingLocalResponses.waits] using hfits⟩
      rw [hwf.owed_enqueue]
      exact hkept.trans (List.sublist_append_left _ _)
    | cons message messages =>
      simp only [answerable, hclass, List.isEmpty_cons, Bool.false_or, Bool.and_eq_true,
        Bool.not_eq_true', List.all_eq_true] at hanswerable
      have howed : (Operation.admitted p.nextId kind next .local).isOwed = true := by
        rw [Operation.isOwed, hanswerable.1]
        rfl
      refine ⟨ks ++ [(p.nextId, kind)], ?_, ?_⟩
      · rw [hwf.owed_enqueue]
        refine hkept.append ?_
        rw [owed_cons, howed]
        exact List.Sublist.refl _
      · rw [List.filter_append]
        refine List.rel_append hfits ?_
        exact List.Forall₂.cons ⟨hid, hanswerable.2⟩ List.Forall₂.nil

theorem Backed.history {entries : List LedgerEntry} (hh : History Pipeline.Step p entries p')
    (hwf : p.Wf) (h : Backed queue p.operations)
    (hcalls : ∀ e ∈ entries, ∀ id message, e.input ≠ .emitLocal id message)
    (hstruck : ∀ e ∈ entries, ∀ o ∈ e.before.struck e.input, o.id ∉ waitingIds queue) :
    p'.Wf ∧ Backed queue p'.operations := by
  induction hh with
  | nil => exact ⟨hwf, h⟩
  | @snoc entries s s' i o _ hstep ih =>
    have hbefore := ih (fun e he => hcalls e (by simp [he])) fun e he => hstruck e (by simp [he])
    have hlast : Entry.mk s i o s' ∈ entries ++ [Entry.mk s i o s'] := by simp
    exact ⟨hbefore.1.step hstep,
      hbefore.2.step hbefore.1 hstep (fun id m h => absurd h (hcalls _ hlast id m))
        (hstruck _ hlast)⟩

/-! ## Conditions on a session -/

/-- Local responses are queued for a record the ledger waits for. -/
def Event.answerable : Event → Bool
  | .queued _ entry _ messages => PgProto.answerable entry messages
  | _ => true

/-- The operations for which responses wait while a call is made: those of the queue, and that of the
response the call offers. -/
def waitingAt (queue : List PendingLocalResponses) : Call → List OperationId
  | .emitLocal id _ => id :: waitingIds queue
  | _ => waitingIds queue

theorem waitingIds_subset_waitingAt (queue : List PendingLocalResponses) (call : Call) :
    waitingIds queue ⊆ waitingAt queue call := by
  cases call with
  | emitLocal id message => exact List.subset_cons_self _ _
  | _ => exact List.Subset.refl _

section LocalQueue

variable {σ ε : Type}

/-- Responses are queued for live records, and no step of the ledger strikes a record for which
responses wait. -/
structure QueueSafe (r : Record σ) : Prop where
  answerable : r.event.answerable = true
  struck : ∀ e ∈ r.event.entries, ∀ o ∈ e.before.struck e.input,
    o.id ∉ waitingAt r.before.pendingLocal e.input

/-- The two queues of a connection. -/
structure Synchronised (w : World σ) : Prop where
  wf : w.conn.pipeline.Wf
  backed : Backed w.conn.pendingLocal w.conn.pipeline.operations

variable {w w' : World σ} {phase phase' : Phase}

theorem Synchronised.same (h : Synchronised w) (hpipeline : w'.conn.pipeline = w.conn.pipeline)
    (hlocal : w'.conn.pendingLocal = w.conn.pendingLocal) : Synchronised w' := by
  refine ⟨?_, ?_⟩
  · rw [hpipeline]
    exact h.wf
  · rw [hpipeline, hlocal]
    exact h.backed

theorem Synchronised.history {entries : List LedgerEntry} (h : Synchronised w)
    (hh : History Pipeline.Step w.conn.pipeline entries w'.conn.pipeline)
    (hlocal : w'.conn.pendingLocal = w.conn.pendingLocal)
    (hcalls : ∀ e ∈ entries, ∀ id message, e.input ≠ .emitLocal id message)
    (hstruck : ∀ e ∈ entries, ∀ o ∈ e.before.struck e.input,
      o.id ∉ waitingIds w.conn.pendingLocal) : Synchronised w' := by
  have hafter := h.backed.history hh h.wf hcalls hstruck
  refine ⟨hafter.1, ?_⟩
  rw [hlocal]
  exact hafter.2

variable {message : BackendMessage}

theorem Synchronised.backend (h : Synchronised w)
    (hstep : Pipeline.Step w.conn.pipeline (.backend message) reply w'.conn.pipeline)
    (hlocal : w'.conn.pendingLocal = w.conn.pendingLocal)
    (hstruck : ∀ o ∈ w.conn.pipeline.struck (.backend message),
      o.id ∉ waitingIds w.conn.pendingLocal) : Synchronised w' := by
  refine h.history (History.single hstep) hlocal ?_ ?_
  · intro e he id m
    rw [List.mem_singleton.1 he]
    exact fun heq => by cases heq
  · intro e he
    rw [List.mem_singleton.1 he]
    exact hstruck

/-- A local response of the front entry is taken off the queue and offered to the ledger. -/
theorem Synchronised.emit {operation : OperationId} {messages : List BackendMessage}
    {rest : List PendingLocalResponses} (h : Synchronised w)
    (hqueue : w.conn.pendingLocal = { operation, messages := message :: messages } :: rest)
    (hstep : Pipeline.Step w.conn.pipeline (.emitLocal operation message) reply w'.conn.pipeline)
    (hlocal : w'.conn.pendingLocal = { operation, messages } :: rest)
    (hstruck : ∀ o ∈ w.conn.pipeline.struck (.emitLocal operation message),
      o.id ∉ waitingIds ({ operation, messages } :: rest)) : Synchronised w' := by
  have hbacked := h.backed
  rw [hqueue] at hbacked
  refine ⟨h.wf.step hstep, ?_⟩
  rw [hlocal]
  exact hbacked.emit h.wf hstep hstruck

theorem QueueSafe.last {log : List (Record σ)} {r : Record σ}
    (hsafe : ∀ x ∈ log ++ [r], QueueSafe x) : QueueSafe r :=
  hsafe r (List.mem_append_right _ (List.mem_singleton.2 rfl))

/-- No step of an event strikes a record for which the queue holds responses. -/
theorem QueueSafe.avoids {r : Record σ} (h : QueueSafe r) {e : LedgerEntry}
    (he : e ∈ r.event.entries) :
    ∀ o ∈ e.before.struck e.input, o.id ∉ waitingIds r.before.pendingLocal :=
  fun o ho hmem => h.struck e he o ho (waitingIds_subset_waitingAt _ _ hmem)

theorem Synchronised.move (h : Synchronised w) (hmove : Move (w, phase) (w', phase'))
    (hsafe : ∀ r ∈ w'.log, QueueSafe r) : Synchronised w' := by
  -- Only the moves that call the ledger or touch the local queue have something to show.
  cases hmove with
  | respond s messages haccept haction =>
    have hrecord := QueueSafe.last hsafe
    refine ⟨h.wf.effect (h.wf.effect_frontend haccept), ?_⟩
    exact h.backed.respond h.wf haccept haction hrecord.answerable
      (hrecord.avoids (List.mem_singleton.2 rfl))
  | @commit _ number entries p hhistory hadmits =>
    have hrecord := QueueSafe.last hsafe
    refine h.history hhistory rfl ?_ fun e he => hrecord.avoids he
    intro e he id message heq
    rcases hadmits e he with ⟨m, admission, hinput, -⟩
    rw [hinput] at heq
    cases heq
  | suppressBackend _ hstep | project hstep | refuse hstep _ =>
    exact h.backend hstep rfl ((QueueSafe.last hsafe).avoids (List.mem_singleton.2 rfl))
  | @release _ messages entries p _ hlength hexec houtputs =>
    refine h.history (.of_exec _ hexec) rfl ?_ ?_
    · intro e he id message heq
      have hmem : e.input ∈ messages.map Call.backend := by
        rw [← exec_inputs hexec]
        exact List.mem_map_of_mem he
      rcases List.mem_map.1 hmem with ⟨m, -, hinput⟩
      rw [← hinput] at heq
      cases heq
    · intro e he
      rcases forall_released (fun r hr e he => (hsafe r hr).avoids he) hlength houtputs e he with
        ⟨r, hbefore, havoids⟩
      rw [hbefore] at havoids
      exact havoids
  | popEmpty hqueue =>
    refine ⟨h.wf, ?_⟩
    have hbacked := h.backed
    rw [hqueue] at hbacked
    exact hbacked
  | emitLocal hqueue hstep | dropLocal hqueue hstep =>
    exact h.emit hqueue hstep rfl ((QueueSafe.last hsafe).avoids (List.mem_singleton.2 rfl))
  | @deferLocal _ operation message messages rest p hqueue hstep =>
    have hbacked := h.backed
    rw [hqueue] at hbacked
    refine ⟨h.wf.step hstep, hbacked.step h.wf hstep (by rintro _ _ - _ ⟨⟩) ?_⟩
    -- The deferred response goes back to the front, so its own operation still waits.
    intro o ho hmem
    refine (QueueSafe.last hsafe).struck _ (List.mem_singleton.2 rfl) o ho ?_
    have hcases : o.id = operation ∨ o.id ∈ waitingIds rest := by
      simpa [waitingIds, PendingLocalResponses.waits] using hmem
    rcases hcases with hid | hrest
    · rw [hid]
      exact List.mem_cons_self
    · exact List.mem_cons_of_mem _ (waitingIds_cons_subset _ _ hrest)
  | wrote side count => exact h.same (by simp) (by simp)
  | _ => exact h.same rfl rfl

/-! ## Sessions -/

/-- Every operation for which responses are left is in the ledger, live and local, in the same order;
and a response is refused only when its operation is at the front of the ledger. -/
structure Deliverable (w : World σ) : Prop where
  live : (waitingIds w.conn.pendingLocal).Sublist
    ((w.conn.pipeline.operations.filter fun o =>
      decide (o.origin = .local) && !o.discarded).map Operation.id)
  refused : ∀ operation message messages rest error p,
    w.conn.pendingLocal = { operation, messages := message :: messages } :: rest →
    w.conn.pipeline.tryEmitLocal operation message = .ok (.error error, p) →
    w.conn.pipeline.operations.head?.map Operation.id = some operation

theorem Synchronised.live (h : Synchronised w) :
    (waitingIds w.conn.pendingLocal).Sublist
      ((w.conn.pipeline.operations.filter fun o =>
        decide (o.origin = .local) && !o.discarded).map Operation.id) := by
  rcases h.backed with ⟨ks, hks, hfits⟩
  have hids : waitingIds w.conn.pendingLocal = ks.map Prod.fst := map_operation_of_fits hfits
  rw [hids]
  refine (hks.map Prod.fst).trans ?_
  rw [owed, List.map_map]
  apply List.Sublist.map
  apply List.monotone_filter_right
  intro o howed
  simp only [Operation.isOwed, Operation.isInert, Bool.and_eq_true, Bool.not_eq_true',
    Bool.or_eq_false_iff] at howed
  simp [howed.1, howed.2.2]

/-- A local response is refused only by a ledger that is empty or has its operation at the front. -/
theorem tryEmitLocal_error {p p' : Pipeline} {id : OperationId} {error : BackendProjectionError}
    (h : p.tryEmitLocal id message = .ok (.error error, p')) (hops : p.operations ≠ []) :
    p.operations.head?.map Operation.id = some id := by
  cases hcons : p.operations with
  | nil => exact absurd hcons hops
  | cons head rest =>
    by_contra hfront
    have hid : head.id ≠ id := fun heq => hfront (by simp [heq])
    have hprepared : p.prepareResponse (some id) message = .asynchronous ∨
        p.prepareResponse (some id) message = .deferred := by
      by_cases hasync : isAsynchronous message
      · exact Or.inl (by simp [Pipeline.prepareResponse, hasync])
      · exact Or.inr (by simp [Pipeline.prepareResponse, hasync, hcons, hid])
    rcases hprepared with hprepared | hprepared <;>
      simp [Pipeline.tryEmitLocal, Pipeline.acceptResponse, hprepared, Pipeline.commitResponse] at h

/-- In every session in which local responses are queued for live records only, none but the last of
them ending its record, and in which no step of the ledger strikes a record for which responses wait:
every queued response stays deliverable. -/
theorem local_responses_deliverable {handlers : Handlers σ} {downstreamLimit upstreamLimit : Nat}
    {state : σ} {policy : PipelinePolicy} {limits : Option BackendHoldLimits}
    {h : List (Session.SessionEntry σ ε)} {w : World σ}
    (hr : Session.Run ε handlers
      (Connection.new downstreamLimit upstreamLimit state policy limits) h w)
    (hsafe : ∀ r ∈ w.log, QueueSafe r) : Deliverable w := by
  have hsync : Synchronised w :=
    hr.invariant_when QueueSafe (fun w _ => Synchronised w) hsafe
      ⟨Pipeline.wf_new policy, backed_nil _⟩ fun h hmove hcond => h.move hmove hcond
  refine ⟨hsync.live, ?_⟩
  intro operation message messages rest error p hqueue herror
  apply tryEmitLocal_error herror
  intro hempty
  have hlive := hsync.live
  rw [hqueue, hempty] at hlive
  simp [waitingIds, PendingLocalResponses.waits] at hlive

end LocalQueue

/-- The responses to a Describe wait for a forwarded Parse and are delivered after its response. -/
theorem local_responses_deliverable_describe :
    ∃ (h : List (Session.SessionEntry Unit Unit)) (w : World Unit),
      Session.Run Unit (Handlers.identity Unit) pipeliningConnection h w ∧
      w.conn.pendingLocal =
        [{ operation := 1, messages := [.parameterDescription [], .noData] }] ∧
      Deliverable w := by
  obtain ⟨h, w, hr, hqueue, hsafe⟩ := Session.exists_identity_run pipeliningConnection
      (fun _ w => w.conn.pendingLocal =
          [{ operation := 1, messages := [.parameterDescription [], .noData] }] ∧
        ∀ r ∈ w.log, r.event.answerable = true ∧ ∀ e ∈ r.event.entries,
          ∀ o ∈ e.before.struck e.input, o.id ∉ waitingAt r.before.pendingLocal e.input)
      [Session.sends (.parse ⟨[], [], []⟩) (.forward (.parse ⟨[], [], []⟩)),
       Session.sends (.describe ⟨.portal, []⟩)
         (.respond (.describe ⟨.portal, []⟩) [.parameterDescription [], .noData])]
      (by decide +kernel)
  have hsafe' : ∀ r ∈ w.log, QueueSafe r := fun r hr => ⟨(hsafe r hr).1, (hsafe r hr).2⟩
  exact ⟨h, w, hr, hqueue, local_responses_deliverable hr hsafe'⟩

/-- A Describe is answered locally behind a forwarded Parse.  The server's error for the Parse takes
the Describe out of the ledger: the flush fails and a response is left for an operation that is
gone. -/
theorem error_strands_local_response :
    ∃ (h : List (Session.SessionEntry Unit Unit)) (w : World Unit),
      Session.Run Unit (Handlers.identity Unit) pipeliningConnection h w ∧
      h.map (fun e => (e.input, e.output.hasFailed)) =
        [(.forwardFrontend, false), (.forwardFrontend, false), (.forwardBackend, true)] ∧
      w.conn.pendingLocal = [{ operation := 1, messages := [.noData] }] ∧
      w.conn.pipeline.operations = [] ∧ ¬Deliverable w := by
  obtain ⟨h, w, hr, hcalls, hqueue, hempty⟩ := Session.exists_identity_run pipeliningConnection
      (fun h w => h.map (fun e => (e.input, e.output.hasFailed)) =
          [(.forwardFrontend, false), (.forwardFrontend, false), (.forwardBackend, true)] ∧
        w.conn.pendingLocal = [{ operation := 1, messages := [.noData] }] ∧
        w.conn.pipeline.operations = [])
      [Session.sends (.parse ⟨[], [], []⟩) (.forward (.parse ⟨[], [], []⟩)),
       Session.sends (.describe ⟨.portal, []⟩)
         (.respond (.describe ⟨.portal, []⟩) [.parameterDescription [], .noData]),
       Session.returns (.errorResponse ⟨[]⟩) (.forward (.errorResponse ⟨[]⟩))
         .keepHolding] (by decide +kernel)
  refine ⟨h, w, hr, hcalls, hqueue, hempty, ?_⟩
  intro hdeliverable
  have hlive := hdeliverable.live
  rw [hqueue, hempty] at hlive
  simp [waitingIds, PendingLocalResponses.waits] at hlive

end PgProto
