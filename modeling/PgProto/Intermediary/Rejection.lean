import PgProto.Intermediary.Sessions
import PgProto.Pipeline.Rejections

/-!
# Rejection — a locally rejected pipeline

Boundary middleware rejects a request of the extended protocol by answering it with responses that
contain an ErrorResponse.  PostgreSQL would skip what the client sends after such a request up to the
next Sync.  The ledger does so once it has seen the error, which is when `flush_local_responses`
offers it.

* `Event.trace`, `inForce` — what a log says about rejections and the Syncs that end them;
* `Silent` — nothing accepted while a rejection is in force is forwarded;
* `Imminent` — the next local responses lead to an error;
* `rejected_pipeline_silent` — rejections hold in every session in which the call that takes the
  middleware's answer also reaches the error;
* `late_error_leaks` — a rejection whose error waits behind another response does not hold.
-/

namespace PgProto

open Lib
open Pipeline (LedgerEntry acceptsSync)

/-! ## Rejections in a log -/

/-- The middleware's answer rejects a request of the extended protocol. -/
def rejects (request : FrontendMessage) (responses : List BackendMessage) : Bool :=
  request.variant.isRejectable && responses.any fun m => decide (m.variant = .errorResponse)

/-- The steps of the ledger, with a mark `none` where the middleware rejects a request. -/
def Event.trace : Event → List (Option LedgerEntry)
  | .frontendAnswered _ (.respond request responses) =>
    if rejects request responses then [none] else []
  | event => event.entries.map some

def forceAfter (force : Bool) : Option LedgerEntry → Bool
  | none => true
  | some e => force && !acceptsSync e

/-- A request was rejected and no Sync has been accepted since. -/
def inForce (trace : List (Option LedgerEntry)) : Bool :=
  trace.foldl forceAfter false

/-- While a rejection is in force, the ledger forwards no client message but a Sync. -/
def Silent (trace : List (Option LedgerEntry)) : Prop :=
  ∀ before e after, trace = before ++ some e :: after → inForce before = true →
    acceptsSync e = false → forward? e = none

theorem inForce_snoc (trace : List (Option LedgerEntry)) (x : Option LedgerEntry) :
    inForce (trace ++ [x]) = forceAfter (inForce trace) x := by
  simp [inForce]

variable {trace : List (Option LedgerEntry)}

theorem Silent.snoc {x : Option LedgerEntry} (h : Silent trace)
    (hx : ∀ e, x = some e → inForce trace = true → acceptsSync e = false →
      forward? e = none) : Silent (trace ++ [x]) := by
  intro before e after heq hforce hsync
  rcases List.eq_nil_or_concat after with rfl | ⟨after', y, rfl⟩
  · have hsplit : trace = before ∧ x = some e := by
      simpa using List.append_inj' heq rfl
    rw [← hsplit.1] at hforce
    exact hx e hsplit.2 hforce hsync
  · have hsplit : trace = before ++ some e :: after' := by
      have heq' : trace ++ [x] = (before ++ some e :: after') ++ [y] := by simpa using heq
      exact (List.append_inj' heq' rfl).1
    exact h before e after' hsplit hforce hsync

/-! ## Steps of the ledger -/

/-- A step that a rejection survives: no response takes the front operation into COPY, and the
64-bit operation counter is not exhausted. -/
structure SafeStep (e : LedgerEntry) : Prop where
  copy : e.before.requestState = .extendedError → e.before.entersCopy e.input = false
  counter : e.output.isAdmission = true → e.before.nextId < u64Max

/-- What a step forwards in `ExtendedError`. -/
theorem forward?_extendedError {e : LedgerEntry} (hwf : e.before.Wf)
    (hstep : Pipeline.Step e.before e.input e.output e.after)
    (hstate : e.before.requestState = .extendedError) (hsync : acceptsSync e = false) :
    forward? e = none := by
  rcases e with ⟨p, call, reply, p'⟩
  have heffect := hwf.effect_of_step hstep
  cases reply with
  | backend result => rfl
  | frontend result =>
    cases result with
    | error error => rfl
    | ok admission =>
      cases call with
      | backend message | emitLocal id message => cases heffect
      | frontend message handling =>
        have hmessage : message.variant ≠ .sync := by
          simpa [acceptsSync] using hsync
        have hdiscard := heffect.discards hstate hmessage
        simp [forward?, hdiscard, FrontendAction.forwarded?]

/-- The ledger of a session, against the trace that led to it. -/
structure Quiet (trace : List (Option LedgerEntry)) (p : Pipeline) : Prop where
  wf : p.Wf
  ordered : p.Ordered
  silent : Silent trace

variable {p p' : Pipeline} {operation : OperationId} {queue : List PendingLocalResponses}
  {messages : List BackendMessage}

theorem Quiet.step {call : Call} {reply : Reply} (h : Quiet trace p)
    (hstep : Pipeline.Step p call reply p') (hsafe : SafeStep ⟨p, call, reply, p'⟩)
    (hquiet : inForce trace = true → acceptsSync ⟨p, call, reply, p'⟩ = false →
      forward? ⟨p, call, reply, p'⟩ = none) : Quiet (trace ++ [some ⟨p, call, reply, p'⟩]) p' := by
  have heffect := h.wf.effect_of_step hstep
  refine ⟨h.wf.effect heffect, h.ordered.effect heffect hsafe.counter, h.silent.snoc ?_⟩
  intro e he hforce hsync
  cases he
  exact hquiet hforce hsync

/-- Steps of the ledger while every rejection in force has taken it into `ExtendedError`. -/
theorem Quiet.history {entries : List LedgerEntry} (hh : History Pipeline.Step p entries p')
    (h : Quiet trace p) (hforce : inForce trace = true → p.requestState = .extendedError)
    (hsafe : ∀ e ∈ entries, SafeStep e) :
    Quiet (trace ++ entries.map some) p' ∧
      (inForce (trace ++ entries.map some) = true → p'.requestState = .extendedError) := by
  induction hh with
  | nil => exact ⟨by simpa using h, by simpa using hforce⟩
  | @snoc entries s s' i o _ hstep ih =>
    rcases ih fun e he => hsafe e (by simp [he]) with ⟨hquiet, hstate⟩
    have hlast : SafeStep ⟨s, i, o, s'⟩ := hsafe ⟨s, i, o, s'⟩ (by simp)
    have htrace : trace ++ (entries ++ [Entry.mk s i o s']).map some =
        (trace ++ entries.map some) ++ [some ⟨s, i, o, s'⟩] := by simp
    rw [htrace]
    refine ⟨hquiet.step hstep hlast ?_, ?_⟩
    · intro hopen hsync
      exact forward?_extendedError hquiet.wf hstep (hstate hopen) hsync
    · intro hopen
      rw [inForce_snoc] at hopen
      have hcases : inForce (trace ++ entries.map some) = true ∧
          acceptsSync ⟨s, i, o, s'⟩ = false := by
        simpa [forceAfter] using hopen
      have heffect := hquiet.wf.effect_of_step hstep
      rcases heffect.extendedError (hstate hcases.1) (hlast.copy (hstate hcases.1)) with hsync | hnext
      · rw [hcases.2] at hsync
        cases hsync
      · exact hnext

/-! ## On the way to an error -/

/-- The first local responses that are left lead to an error. -/
def Imminent (p : Pipeline) (queue : List PendingLocalResponses) : Prop :=
  ∃ sent pending rest, queue = sent ++ pending :: rest ∧ (∀ e ∈ sent, e.messages = []) ∧
    p.AboutToReject pending.operation pending.messages

theorem Imminent.skip (h : Imminent p ({ operation, messages := [] } :: queue)) :
    Imminent p queue := by
  rcases h with ⟨sent, pending, rest, hqueue, hsent, hreject⟩
  rcases sent with _ | ⟨e, sent⟩
  · cases hqueue
    exact absurd rfl hreject.ne_nil
  · cases hqueue
    exact ⟨sent, pending, rest, rfl, fun x hx => hsent x (List.mem_cons_of_mem _ hx), hreject⟩

theorem Imminent.front {message : BackendMessage}
    (h : Imminent p ({ operation, messages := message :: messages } :: queue)) :
    p.AboutToReject operation (message :: messages) := by
  rcases h with ⟨sent, pending, rest, hqueue, hsent, hreject⟩
  rcases sent with _ | ⟨e, sent⟩
  · cases hqueue
    exact hreject
  · cases hqueue
    cases hsent _ List.mem_cons_self

theorem AboutToReject.imminent (h : p.AboutToReject operation messages)
    (rest : List PendingLocalResponses) : Imminent p ({ operation, messages } :: rest) :=
  ⟨[], { operation, messages }, rest, rfl, fun _ he => absurd he List.not_mem_nil, h⟩

/-- The phases of `flush_local_responses`. -/
inductive FlushPhase : Phase → Prop
  | flushing : FlushPhase .flushing
  | sending {message} : FlushPhase (.sendingDown [(none, message)] 0 0)
  | writing : FlushPhase (.writingDown [] 0 0)
  | written : FlushPhase (.projecting 0 0)

/-- `prepare_frontend` takes the request. -/
def Pipeline.admits (p : Pipeline) (request : FrontendMessage) : Bool :=
  match p.prepareFrontend request with
  | .ok (.ok _) => true
  | _ => false

theorem Pipeline.not_refused_of_admits {request : FrontendMessage} {handling : FrontendHandling}
    {error : FrontendProjectionError} (hadmits : p.admits request = true) :
    p.acceptFrontend request handling ≠ .ok (.error error, p') := by
  intro hrefused
  unfold Pipeline.admits at hadmits
  unfold Pipeline.acceptFrontend at hrefused
  split at hadmits
  · next prepared hprepared =>
      rw [hprepared] at hrefused
      dsimp only at hrefused
      split at hrefused
      · cases hrefused
      · cases hrefused
  · cases hadmits

section Rejection

variable {σ ε : Type}

/-- What a rejection in force has come to. -/
inductive Forced (w : World σ) : Phase → Prop
  | error {phase} : w.conn.pipeline.requestState = .extendedError → Forced w phase
  | answered {number request responses} : rejects request responses = true →
      w.conn.pipeline.admits request = true →
      Forced w (.answered number (.respond request responses))
  | flushing {phase} : FlushPhase phase → Imminent w.conn.pipeline w.conn.pendingLocal →
      Forced w phase

/-- Outside the phases on the way to an error. -/
def Phase.isPassive : Phase → Bool
  | .answered _ (.respond _ _) | .projecting _ 0 | .sendingDown _ _ _ | .writingDown _ _ _
  | .flushing => false
  | _ => true

theorem Forced.passive {w : World σ} {phase : Phase} (h : Forced w phase)
    (hpassive : phase.isPassive = true) : w.conn.pipeline.requestState = .extendedError := by
  cases h with
  | error hstate => exact hstate
  | answered _ _ => cases hpassive
  | flushing hphase _ => cases hphase <;> cases hpassive

/-- The call that takes the middleware's rejection also reaches the error. -/
def RejectsInTime (r : Record σ) : Prop :=
  match r.event with
  | .frontendAnswered _ (.respond request responses) => rejects request responses = true →
      r.before.pipeline.requestState = .extendedError ∨ r.before.pipeline.admits request = true
  | .queued _ ⟨p, .frontend request _, _, _⟩ responses messages =>
    rejects request responses = true → p.requestState = .extendedError ∨
      ((∀ pending ∈ r.before.pendingLocal, pending.messages = []) ∧
        p.rejectsAtOnce request messages = true)
  | .sentDownstream _ message => r.before.pipeline.requestState ≠ .extendedError →
      Imminent r.before.pipeline r.before.pendingLocal →
      ∃ bytes, message.encode r.before.downstream.maxFrameLen = .ok bytes
  | .interrupted (.write .downstream _) | .interrupted (.flush .downstream _) =>
    r.before.pipeline.requestState ≠ .extendedError →
    ¬Imminent r.before.pipeline r.before.pendingLocal
  | _ => True

structure RejectSafe (r : Record σ) : Prop where
  inTime : RejectsInTime r
  steps : ∀ e ∈ r.event.entries, SafeStep e

structure Rejection (w : World σ) (phase : Phase) : Prop where
  quiet : Quiet (gather Event.trace w.log) w.conn.pipeline
  force : inForce (gather Event.trace w.log) = true → Forced w phase

variable {w w' : World σ} {phase phase' : Phase}

theorem Rejection.same (h : Rejection w phase) (hpipeline : w'.conn.pipeline = w.conn.pipeline)
    (htrace : gather Event.trace w'.log = gather Event.trace w.log)
    (hforced : Forced w phase → Forced w' phase') : Rejection w' phase' := by
  refine ⟨?_, ?_⟩
  · rw [htrace, hpipeline]
    exact h.quiet
  · rw [htrace]
    exact fun hforce => hforced (h.force hforce)

/-- The call is not about to queue a rejection: one in force is in the ledger or being flushed. -/
theorem Rejection.flush (h : Rejection w phase) (hpipeline : w'.conn.pipeline = w.conn.pipeline)
    (htrace : gather Event.trace w'.log = gather Event.trace w.log)
    (hphase : ∀ number output, phase ≠ .answered number output)
    (hflush : FlushPhase phase → Imminent w.conn.pipeline w.conn.pendingLocal →
      Forced w' phase') : Rejection w' phase' := by
  refine h.same hpipeline htrace ?_
  intro hforced
  cases hforced with
  | error hstate => exact .error (hpipeline ▸ hstate)
  | answered _ _ => exact absurd rfl (hphase _ _)
  | flushing hphase himminent => exact hflush hphase himminent

/-- The ledger advances while every rejection in force has taken it into `ExtendedError`. -/
theorem Rejection.history {entries : List LedgerEntry} (h : Rejection w phase)
    (hh : History Pipeline.Step w.conn.pipeline entries w'.conn.pipeline)
    (htrace : gather Event.trace w'.log = gather Event.trace w.log ++ entries.map some)
    (hsafe : ∀ e ∈ entries, SafeStep e)
    (herror : Forced w phase → w.conn.pipeline.requestState = .extendedError) :
    Rejection w' phase' := by
  have hafter := h.quiet.history hh (fun hforce => herror (h.force hforce)) hsafe
  rw [← htrace] at hafter
  exact ⟨hafter.1, fun hforce => .error (hafter.2 hforce)⟩

variable {messages : List BackendMessage}

theorem Rejection.offer {operation : OperationId} {message : BackendMessage}
    {rest : List PendingLocalResponses} {result : Except BackendProjectionError BackendAction}
    (h : Rejection w .flushing)
    (hqueue : w.conn.pendingLocal = { operation, messages := message :: messages } :: rest)
    (hstep : Pipeline.Step w.conn.pipeline (.emitLocal operation message) (.backend result)
      w'.conn.pipeline) (htrace : gather Event.trace w'.log = gather Event.trace w.log ++
      [some ⟨w.conn.pipeline, .emitLocal operation message, .backend result, w'.conn.pipeline⟩])
    (hsafe : SafeStep
      ⟨w.conn.pipeline, .emitLocal operation message, .backend result, w'.conn.pipeline⟩)
    (hemitted : result = .ok (.emit message) →
      w'.conn.pendingLocal = { operation, messages } :: rest ∧ FlushPhase phase') :
    Rejection w' phase' := by
  refine ⟨?_, ?_⟩
  · rw [htrace]
    exact h.quiet.step hstep hsafe fun _ _ => rfl
  · rw [htrace, inForce_snoc]
    intro hforce
    have hopen : inForce (gather Event.trace w.log) = true := by
      simpa [forceAfter, acceptsSync] using hforce
    -- Either the error has been projected, or this response brings it nearer.
    cases h.force hopen with
    | error hstate =>
      have heffect := h.quiet.wf.effect_of_step hstep
      rcases heffect.extendedError hstate (hsafe.copy hstate) with hsync | hnext
      · cases hsync
      · exact .error hnext
    | flushing _ himminent =>
      rw [hqueue] at himminent
      rcases h.quiet.wf.aboutToReject_step himminent.front hstep with hstate | ⟨hreply, habout⟩
      · exact .error hstate
      · have hresult : result = .ok (.emit message) := Reply.backend.inj hreply
        rcases hemitted hresult with ⟨hlocal, hphase⟩
        refine .flushing hphase ?_
        rw [hlocal]
        exact AboutToReject.imminent habout rest

theorem Rejection.respond {number : Nat} {request : FrontendMessage}
    {responses : List BackendMessage} {admission : FrontendAdmission} {id : OperationId}
    (h : Rejection w (.answered number (.respond request responses)))
    (haccept : w.conn.pipeline.acceptFrontend request .local = .ok (.ok admission, w'.conn.pipeline))
    (haction : admission.intoAction = .discard id)
    (htrace : gather Event.trace w'.log = gather Event.trace w.log ++
      [some ⟨w.conn.pipeline, .frontend request .local, .frontend (.ok admission),
        w'.conn.pipeline⟩])
    (hsafe : SafeStep ⟨w.conn.pipeline, .frontend request .local, .frontend (.ok admission),
      w'.conn.pipeline⟩)
    (hlocal : w'.conn.pendingLocal = w.conn.pendingLocal ++ [{ operation := id, messages }])
    (hinTime : rejects request responses = true →
      w.conn.pipeline.requestState = .extendedError ∨
        ((∀ pending ∈ w.conn.pendingLocal, pending.messages = []) ∧
          w.conn.pipeline.rejectsAtOnce request messages = true)) : Rejection w' .flushing := by
  have heffect := h.quiet.wf.effect_frontend haccept
  have hstep : Pipeline.Step w.conn.pipeline (.frontend request .local)
      (.frontend (.ok admission)) w'.conn.pipeline := by
    simp [Pipeline.Step, Calls, Pipeline.call, haccept, Except.map]
  have hid : id = w.conn.pipeline.nextId :=
    FrontendAction.discard.inj (haction.symm.trans heffect.local_action)
  refine ⟨?_, ?_⟩
  · rw [htrace]
    refine h.quiet.step hstep hsafe fun _ _ => ?_
    simp [forward?, haction, FrontendAction.forwarded?]
  · rw [htrace, inForce_snoc]
    intro hforce
    have hopen : inForce (gather Event.trace w.log) = true ∧ acceptsSync
        ⟨w.conn.pipeline, .frontend request .local, .frontend (.ok admission),
          w'.conn.pipeline⟩ = false := by
      simpa [forceAfter] using hforce
    have herror : w.conn.pipeline.requestState = .extendedError → Forced w' .flushing := by
      intro hstate
      rcases heffect.extendedError hstate (hsafe.copy hstate) with hsync | hnext
      · rw [hopen.2] at hsync
        cases hsync
      · exact .error hnext
    cases h.force hopen.1 with
    | error hstate => exact herror hstate
    | flushing hphase _ => cases hphase
    | answered hrejects _ =>
      by_cases hstate : w.conn.pipeline.requestState = .extendedError
      · exact herror hstate
      · rcases hinTime hrejects with hstate' | ⟨hempty, honce⟩
        · exact absurd hstate' hstate
        · have hrequest : request.variant.isRejectable = true := by
            simp only [rejects, Bool.and_eq_true] at hrejects
            exact hrejects.1
          have habout := h.quiet.wf.aboutToReject_accepted h.quiet.ordered haccept hrequest hstate
            honce
          refine .flushing .flushing ⟨w.conn.pendingLocal, _, [], hlocal, hempty, ?_⟩
          rw [← hid] at habout
          exact habout

theorem Rejection.answer {number : Nat} {output : FrontendMiddlewareOutput}
    (h : Rejection w (.deciding number))
    (hinTime : RejectsInTime
      { before := w.conn, event := .frontendAnswered number output }) :
    Rejection (w.logged (.frontendAnswered number output)) (.answered number output) := by
  have hkept : (Event.frontendAnswered number output).trace = [] →
      Rejection (w.logged (.frontendAnswered number output)) (.answered number output) := by
    intro htrace
    exact h.same rfl (by simp [htrace]) fun hforced => .error (hforced.passive rfl)
  cases output with
  | respond request responses =>
    by_cases hrejects : rejects request responses = true
    · have htrace : gather Event.trace
          (w.logged (.frontendAnswered number (.respond request responses))).log =
          gather Event.trace w.log ++ [none] := by
        simp [Event.trace, hrejects]
      refine ⟨⟨h.quiet.wf, h.quiet.ordered, ?_⟩, ?_⟩
      · rw [htrace]
        exact h.quiet.silent.snoc fun e he => by cases he
      · intro _
        rcases hinTime hrejects with hstate | hadmits
        · exact .error hstate
        · exact .answered hrejects hadmits
    · exact hkept (by simp [Event.trace, hrejects])
  | forward message | forwardThenFlush message | suppress message => exact hkept rfl

attribute [local simp] Event.entries

theorem Rejection.interrupt {request : Request} (h : Rejection w phase)
    (hsuspended : Suspended request phase)
    (hinTime : RejectsInTime { before := w.conn, event := .interrupted request }) :
    Rejection (w.logged (.interrupted request)) .idle := by
  refine h.same rfl (by simp [Event.trace]) ?_
  intro hforced
  -- Only the awaits of a downstream write find the call on its way to an error.
  cases hforced with
  | error hstate => exact .error hstate
  | answered _ _ => cases hsuspended
  | flushing hphase himminent =>
    by_cases hstate : w.conn.pipeline.requestState = .extendedError
    · exact .error hstate
    · cases hphase with
      | flushing | sending | written => cases hsuspended
      | writing =>
        cases hsuspended with
        | writeDown | flushDown => exact absurd himminent (hinTime hstate)

theorem RejectSafe.last {log : List (Record σ)} {r : Record σ}
    (hsafe : ∀ x ∈ log ++ [r], RejectSafe x) : RejectSafe r :=
  hsafe r (List.mem_append_right _ (List.mem_singleton.2 rfl))

theorem Rejection.move (h : Rejection w phase) (hmove : Move (w, phase) (w', phase'))
    (hsafe : ∀ r ∈ w'.log, RejectSafe r) : Rejection w' phase' := by
  -- The rejection is taken, queued, flushed; in between the phase says how far the call has come.
  cases hmove with
  | answer output => exact h.answer (RejectSafe.last hsafe).inTime
  | interrupt hsuspended => exact h.interrupt hsuspended (RejectSafe.last hsafe).inTime
  | respond s messages haccept haction =>
    have hrecord := RejectSafe.last hsafe
    exact h.respond haccept haction (by simp [Event.trace])
      (hrecord.steps _ (List.mem_singleton.2 rfl)) rfl hrecord.inTime
  | refuseLocal hrefused =>
    refine h.same rfl (by simp [Event.trace]) ?_
    intro hforced
    cases hforced with
    | error hstate => exact .error hstate
    | answered _ hadmits => exact absurd hrefused (Pipeline.not_refused_of_admits hadmits)
    | flushing hphase _ => cases hphase
  -- In the phases of these calls a rejection in force has taken the ledger into `ExtendedError`.
  | commit hhistory _ =>
    have hrecord := RejectSafe.last hsafe
    exact h.history hhistory (by simp [Event.trace]) hrecord.steps
      fun hforced => hforced.passive rfl
  | suppressBackend _ hstep | project hstep | refuse hstep _ =>
    have hrecord := RejectSafe.last hsafe
    exact h.history (History.single hstep) (by simp [Event.trace]) hrecord.steps
      fun hforced => hforced.passive rfl
  | @release _ messages entries p _ hlength hexec houtputs =>
    refine h.history (.of_exec _ hexec) ?_ ?_ fun hforced => hforced.passive rfl
    · have hentries := entries_releasedEvents (length_released hlength houtputs)
      rw [flatMap_releasedEvents] at hentries
      have htrace : (releasedEvents (w.conn.backendHold.held.map Receipt.number) entries).flatMap
          Event.trace = entries.map some := by
        rw [flatMap_releasedEvents]
        conv => rhs; rw [← hentries, List.map_flatMap]
        rfl
      simp [htrace]
    · intro e he
      rcases forall_released (fun r hr e he => (hsafe r hr).steps e he) hlength houtputs e he with
        ⟨_, -, hstep⟩
      exact hstep
  -- A response of the queue is offered; whatever the ledger says, the call is still flushing.
  | emitLocal hqueue hstep =>
    have hrecord := RejectSafe.last hsafe
    exact h.offer hqueue hstep (by simp [Event.trace])
      (hrecord.steps _ (List.mem_singleton.2 rfl)) fun _ => ⟨rfl, .sending⟩
  | deferLocal hqueue hstep | dropLocal hqueue hstep =>
    have hrecord := RejectSafe.last hsafe
    exact h.offer hqueue hstep (by simp [Event.trace])
      (hrecord.steps _ (List.mem_singleton.2 rfl)) fun hresult => by cases hresult
  | popEmpty hqueue =>
    refine h.flush rfl rfl nofun ?_
    intro _ himminent
    rw [hqueue] at himminent
    exact .flushing .flushing himminent.skip
  | endFlush hqueue =>
    -- A rejection that is still imminent has its entry in the queue.
    refine h.flush rfl rfl nofun ?_
    rintro _ ⟨sent, pending, rest, hsplit, -⟩
    rw [hqueue] at hsplit
    simp at hsplit
  | sendDown _ =>
    refine h.flush rfl (by simp [Event.trace]) nofun ?_
    rintro ⟨⟩ himminent
    exact .flushing .writing himminent
  | unencodableDown hencode =>
    -- The call would end here, with the error still in the queue.
    have hrecord := RejectSafe.last hsafe
    refine h.flush rfl (by simp [Event.trace]) nofun ?_
    intro _ himminent
    by_cases hstate : w.conn.pipeline.requestState = .extendedError
    · exact .error hstate
    · rcases hrecord.inTime hstate himminent with ⟨bytes, hok⟩
      have hencode' := hencode.symm.trans hok
      cases hencode'
  | nextOutput =>
    refine h.flush rfl rfl nofun ?_
    rintro ⟨⟩ himminent
    exact .flushing .written himminent
  | endOutputs =>
    exact h.flush rfl rfl nofun fun _ himminent => .flushing .flushing himminent
  | state s =>
    refine h.same rfl rfl ?_
    intro hforced
    cases hforced with
    | error hstate => exact .error hstate
    | answered hrejects hadmits => exact .answered hrejects hadmits
    | flushing hphase himminent => exact .flushing hphase himminent
  | wrote side count =>
    refine h.same (by simp) rfl ?_
    intro hforced
    cases hforced with
    | error hstate => exact .error (by simpa using hstate)
    | answered hrejects hadmits => exact .answered hrejects (by simpa using hadmits)
    | flushing hphase himminent => exact .flushing hphase (by simpa using himminent)
  | nextDown hunsent =>
    refine h.flush rfl rfl nofun ?_
    rintro ⟨⟩ _
    exact absurd rfl hunsent
  | _ =>
    exact h.same rfl (by simp [Event.trace]) fun hforced =>
      .error (hforced.passive rfl)

/-! ## Sessions -/

/-- In every session in which the call that takes a rejection also reaches its error, and in which no
response takes the ledger out of `ExtendedError`: the ledger forwards no client message it accepts
after a rejection and before the next Sync, and what is sent upstream is what the ledger forwards. -/
theorem rejected_pipeline_silent {handlers : Handlers σ} {downstreamLimit upstreamLimit : Nat}
    {state : σ} {policy : PipelinePolicy} {limits : Option BackendHoldLimits}
    {h : List (Session.SessionEntry σ ε)} {w : World σ}
    (hr : Session.Run ε handlers
      (Connection.new downstreamLimit upstreamLimit state policy limits) h w)
    (hsafe : ∀ r ∈ w.log, RejectSafe r) :
    Silent (gather Event.trace w.log) ∧
      (gather Event.sentUp w.log).Sublist (gather Event.forwards w.log) := by
  have hnew : Rejection
      (World.new (Connection.new downstreamLimit upstreamLimit state policy limits)) .idle := by
    refine ⟨⟨Pipeline.wf_new policy, Pipeline.ordered_new policy, ?_⟩, fun hforce => by cases hforce⟩
    intro before e after heq
    exact absurd heq (by simp [World.new])
  have hrejection : Rejection w .idle :=
    hr.invariant_when RejectSafe Rejection hsafe hnew fun h hmove hcond => h.move hmove hcond
  exact ⟨hrejection.quiet.silent, hr.sends⟩

/-- A record of a session in which no call ends early and everything is encoded. -/
def Record.completes (r : Record σ) : Bool :=
  match r.event with
  | .frontendAnswered _ (.respond request responses) =>
    !rejects request responses || r.before.pipeline.admits request
  | .queued _ ⟨p, .frontend request _, _, _⟩ responses messages =>
    !rejects request responses ||
      r.before.pendingLocal.all (fun pending => pending.messages.isEmpty) &&
        p.rejectsAtOnce request messages
  | .sentDownstream _ message => (message.encode r.before.downstream.maxFrameLen).isOk
  | .interrupted _ => false
  | _ => true

theorem rejectsInTime_of_completes {r : Record σ} (h : r.completes = true) : RejectsInTime r := by
  rcases r with ⟨before, event⟩
  cases event with
  | frontendAnswered number output =>
    cases output with
    | respond request responses =>
      intro hrejects
      have hadmits : before.pipeline.admits request = true := by
        simpa [Record.completes, hrejects] using h
      exact Or.inr hadmits
    | _ => trivial
  | queued number entry responses messages =>
    rcases entry with ⟨p, call, reply, p'⟩
    cases call with
    | frontend request handling =>
      intro hrejects
      have honce : (∀ pending ∈ before.pendingLocal, pending.messages = []) ∧
          p.rejectsAtOnce request messages = true := by
        simpa [Record.completes, hrejects] using h
      exact Or.inr honce
    | _ => trivial
  | sentDownstream source message =>
    intro _ _
    cases hencode : message.encode before.downstream.maxFrameLen with
    | ok bytes => exact ⟨bytes, rfl⟩
    | error error => simp [Record.completes, hencode, Except.isOk, Except.toBool] at h
  | interrupted request => cases h
  | _ => trivial

end Rejection

/-- A Bind is rejected behind a forwarded Parse: the Execute after it stays here, the Sync goes on. -/
theorem rejected_pipeline_silent_bind :
    ∃ (h : List (Session.SessionEntry Unit Unit)) (w : World Unit),
      Session.Run Unit (Handlers.identity Unit) pipeliningConnection h w ∧
      h.map Entry.input =
        [.forwardFrontend, .forwardFrontend, .forwardFrontend, .forwardFrontend] ∧
      (gather Event.sentUp w.log).map (fun sent => sent.2.2) = [.parse ⟨[], [], []⟩, .sync] ∧
      Silent (gather Event.trace w.log) := by
  obtain ⟨h, w, hr, hcalls, hsent, hsafe⟩ := Session.exists_identity_run pipeliningConnection
      (fun h w => h.map Entry.input =
          [.forwardFrontend, .forwardFrontend, .forwardFrontend, .forwardFrontend] ∧
        (gather Event.sentUp w.log).map (fun sent => sent.2.2) = [.parse ⟨[], [], []⟩, .sync] ∧
        ∀ r ∈ w.log, r.completes = true ∧ ∀ e ∈ r.event.entries,
          (e.before.requestState = .extendedError → e.before.entersCopy e.input = false) ∧
          (e.output.isAdmission = true → e.before.nextId < u64Max))
      [Session.sends (.parse ⟨[], [], []⟩) (.forward (.parse ⟨[], [], []⟩)),
       Session.sends (.bind ⟨[], [], [], [], []⟩)
         (.respond (.bind ⟨[], [], [], [], []⟩) [.errorResponse ⟨[]⟩]),
       Session.sends (.execute ⟨[], 0⟩) (.forward (.execute ⟨[], 0⟩)),
       Session.sends .sync (.forward .sync)]
      (by decide +kernel)
  have hsafe' : ∀ r ∈ w.log, RejectSafe r := by
    intro r hr
    refine ⟨rejectsInTime_of_completes (hsafe r hr).1, ?_⟩
    intro e he
    exact ⟨((hsafe r hr).2 e he).1, ((hsafe r hr).2 e he).2⟩
  exact ⟨h, w, hr, hcalls, hsent, (rejected_pipeline_silent hr hsafe').1⟩

/-- A Describe is rejected behind a forwarded Parse with an error that follows another response.  The
first response is deferred, the ledger does not see the error, and the Execute that follows is sent
to the server. -/
theorem late_error_leaks :
    ∃ (h : List (Session.SessionEntry Unit Unit)) (w : World Unit),
      Session.Run Unit (Handlers.identity Unit) pipeliningConnection h w ∧
      h.map (fun e => (e.input, e.output.hasFailed)) =
        [(.forwardFrontend, false), (.forwardFrontend, false), (.forwardFrontend, false)] ∧
      (gather Event.sentUp w.log).map (fun sent => sent.2.2) =
        [.parse ⟨[], [], []⟩, .execute ⟨[], 0⟩] ∧
      inForce (gather Event.trace w.log) = true ∧ ¬Silent (gather Event.trace w.log) := by
  obtain ⟨h, w, hr, hcalls, hsent, hforce, hbefore, hlast⟩ :=
      Session.exists_identity_run pipeliningConnection
      (fun h w => h.map (fun e => (e.input, e.output.hasFailed)) =
          [(.forwardFrontend, false), (.forwardFrontend, false), (.forwardFrontend, false)] ∧
        (gather Event.sentUp w.log).map (fun sent => sent.2.2) =
          [.parse ⟨[], [], []⟩, .execute ⟨[], 0⟩] ∧
        inForce (gather Event.trace w.log) = true ∧
        inForce (gather Event.trace w.log).dropLast = true ∧
        ((gather Event.trace w.log).getLast?.bind id).any
          (fun e => !acceptsSync e && (forward? e).isSome) = true)
      [Session.sends (.parse ⟨[], [], []⟩) (.forward (.parse ⟨[], [], []⟩)),
       Session.sends (.describe ⟨.portal, []⟩)
         (.respond (.describe ⟨.portal, []⟩) [.parameterDescription [], .errorResponse ⟨[]⟩]),
       Session.sends (.execute ⟨[], 0⟩) (.forward (.execute ⟨[], 0⟩))]
      (by decide +kernel)
  refine ⟨h, w, hr, hcalls, hsent, hforce, ?_⟩
  intro hsilent
  rcases (Option.any_eq_true _ _).1 hlast with ⟨e, he, hleak⟩
  rcases Option.bind_eq_some_iff.1 he with ⟨x, hx, rfl⟩
  have hsplit := List.dropLast_append_getLast? _ hx
  simp only [Bool.and_eq_true, Bool.not_eq_true'] at hleak
  have hnone := hsilent _ e [] hsplit.symm hbefore hleak.1
  rw [hnone] at hleak
  cases hleak.2

end PgProto
