import PgProto.Intermediary.Connection
import PgProto.Lib.Interleave
import PgProto.Pipeline.Panics

/-!
# Holding — a held span passes client messages unobserved

A connection may hold server messages back while it goes on admitting client messages.  Held are
messages that are no batch barrier, and those never touch the request state or the end of the queue;
client messages in turn leave alone the record that such a message advances.  So the two kinds of
calls commute, and a held span may be released at any later point.

* `Pipeline.Emits`, `Pipeline.Takes` — the two step relations, the second without the capacity test;
* `Pipeline.commute_holdable` — the local diamond;
* `Pipeline.holding_unobservable` — every interleaving is accepted, with the same results.
-/

namespace PgProto

open Backend (RuntimeState respond request)
open Lib
open Operation (admitted advance isInert strip)

/-! ## Phases of COPY BOTH -/

def isCopyBothState : RuntimeState → Bool
  | .simpleCopyBoth | .simpleCopyBothClientDone | .simpleCopyBothServerDone | .simpleCopyBothDone
  | .simpleCopyBothFailed | .extendedCopyBoth | .extendedCopyBothClientDone
  | .extendedCopyBothServerDone | .extendedCopyBothDone | .extendedCopyBothFailed => true
  | _ => false

theorem initialResponseState_not_copyBoth (kind : OperationKind) :
    isCopyBothState (initialResponseState kind) = false := by
  cases kind <;> rfl

/-- CopyBothResponse is the only way into COPY BOTH. -/
theorem respond_not_copyBoth {state next : RuntimeState} {message : BackendVariant}
    (hstep : respond state message = some next) (hstate : isCopyBothState state = false)
    (hmessage : message ≠ .copyBothResponse) : isCopyBothState next = false := by
  revert hstate hmessage
  exact Backend.respond_rule (by decide +kernel) hstep

theorem advance_not_copyBoth {o : Operation} (message : FrontendVariant)
    (hstate : isCopyBothState o.responseState = false) :
    isCopyBothState (o.advance message).responseState = false := by
  unfold advance
  cases hstep : request o.responseState message with
  | none => simpa using hstate
  | some next =>
    have hkeeps : isCopyBothState o.responseState = false → isCopyBothState next = false :=
      Backend.request_rule (by decide +kernel) hstep
    simpa using hkeeps hstate

/-- Outside COPY BOTH, a message that is no barrier is answered in a phase without COPY IN and leads
to one. -/
theorem respond_holdable {state next : RuntimeState} {message : BackendMessage}
    (hstep : respond state message.variant = some next)
    (hhold : isBackendBatchBarrier message = false) (hstate : isCopyBothState state = false) :
    isPlain state = true ∧ isPlain next = true := by
  have hother : [BackendVariant.commandComplete, .errorResponse, .copyInResponse,
      .copyBothResponse].contains message.variant = false := by
    revert hhold
    unfold isBackendBatchBarrier
    cases message.variant <;> decide
  revert hstate hother
  exact Backend.respond_rule (by decide +kernel) hstep

/-! ## Outcomes -/

/-- What a call brought about: an emitted message, or the action of an accepted one. -/
def Reply.outcome : Reply → Option (BackendMessage ⊕ FrontendAction)
  | .backend (.ok (.emit message)) => some (.inl message)
  | .frontend (.ok admission) => some (.inr admission.intoAction)
  | _ => none

variable {reply : Reply}

theorem Reply.outcome_eq_inl {message : BackendMessage} (h : reply.outcome = some (.inl message)) :
    reply = .backend (.ok (.emit message)) := by
  rcases reply with (_ | _) | (_ | (emitted | _)) <;> cases h
  rfl

theorem Reply.outcome_eq_inr {action : FrontendAction} (h : reply.outcome = some (.inr action)) :
    ∃ admission, reply = .frontend (.ok admission) ∧ admission.intoAction = action := by
  rcases reply with (_ | admission) | (_ | (_ | _)) <;> cases h
  exact ⟨admission, rfl, rfl⟩

/-- The calls of an interleaving: a server message, or a client message to be forwarded. -/
def heldCall : BackendMessage ⊕ FrontendMessage → Call
  | .inl message => .backend message
  | .inr message => .frontend message .forward

namespace Pipeline

/-! ## Ledgers without COPY BOTH -/

/-- A well-formed ledger outside COPY BOTH. -/
structure Calm (p : Pipeline) : Prop where
  wf : p.Wf
  request : p.requestState ≠ .copyBoth
  front : ∀ {o os}, p.operations = o :: os → isCopyBothState o.responseState = false

theorem calm_new (policy : PipelinePolicy) : (new policy).Calm where
  wf := wf_new policy
  request := by
    intro h
    cases h
  front := by
    intro o os h
    cases h

variable {state : RequestState} {p p' q : Pipeline} {message : BackendMessage} {head : Operation}
  {rest : List Operation} {h : List LedgerEntry} {taken : FrontendMessage × FrontendAction}
  {w : List (BackendMessage ⊕ FrontendMessage × FrontendAction)}

theorem classifyFrontend_ne_copyBoth {next : RequestState} {message : FrontendVariant}
    {kind : OperationKind} (h : classifyFrontend state message = .ok (some (kind, next)))
    (hstate : state ≠ .copyBoth) : next ≠ .copyBoth := by
  rintro rfl
  cases state <;> cases message <;> first | exact hstate rfl | cases h

theorem copyRequest_ne_copyBoth {next : RuntimeState} (hnext : isCopyBothState next = false)
    (hstate : state ≠ .copyBoth) : copyRequest next state ≠ .copyBoth := by
  cases next <;> first | cases hnext; done | exact hstate | simp [copyRequest, responseCopyState]

theorem Calm.of_accepted (hcalm : p.Calm) {message : FrontendMessage} {handling : FrontendHandling}
    {kind : OperationKind} {next : RequestState}
    (hclass : classifyFrontend p.requestState message.variant = .ok (some (kind, next))) :
    ({ p with
       nextId := saturatingSucc p.nextId
       requestState := next
       operations := enqueue message.variant p.requestState
         (admitted p.nextId kind next handling) p.operations } : Pipeline).Calm where
  wf := hcalm.wf.of_accepted hclass
  request := classifyFrontend_ne_copyBoth hclass hcalm.request
  front := by
    intro o os hops'
    cases hops : p.operations with
    | nil =>
      simp only [hops, enqueue] at hops'
      split at hops'
      · cases hops'
      · cases hops'
        exact initialResponseState_not_copyBoth kind
    | cons x xs =>
      simp only [hops, enqueue] at hops'
      cases hops'
      exact advance_not_copyBoth message.variant (hcalm.front hops)

/-- Once the front record has left, the new one is in its first phase. -/
theorem Calm.of_pop (hcalm : p.Calm) {os : List Operation} (hops : p.operations = head :: rest)
    (hstrip : os.map strip = rest.map strip)
    (hops' : p'.operations = os.dropWhile isInert) (hwf : p'.Wf)
    (hrequest : p'.requestState ≠ .copyBoth) : p'.Calm where
  wf := hwf
  request := hrequest
  front := by
    intro o os' hcons
    have hmem : o ∈ os := by
      apply (List.dropWhile_suffix isInert).subset
      rw [← hops', hcons]
      exact List.mem_cons_self
    rw [hcalm.wf.waiting_of_strip hops hstrip hmem]
    exact initialResponseState_not_copyBoth o.kind

theorem Calm.effect {call : Call} (hcalm : p.Calm) (heff : p.Effect call reply p')
    (hquiet : ∀ message, call.response? = some message → ∀ o ∈ p.operations, call.Addresses o →
      message.variant ≠ .copyBothResponse) : p'.Calm := by
  have hwf : p'.Wf := hcalm.wf.effect heff
  cases heff with
  | refused _ | asynchronous _ _ | deferred _ _ | illegal _ _ => exact hcalm
  | accepted _ hproject _ => exact hcalm.of_accepted (projectFrontend_classify hproject)
  | @continued _ message head rest next hcall haddr hops hnext _ =>
    have hout : isCopyBothState next = false :=
      respond_not_copyBoth hnext (hcalm.front hops)
        (hquiet message hcall head (by simp [hops]) haddr)
    refine ⟨hwf, copyRequest_ne_copyBoth hout hcalm.request, ?_⟩
    intro o os hcons
    cases hcons
    exact hout
  | completed _ _ hops _ _ _ => exact hcalm.of_pop hops rfl rfl hwf hcalm.request
  | @failed _ _ head rest _ _ _ hops _ _ _ _ =>
    refine hcalm.of_pop hops (discardUntilSync_map_strip rest) rfl hwf ?_
    dsimp only
    split
    · exact hcalm.request
    · simp
  | @deferredError _ _ before o rest _ hops _ _ _ _ =>
    refine ⟨hwf, ?_, ?_⟩
    · dsimp only
      split
      · exact hcalm.request
      · simp
    · -- Marking records behind the rejected one leaves the front record in its phase.
      intro x xs hcons
      cases before with
      | nil | cons y ys =>
        cases hcons
        exact hcalm.front hops

/-- The run receives no CopyBothResponse. -/
def NoCopyBoth (h : List LedgerEntry) : Prop :=
  ∀ e ∈ h, ∀ message, e.input = .backend message → message.variant ≠ .copyBothResponse

theorem Run.calm {policy : PipelinePolicy} (hr : Run policy h p) (hfwd : ForwardOnly h)
    (hboth : NoCopyBoth h) : p.Calm := by
  induction hr with
  | nil => exact calm_new policy
  | @snoc h s s' i o hr hs ih =>
    have hfwd' : ForwardOnly h := fun e he => hfwd e (List.mem_append_left _ he)
    have hbefore := ih hfwd' fun e he => hboth e (List.mem_append_left _ he)
    refine hbefore.effect ((Run.wf hr).effect_of_step hs) ?_
    intro message hmessage x hx haddr
    cases i with
    | frontend _ _ => cases hmessage
    | backend m =>
      cases hmessage
      exact hboth ⟨s, .backend message, o, s'⟩ (by simp) message rfl
    | emitLocal id m =>
      -- A forward-only ledger holds no local record.
      have hforwarded := Run.allForwarded hr hfwd' x hx
      rw [haddr.1] at hforwarded
      cases hforwarded

/-! ## The two kinds of calls -/

/-- A server message that is no barrier is emitted. -/
def Emits (p : Pipeline) (message : BackendMessage) (p' : Pipeline) : Prop :=
  isBackendBatchBarrier message = false ∧
    Step p (.backend message) (.backend (.ok (.emit message))) p'

/-- A client message is legal; the step it makes, and the action it brings, when there is room. -/
def Takes (p : Pipeline) (taken : FrontendMessage × FrontendAction) (p' : Pipeline) : Prop :=
  ∃ kind next phase,
    projectFrontend p.requestState taken.1.variant = .ok (some (kind, next)) ∧
    frontendPhase p.requestState (p.operations.head?.map Operation.kind) = .ok phase ∧
    taken.2 = FrontendHandling.forward.action
      (Operation.admitted p.nextId kind next .forward).discarded p.nextId taken.1 ∧
    p' =
      { p with
        nextId := saturatingSucc p.nextId
        requestState := next
        operations := enqueue taken.1.variant p.requestState
          (Operation.admitted p.nextId kind next .forward) p.operations }

/-- A client message is accepted. -/
def Accepts (p : Pipeline) (taken : FrontendMessage × FrontendAction) (p' : Pipeline) : Prop :=
  p.HasRoom ∧ p.Takes taken p'

/-- The ledger after a response to its front record that is no barrier. -/
def answered (p : Pipeline) (head : Operation) (rest : List Operation) (next : RuntimeState)
    (message : BackendVariant) : Pipeline :=
  if responseIsTerminal head.kind message then
    { p with
      operations := rest.dropWhile Operation.isInert
      responseState := none }
  else
    { p with
      operations := { head with responseState := next } :: rest
      responseState := (responseCopyState next).map RequestState.public }

theorem not_asynchronous_of_holdable (hhold : isBackendBatchBarrier message = false) :
    isAsynchronous message = false := by
  revert hhold
  unfold isBackendBatchBarrier isAsynchronous
  cases message.variant <;> decide

theorem not_error_of_holdable (hhold : isBackendBatchBarrier message = false) :
    message.variant ≠ .errorResponse := by
  intro herror
  rw [isBackendBatchBarrier, herror] at hhold
  exact absurd hhold (by decide)

/-- Such a response moves or ends the front record and does nothing else. -/
theorem Calm.emits_iff (hcalm : p.Calm) :
    p.Emits message p' ↔
      isBackendBatchBarrier message = false ∧ ∃ head rest next, p.operations = head :: rest ∧
        head.origin = .forwarded ∧ respond head.responseState message.variant = some next ∧
        p' = p.answered head rest next message.variant := by
  refine and_congr_right fun hhold => ?_
  constructor
  · intro hstep
    -- Asynchronous messages and errors are barriers, so only two effects are left.
    cases hcalm.wf.effect_of_step hstep with
    | asynchronous hcall hasync =>
      cases hcall
      rw [not_asynchronous_of_holdable hhold] at hasync
      cases hasync
    | @continued _ _ head rest next hcall haddr hops hnext hmore =>
      cases hcall
      have hplain := (respond_holdable hnext hhold (hcalm.front hops)).2
      refine ⟨head, rest, next, hops, haddr, hnext, ?_⟩
      simp [answered, hmore, copyRequest_plain hplain]
    | @completed _ _ head rest next hcall haddr hops hnext hlast _ =>
      cases hcall
      exact ⟨head, rest, next, hops, haddr, hnext, by simp [answered, hlast]⟩
    | failed hcall _ _ _ _ herror _ =>
      cases hcall
      exact absurd herror (not_error_of_holdable hhold)
  · rintro ⟨head, rest, next, hops, horigin, hnext, rfl⟩
    have hfits : responseFits head message.variant = true := responseFits_of_respond hnext
    have hlive := hcalm.wf.headLive hops
    have hdiscarded : head.discarded = false := (Operation.isInert_eq_false.1 hlive).2
    have hcall : (Call.backend message).response? = some message := rfl
    rcases call_of_fits hops hdiscarded hcall horigin hfits with ⟨next', hnext', hstep⟩
    rw [hnext] at hnext'
    cases hnext'
    refine hstep.trans (congrArg (fun q => Except.ok (Reply.backend (.ok (.emit message)), q)) ?_)
    have hplain := (respond_holdable hnext hhold (hcalm.front hops)).2
    cases hlast : responseIsTerminal head.kind message.variant with
    | false =>
      rw [commitEmit_continue hops hlive hlast, copyRequest_plain hplain]
      simp [answered, hlast]
    | true =>
      have hcopy : responseCopyState next = none :=
        responseCopyState_terminal hnext (hcalm.wf.owned head (by simp [hops])) hlast
      rw [commitEmit_complete hops hcopy hlast fun h => not_error_of_holdable hhold h.1]
      simp [answered, hlast]

theorem emits_unique {q' : Pipeline} (h : p.Emits message q) (h' : p.Emits message q') :
    q = q' := by
  have heq := Except.ok.inj (h.2.symm.trans h'.2)
  exact congrArg Prod.snd heq

theorem takes_unique {q' : Pipeline} (h : p.Takes taken q) (h' : p.Takes taken q') : q = q' := by
  rcases h with ⟨kind, next, -, hproject, -, -, rfl⟩
  rcases h' with ⟨kind', next', -, hproject', -, -, rfl⟩
  rw [hproject] at hproject'
  cases hproject'
  rfl

/-! ## The diamond -/

/-- Dropping what is inert at the front commutes with appending a record. -/
theorem dropWhile_snoc (os : List Operation) (record : Operation) :
    (os ++ [record]).dropWhile isInert =
      if os.dropWhile isInert = [] ∧ record.isInert = true then []
      else os.dropWhile isInert ++ [record] := by
  induction os with
  | nil => cases hinert : record.isInert <;> simp [hinert]
  | cons o os ih =>
    cases hinert : o.isInert with
    | true => simpa [List.dropWhile_cons, hinert] using ih
    | false => simp [hinert]

theorem frontendPhase_congr (hin : state ≠ .copyIn) (hboth : state ≠ .copyBoth)
    (head head' : Option OperationKind) : frontendPhase state head = frontendPhase state head' := by
  cases state <;> first | rfl | exact absurd rfl hin | exact absurd rfl hboth

/-- The record in front of a response that is no barrier, and the record it leaves there, do not
listen to the client. -/
theorem Calm.advance_front (hcalm : p.Calm) {next : RuntimeState}
    (hops : p.operations = head :: rest) (hhold : isBackendBatchBarrier message = false)
    (hnext : respond head.responseState message.variant = some next) (request : FrontendVariant) :
    head.advance request = head ∧
      (responseIsTerminal head.kind message.variant = false →
        ({ head with responseState := next } : Operation).advance request =
          { head with responseState := next }) := by
  have howned := hcalm.wf.owned head (by simp [hops])
  rcases respond_holdable hnext hhold (hcalm.front hops) with ⟨hplain, hplain'⟩
  refine ⟨advance_plain request howned hplain, fun hmore => ?_⟩
  exact advance_plain (o := { head with responseState := next }) request
    (respond_owned hnext howned hmore) hplain'

theorem Calm.diamond {t u : Pipeline} (hcalm : p.Calm) (hemits : p.Emits message t)
    (htakes : p.Takes taken u) : ∃ v, t.Takes taken v ∧ u.Emits message v := by
  rcases hcalm.emits_iff.1 hemits with ⟨hhold, head, rest, next, hops, horigin, hnext, rfl⟩
  rcases htakes with ⟨kind, state, phase, hproject, hphase, haction, hu⟩
  have hin : p.requestState ≠ .copyIn := hcalm.wf.requestState_ne_copyIn hops hnext
  have hcalm' : u.Calm := by
    rw [hu]
    exact hcalm.of_accepted (projectFrontend_classify hproject)
  rcases hcalm.advance_front hops hhold hnext taken.1.variant with ⟨hhead, hhead'⟩
  -- Outside COPY IN the admission leaves the queue alone and appends its record.
  have hqueue : u.operations =
      head :: (rest ++ [admitted p.nextId kind state .forward]) := by
    simp [hu, hops, enqueue, hhead, cancelSyncFor, hin]
  refine ⟨u.answered head (rest ++ [admitted p.nextId kind state .forward]) next
    message.variant, ?_, hcalm'.emits_iff.2 ⟨hhold, head, _, next, hqueue, horigin, hnext, rfl⟩⟩
  cases hlast : responseIsTerminal head.kind message.variant with
  | false =>
    refine ⟨kind, state, phase, ?_, ?_, ?_, ?_⟩
    · simpa [answered, hlast] using hproject
    · simpa [answered, hlast, hops] using hphase
    · simpa [answered, hlast] using haction
    · simp [answered, hlast, hu, enqueue, hhead' hlast, cancelSyncFor, hin]
  | true =>
    -- The next front record is in its first phase, where it does not listen either.
    have hfirst : ∀ x xs, rest.dropWhile isInert = x :: xs →
        x.advance taken.1.variant = x := by
      intro x xs hcons
      have hx : x ∈ rest := by
        apply (List.dropWhile_suffix isInert).subset
        rw [hcons]
        exact List.mem_cons_self
      have hinitial : x.responseState = initialResponseState x.kind :=
        hcalm.wf.waiting x (by simp [hops, hx])
      apply advance_plain
      · rw [hinitial]
        exact initialResponseState_mem_owned x.kind
      · rw [hinitial]
        exact initialResponseState_plain x.kind
    refine ⟨kind, state, phase, ?_, ?_, ?_, ?_⟩
    · simpa [answered, hlast] using hproject
    · rw [frontendPhase_congr hin hcalm.request _ _] at hphase
      simpa [answered, hlast] using hphase
    · simpa [answered, hlast] using haction
    · simp only [answered, hlast, if_true, hu]
      rw [enqueue_plain hin _ _ hfirst, dropWhile_snoc]

theorem Calm.emits (hcalm : p.Calm) (h : p.Emits message p') : p'.Calm := by
  refine hcalm.effect (hcalm.wf.effect_of_step h.2) ?_
  intro m hm _ _ _ hboth
  cases hm
  have hbarrier := h.1
  rw [isBackendBatchBarrier, hboth] at hbarrier
  exact absurd hbarrier (by decide)

theorem Calm.takes (hcalm : p.Calm) (h : p.Takes taken p') : p'.Calm := by
  rcases h with ⟨kind, next, -, hproject, -, -, rfl⟩
  exact hcalm.of_accepted (projectFrontend_classify hproject)

/-- **The diamond.**  Outside COPY BOTH, responses that are no barrier commute with client messages,
the capacity aside. -/
theorem commute_holdable : Commute Calm Emits Takes where
  left_inv := fun hp hemits => hp.emits hemits
  right_inv := fun hp htakes => hp.takes htakes
  right_unique := takes_unique
  diamond := fun hp hemits htakes => hp.diamond hemits htakes

/-! ## Capacity -/

/-- A ledger within its limit and outside COPY. -/
structure Within (p : Pipeline) : Prop where
  calm : p.Calm
  request : p.requestState ≠ .copyIn
  length : p.operations.length ≤ p.policy.operationLimit

theorem answered_requestState (p : Pipeline) (head : Operation) (rest : List Operation)
    (next : RuntimeState) (message : BackendVariant) :
    (p.answered head rest next message).requestState = p.requestState ∧
      (p.answered head rest next message).policy = p.policy := by
  unfold answered
  split <;> exact ⟨rfl, rfl⟩

theorem length_answered_le (hops : p.operations = head :: rest) (next : RuntimeState)
    (message : BackendVariant) :
    (p.answered head rest next message).operations.length ≤ p.operations.length := by
  have hdrop : (rest.dropWhile isInert).length ≤ rest.length :=
    (List.dropWhile_suffix _).length_le
  unfold answered
  split
  · simp only [hops, List.length_cons]
    omega
  · simp [hops]

theorem Within.length_lt (hp : p.Within) (hroom : p.HasRoom) :
    p.operations.length < p.policy.operationLimit := by
  apply lt_of_le_of_ne hp.length
  intro hfull
  rcases hroom hfull with hin | hboth
  · exact hp.request hin
  · exact hp.calm.request hboth

theorem commute_within : Commute Within Emits Accepts where
  left_inv := by
    intro p message p' hp hemits
    have hcalm := hp.calm.emits hemits
    rcases hp.calm.emits_iff.1 hemits with ⟨-, head, rest, next, hops, -, -, rfl⟩
    rcases p.answered_requestState head rest next message.variant with ⟨hrequest, hpolicy⟩
    refine ⟨hcalm, ?_, ?_⟩
    · rw [hrequest]
      exact hp.request
    · rw [hpolicy]
      exact (length_answered_le hops next message.variant).trans hp.length
  right_inv := by
    rintro p taken p' hp ⟨hroom, htakes⟩
    have hcalm := hp.calm.takes htakes
    have hlt := hp.length_lt hroom
    rcases htakes with ⟨kind, next, -, hproject, -, -, rfl⟩
    refine ⟨hcalm, ?_, (length_enqueue_le _ _ _ _).trans hlt⟩
    rintro rfl
    exact hp.request (classifyFrontend_copyIn (projectFrontend_classify hproject)).1
  right_unique := fun h h' => takes_unique h.2 h'.2
  diamond := by
    rintro p message taken t u hp hemits ⟨hroom, htakes⟩
    rcases hp.calm.diamond hemits htakes with ⟨v, htakes', hemits'⟩
    refine ⟨v, ⟨?_, htakes'⟩, hemits'⟩
    intro hfull
    have hlt := hp.length_lt hroom
    rcases hp.calm.emits_iff.1 hemits with ⟨-, head, rest, next, hops, -, -, rfl⟩
    have hshorter := length_answered_le hops next message.variant
    rw [(p.answered_requestState head rest next message.variant).2] at hfull
    omega

/-! ## Runs of calls -/

theorem Calm.step_of_accepts (hcalm : p.Calm) (h : p.Accepts taken p') :
    ∃ admission, Step p (.frontend taken.1 .forward) (.frontend (.ok admission)) p' ∧
      admission.intoAction = taken.2 := by
  rcases h with ⟨hroom, kind, next, phase, hproject, hphase, haction, rfl⟩
  have haccept := hcalm.wf.acceptFrontend_eq hroom hproject hphase .forward
  refine ⟨_, step_frontend haccept, ?_⟩
  rw [intoAction_behind, haction]

theorem Calm.accepts_of_step (hcalm : p.Calm) {message : FrontendMessage}
    {admission : FrontendAdmission}
    (h : Step p (.frontend message .forward) (.frontend (.ok admission)) p') :
    p.Accepts (message, admission.intoAction) p' := by
  cases hcalm.wf.effect_of_step h with
  | @accepted _ _ kind next phase hroom hproject hphase =>
    exact ⟨hroom, kind, next, phase, hproject, hphase, intoAction_behind _ _, rfl⟩

theorem path_of_emitted {bs : List BackendMessage}
    (hhold : ∀ b ∈ bs, isBackendBatchBarrier b = false)
    (hexec : exec call p (bs.map .backend) = .ok (h, q))
    (houtcome : h.map (fun e => e.output.outcome) = bs.map fun b => some (.inl b)) :
    Path Emits p bs q := by
  induction bs generalizing p h with
  | nil =>
    cases hexec
    exact Path.nil _
  | cons b bs ih =>
    rcases exec_cons_iff.1 hexec with ⟨o, t, h', hcall, hrest, rfl⟩
    simp only [List.map_cons, List.cons.injEq] at houtcome
    have ho := Reply.outcome_eq_inl houtcome.1
    subst ho
    have hfirst : p.Emits b t := ⟨hhold b (by simp), hcall⟩
    exact Path.cons hfirst (ih (fun x hx => hhold x (by simp [hx])) hrest houtcome.2)

theorem Calm.path_of_accepted {fs : List FrontendMessage} {actions : List FrontendAction}
    (hcalm : p.Calm) (hexec : exec call p (fs.map fun f => .frontend f .forward) = .ok (h, q))
    (houtcome : h.map (fun e => e.output.outcome) = actions.map fun a => some (.inr a)) :
    ∃ taken, taken.map Prod.fst = fs ∧ taken.map Prod.snd = actions ∧ Path Accepts p taken q := by
  induction fs generalizing p h actions with
  | nil =>
    cases hexec
    have hactions : actions = [] := by simpa using houtcome.symm
    exact ⟨[], rfl, hactions.symm, Path.nil _⟩
  | cons f fs ih =>
    rcases exec_cons_iff.1 hexec with ⟨o, t, h', hcall, hrest, rfl⟩
    cases actions with
    | nil => simp at houtcome
    | cons action actions =>
      simp only [List.map_cons, List.cons.injEq] at houtcome
      rcases Reply.outcome_eq_inr houtcome.1 with ⟨admission, ho, haction⟩
      subst ho haction
      have hfirst := hcalm.accepts_of_step hcall
      rcases ih (hcalm.takes hfirst.2) hrest houtcome.2 with ⟨taken, hfs, hactions, hpath⟩
      exact ⟨(f, admission.intoAction) :: taken, by simp [hfs], by simp [hactions],
        Path.cons hfirst hpath⟩

theorem Calm.exec_of_path (hcalm : p.Calm) (hpath : Path (Either Emits Accepts) p w q) :
    ∃ h, exec call p (w.map fun letter => heldCall (letter.map id Prod.fst)) = .ok (h, q) ∧
      h.map (fun e => e.output.outcome) = w.map fun letter => some (letter.map id Prod.snd) := by
  induction hpath with
  | nil p => exact ⟨[], rfl, rfl⟩
  | @cons p t q letter w hstep hrest ih =>
    cases letter with
    | inl message =>
      have hemits : p.Emits message t := hstep
      rcases ih (hcalm.emits hemits) with ⟨h, hexec, houtcome⟩
      refine ⟨⟨p, .backend message, .backend (.ok (.emit message)), t⟩ :: h, ?_, ?_⟩
      · exact exec_cons_iff.2 ⟨_, t, h, hemits.2, hexec, rfl⟩
      · simp only [List.map_cons, houtcome]
        rfl
    | inr taken =>
      have haccepts : p.Accepts taken t := hstep
      rcases hcalm.step_of_accepts haccepts with ⟨admission, hcall, haction⟩
      rcases ih (hcalm.takes haccepts.2) with ⟨h, hexec, houtcome⟩
      refine ⟨⟨p, .frontend taken.1 .forward, .frontend (.ok admission), t⟩ :: h, ?_, ?_⟩
      · exact exec_cons_iff.2 ⟨_, t, h, hcall, hexec, rfl⟩
      · simp only [List.map_cons, houtcome, List.cons.injEq, and_true]
        exact congrArg (fun action => some (Sum.inr action)) haction

/-- Wherever the interleaving offers a client message, the ledger has room for it. -/
def NeverFull (p : Pipeline) (w : List (BackendMessage ⊕ FrontendMessage)) : Prop :=
  ∀ w₁ f w₂ h q, w = w₁ ++ .inr f :: w₂ → exec call p (w₁.map heldCall) = .ok (h, q) → q.HasRoom

theorem NeverFull.tail {t : Pipeline} {letter : BackendMessage ⊕ FrontendMessage}
    {w : List (BackendMessage ⊕ FrontendMessage)} (hfull : p.NeverFull (letter :: w))
    (hcall : p.call (heldCall letter) = .ok (reply, t)) : t.NeverFull w := by
  rintro w₁ f w₂ h q rfl hexec
  exact hfull (letter :: w₁) f w₂ (⟨p, heldCall letter, reply, t⟩ :: h) q rfl
    (exec_cons_iff.2 ⟨reply, t, h, hcall, hexec, rfl⟩)

theorem Calm.path_of_neverFull (hcalm : p.Calm) (hpath : Path (Either Emits Takes) p w q)
    (hfull : p.NeverFull (w.map (Sum.map id Prod.fst))) : Path (Either Emits Accepts) p w q := by
  induction hpath with
  | nil p => exact Path.nil p
  | @cons p t q letter w hstep hrest ih =>
    cases letter with
    | inl message =>
      have hemits : p.Emits message t := hstep
      exact Path.cons hemits (ih (hcalm.emits hemits) (hfull.tail hemits.2))
    | inr taken =>
      have htakes : p.Takes taken t := hstep
      have haccepts : p.Accepts taken t := ⟨hfull [] taken.1 _ [] p rfl rfl, htakes⟩
      rcases hcalm.step_of_accepts haccepts with ⟨admission, hcall, -⟩
      exact Path.cons haccepts (ih (hcalm.takes htakes) (hfull.tail hcall))

theorem Calm.request_of_emits (hcalm : p.Calm) (h : p.Emits message p') :
    p.requestState ≠ .copyIn := by
  rcases hcalm.emits_iff.1 h with ⟨-, head, rest, next, hops, -, hnext, -⟩
  exact hcalm.wf.requestState_ne_copyIn hops hnext

theorem Calm.path_of_within {bs : List BackendMessage}
    {taken : List (FrontendMessage × FrontendAction)} {qb qf v : Pipeline} (hcalm : p.Calm)
    (hlength : p.operations.length ≤ p.policy.operationLimit) (hemits : Path Emits p bs qb)
    (haccepts : Path Accepts p taken qf) (hleft : lefts w = bs) (hright : rights w = taken)
    (hpath : Path (Either Emits Takes) p w v) : Path (Either Emits Accepts) p w v := by
  have hsome : ∃ v', Path (Either Emits Accepts) p w v' := by
    cases hemits with
    | nil =>
      -- Without a held message there is only the client's run.
      rw [← hright] at haccepts
      exact ⟨qf, haccepts.of_rights hleft⟩
    | cons hfirst hrest =>
      have hwithin : p.Within := ⟨hcalm, hcalm.request_of_emits hfirst, hlength⟩
      rcases commute_within.interleave hwithin (Path.cons hfirst hrest) haccepts with ⟨v', hall⟩
      exact ⟨v', hall w hleft hright⟩
  rcases hsome with ⟨v', hpath'⟩
  have hforget : Path (Either Emits Takes) p w v' := by
    refine hpath'.mono ?_
    rintro s (message | taken) t hstep
    · exact hstep
    · exact hstep.2
  have hunique : v' = v := by
    refine hforget.unique ?_ hpath
    rintro s (message | taken) t u h h'
    · exact emits_unique h h'
    · exact takes_unique h h'
  rw [← hunique]
  exact hpath'

/-- **Holding is unobservable.**  From a ledger of a forward-only run without CopyBothResponse, let
server messages that are no barriers be emitted one after another, and client messages accepted one
after another.  Every interleaving of the two that does not run into the capacity is accepted; it
emits the server messages in order, brings the same actions, and leaves the same ledger. -/
theorem holding_unobservable {policy : PipelinePolicy} {h : List LedgerEntry} {p : Pipeline}
    (hr : Run policy h p) (hfwd : ForwardOnly h) (hboth : NoCopyBoth h)
    {bs : List BackendMessage} {fs : List FrontendMessage} {actions : List FrontendAction}
    {hb hf : List LedgerEntry} {qb qf : Pipeline}
    (hhold : ∀ b ∈ bs, isBackendBatchBarrier b = false)
    (hemits : exec call p (bs.map .backend) = .ok (hb, qb))
    (hemitted : hb.map (fun e => e.output.outcome) = bs.map fun b => some (.inl b))
    (haccepts : exec call p (fs.map fun f => .frontend f .forward) = .ok (hf, qf))
    (haccepted : hf.map (fun e => e.output.outcome) = actions.map fun a => some (.inr a)) :
    ∃ q, ∀ w, lefts w = bs → rights w = fs →
      p.operations.length ≤ policy.operationLimit ∨ p.NeverFull w →
        ∃ hw outcomes, exec call p (w.map heldCall) = .ok (hw, q) ∧
          hw.map (fun e => e.output.outcome) = outcomes.map some ∧
          lefts outcomes = bs ∧ rights outcomes = actions := by
  have hcalm : p.Calm := Run.calm hr hfwd hboth
  have hleft := path_of_emitted hhold hemits hemitted
  rcases hcalm.path_of_accepted haccepts haccepted with ⟨taken, rfl, rfl, hright⟩
  have htakes : Path Takes p taken qf := hright.mono fun h => h.2
  rcases commute_holdable.interleave hcalm hleft htakes with ⟨q, hall⟩
  refine ⟨q, fun w hbs hfs hcapacity => ?_⟩
  rcases exists_relabel Prod.fst hfs with ⟨w', rfl, hlefts, hrights⟩
  have hpath := hall w' (hlefts.trans hbs) hrights
  have haccepting : Path (Either Emits Accepts) p w' q := by
    rcases hcapacity with hlength | hfull
    · rw [← Run.policy_eq hr] at hlength
      exact hcalm.path_of_within hlength hleft hright (hlefts.trans hbs) hrights hpath
    · exact hcalm.path_of_neverFull hpath hfull
  rcases hcalm.exec_of_path haccepting with ⟨hw, hexec, houtcome⟩
  refine ⟨hw, w'.map (Sum.map id Prod.snd), ?_, ?_, ?_, ?_⟩
  · rw [List.map_map]
    exact hexec
  · rw [List.map_map]
    exact houtcome
  · rw [lefts_map, List.map_id, hlefts, hbs]
  · rw [rights_map, hrights]

/-- A Parse and a Describe are outstanding; ParseComplete and NoData are held while the client goes
on with a Bind and a Sync. -/
theorem holding_unobservable_parse_describe :
    ∃ h p q, Run (.bounded ⟨8, by decide⟩) h p ∧
      ∀ w, lefts w = [BackendMessage.parseComplete, .noData] →
        rights w = [FrontendMessage.bind ⟨[], [], [], [], []⟩, .sync] →
          ∃ hw outcomes, exec call p (w.map heldCall) = .ok (hw, q) ∧
            hw.map (fun e => e.output.outcome) = outcomes.map some ∧
            lefts outcomes = [BackendMessage.parseComplete, .noData] ∧
            rights outcomes =
              [.forward 2 (.bind ⟨[], [], [], [], []⟩), .forward 3 .sync] := by
  obtain ⟨h, p, hb, qb, hf, qf, hr, hfwd, hquiet, hlength, hemits, hemitted, haccepts,
      haccepted⟩ :
      ∃ h p hb qb hf qf, Run (.bounded ⟨8, by decide⟩) h p ∧ ForwardOnly h ∧
        (∀ e ∈ h, e.input.response? = none) ∧
        p.operations.length ≤ (PipelinePolicy.bounded ⟨8, by decide⟩).operationLimit ∧
        exec call p ([BackendMessage.parseComplete, .noData].map .backend) = .ok (hb, qb) ∧
        hb.map (fun e => e.output.outcome) =
          [BackendMessage.parseComplete, .noData].map (fun b => some (.inl b)) ∧
        exec call p ([FrontendMessage.bind ⟨[], [], [], [], []⟩, .sync].map
          fun f => .frontend f .forward) = .ok (hf, qf) ∧
        hf.map (fun e => e.output.outcome) =
          [FrontendAction.forward 2 (.bind ⟨[], [], [], [], []⟩), .forward 3 .sync].map
            fun a => some (.inr a) := by
    exact ⟨_, _, _, _, _, _, .of_exec [.frontend (.parse ⟨[], [], []⟩) .forward,
        .frontend (.describe ⟨.portal, []⟩) .forward] rfl,
        by decide, by decide, by decide, rfl, rfl, rfl, rfl⟩
  have hboth : NoCopyBoth h := by
    intro e he message hinput
    have hnone := hquiet e he
    rw [hinput] at hnone
    cases hnone
  rcases holding_unobservable hr hfwd hboth (by decide) hemits hemitted haccepts haccepted with
    ⟨q, hall⟩
  exact ⟨h, p, q, hr, fun w hleft hright => hall w hleft hright (Or.inl hlength)⟩

end Pipeline
end PgProto
