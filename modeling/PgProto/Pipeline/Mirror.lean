import PgProto.Pipeline.Panics

/-!
# Mirror — the ledger and what the server has seen

In a run in which every client message is handed on, the server has seen the COPY messages that
were forwarded while an operation was at the front, and has sent the responses emitted for it.
The ledger *mirrors* the server when the phase of the front record is the one the `backend` grammar
reaches on exactly these messages.

A frontend message moves the front record whether or not it is forwarded.  The two views agree as
long as no message is swallowed that moves it, and there is one such message: CopyFail in COPY IN
(`ledger_mirrors_server`).
-/

namespace PgProto

open Backend (RuntimeState transitions request)
open Lib
open Operation (admitted advance isInert)

def isCopyMessage : FrontendVariant → Bool
  | .copyData | .copyDone | .copyFail => true
  | _ => false

variable {message : FrontendVariant} {kind : OperationKind}

/-- Within the phases of a record the client only sends COPY messages. -/
theorem request_copyMessage {state next : RuntimeState} (hstep : request state message = some next)
    (howned : state ∈ ownedStates kind) : isCopyMessage message = true := by
  revert kind
  change ∀ kind, _
  exact Backend.request_rule (by decide +kernel) hstep

/-- The request state becomes `ExtendedError` through a client message only by CopyFail. -/
theorem classifyFrontend_extendedError {state : RequestState}
    (h : classifyFrontend state message = .ok (some (kind, .extendedError))) :
    (state = .extendedError ∧ kind ≠ .sync) ∨ (state = .copyIn ∧ message = .copyFail) := by
  cases state <;> cases message <;>
    first
    | exact Or.inr ⟨rfl, rfl⟩
    | (cases h; done)
    | (cases h; exact Or.inl ⟨rfl, by decide⟩)

theorem projectFrontend_copyFail :
    projectFrontend .copyIn .copyFail = .ok (some (.copyFail, .extendedError)) := rfl

namespace Pipeline

/-! ## What the server has seen -/

/-- The message was handed on to the server. -/
def isForwarded : Reply → Bool
  | .frontend (.ok admission) =>
    match admission.intoAction with
    | .forward _ _ => true
    | .discard _ => false
  | _ => false

/-- What a call adds to the conversation about the front operation: a COPY message that was
forwarded, or the response that was emitted. -/
def serverSignals (e : LedgerEntry) : Backend.Word :=
  match e.before.operations, e.input, e.output with
  | _ :: _, .frontend message _, reply =>
    if isCopyMessage message.variant && isForwarded reply then
      [.external message.variant]
    else
      []
  | _ :: _, _, .backend (.ok (.emit message)) =>
    if isAsynchronous message then [] else [.internal message.variant]
  | _, _, _ => []

variable {p p' : Pipeline} {message : FrontendMessage} {handling : FrontendHandling} {reply : Reply}
  {call : Call}

theorem serverSignals_frontend {head : Operation} {rest : List Operation}
    (hops : p.operations = head :: rest) :
    serverSignals ⟨p, .frontend message handling, reply, p'⟩ =
      if isCopyMessage message.variant && isForwarded reply then
        [.external message.variant]
      else
        [] := by
  simp [serverSignals, hops]

/-- After the call another record is at the front, or none: there was no record, or the response
was the last one of the front record. -/
def frontLeaves (e : LedgerEntry) : Bool :=
  match e.before.operations, e.output with
  | [], _ => true
  | head :: _, .backend (.ok (.emit message)) =>
    !isAsynchronous message && responseIsTerminal head.kind message.variant
  | _, _ => false

/-- The conversation about the operation that is now at the front. -/
def frontWord (h : List LedgerEntry) : Backend.Word :=
  h.foldl (fun word e => if frontLeaves e then [] else word ++ serverSignals e) []

theorem frontWord_snoc (h : List LedgerEntry) (e : LedgerEntry) :
    frontWord (h ++ [e]) = if frontLeaves e then [] else frontWord h ++ serverSignals e := by
  simp [frontWord]

/-- The phase of the front record is the one the grammar reaches on what the server has seen. -/
def Mirrors (h : List LedgerEntry) (p : Pipeline) : Prop :=
  ∀ head rest, p.operations = head :: rest →
    head.responseState = transitions.feedAll (initialResponseState head.kind) (frontWord h)

/-- A message to be forwarded is discarded only in `ExtendedError`. -/
def DiscardsInError (e : LedgerEntry) : Prop :=
  ∀ message admission id, e.input = .frontend message .forward →
    e.output = .frontend (.ok admission) → admission.intoAction = .discard id →
      e.before.requestState = .extendedError

/-- A CopyFail arrives while the request state is `CopyIn`. -/
def FailsCopyIn (e : LedgerEntry) : Prop :=
  e.before.requestState = .copyIn ∧
    e.input.request?.map FrontendMessage.variant = some .copyFail

instance : DecidablePred FailsCopyIn :=
  fun _ => inferInstanceAs (Decidable (_ ∧ _))

theorem failsCopyIn_of_copyFail (hstate : p.requestState = .copyIn)
    (hfail : message.variant = .copyFail) :
    FailsCopyIn ⟨p, .frontend message handling, reply, p'⟩ :=
  ⟨hstate, congrArg some hfail⟩

/-! ## One call -/

theorem action_forward (id : OperationId) (message : FrontendMessage) (discarded : Bool) :
    FrontendHandling.forward.action discarded id message =
      if discarded then .discard id else .forward id message := by
  cases discarded <;> rfl

/-- The record admitted on the way into `ExtendedError` is discarded, and no other. -/
theorem admitted_discarded {id : OperationId} {next : RequestState}
    (h : (admitted id kind next handling).discarded = true) : next = .extendedError := by
  simp only [admitted, Bool.and_eq_true, decide_eq_true_eq] at h
  exact h.1

/-- In `ExtendedError` nothing is outstanding. -/
def QuietInError (p : Pipeline) : Prop :=
  p.requestState = .extendedError → p.operations = []

theorem QuietInError.effect (hquiet : p.QuietInError) (hall : p.AllForwarded)
    (heff : p.Effect call reply p') (hcopy : ¬ FailsCopyIn ⟨p, call, reply, p'⟩) :
    p'.QuietInError := by
  -- A front record rules out `ExtendedError` before the call.
  have hopen : ∀ {head : Operation} {rest : List Operation}, p.operations = head :: rest →
      p.requestState ≠ .extendedError := by
    intro head rest hops herror
    simp [hquiet herror] at hops
  cases heff with
  | refused _ | asynchronous _ _ | deferred _ _ | illegal _ _ => exact hquiet
  | @accepted message handling kind next _ _ hproject _ =>
    intro hnext
    have hnext' : next = .extendedError := hnext
    subst hnext'
    rcases classifyFrontend_extendedError (projectFrontend_classify hproject) with
      ⟨hstate, hkind⟩ | ⟨hstate, hfail⟩
    · have hdiscarded : (admitted p.nextId kind .extendedError handling).discarded =
          true := by
        simp [admitted, hkind]
      simp [enqueue, hquiet hstate, isInert, hdiscarded]
    · exact absurd (failsCopyIn_of_copyFail hstate hfail) hcopy
  | @continued _ _ head rest next _ _ hops _ _ =>
    intro hnext
    have hcases : copyRequest next p.requestState = .extendedError := hnext
    unfold copyRequest at hcases
    split at hcases
    · cases hcases
    · cases hcases
    · exact absurd hcases (hopen hops)
  | completed _ _ hops _ _ _ =>
    intro hnext
    exact absurd hnext (hopen hops)
  | @failed _ _ head rest _ _ _ hops _ _ _ _ =>
    intro hnext
    have hcases : (if (discardUntilSync rest).2 = true then p.requestState
        else .extendedError) = .extendedError := hnext
    cases hfound : (discardUntilSync rest).2 with
    | true =>
      rw [hfound] at hcases
      exact absurd hcases (hopen hops)
    | false =>
      rw [discardUntilSync_eq] at hfound
      have hnone : fromSync rest = [] := by
        simpa using hfound
      simp [dropWhile_discardUntilSync, hnone]
  | deferredError _ hops _ _ horigin _ => exact (hall.not_local hops horigin).elim

/-- A forwarded message is discarded in `ExtendedError` only, CopyFail in COPY IN apart. -/
theorem Effect.discardsInError (heff : p.Effect call reply p')
    (hcopy : ¬ FailsCopyIn ⟨p, call, reply, p'⟩) : DiscardsInError ⟨p, call, reply, p'⟩ := by
  intro message admission id hinput houtput hdiscard
  dsimp only at hinput houtput ⊢
  subst hinput
  subst houtput
  cases heff with
  | @accepted _ _ kind next _ _ hproject _ =>
    rw [intoAction_behind, action_forward] at hdiscard
    cases hmark : (admitted p.nextId kind next .forward).discarded with
    | false =>
      simp [hmark] at hdiscard
    | true =>
      have hnext := admitted_discarded hmark
      subst hnext
      rcases classifyFrontend_extendedError (projectFrontend_classify hproject) with
        ⟨hstate, -⟩ | ⟨hstate, hfail⟩
      · exact hstate
      · exact absurd (failsCopyIn_of_copyFail hstate hfail) hcopy

/-- Once the front has left, the record at the front is in its first phase. -/
theorem Wf.initial_of_leaves (hwf : p.Wf) (heff : p.Effect call reply p')
    (hleaves : frontLeaves ⟨p, call, reply, p'⟩ = true) {o : Operation} {os : List Operation}
    (hops' : p'.operations = o :: os) : o.responseState = initialResponseState o.kind := by
  have hmem : o ∈ p'.operations := by simp [hops']
  cases hops : p.operations with
  | nil =>
    refine hwf.initial_of_effect heff hmem ?_
    intro head rest hcons
    rw [hops] at hcons
    cases hcons
  | cons head rest =>
    cases heff with
    | refused _ | accepted _ _ _ | deferred _ _ | deferredError _ _ _ _ _ _ | illegal _ _ =>
      simp [frontLeaves, hops] at hleaves
    | asynchronous _ hasync => simp [frontLeaves, hops, hasync] at hleaves
    | continued _ _ hops₂ _ hmore =>
      rw [hops] at hops₂
      cases hops₂
      simp [frontLeaves, hops, hmore] at hleaves
    | completed _ _ hops₂ _ _ _ =>
      exact hwf.waiting_of_strip hops₂ rfl ((List.dropWhile_suffix _).subset hmem)
    | failed _ _ hops₂ _ _ _ _ =>
      exact hwf.waiting_of_strip hops₂ (discardUntilSync_map_strip _)
        ((List.dropWhile_suffix _).subset hmem)

theorem Wf.feed_of_stays (hwf : p.Wf) (hquiet : p.QuietInError) (hall : p.AllForwarded)
    (hfwd : call.Forwards) (heff : p.Effect call reply p')
    (hcopy : ¬ FailsCopyIn ⟨p, call, reply, p'⟩) {head o : Operation} {rest os : List Operation}
    (hops : p.operations = head :: rest) (hstays : frontLeaves ⟨p, call, reply, p'⟩ = false)
    (hops' : p'.operations = o :: os) :
    o.kind = head.kind ∧ o.responseState =
      transitions.feedAll head.responseState (serverSignals ⟨p, call, reply, p'⟩) := by
  cases heff with
  | refused _ =>
    rw [hops] at hops'
    cases hops'
    simp [serverSignals, hops, isForwarded]
  | illegal hcall _ | deferred hcall _ =>
    rw [hops] at hops'
    cases hops'
    cases call <;> simp [serverSignals, hops, isForwarded]
  | asynchronous hcall hasync =>
    rw [hops] at hops'
    cases hops'
    cases call <;> simp [serverSignals, hops, hasync, isForwarded]
  | deferredError _ hops₂ _ _ horigin _ => exact (hall.not_local hops₂ horigin).elim
  | completed _ _ hops₂ hnext hlast _ | failed _ _ hops₂ hnext hlast _ _ =>
    rw [hops] at hops₂
    cases hops₂
    have hsync := respond_not_asynchronous hnext
    simp [frontLeaves, hops, hlast, isAsynchronous, hsync] at hstays
  | @continued _ message _ _ next hcall _ hops₂ hnext _ =>
    rw [hops] at hops₂
    cases hops₂
    cases hops'
    have hsync : isAsynchronous message = false := respond_not_asynchronous hnext
    have hstep : transitions.step head.responseState (.internal message.variant) = some next :=
      hnext
    have hfed := Table.feed_of_step hstep
    cases call with
    | frontend _ _ => cases hcall
    | backend _ | emitLocal _ _ => simp [serverSignals, hops, hsync, Table.feedAll, hfed]
  | @accepted message handling kind next _ _ hproject _ =>
    have hhandling : handling = .forward := hfwd
    subst hhandling
    simp only [hops, enqueue] at hops'
    cases hops'
    refine ⟨rfl, ?_⟩
    -- Nothing is swallowed: a record is at the front, so the ledger is not in `ExtendedError`.
    have hkept : (admitted p.nextId kind next .forward).discarded = false := by
      by_contra hmark
      have hnext := admitted_discarded (by simpa using hmark)
      subst hnext
      rcases classifyFrontend_extendedError (projectFrontend_classify hproject) with
        ⟨hstate, -⟩ | ⟨hstate, hfail⟩
      · simp [hquiet hstate] at hops
      · exact hcopy (failsCopyIn_of_copyFail hstate hfail)
    have hsent : isForwarded (.frontend (.ok (.behind (!p.operations.isEmpty)
        (FrontendHandling.forward.action
          (admitted p.nextId kind next .forward).discarded p.nextId message)))) =
        true := by
      rw [hkept]
      simp [isForwarded, intoAction_behind, action_forward]
    have howned := hwf.owned head (by simp [hops])
    rw [serverSignals_frontend hops, hsent, Bool.and_true]
    cases hmove : request head.responseState message.variant with
    | none =>
      have hstep : transitions.step head.responseState (.external message.variant) = none :=
        hmove
      have hfed := Table.feed_of_step_none hstep
      by_cases hcopyMsg : isCopyMessage message.variant
      · simp [hcopyMsg, advance, hmove, Table.feedAll, hfed]
      · simp [hcopyMsg, advance, hmove]
    | some state =>
      have hcopyMsg := request_copyMessage hmove howned
      have hstep : transitions.step head.responseState (.external message.variant) =
          some state := hmove
      have hfed := Table.feed_of_step hstep
      simp [hcopyMsg, advance, hmove, Table.feedAll, hfed]

/-! ## Whole runs -/

/-- Without a CopyFail in COPY IN the ledger mirrors the server all along. -/
theorem Run.mirrors {policy : PipelinePolicy} {h : List LedgerEntry} (hr : Run policy h p)
    (hfwd : ForwardOnly h) (hcopy : ∀ e ∈ h, ¬ FailsCopyIn e) : p.QuietInError ∧ Mirrors h p := by
  induction hr with
  | nil =>
    refine ⟨?_, ?_⟩
    · intro _
      rfl
    · intro head rest hops
      cases hops
  | @snoc h s s' i o hr hs ih =>
    have hfwd' : ForwardOnly h := fun e he => hfwd e (by simp [he])
    rcases ih hfwd' (fun e he => hcopy e (by simp [he])) with ⟨hquiet, hmirror⟩
    have hwf := Run.wf hr
    have heff := hwf.effect_of_step hs
    have hall := Run.allForwarded hr hfwd'
    have hlast : ¬ FailsCopyIn ⟨s, i, o, s'⟩ := hcopy _ (by simp)
    have hforwards : i.Forwards := hfwd ⟨s, i, o, s'⟩ (by simp)
    refine ⟨hquiet.effect hall heff hlast, ?_⟩
    intro head' rest' hops'
    rw [frontWord_snoc]
    cases hleaves : frontLeaves ⟨s, i, o, s'⟩ with
    | true => simpa using hwf.initial_of_leaves heff hleaves hops'
    | false =>
      cases hops : s.operations with
      | nil => simp [frontLeaves, hops] at hleaves
      | cons head rest =>
        have hmoves := hwf.feed_of_stays hquiet hall hforwards heff hlast hops hleaves
          hops'
        rw [if_neg (by simp), Table.feedAll_append, hmoves.1, ← hmirror head rest hops]
        exact hmoves.2

/-- In every run whose messages are all handed on, the ledger mirrors the server in every state
reached and discards only in `ExtendedError`, exactly when no CopyFail arrives in COPY IN. -/
theorem ledger_mirrors_server {policy : PipelinePolicy} {h : List LedgerEntry} {p : Pipeline}
    (hr : Run policy h p) (hfwd : ForwardOnly h) :
    ((∀ h₁ h₂ q, h = h₁ ++ h₂ → Run policy h₁ q → Mirrors h₁ q) ∧
      ∀ e ∈ h, DiscardsInError e) ↔
      ∀ e ∈ h, ¬ FailsCopyIn e := by
  constructor
  · rintro ⟨-, hdiscards⟩ e he ⟨hstate, hinput⟩
    rcases hr.mem_split he with ⟨h₁, h₂, -, hbefore, hstep, -⟩
    have heff := (Run.wf hbefore).effect_of_step hstep
    have hforwards := hfwd e he
    rcases e with ⟨q, call, reply, q'⟩
    dsimp only at hstate hinput heff hforwards
    have hnone : ∀ {m : BackendMessage},
        call.request?.map FrontendMessage.variant = some .copyFail →
          call.response? ≠ some m := by
      intro m hrequest hresponse
      cases call <;> simp [Call.request?, Call.response?] at hrequest hresponse
    cases heff with
    | @refused message handling _ hreason =>
      have hfail : message.variant = .copyFail := Option.some.inj hinput
      rcases hreason with hfull | hillegal
      · exact hfull.2.1 hstate
      · rw [hstate, hfail, projectFrontend_copyFail] at hillegal
        cases hillegal
    | @accepted message handling kind next _ _ hproject _ =>
      have hfail : message.variant = .copyFail := Option.some.inj hinput
      have hforward : handling = .forward := hforwards
      subst hforward
      rw [hstate, hfail, projectFrontend_copyFail] at hproject
      cases hproject
      -- The CopyFail record is discarded, and so is the message.
      have hmark : (Operation.admitted q.nextId .copyFail .extendedError .forward).discarded =
          true := rfl
      have herror := hdiscards _ he message _ q.nextId rfl rfl
        (by rw [intoAction_behind, hmark]; rfl)
      dsimp only at herror
      rw [hstate] at herror
      cases herror
    | asynchronous hcall _ | deferred hcall _ | illegal hcall _ | continued hcall _ _ _ _
    | completed hcall _ _ _ _ _ | failed hcall _ _ _ _ _ _ => exact absurd hcall (hnone hinput)
    | deferredError _ _ _ _ _ _ => cases hinput
  · intro hcopy
    refine ⟨?_, ?_⟩
    · rintro h₁ h₂ q rfl hr₁
      exact (Run.mirrors hr₁ (fun e he => hfwd e (by simp [he]))
        (fun e he => hcopy e (by simp [he]))).2
    · intro e he
      rcases hr.mem_split he with ⟨h₁, h₂, -, hbefore, hstep, -⟩
      exact ((Run.wf hbefore).effect_of_step hstep).discardsInError (hcopy e he)

/-- A COPY IN that the client ends with CopyDone is mirrored. -/
theorem ledger_mirrors_server_copyDone :
    ∃ h p, Run .noPipeline h p ∧ ForwardOnly h ∧ (∀ e ∈ h, ¬ FailsCopyIn e) ∧ Mirrors h p ∧
      frontWord h = [.internal .copyInResponse, .external .copyData, .external .copyDone] := by
  obtain ⟨h, p, hr, hfwd, hcopy, hword⟩ :
      ∃ h p, Run .noPipeline h p ∧ ForwardOnly h ∧ (∀ e ∈ h, ¬ FailsCopyIn e) ∧
        frontWord h = [.internal .copyInResponse, .external .copyData, .external .copyDone] :=
    ⟨_, _, .of_exec [.frontend (.query []) .forward, .backend (.copyInResponse ⟨0, []⟩),
      .frontend (.copyData []) .forward, .frontend .copyDone .forward] rfl,
      by decide, by decide, by decide⟩
  have hmirrors := ((ledger_mirrors_server hr hfwd).2 hcopy).1
  exact ⟨h, p, hr, hfwd, hcopy, hmirrors h [] p (List.append_nil h).symm hr, hword⟩

/-- A COPY IN that the client ends with CopyFail: the message is swallowed although the request
state was `CopyIn`, and the front record has moved without the server. -/
theorem copyFail_swallowed :
    ∃ h p, Run .noPipeline h p ∧ ForwardOnly h ∧ ¬ Mirrors h p ∧ ∃ e ∈ h, ¬ DiscardsInError e := by
  obtain ⟨h, p, e, head, rest, admission, hr, hfwd, hops, hstate, hget, hinput, houtput, haction,
      herror⟩ :
      ∃ h p e head rest admission, Run .noPipeline h p ∧ ForwardOnly h ∧
        p.operations = head :: rest ∧
        head.responseState ≠
          transitions.feedAll (initialResponseState head.kind) (frontWord h) ∧
        h[2]? = some e ∧ e.input = .frontend (.copyFail []) .forward ∧
        e.output = .frontend (.ok admission) ∧ admission.intoAction = .discard 1 ∧
        e.before.requestState ≠ .extendedError :=
    ⟨_, _, _, _, _, _, .of_exec [.frontend (.query []) .forward,
      .backend (.copyInResponse ⟨0, []⟩), .frontend (.copyFail []) .forward] rfl,
      by decide, rfl, by decide, rfl, rfl, rfl, rfl, by decide⟩
  refine ⟨h, p, hr, hfwd, ?_, e, List.mem_of_getElem? hget, ?_⟩
  · intro hmirrors
    exact hstate (hmirrors head rest hops)
  · intro hdiscards
    exact herror (hdiscards _ _ _ hinput houtput haction)

end Pipeline
end PgProto
