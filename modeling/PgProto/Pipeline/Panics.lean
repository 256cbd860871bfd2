import PgProto.Pipeline.Recovery

/-!
# Panics — which peer traffic reaches an `unreachable!`

Of the panicking sites of the ledger only one can be reached: `frontend_phase` demands that in a
COPY phase the front record is a Query or an Execute.  `CopyOwned` says just that, and it decides
whether any call can panic (`Wf.panicFree_iff`).

COPY IN keeps its owner at the front until the client ends the copy.  COPY BOTH does not: the
request state stays `CopyBoth` when the server ends the operation.  `no_panic` names the steps at
which the owner is lost.
-/

namespace PgProto

open Backend (RuntimeState respond)
open Lib

def isCopyOwner (kind : OperationKind) : Bool :=
  decide (kind = .query) || decide (kind = .execute)

variable {kind : OperationKind} {state : RequestState} {message : FrontendVariant}

theorem isCopyOwner_iff : isCopyOwner kind = true ↔ kind = .query ∨ kind = .execute := by
  simp [isCopyOwner]

theorem frontendPhase_owner (hstate : state = .copyIn ∨ state = .copyBoth)
    (hkind : isCopyOwner kind = true) : ∃ phase, frontendPhase state (some kind) = .ok phase := by
  rcases isCopyOwner_iff.1 hkind with rfl | rfl <;> rcases hstate with rfl | rfl <;>
    exact ⟨_, rfl⟩

theorem frontendPhase_no_owner (hstate : state = .copyIn ∨ state = .copyBoth)
    (hkind : isCopyOwner kind = false) :
    frontendPhase state (some kind) = .error .copyPhaseOwner := by
  rcases hstate with rfl | rfl <;> cases kind <;> first | rfl | cases hkind

/-- The first record that owes a response. -/
def nextOwing (os : List Operation) : Option Operation :=
  (os.dropWhile Operation.isInert).head?

theorem projectFrontend_ok (state : RequestState) (message : FrontendVariant) :
    ∃ result, projectFrontend state message = .ok result := by
  unfold projectFrontend
  split
  · exact ⟨_, rfl⟩
  · exact classifyFrontend_ok state message

theorem projectFrontend_silent (hstate : state = .copyOut ∨ state = .terminated)
    (message : FrontendVariant) : projectFrontend state message = .ok none := by
  rcases hstate with rfl | rfl <;> cases message <;> rfl

theorem projectFrontend_open {result : OperationKind × RequestState}
    (h : projectFrontend state message = .ok (some result)) :
    state ≠ .copyOut ∧ state ≠ .terminated := by
  constructor
  · intro hstate
    rw [projectFrontend_silent (Or.inl hstate)] at h
    cases h
  · intro hstate
    rw [projectFrontend_silent (Or.inr hstate)] at h
    cases h

theorem projectFrontend_copyData (hstate : state = .copyIn ∨ state = .copyBoth) :
    ∃ result, projectFrontend state .copyData = .ok (some result) := by
  rcases hstate with rfl | rfl <;> exact ⟨_, rfl⟩

/-- A message keeps the request state in a COPY phase only if it was there already. -/
theorem classifyFrontend_copy {next : RequestState}
    (h : classifyFrontend state message = .ok (some (kind, next)))
    (hnext : next = .copyIn ∨ next = .copyBoth) : state = .copyIn ∨ state = .copyBoth := by
  rcases hnext with rfl | rfl
  · exact Or.inl (classifyFrontend_copyIn h).1
  · cases state <;> cases message <;> first | exact Or.inr rfl | cases h

/-- Only a Query or an Execute has phases of COPY IN and COPY BOTH. -/
theorem owned_copyRequest : ∀ kind, ∀ state ∈ ownedStates kind,
    responseCopyState state = some .copyIn ∨ responseCopyState state = some .copyBoth →
      isCopyOwner kind = true := by
  decide

theorem copyRequest_copy {next : RuntimeState}
    (h : copyRequest next state = .copyIn ∨ copyRequest next state = .copyBoth) :
    (responseCopyState next = some .copyIn ∨ responseCopyState next = some .copyBoth) ∨
      (state = .copyIn ∨ state = .copyBoth) := by
  unfold copyRequest at h
  split at h
  · rename_i hcopy
    exact Or.inl (Or.inl hcopy)
  · rename_i hcopy
    exact Or.inl (Or.inr hcopy)
  · exact Or.inr h

namespace Pipeline

/-! ## When a call can panic -/

/-- In a COPY phase the front record is a Query or an Execute. -/
def CopyOwned (p : Pipeline) : Prop :=
  p.requestState = .copyIn ∨ p.requestState = .copyBoth →
    ∃ o os, p.operations = o :: os ∧ isCopyOwner o.kind = true

theorem copyOwned_new (policy : PipelinePolicy) : (new policy).CopyOwned := by
  intro h
  rcases h with h | h <;> cases h

variable {p p' : Pipeline} {call : Call} {head : Operation} {rest : List Operation}
  {message : BackendMessage} {reply : Reply}

theorem frontendPhase_ok (howned : p.CopyOwned)
    (hopen : p.requestState ≠ .copyOut ∧ p.requestState ≠ .terminated) :
    ∃ phase, frontendPhase p.requestState (p.operations.head?.map Operation.kind) = .ok phase := by
  cases hstate : p.requestState with
  | ready | extended bound | extendedError => exact ⟨_, rfl⟩
  | copyOut => exact absurd hstate hopen.1
  | terminated => exact absurd hstate hopen.2
  | copyIn =>
    rcases howned (Or.inl hstate) with ⟨o, os, hops, hkind⟩
    rw [hops]
    exact frontendPhase_owner (Or.inl rfl) hkind
  | copyBoth =>
    rcases howned (Or.inr hstate) with ⟨o, os, hops, hkind⟩
    rw [hops]
    exact frontendPhase_owner (Or.inr rfl) hkind

theorem acceptFrontend_ok (howned : p.CopyOwned) (message : FrontendMessage)
    (handling : FrontendHandling) : ∃ r, p.acceptFrontend message handling = .ok r := by
  unfold acceptFrontend prepareFrontend
  by_cases hfull : p.operations.length = p.policy.operationLimit ∧
      p.requestState ≠ .copyIn ∧ p.requestState ≠ .copyBoth
  · rw [if_pos hfull]
    exact ⟨_, rfl⟩
  · rw [if_neg hfull]
    rcases projectFrontend_ok p.requestState message.variant with ⟨result, hproject⟩
    rw [hproject]
    rcases result with _ | ⟨kind, next⟩
    · exact ⟨_, rfl⟩
    · rcases frontendPhase_ok howned (projectFrontend_open hproject) with ⟨phase, hphase⟩
      have hclass := projectFrontend_classify hproject
      simp only [hphase, commitFrontend, hclass]
      exact ⟨_, rfl⟩

/-- No call panics exactly when a COPY phase has its owner at the front. -/
theorem panicFree_iff (p : Pipeline) : (∀ c, ∃ r, p.call c = .ok r) ↔ p.CopyOwned := by
  constructor
  · intro hok hcopy
    by_contra hlost
    -- COPY data would be prepared for a phase that has no owner.
    rcases hok (.frontend (.copyData []) .forward) with ⟨r, hr⟩
    have hroom : ¬(p.operations.length = p.policy.operationLimit ∧
        p.requestState ≠ .copyIn ∧ p.requestState ≠ .copyBoth) := by
      rintro ⟨-, hin, hboth⟩
      rcases hcopy with h | h
      · exact hin h
      · exact hboth h
    rcases projectFrontend_copyData hcopy with ⟨result, hproject⟩
    have hphase : frontendPhase p.requestState (p.operations.head?.map Operation.kind) =
        .error .copyPhaseOwner := by
      cases hops : p.operations with
      | nil =>
        rcases hcopy with h | h <;> rw [h] <;> rfl
      | cons o os =>
        have hkind : isCopyOwner o.kind = false := by
          by_contra hkind
          exact hlost ⟨o, os, hops, by simpa using hkind⟩
        exact frontendPhase_no_owner hcopy hkind
    have hvariant : (FrontendMessage.copyData []).variant = .copyData := rfl
    simp [call, acceptFrontend, prepareFrontend, if_neg hroom, hvariant, hproject, hphase,
      Except.map] at hr
  · intro howned c
    cases c with
    | frontend message handling =>
      rcases acceptFrontend_ok howned message handling with ⟨r, hr⟩
      exact ⟨_, by simp only [call, hr, Except.map]; rfl⟩
    | backend message =>
      rcases p.acceptResponse_ok none message with ⟨r, hr⟩
      exact ⟨_, by simp only [call, acceptBackend, hr, Except.map]; rfl⟩
    | emitLocal id message =>
      rcases p.acceptResponse_ok (some id) message with ⟨r, hr⟩
      exact ⟨_, by simp only [call, tryEmitLocal, hr, Except.map]; rfl⟩

/-! ## Where the owner is lost -/

/-- The call ends the front operation: its response fits and is the last one. -/
def EndsFront (p : Pipeline) (call : Call) (head : Operation) (rest : List Operation)
    (message : BackendMessage) : Prop :=
  p.operations = head :: rest ∧ call.response? = some message ∧ call.Addresses head ∧
    responseFits head message.variant = true ∧
    responseIsTerminal head.kind message.variant = true

/-- When an operation ends in COPY BOTH, the request state falls back to `ExtendedError` or the
next record that owes a response can own the phase. -/
def CopyBothPassedOn (p : Pipeline) (call : Call) : Prop :=
  p.requestState = .copyBoth → ∀ head rest message, p.EndsFront call head rest message →
    if message.variant = .errorResponse ∧ isExtendedKind head.kind = true then
      fromSync rest = [] ∨ ∃ o, nextOwing (fromSync rest) = some o ∧ isCopyOwner o.kind = true
    else
      ∃ o, nextOwing rest = some o ∧ isCopyOwner o.kind = true

theorem nextOwing_eq_some {os : List Operation} {o : Operation} :
    nextOwing os = some o ↔ ∃ rest, os.dropWhile Operation.isInert = o :: rest := by
  unfold nextOwing
  cases os.dropWhile Operation.isInert <;> simp

theorem nextOwing_owner {os : List Operation} :
    (∃ o, nextOwing os = some o ∧ isCopyOwner o.kind = true) ↔
      ∃ o rest, os.dropWhile Operation.isInert = o :: rest ∧ isCopyOwner o.kind = true := by
  simp only [nextOwing_eq_some, exists_and_right]

theorem EndsFront.unique {head' : Operation} {rest' : List Operation} {message' : BackendMessage}
    (h : p.EndsFront call head rest message) (h' : p.EndsFront call head' rest' message') :
    head = head' ∧ rest = rest' ∧ message = message' := by
  rcases h with ⟨hops, hcall, -⟩
  rcases h' with ⟨hops', hcall', -⟩
  rw [hops] at hops'
  rw [hcall] at hcall'
  cases hops'
  cases hcall'
  exact ⟨rfl, rfl, rfl⟩

theorem Wf.reply_of_ends (hwf : p.Wf) (hstep : Step p call reply p')
    (hends : p.EndsFront call head rest message) :
    reply = .backend (.ok (.emit message)) ∧ ∃ next,
      respond head.responseState message.variant = some next := by
  rcases hends with ⟨hops, hcall, haddr, hfits, -⟩
  have hhead := hwf.headLive hops
  have hlive : head.discarded = false := (Operation.isInert_eq_false.1 hhead).2
  rcases call_of_fits hops hlive hcall haddr hfits with ⟨next, hnext, hok⟩
  have hstep' : p.call call = .ok (reply, p') := hstep
  rw [hok] at hstep'
  cases hstep'
  exact ⟨rfl, next, hnext⟩

/-- A call that ends no operation keeps the owner of a COPY phase at the front. -/
theorem CopyOwned.of_not_ends (hwf : p.Wf) (howned : p.CopyOwned) (heff : p.Effect call reply p')
    (hgoes : ∀ head rest message, ¬ p.EndsFront call head rest message) : p'.CopyOwned := by
  have hends : ∀ {head : Operation} {rest : List Operation} {message : BackendMessage}
      {next : RuntimeState}, call.response? = some message → call.Addresses head →
      p.operations = head :: rest → respond head.responseState message.variant = some next →
      responseIsTerminal head.kind message.variant = true → False := by
    intro head rest message next hcall haddr hops hnext hlast
    have hfits : responseFits head message.variant = true := responseFits_of_respond hnext
    exact hgoes head rest message ⟨hops, hcall, haddr, hfits, hlast⟩
  cases heff with
  | refused _ | asynchronous _ _ | deferred _ _ | illegal _ _ => exact howned
  | completed hcall haddr hops hnext hlast _ | failed hcall haddr hops hnext hlast _ _ =>
    exact (hends hcall haddr hops hnext hlast).elim
  | @accepted message handling kind next _ _ hproject _ =>
    intro hcopy
    have hstate := classifyFrontend_copy (projectFrontend_classify hproject) hcopy
    rcases howned hstate with ⟨o, os, hops, hkind⟩
    exact ⟨o.advance message.variant, _, by simp only [hops, enqueue]; rfl, hkind⟩
  | @continued _ _ head rest next _ _ hops hnext hmore =>
    intro hcopy
    refine ⟨_, _, rfl, ?_⟩
    rcases copyRequest_copy hcopy with hphase | hstate
    · have hmem := respond_owned hnext (hwf.owned head (by simp [hops])) hmore
      exact owned_copyRequest head.kind next hmem hphase
    · rcases howned hstate with ⟨o, os, hops', hkind⟩
      rw [hops] at hops'
      cases hops'
      exact hkind
  | @deferredError _ _ before o rest _ hops _ _ _ _ =>
    intro hcopy
    have hstate : p.requestState = .copyIn ∨ p.requestState = .copyBoth := by
      dsimp only at hcopy
      split at hcopy
      · exact hcopy
      · rcases hcopy with h | h <;> cases h
    rcases howned hstate with ⟨x, xs, hops', hkind⟩
    rw [hops] at hops'
    rcases before with _ | ⟨b, bs⟩
    · cases hops'
      exact ⟨_, _, rfl, hkind⟩
    · cases hops'
      exact ⟨_, _, rfl, hkind⟩

/-- A call that ends an operation keeps a COPY phase owned exactly when it is passed on. -/
theorem Wf.copyOwned_of_ends (hwf : p.Wf) (hstep : Step p call reply p')
    (hends : p.EndsFront call head rest message) : p'.CopyOwned ↔ p.CopyBothPassedOn call := by
  rcases hwf.reply_of_ends hstep hends with ⟨rfl, next, hnext⟩
  have hin : p.requestState ≠ .copyIn := hwf.requestState_ne_copyIn hends.1 hnext
  -- The condition is about the one operation that this call ends.
  have hpassed : p.CopyBothPassedOn call ↔ (p.requestState = .copyBoth →
      if message.variant = .errorResponse ∧ isExtendedKind head.kind = true then
        fromSync rest = [] ∨ ∃ o, nextOwing (fromSync rest) = some o ∧ isCopyOwner o.kind = true
      else
        ∃ o, nextOwing rest = some o ∧ isCopyOwner o.kind = true) := by
    constructor
    · intro h hboth
      exact h hboth head rest message hends
    · intro h hboth head' rest' message' hends'
      rcases hends.unique hends' with ⟨rfl, rfl, rfl⟩
      exact h hboth
  rw [hpassed]
  -- Of the effects of a call, only a completion and a failure end an operation.
  cases hwf.effect_of_step hstep with
  | asynchronous hcall hasync =>
    rw [hends.2.1] at hcall
    cases hcall
    have hsync : isAsynchronous message = false := respond_not_asynchronous hnext
    rw [hsync] at hasync
    cases hasync
  | continued hcall _ hops _ hmore =>
    rw [hends.2.1] at hcall
    rw [hends.1] at hops
    cases hcall
    cases hops
    rw [hends.2.2.2.2] at hmore
    cases hmore
  | completed hcall _ hops _ _ hplain =>
    rw [hends.2.1] at hcall
    rw [hends.1] at hops
    cases hcall
    cases hops
    rw [if_neg hplain, nextOwing_owner]
    simp only [CopyOwned, hin, false_or]
  | failed hcall _ hops _ _ herror hext =>
    rw [hends.2.1] at hcall
    rw [hends.1] at hops
    cases hcall
    cases hops
    have hfound : (discardUntilSync rest).2 = !(fromSync rest).isEmpty := by
      rw [discardUntilSync_eq]
    simp only [CopyOwned, nextOwing_owner, dropWhile_discardUntilSync, hfound,
      if_pos (And.intro herror hext)]
    -- Without a Sync in the queue the request state falls back to `ExtendedError`.
    cases hfrom : fromSync rest with
    | nil => simp
    | cons sync after =>
      simp only [List.isEmpty_cons, Bool.not_false, if_true, hin, false_or, reduceCtorEq]

theorem Wf.copyOwned_step (hwf : p.Wf) (howned : p.CopyOwned) (hstep : Step p call reply p') :
    p'.CopyOwned ↔ p.CopyBothPassedOn call := by
  by_cases hends : ∃ head rest message, p.EndsFront call head rest message
  · rcases hends with ⟨head, rest, message, hends⟩
    exact hwf.copyOwned_of_ends hstep hends
  · have hnone : ∀ head rest message, ¬ p.EndsFront call head rest message := by
      intro head rest message h
      exact hends ⟨head, rest, message, h⟩
    constructor
    · intro _ _ head rest message h
      exact absurd h (hnone head rest message)
    · intro _
      exact howned.of_not_ends hwf (hwf.effect_of_step hstep) hnone

/-! ## No panic from peer traffic -/

/-- In every run, no call panics in any state reached, and every COPY message that is accepted finds
a Query or an Execute at the front, exactly when every step that ends an operation in COPY BOTH
passes the phase on. -/
theorem no_panic {policy : PipelinePolicy} {h : List LedgerEntry} {p : Pipeline}
    (hr : Run policy h p) :
    (∀ q ∈ History.States (new policy) h, (∀ c, ∃ r, q.call c = .ok r) ∧
      ∀ message result, projectFrontend q.requestState message = .ok (some result) →
        q.requestState = .copyIn ∨ q.requestState = .copyBoth →
          ∃ o os, q.operations = o :: os ∧ (o.kind = .query ∨ o.kind = .execute)) ↔
      ∀ e ∈ h, e.before.CopyBothPassedOn e.input := by
  have howned : ∀ q : Pipeline, ((∀ c, ∃ r, q.call c = .ok r) ∧
      ∀ message result, projectFrontend q.requestState message = .ok (some result) →
        q.requestState = .copyIn ∨ q.requestState = .copyBoth →
          ∃ o os, q.operations = o :: os ∧ (o.kind = .query ∨ o.kind = .execute)) ↔
      q.CopyOwned := by
    intro q
    rw [panicFree_iff]
    refine and_iff_left_of_imp ?_
    intro hq message result _ hcopy
    rcases hq hcopy with ⟨o, os, hops, hkind⟩
    exact ⟨o, os, hops, isCopyOwner_iff.1 hkind⟩
  simp only [howned]
  refine History.states_iff (copyOwned_new policy) hr ?_
  intro e he howned
  rcases hr.mem_split he with ⟨h₁, h₂, -, hbefore, hstep, -⟩
  exact (Run.wf hbefore).copyOwned_step howned hstep

/-- A whole COPY IN: no state on the way lets a call panic. -/
theorem no_panic_copy_in :
    ∃ h p, Run .noPipeline h p ∧ p.nextId = 3 ∧
      ∀ q ∈ History.States (new .noPipeline) h, ∀ c, ∃ r, q.call c = .ok r := by
  obtain ⟨h, p, hr, hid, hstates⟩ : ∃ h p, Run .noPipeline h p ∧ p.nextId = 3 ∧
      ∀ e ∈ h, e.before.requestState ≠ .copyBoth :=
    ⟨_, _, .of_exec [.frontend (.query []) .forward, .backend (.copyInResponse ⟨0, []⟩),
      .frontend (.copyData []) .forward, .frontend .copyDone .forward,
      .backend (.commandComplete []), .backend (.readyForQuery .idle)] rfl, rfl, by decide⟩
  have hpassed : ∀ e ∈ h, e.before.CopyBothPassedOn e.input := by
    intro e he hboth
    exact absurd hboth (hstates e he)
  exact ⟨h, p, hr, hid, fun q hq => ((no_panic hr).2 hpassed q hq).1⟩

/-- A query answered with COPY BOTH and, after an error, with ReadyForQuery: the next COPY data
message of the client panics. -/
theorem copy_both_panics :
    ∃ h p, Run .noPipeline h p ∧
      p.call (.frontend (.copyData []) .forward) = .error .copyPhaseOwner :=
  ⟨_, _, .of_exec [.frontend (.query []) .forward, .backend (.copyBothResponse ⟨0, []⟩),
    .backend (.errorResponse ⟨[]⟩), .backend (.readyForQuery .idle)] rfl, rfl⟩

end Pipeline
end PgProto
