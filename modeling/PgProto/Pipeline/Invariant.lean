import PgProto.Pipeline.Calls

/-!
# Invariant — reachable ledgers

* `Pipeline.Wf.step`, `Pipeline.Run.wf` — every reachable ledger is well formed;
* `Pipeline.Effect.keys_suffix` — a call ends records at the front of the queue and admits one at
  its end;
* `Pipeline.AllForwarded.effect`, `Pipeline.Run.allForwarded` — while every message is forwarded,
  so is the message of every record.
-/

namespace PgProto

open Backend (RuntimeState respond request)
open Lib

/-! ## What classification can produce -/

variable {state : RequestState} {message : FrontendVariant} {o : Operation} {next : RuntimeState}
  {kind : OperationKind}

/-- COPY data is the only message that leaves the request state in COPY IN. -/
theorem classifyFrontend_copyIn (h : classifyFrontend state message = .ok (some (kind, .copyIn))) :
    state = .copyIn ∧ message = .copyData := by
  cases state <;> cases message <;> first | exact ⟨rfl, rfl⟩ | cases h

theorem classifyFrontend_ne_copyOut {next : RequestState}
    (h : classifyFrontend state message = .ok (some (kind, next))) : next ≠ .copyOut := by
  rintro rfl
  cases state <;> cases message <;> cases h

theorem advance_copyData (h : isCopyInState o.responseState = true) :
    isCopyInState (o.advance .copyData).responseState = true := by
  have hcheck : ∀ state, isCopyInState state = true →
      isCopyInState ((request state .copyData).getD state) = true := by
    decide +kernel
  exact hcheck o.responseState h

theorem advance_owned (message : FrontendVariant) (h : o.responseState ∈ ownedStates o.kind) :
    (o.advance message).responseState ∈ ownedStates o.kind := by
  unfold Operation.advance
  cases hstep : request o.responseState message with
  | none => simpa using h
  | some next => simpa using request_owned hstep h

theorem advance_plain (message : FrontendVariant) (howned : o.responseState ∈ ownedStates o.kind)
    (hplain : isPlain o.responseState = true) : o.advance message = o := by
  simp [Operation.advance, request_plain message howned hplain]

/-- The queue after an admission outside COPY IN, when the front record does not listen. -/
theorem enqueue_plain (hstate : state ≠ .copyIn) (message : FrontendVariant) (record : Operation)
    {os : List Operation} (hhead : ∀ x xs, os = x :: xs → x.advance message = x) :
    enqueue message state record os =
      if os = [] ∧ record.isInert = true then [] else os ++ [record] := by
  cases os with
  | nil => cases hinert : record.isInert <;> simp [enqueue, hinert]
  | cons o os => simp [enqueue, hhead o os rfl, cancelSyncFor, hstate]

theorem copyRequest_plain (hplain : isPlain next = true) (state : RequestState) :
    copyRequest next state = state := by
  cases next <;> first | rfl | cases hplain

theorem copyRequest_eq_copyIn (h : copyRequest next state = .copyIn) :
    isCopyInState next = true ∨ state = .copyIn := by
  rw [isCopyInState_iff_responseCopyState]
  unfold copyRequest at h
  split at h
  · rename_i hcopy
    exact Or.inl hcopy
  · cases h
  · exact Or.inr h

theorem copyRequest_ne_copyOut (h : state ≠ .copyOut) : copyRequest next state ≠ .copyOut := by
  unfold copyRequest
  split
  · simp
  · simp
  · exact h

namespace Pipeline

/-! ## Well-formedness is preserved -/

theorem wf_new (policy : PipelinePolicy) : (new policy).Wf where
  headLive := by
    intro o os h
    cases h
  owned := by
    intro o ho
    cases ho
  waiting := by
    intro o ho
    cases ho
  copyIn := by
    intro h
    cases h
  notCopyOut := by
    intro h
    cases h

variable {p p' : Pipeline} {head o : Operation} {rest os : List Operation}
  {message : FrontendMessage} {call : Call} {reply : Reply} {policy : PipelinePolicy}
  {h : List LedgerEntry}

/-- A record that answers is not in COPY IN, and then neither is the request state. -/
theorem Wf.requestState_ne_copyIn (hwf : p.Wf) {message : BackendVariant} {next : RuntimeState}
    (hops : p.operations = head :: rest) (hstep : respond head.responseState message = some next) :
    p.requestState ≠ .copyIn := by
  intro hcopy
  rcases hwf.copyIn hcopy with ⟨o, os, hcons, hstate⟩
  rw [hops] at hcons
  cases hcons
  simp [respond_copyIn hstep] at hstate

/-- Records that waited behind the front record, discarded or not, are in their first phase. -/
theorem Wf.waiting_of_strip (hwf : p.Wf) (hops : p.operations = head :: rest)
    (hstrip : os.map Operation.strip = rest.map Operation.strip) (ho : o ∈ os) :
    o.responseState = initialResponseState o.kind := by
  rcases exists_strip_eq hstrip ho with ⟨x, hx, hxo⟩
  have hx' : x.responseState = initialResponseState x.kind := hwf.waiting x (by simp [hops, hx])
  rcases Operation.eq_of_strip hxo with ⟨-, hkind, -, hstate⟩
  rw [← hstate, ← hkind]
  exact hx'

/-- The ledger after the front record has left: the queue behind it, with some marks and without
the inert records it starts with. -/
theorem Wf.of_pop (hwf : p.Wf) (hops : p.operations = head :: rest)
    (hstrip : os.map Operation.strip = rest.map Operation.strip)
    (hops' : p'.operations = os.dropWhile Operation.isInert) (hcopy : p'.requestState ≠ .copyIn)
    (hout : p'.requestState ≠ .copyOut) : p'.Wf := by
  have hfirst : ∀ o ∈ p'.operations, o.responseState = initialResponseState o.kind := by
    intro o ho
    rw [hops'] at ho
    exact hwf.waiting_of_strip hops hstrip ((List.dropWhile_suffix _).subset ho)
  refine ⟨?_, ?_, ?_, ?_, hout⟩
  · intro o os' h
    exact isInert_of_dropWhile (hops' ▸ h)
  · intro o ho
    rw [hfirst o ho]
    exact initialResponseState_mem_owned o.kind
  · intro o ho
    exact hfirst o (List.mem_of_mem_tail ho)
  · intro h
    exact absurd h hcopy

theorem Wf.of_accepted (hwf : p.Wf) {handling : FrontendHandling} {next : RequestState}
    (hclass : classifyFrontend p.requestState message.variant = .ok (some (kind, next))) :
    ({ p with
       nextId := saturatingSucc p.nextId
       requestState := next
       operations := enqueue message.variant p.requestState
         (Operation.admitted p.nextId kind next handling) p.operations } : Pipeline).Wf := by
  have hout : next ≠ .copyOut := classifyFrontend_ne_copyOut hclass
  cases hops : p.operations with
  | nil =>
    -- An empty ledger is not in COPY IN, so the new record does not have to be.
    have hcopy : next ≠ .copyIn := by
      rintro rfl
      rcases hwf.copyIn (classifyFrontend_copyIn hclass).1 with ⟨o, os, hcons, -⟩
      simp [hops] at hcons
    by_cases hinert : (Operation.admitted p.nextId kind next handling).isInert
    · refine ⟨?_, ?_, ?_, ?_, hout⟩ <;> simp [enqueue, hinert, hcopy]
    · refine ⟨?_, ?_, ?_, ?_, hout⟩
      · simp only [enqueue, hinert, if_false, List.cons.injEq, Bool.false_eq_true]
        rintro o os ⟨rfl, -⟩
        simpa using hinert
      · simp only [enqueue, hinert, if_false, List.mem_singleton, Bool.false_eq_true]
        rintro o rfl
        exact initialResponseState_mem_owned kind
      · simp [enqueue, hinert]
      · simp [hcopy]
  | cons o os =>
    have hwaiting : ∀ x ∈ cancelSyncFor p.requestState kind os ++
        [Operation.admitted p.nextId kind next handling],
        x.responseState = initialResponseState x.kind := by
      intro x hx
      rcases List.mem_append.1 hx with hx | hx
      · exact hwf.waiting_of_strip hops (cancelSyncFor_map_strip p.requestState kind os) hx
      · rw [List.mem_singleton.1 hx]
        rfl
    have hhead : o.isInert = false := hwf.headLive hops
    refine ⟨?_, ?_, hwaiting, ?_, hout⟩
    · rintro x xs h
      cases h
      exact hhead
    · intro x hx
      rcases List.mem_cons.1 hx with rfl | hx
      · exact advance_owned message.variant (hwf.owned o (by simp [hops]))
      · rw [hwaiting x hx]
        exact initialResponseState_mem_owned x.kind
    · intro hnext
      have hnext' : next = .copyIn := hnext
      subst hnext'
      rcases classifyFrontend_copyIn hclass with ⟨hstate, hdata⟩
      rcases hwf.copyIn hstate with ⟨x, xs, hcons, hx⟩
      rw [hops] at hcons
      cases hcons
      refine ⟨o.advance message.variant, _, rfl, ?_⟩
      rw [hdata]
      exact advance_copyData hx

/-- One call keeps the ledger well formed. -/
theorem Wf.effect (hwf : p.Wf) (h : p.Effect call reply p') : p'.Wf := by
  cases h with
  | refused _ | asynchronous _ _ | deferred _ _ | illegal _ _ => exact hwf
  | accepted _ hproject _ => exact hwf.of_accepted (projectFrontend_classify hproject)
  | completed _ _ hops hstep _ _ =>
    exact hwf.of_pop hops rfl rfl (hwf.requestState_ne_copyIn hops hstep) hwf.notCopyOut
  | @failed _ _ head rest _ _ _ hops hstep _ _ _ =>
    refine hwf.of_pop hops (discardUntilSync_map_strip rest) rfl ?_ ?_
    · dsimp only
      split
      · exact hwf.requestState_ne_copyIn hops hstep
      · simp
    · dsimp only
      split
      · exact hwf.notCopyOut
      · simp
  | @continued _ _ head rest next _ _ hops hstep hmore =>
    have howned := hwf.owned head (by simp [hops])
    refine ⟨?_, ?_, ?_, ?_, copyRequest_ne_copyOut hwf.notCopyOut⟩
    · rintro o os h
      cases h
      have hhead : head.isInert = false := hwf.headLive hops
      exact hhead
    · intro o ho
      rcases List.mem_cons.1 ho with rfl | ho
      · exact respond_owned hstep howned hmore
      · exact hwf.owned o (by simp [hops, ho])
    · intro o ho
      exact hwf.waiting o (by simpa [hops] using ho)
    · intro hcopy
      rcases copyRequest_eq_copyIn hcopy with hnext | hstate
      · exact ⟨_, _, rfl, hnext⟩
      · exact absurd hstate (hwf.requestState_ne_copyIn hops hstep)
  | @deferredError _ _ before o rest _ hops _ _ _ _ =>
    have hstrip : (before ++ o :: (discardUntilSync rest).1).map Operation.strip =
        p.operations.map Operation.strip := by
      simp [hops, discardUntilSync_map_strip]
    -- The front record keeps its place and its mark: discarding starts behind `o`.
    have hfront : ∀ {x xs}, before ++ o :: (discardUntilSync rest).1 = x :: xs →
        ∃ ys, p.operations = x :: ys ∧ xs.map Operation.strip = ys.map Operation.strip := by
      intro x xs hx
      rcases before with _ | ⟨b, bs⟩
      · cases hx
        exact ⟨rest, hops, discardUntilSync_map_strip rest⟩
      · cases hx
        refine ⟨bs ++ o :: rest, hops, ?_⟩
        simp [discardUntilSync_map_strip]
    refine ⟨?_, ?_, ?_, ?_, ?_⟩
    · intro x xs hx
      rcases hfront hx with ⟨ys, hys, -⟩
      exact hwf.headLive hys
    · intro x hx
      rcases exists_strip_eq hstrip hx with ⟨y, hy, hyx⟩
      rcases Operation.eq_of_strip hyx with ⟨-, hkind, -, hstate⟩
      rw [← hstate, ← hkind]
      exact hwf.owned y hy
    · intro x hx
      cases hcons : before ++ o :: (discardUntilSync rest).1 with
      | nil => simp at hcons
      | cons y ys =>
        rcases hfront hcons with ⟨zs, hzs, hstrip'⟩
        have hx' : x ∈ ys := by simpa [hcons] using hx
        exact hwf.waiting_of_strip hzs hstrip' hx'
    · intro hcopy
      have hstate : p.requestState = .copyIn := by
        dsimp only at hcopy
        split at hcopy
        · exact hcopy
        · cases hcopy
      rcases hwf.copyIn hstate with ⟨x, xs, hx, hin⟩
      rcases before with _ | ⟨b, bs⟩
      · rw [hops] at hx
        cases hx
        exact ⟨_, _, rfl, hin⟩
      · rw [hops] at hx
        cases hx
        exact ⟨_, _, rfl, hin⟩
    · dsimp only
      split
      · exact hwf.notCopyOut
      · simp

theorem Wf.step (hwf : p.Wf) (h : Step p call reply p') : p'.Wf :=
  hwf.effect (hwf.effect_of_step h)

/-- Every reachable ledger is well formed. -/
theorem Run.wf (hr : Run policy h p) : p.Wf :=
  hr.invariant (wf_new policy) fun _ _ _ _ hwf hs => hwf.step hs

/-- In COPY IN the client's COPY messages are accepted, whatever the length of the ledger. -/
theorem Wf.acceptFrontend_copyIn (hwf : p.Wf) (hstate : p.requestState = .copyIn)
    {next : RequestState}
    (hproject : projectFrontend .copyIn message.variant = .ok (some (kind, next)))
    (handling : FrontendHandling) :
    p.acceptFrontend message handling =
      .ok (.ok (.behind (!p.operations.isEmpty)
        (handling.action (Operation.admitted p.nextId kind next handling).discarded p.nextId
          message)),
       { p with
         nextId := saturatingSucc p.nextId
         requestState := next
         operations := enqueue message.variant .copyIn
           (Operation.admitted p.nextId kind next handling) p.operations }) := by
  rcases hwf.copyIn hstate with ⟨o, os, hops, hcopy⟩
  -- The record in front is the Query or Execute that is copying.
  have hphase : ∃ phase,
      frontendPhase p.requestState (p.operations.head?.map Operation.kind) = .ok phase := by
    rw [hstate, hops]
    rcases owned_copyIn o.kind o.responseState (hwf.owned o (by simp [hops])) hcopy with hk | hk
    · exact ⟨.simpleCopyIn, by simp [frontendPhase, hk]⟩
    · exact ⟨.extendedCopyIn, by simp [frontendPhase, hk]⟩
  rcases hphase with ⟨phase, hphase⟩
  have haccept := hwf.acceptFrontend_eq (fun _ => Or.inl hstate)
    (by rw [hstate]; exact hproject) hphase handling
  rw [haccept, hstate]

/-! ## Identities -/

/-- Identities and kinds along the queue: the part of a record that no update touches. -/
def keys (p : Pipeline) : List (OperationId × OperationKind) :=
  p.operations.map Operation.key

theorem mem_keys (ho : o ∈ p.operations) : o.key ∈ p.keys :=
  List.mem_map_of_mem ho

/-- The client message of the call is classified as `kind` and leads to the request state `next`. -/
def Offers (p : Pipeline) (call : Call) (kind : OperationKind) (next : RequestState) : Prop :=
  ∃ message handling, call = .frontend message handling ∧
    projectFrontend p.requestState message.variant = .ok (some (kind, next))

instance (p : Pipeline) (call : Call) (kind : OperationKind) (next : RequestState) :
    Decidable (p.Offers call kind next) :=
  match call with
  | .frontend message handling =>
    decidable_of_iff (projectFrontend p.requestState message.variant = .ok (some (kind, next)))
      ⟨fun h => ⟨message, handling, rfl, h⟩, fun ⟨_, _, hcall, h⟩ => by cases hcall; exact h⟩
  | .backend _ => .isFalse fun ⟨_, _, hcall, _⟩ => by cases hcall
  | .emitLocal _ _ => .isFalse fun ⟨_, _, hcall, _⟩ => by cases hcall

/-- `prepare_frontend` does not refuse a message for want of capacity. -/
def HasRoom (p : Pipeline) : Prop :=
  p.operations.length = p.policy.operationLimit →
    p.requestState = .copyIn ∨ p.requestState = .copyBoth

instance : DecidablePred HasRoom := fun p =>
  inferInstanceAs (Decidable (p.operations.length = p.policy.operationLimit →
    p.requestState = .copyIn ∨ p.requestState = .copyBoth))

/-- A call drops records at the front and adds at most the record it admits at the back. -/
theorem Effect.keys_suffix (h : p.Effect call reply p') :
    (reply.isAdmission = false ∧ p'.nextId = p.nextId ∧ p'.keys <:+ p.keys) ∨
      ∃ kind next, p.Offers call kind next ∧ p.HasRoom ∧ reply.isAdmission = true ∧
        p'.nextId = saturatingSucc p.nextId ∧ p'.keys <:+ p.keys ++ [(p.nextId, kind)] := by
  cases h with
  | refused _ | asynchronous _ _ | deferred _ _ | illegal _ _ =>
    exact Or.inl ⟨rfl, rfl, List.suffix_rfl⟩
  | @accepted message handling kind next _ hroom hproject _ =>
    refine Or.inr ⟨kind, next, ⟨message, handling, rfl, hproject⟩, hroom, rfl, rfl, ?_⟩
    cases hops : p.operations with
    | nil =>
      simp only [keys, enqueue, hops]
      split
      · simp
      · exact List.suffix_rfl
    | cons o os =>
      have hcancel := map_key_of_map_strip (cancelSyncFor_map_strip p.requestState kind os)
      have hkind : (Operation.admitted p.nextId kind next handling).kind = kind := rfl
      simp only [keys, enqueue, hops, hkind, List.map_cons, List.map_append, hcancel]
      exact List.suffix_rfl
  | @continued _ _ head rest _ _ _ hops _ _ =>
    refine Or.inl ⟨rfl, rfl, ?_⟩
    simp only [keys, hops, List.map_cons]
    exact List.suffix_rfl
  | @completed _ _ head rest _ _ _ hops _ _ _ =>
    refine Or.inl ⟨rfl, rfl, ?_⟩
    simp only [keys, hops, List.map_cons]
    exact ((List.dropWhile_suffix _).map _).trans (List.suffix_cons _ _)
  | @failed _ _ head rest _ _ _ hops _ _ _ _ =>
    refine Or.inl ⟨rfl, rfl, ?_⟩
    simp only [keys, hops, List.map_cons, ← map_key_of_map_strip (discardUntilSync_map_strip rest)]
    exact ((List.dropWhile_suffix _).map _).trans (List.suffix_cons _ _)
  | @deferredError _ _ before o rest _ hops _ _ _ _ =>
    refine Or.inl ⟨rfl, rfl, ?_⟩
    have hdiscard := map_key_of_map_strip (discardUntilSync_map_strip rest)
    simp only [keys, hops, List.map_append, List.map_cons, hdiscard]
    exact List.suffix_rfl

theorem Effect.policy_eq (h : p.Effect call reply p') : p'.policy = p.policy := by
  cases h <;> rfl

theorem Run.policy_eq (hr : Run policy h p) : p.policy = policy := by
  induction hr with
  | nil => rfl
  | snoc hr hs ih => rw [((Run.wf hr).effect_of_step hs).policy_eq, ih]

/-! ## Runs without local handling -/

/-- Every frontend message of the run is admitted with `FrontendHandling::Forward`. -/
def ForwardOnly (h : List LedgerEntry) : Prop :=
  ∀ e ∈ h, e.input.Forwards

instance (h : List LedgerEntry) : Decidable (ForwardOnly h) :=
  inferInstanceAs (Decidable (∀ e ∈ h, e.input.Forwards))

def AllForwarded (p : Pipeline) : Prop :=
  ∀ o ∈ p.operations, o.origin = .forwarded

theorem AllForwarded.of_strip (hall : p.AllForwarded) (hrest : ∀ o ∈ rest, o ∈ p.operations)
    (hstrip : os.map Operation.strip = rest.map Operation.strip) (ho : o ∈ os) :
    o.origin = .forwarded := by
  rcases exists_strip_eq hstrip ho with ⟨x, hx, hxo⟩
  rw [← (Operation.eq_of_strip hxo).2.2.1]
  exact hall x (hrest x hx)

/-- No local record, so no deferred error. -/
theorem AllForwarded.not_local (hall : p.AllForwarded) {before : List Operation}
    (hops : p.operations = before ++ o :: rest) (horigin : o.origin = .local) : False := by
  have hforwarded := hall o (by simp [hops])
  rw [horigin] at hforwarded
  cases hforwarded

theorem AllForwarded.effect (hall : p.AllForwarded) (h : p.Effect call reply p')
    (hfwd : call.Forwards) : p'.AllForwarded := by
  cases h with
  | refused _ | asynchronous _ _ | deferred _ _ | illegal _ _ => exact hall
  | @accepted message handling kind next _ _ _ _ =>
    have hhandling : handling = .forward := hfwd
    subst hhandling
    intro o ho
    cases hops : p.operations with
    | nil =>
      simp only [hops, enqueue] at ho
      split at ho
      · cases ho
      · rw [List.mem_singleton.1 ho]
        rfl
    | cons head rest =>
      simp only [hops, enqueue] at ho
      have hrest : ∀ o ∈ rest, o ∈ p.operations := by
        intro x hx
        simp [hops, hx]
      rcases List.mem_cons.1 ho with rfl | ho
      · have hhead : head.origin = .forwarded := hall head (by simp [hops])
        exact hhead
      · rcases List.mem_append.1 ho with ho | ho
        · exact hall.of_strip hrest (cancelSyncFor_map_strip _ _ _) ho
        · rw [List.mem_singleton.1 ho]
          rfl
  | @continued _ _ head rest _ _ _ hops _ _ =>
    intro o ho
    rcases List.mem_cons.1 ho with rfl | ho
    · have hhead : head.origin = .forwarded := hall head (by simp [hops])
      exact hhead
    · exact hall o (by simp [hops, ho])
  | @completed _ _ head rest _ _ _ hops _ _ _ =>
    intro o ho
    exact hall o (by simp [hops, (List.dropWhile_suffix _).subset ho])
  | @failed _ _ head rest _ _ _ hops _ _ _ _ =>
    intro o ho
    have hrest : ∀ o ∈ rest, o ∈ p.operations := by
      intro x hx
      simp [hops, hx]
    exact hall.of_strip hrest (discardUntilSync_map_strip rest)
      ((List.dropWhile_suffix _).subset ho)
  | deferredError _ hops _ _ horigin _ => exact (hall.not_local hops horigin).elim

theorem allForwarded_new (policy : PipelinePolicy) : (new policy).AllForwarded := by
  intro o ho
  cases ho

theorem Run.allForwarded (hr : Run policy h p) (hfwd : ForwardOnly h) : p.AllForwarded := by
  induction hr with
  | nil => exact allForwarded_new policy
  | @snoc h s s' i o hr hs ih =>
    have hlast := hfwd ⟨s, i, o, s'⟩ (by simp)
    have hbefore := ih fun e he => hfwd e (by simp [he])
    exact hbefore.effect ((Run.wf hr).effect_of_step hs) hlast

end Pipeline
end PgProto
