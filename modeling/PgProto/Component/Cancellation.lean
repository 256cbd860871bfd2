import PgProto.Component.AcceptStartup
import PgProto.Lib.Stamps

/-!
# Cancellation — registrations of the intermediary

The rest of `Intermediary::accept` of `src/intermediary_component.rs`: what comes before
`connect_core`, and what happens to the cancellation registry on every way out.

An intermediary registers the key of its server once, after the upstream session is there, and
whatever fails from then on goes through `abandon`.  `Guarded` says this of one computation: it keeps
the registration, or it fails and has detached it.

`InMemoryCancellationRegistry` is a registry with the laws of a map (`IsMap`), under which
`registrations_not_leaked` says what is left in it.  `Shared` follows one registry through the calls
and sessions that share it.
-/

namespace PgProto
namespace Component

open Lib Fallible

/-! ## Registries -/

section Registries

variable {κ τ ρ : Type}

/-- The registry is a map from client keys to routes, which `resolve` looks up. -/
structure CancellationRegistry.IsMap (registry : CancellationRegistry κ τ ρ)
    (resolve : κ → PartialMap CancelKey (CancellationRoute τ)) : Prop where
  registered : ∀ {contents route key contents'},
    registry.register contents route = (.ok key, contents') →
      resolve contents' = (resolve contents).insert key route
  refused : ∀ {contents route error contents'},
    registry.register contents route = (.error error, contents') →
      resolve contents' = resolve contents
  found : ∀ contents key, (registry.detach contents key).1 = resolve contents key
  detached : ∀ contents key,
    resolve (registry.detach contents key).2 = (resolve contents).remove key

/-- The contents after the at most one registration of a call, with the key and the route of it. -/
inductive Registration (registry : CancellationRegistry κ τ ρ) (contents : κ) :
    Option (CancelKey × CancellationRoute τ) → κ → Prop
  | none : Registration registry contents none contents
  | refused {route : CancellationRoute τ} {error : ρ} {contents' : κ}
      (h : registry.register contents route = (.error error, contents')) :
      Registration registry contents none contents'
  | made {route : CancellationRoute τ} {key : CancelKey} {contents' : κ}
      (h : registry.register contents route = (.ok key, contents')) :
      Registration registry contents (some (key, route)) contents'

/-- The contents after the key of a registration is detached. -/
def CancellationRegistry.release (registry : CancellationRegistry κ τ ρ) (contents : κ) :
    Option CancelKey → κ
  | none => contents
  | some key => (registry.detach contents key).2

/-- The map with the route of a registration. -/
def withRoute (routes : PartialMap CancelKey (CancellationRoute τ)) :
    Option (CancelKey × CancellationRoute τ) → PartialMap CancelKey (CancellationRoute τ)
  | none => routes
  | some (key, route) => routes.insert key route

/-- The map without the key of a registration. -/
def withoutKey (routes : PartialMap CancelKey (CancellationRoute τ)) :
    Option CancelKey → PartialMap CancelKey (CancellationRoute τ)
  | none => routes
  | some key => routes.remove key

variable {registry : CancellationRegistry κ τ ρ}
  {resolve : κ → PartialMap CancelKey (CancellationRoute τ)}

theorem Registration.resolve_eq (hmap : registry.IsMap resolve) {contents contents' : κ}
    {made : Option (CancelKey × CancellationRoute τ)}
    (h : Registration registry contents made contents') :
    resolve contents' = withRoute (resolve contents) made := by
  cases h with
  | none => rfl
  | refused h => exact hmap.refused h
  | made h => exact hmap.registered h

theorem CancellationRegistry.IsMap.release_eq (hmap : registry.IsMap resolve) (contents : κ)
    (key : Option CancelKey) :
    resolve (registry.release contents key) = withoutKey (resolve contents) key := by
  cases key with
  | none => rfl
  | some key => exact hmap.detached contents key

/-- What is registered and detached again is gone, and nothing else has changed. -/
theorem withoutKey_withRoute (routes : PartialMap CancelKey (CancellationRoute τ))
    (made : Option (CancelKey × CancellationRoute τ)) :
    withoutKey (withRoute routes made) (made.map Prod.fst) =
      withoutKey routes (made.map Prod.fst) := by
  cases made with
  | none => rfl
  | some entry => exact Function.update_idem _ _ _

end Registries

/-! ## The registry in memory -/

section InMemory

variable {τ : Type}

/-- The routes behind a lock. -/
structure InMemoryCancellationRegistry (τ : Type) where
  routes : PartialMap CancelKey (CancellationRoute τ)
  poisoned : Bool

inductive InMemoryCancellationRegistryError
  | duplicateKey
  | poisoned
  deriving DecidableEq, Repr

namespace InMemoryCancellationRegistry

def new : InMemoryCancellationRegistry τ :=
  { routes := .empty
    poisoned := false }

def register (contents : InMemoryCancellationRegistry τ) (route : CancellationRoute τ) :
    Except InMemoryCancellationRegistryError CancelKey × InMemoryCancellationRegistry τ :=
  let clientKey := route.upstream
  if contents.poisoned then
    (.error .poisoned, contents)
  else if (contents.routes clientKey).isSome then
    (.error .duplicateKey, contents)
  else
    (.ok clientKey, { contents with routes := contents.routes.insert clientKey route })

def resolve (contents : InMemoryCancellationRegistry τ) :
    PartialMap CancelKey (CancellationRoute τ) := fun client =>
  if contents.poisoned then none else contents.routes client

def detach (contents : InMemoryCancellationRegistry τ) (client : CancelKey) :
    Option (CancellationRoute τ) × InMemoryCancellationRegistry τ :=
  if contents.poisoned then
    (none, contents)
  else
    (contents.routes client, { contents with routes := contents.routes.remove client })

def registry : CancellationRegistry (InMemoryCancellationRegistry τ) τ
    InMemoryCancellationRegistryError :=
  { register := register
    detach := detach }

theorem isMap : (registry (τ := τ)).IsMap resolve where
  registered := by
    rintro ⟨routes, poisoned⟩ route key contents' h
    simp only [registry, register] at h
    split_ifs at h with hpoisoned <;> cases h
    rw [Bool.not_eq_true] at hpoisoned
    subst hpoisoned
    rfl
  refused := by
    rintro ⟨routes, poisoned⟩ route error contents' h
    simp only [registry, register] at h
    split_ifs at h <;> cases h <;> rfl
  found := by
    rintro ⟨routes, poisoned⟩ key
    cases poisoned <;> rfl
  detached := by
    rintro ⟨routes, poisoned⟩ key
    cases poisoned with
    | true =>
      -- a lock that is poisoned has no routes for anyone
      funext client
      by_cases hclient : client = key <;> simp [registry, detach, resolve, PartialMap.remove, hclient]
    | false => rfl

end InMemoryCancellationRegistry
end InMemory

/-! ## Detaching -/

section Detaching

variable {σ π ε ι δ τ κ ρ β : Type}

/-- `detach_cancellation` of a session. -/
def Accepting.detach (registry : CancellationRegistry κ τ ρ) (w : Accepting σ κ) :
    Option (CancellationRoute τ) × Accepting σ κ :=
  match w.clientCancelKey with
  | none => (none, w)
  | some key =>
    ((registry.detach w.registry key).1,
      { w with
        clientCancelKey := none
        registry := (registry.detach w.registry key).2 })

/-- `teardown` of a session, which panics while messages of the server are held. -/
def Accepting.teardown (registry : CancellationRegistry κ τ ρ) (held : Bool) (w : Accepting σ κ) :
    Option (Accepting σ κ) :=
  if held then none else some (w.detach registry).2

variable {intermediary : Intermediary σ π ε ι δ τ κ ρ β}

theorem detachCancellation_eq :
    (detachCancellation intermediary : Accept σ κ ε δ ρ β Unit) =
      modify fun w => (w.detach intermediary.cancellationRegistry).2 := by
  unfold detachCancellation
  congr 1
  funext w
  unfold Accepting.detach
  cases w.clientCancelKey <;> rfl

theorem Accepting.registry_detach (registry : CancellationRegistry κ τ ρ) (w : Accepting σ κ) :
    (w.detach registry).2.registry = registry.release w.registry w.clientCancelKey := by
  unfold Accepting.detach CancellationRegistry.release
  cases w.clientCancelKey <;> rfl

theorem Accepting.route_detach (registry : CancellationRegistry κ τ ρ) (w : Accepting σ κ) :
    (w.detach registry).1 = w.clientCancelKey.bind fun key => (registry.detach w.registry key).1 := by
  unfold Accepting.detach
  cases w.clientCancelKey <;> rfl

/-! ## Guarded computations -/

/-- The registration stands as before. -/
structure Accepting.Keeps (w w' : Accepting σ κ) : Prop where
  registry : w'.registry = w.registry
  clientCancelKey : w'.clientCancelKey = w.clientCancelKey

theorem Accepting.Keeps.trans {w w' w'' : Accepting σ κ} (h : w.Keeps w') (h' : w'.Keeps w'') :
    w.Keeps w'' :=
  ⟨h'.registry.trans h.registry, h'.clientCancelKey.trans h.clientCancelKey⟩

variable (intermediary) in
/-- The registration stands, or the computation fails and its key is detached. -/
def Guarded {α : Type} (m : Accept σ κ ε δ ρ β α) : Prop :=
  ∀ w, Fallible.wp m
    (fun _ w' => w'.registry =
      intermediary.cancellationRegistry.release w.registry w.clientCancelKey)
    (fun _ w' => w.Keeps w') w

variable {α : Type} {m : Accept σ κ ε δ ρ β α}

theorem Guarded.after (h : Guarded intermediary m) {w w₁ : Accepting σ κ} (hw : w.Keeps w₁) :
    wp m
      (fun _ w' => w'.registry =
        intermediary.cancellationRegistry.release w.registry w.clientCancelKey)
      (fun _ w' => w.Keeps w') w₁ := by
  refine wp_mono (h w₁) ?_ fun _ _ h => hw.trans h
  intro failure w' hreleased
  rw [hreleased, hw.registry, hw.clientCancelKey]

theorem guarded_pure (a : α) : Guarded intermediary (pure a : Accept σ κ ε δ ρ β α) :=
  fun _ => ⟨rfl, rfl⟩

theorem guarded_bind {γ : Type} {f : α → Accept σ κ ε δ ρ β γ} (hm : Guarded intermediary m)
    (hf : ∀ a, Guarded intermediary (f a)) : Guarded intermediary (m >>= f) := by
  intro w
  rw [wp_bind]
  refine wp_mono (hm w) (fun _ _ h => h) ?_
  intro a w' hkeeps
  exact (hf a).after hkeeps

theorem guarded_abandon (error : IntermediaryAcceptError ε δ ρ β) :
    Guarded intermediary (abandon intermediary error : Accept σ κ ε δ ρ β α) := by
  intro w
  unfold abandon
  rw [detachCancellation_eq, wp_bind, wp_modify, wp_throw]
  exact w.registry_detach intermediary.cancellationRegistry

theorem guarded_intercept (message : BackendMessage) :
    Guarded intermediary (intercept intermediary message : Accept σ κ ε δ ρ β BackendMessage) :=
  fun _ => ⟨rfl, rfl⟩

theorem sendWireRaw_keeps (output : Written) (w : Accepting σ κ) :
    wp (sendWireRaw intermediary output : Accept σ κ ε δ ρ β (Except IoError Unit))
      (fun _ _ => False) (fun _ w' => w.Keeps w') w := by
  unfold sendWireRaw
  cases output.message.encode intermediary.maxFrameLen with
  | error error => exact ⟨rfl, rfl⟩
  | ok bytes =>
    simp only [wp_bind, wp_modify, wp_get]
    cases intermediary.flushes w.flushed with
    | some error | none => exact ⟨rfl, rfl⟩

theorem guarded_sendWireRaw (output : Written) :
    Guarded intermediary
      (sendWireRaw intermediary output : Accept σ κ ε δ ρ β (Except IoError Unit)) :=
  fun w => wp_mono (sendWireRaw_keeps output w) (fun _ _ h => h.elim) fun _ _ h => h

theorem guarded_relay (output : Written) :
    Guarded intermediary (relay intermediary output : Accept σ κ ε δ ρ β Unit) := by
  refine guarded_bind (guarded_sendWireRaw output) ?_
  intro result
  cases result with
  | ok sent => exact guarded_pure ()
  | error error => exact guarded_abandon _

theorem guarded_relayStatuses (statuses : List ParameterStatus) :
    Guarded intermediary (relayStatuses intermediary statuses : Accept σ κ ε δ ρ β Unit) := by
  induction statuses with
  | nil => exact guarded_pure ()
  | cons status statuses ih => exact guarded_bind (guarded_relay _) fun _ => ih

theorem guarded_relayKey (boundary : BoundaryBackend σ β) (key : CancelKey) :
    Guarded intermediary (relayKey intermediary boundary key : Accept σ κ ε δ ρ β Unit) := by
  intro w
  unfold relayKey
  simp only [wp_bind, wp_get, wp_modify]
  -- the boundary middleware changes the application state only
  have hkeeps : w.Keeps { w with state := (boundary w.state (keyData key)).2 } := ⟨rfl, rfl⟩
  cases (boundary w.state (keyData key)).1 with
  | error error => exact (guarded_abandon _).after hkeeps
  | ok output =>
    cases output with
    | forward message =>
      refine (guarded_bind (guarded_intercept message) ?_).after hkeeps
      intro message
      split
      · exact guarded_relay _
      · exact guarded_abandon _
    | _ => exact (guarded_abandon _).after hkeeps

theorem guarded_relayRegistered (boundary : BoundaryBackend σ β) (key : Option CancelKey) :
    Guarded intermediary (relayRegistered intermediary boundary key : Accept σ κ ε δ ρ β Unit) := by
  cases key with
  | none => exact guarded_pure ()
  | some key => exact guarded_relayKey boundary key

theorem guarded_relayReadiness :
    Guarded intermediary (relayReadiness intermediary : Accept σ κ ε δ ρ β Unit) := by
  refine guarded_bind (guarded_intercept _) ?_
  intro message
  cases message with
  | readyForQuery status => exact guarded_relay _
  | _ => exact guarded_abandon _

/-! ## The registration -/

theorem diagnose_keeps (w : Accepting σ κ) :
    wp (diagnose intermediary : Accept σ κ ε δ ρ β Unit) (fun _ _ => False)
      (fun _ w' => w.Keeps w') w := by
  unfold diagnose
  cases intermediary.failurePolicy with
  | close => exact ⟨rfl, rfl⟩
  | safeDiagnostic =>
    simp only [intercept, wp_bind, wp_get, wp_modify, wp_pure]
    cases (intermediary.interceptBackend w.state safeEstablishmentDiagnostic).1 with
    | errorResponse response =>
      rw [wp_bind]
      exact wp_mono (sendWireRaw_keeps _ _) (fun _ _ h => h)
        fun _ _ h => ⟨h.registry, h.clientCancelKey⟩
    | _ => exact ⟨rfl, rfl⟩

theorem refuse_keeps (error : IntermediaryAcceptError ε δ ρ β) (w : Accepting σ κ) :
    wp (refuse intermediary error : Accept σ κ ε δ ρ β α) (fun _ w' => w.Keeps w')
      (fun _ _ => False) w := by
  unfold refuse
  rw [wp_bind]
  exact wp_mono (diagnose_keeps w) (fun _ _ h => h.elim) fun _ _ h => h

/-- The contents after a registration that failed, or after one that was made. -/
theorem register_registration (backendKey : Option CancelKey) (w : Accepting σ κ)
    (hw : w.clientCancelKey = none) :
    wp (register intermediary backendKey : Accept σ κ ε δ ρ β (Option CancelKey))
      (fun _ w' => Registration intermediary.cancellationRegistry w.registry none w'.registry)
      (fun _ w' => ∃ made,
        Registration intermediary.cancellationRegistry w.registry made w'.registry ∧
          w'.clientCancelKey = made.map Prod.fst) w := by
  unfold register
  cases intermediary.cancellation with
  | reject => exact ⟨none, .none, hw⟩
  | forward =>
    cases backendKey with
    | none => exact ⟨none, .none, hw⟩
    | some upstream =>
      simp only [wp_bind, wp_get, wp_modify]
      cases hregister : intermediary.cancellationRegistry.register w.registry
          ⟨intermediary.target, upstream⟩ with
      | mk result contents =>
        cases result with
        | ok key => exact ⟨some (key, _), .made hregister, rfl⟩
        | error error =>
          refine wp_mono (refuse_keeps _ _) ?_ fun _ _ h => h.elim
          intro failure w' hkeeps
          rw [hkeeps.registry]
          exact .refused hregister

/-- What a call has registered is detached if it fails. -/
def Released (registry : CancellationRegistry κ τ ρ) (contents contents' : κ) : Prop :=
  ∃ made between, Registration registry contents made between ∧
    contents' = registry.release between (made.map Prod.fst)

/-- What a call has registered is under the key of its session. -/
def Live (registry : CancellationRegistry κ τ ρ) (contents : κ) (w : Accepting σ κ) : Prop :=
  ∃ made, Registration registry contents made w.registry ∧
    w.clientCancelKey = made.map Prod.fst

theorem completeStartup_registration (identity : ι) (backendKey : Option CancelKey)
    (statuses : List ParameterStatus) (w : Accepting σ κ) (hw : w.clientCancelKey = none) :
    wp (completeStartup intermediary identity backendKey statuses)
      (fun _ w' => Released intermediary.cancellationRegistry w.registry w'.registry)
      (fun _ w' => Live intermediary.cancellationRegistry w.registry w') w := by
  unfold completeStartup
  rw [wp_bind]
  refine wp_mono (register_registration backendKey w hw) ?_ ?_
  · intro failure w' hregistration
    exact ⟨none, _, hregistration, rfl⟩
  · rintro key w₁ ⟨made, hregistration, hkey⟩
    have hrest : Guarded intermediary (do
        relayStatuses intermediary statuses
        relayRegistered intermediary (intermediary.boundary identity backendKey) key
        relayReadiness intermediary) :=
      guarded_bind (guarded_relayStatuses statuses) fun _ =>
        guarded_bind (guarded_relayRegistered _ key) fun _ => guarded_relayReadiness
    refine wp_mono (hrest w₁) ?_ ?_
    · intro failure w' hreleased
      rw [hkey] at hreleased
      exact ⟨made, w₁.registry, hregistration, hreleased⟩
    · intro _ w' hkeeps
      refine ⟨made, ?_, hkeeps.clientCancelKey.trans hkey⟩
      rw [hkeeps.registry]
      exact hregistration

/-- The registry when a call has ended. -/
structure Registers (registry : CancellationRegistry κ τ ρ) (contents : κ) (failed session : Prop)
    (w : Accepting σ κ) : Prop where
  released : failed → Released registry contents w.registry
  live : session → Live registry contents w

section Registers

variable {registry : CancellationRegistry κ τ ρ} {contents : κ} {failed session : Prop}
  {w : Accepting σ κ}

/-- Nothing was registered. -/
theorem registers_same (hsession : ¬ session) (hsame : w.registry = contents) :
    Registers registry contents failed session w :=
  ⟨fun _ => ⟨none, contents, .none, hsame⟩, fun h => absurd h hsession⟩

end Registers

def Accepted.Registers (registry : CancellationRegistry κ τ ρ) (contents : κ)
    (accepted : Accepted σ κ ε δ ρ β) : Prop :=
  Component.Registers registry contents (∃ error, accepted.status = .failed error)
    (accepted.status = .session) accepted.world

theorem refuse_registers (error : IntermediaryAcceptError ε δ ρ β) (state : σ) (contents : κ) :
    Accepted.Registers intermediary.cancellationRegistry contents
      (.ofResult (refuse intermediary error ⟨state, contents, none, [], 0⟩)) := by
  refine Accepted.of_wp (P := Accepted.Registers _ contents) (refuse_keeps error _) ?_
    fun _ h => h.elim
  intro failure w' hkeeps
  exact registers_same (by rintro ⟨⟩) hkeeps.registry

variable (intermediary) in
/-- `accept` from the selected target on. -/
theorem accept_registers (state : σ) (contents : κ) (reads retryReads : List Read) :
    (accept intermediary state contents reads retryReads).Registers
      intermediary.cancellationRegistry contents := by
  change Accepted.Registers _ contents (acceptAfter intermediary contents _)
  cases (connectCore intermediary.client state reads retryReads).1 with
  | unreachable error state => exact refuse_registers _ _ _
  | tried setup transcript =>
    obtain ⟨status, log, state, demux⟩ := transcript
    cases status with
    | awaiting stage => exact registers_same (by rintro ⟨⟩) rfl
    | failed failure =>
      cases failure with
      | panicked => exact registers_same (by rintro ⟨⟩) rfl
      | error error => exact refuse_registers _ _ _
    | established identity backendKey =>
      refine Accepted.of_wp (P := Accepted.Registers _ contents)
        (completeStartup_registration identity backendKey demux.parameterStatuses _ rfl) ?_ ?_
      · intro error w' hreleased
        exact ⟨fun _ => hreleased, by rintro ⟨⟩⟩
      · intro w' hlive
        exact ⟨by rintro ⟨_, ⟨⟩⟩, fun _ => hlive⟩

end Detaching

/-! ## The whole call -/

section Routed

variable {σ π ε ι δ τ κ ρ β η θ ζ χ : Type}

inductive StartupResolutionError (θ : Type)
  | parameters (error : IoError)
  | resolver (error : θ)
  deriving DecidableEq, Repr

/-- What `accept_routed` of the server component came to. -/
inductive RoutedAccept (τ η θ : Type)
  | failedAccept (error : η)
  | failedRoute (error : StartupResolutionError θ)
  | cancellation (request : CancelKey)
  /-- A client that has authenticated, with the result of reading its startup parameters. -/
  | session (startup : Except IoError Unit) (selected : Option τ)

inductive AcceptFailure (ε δ ρ β η θ ζ χ : Type)
  | server (error : η)
  | startupRoute (error : StartupResolutionError θ)
  | cancellationRejected
  | authenticatedRoute (error : ζ)
  | cancellation (error : χ)
  /-- From `connect_core` on. -/
  | establishment (error : IntermediaryAcceptError ε δ ρ β)
  deriving DecidableEq, Repr

inductive RoutedStatus (ε δ ρ β η θ ζ χ : Type)
  | awaiting
  | session
  | cancellationForwarded
  | failed (failure : AcceptFailure ε δ ρ β η θ ζ χ)
  | panicked
  deriving DecidableEq, Repr

structure RoutedAccepted (σ κ ε δ ρ β η θ ζ χ : Type) where
  status : RoutedStatus ε δ ρ β η θ ζ χ
  world : Accepting σ κ

def RoutedAccepted.ofAccepted (accepted : Accepted σ κ ε δ ρ β) :
    RoutedAccepted σ κ ε δ ρ β η θ ζ χ :=
  { status :=
      match accepted.status with
      | .awaiting => .awaiting
      | .session => .session
      | .failed error => .failed (.establishment error)
      | .panicked => .panicked
    world := accepted.world }

/-- What the application supplies for one downstream client. -/
structure Routing (τ κ ζ χ : Type) where
  /-- `route` of the policy, in the context of the client. -/
  route : τ → Except ζ τ
  resolve : κ → PartialMap CancelKey (CancellationRoute τ)
  /-- `cancel` of the client component. -/
  cancel : CancellationRoute τ → Except χ Unit

/-- An exit with `send_generated_error`, whose result is ignored. -/
def reject (intermediary : Intermediary σ π ε ι δ τ κ ρ β)
    (failure : AcceptFailure ε δ ρ β η θ ζ χ) (w : Accepting σ κ) :
    RoutedAccepted σ κ ε δ ρ β η θ ζ χ :=
  match (diagnose intermediary : Accept σ κ ε δ ρ β Unit) w with
  | .ok _ w' => ⟨.failed failure, w'⟩
  | .error _ w' => ⟨.failed failure, w'⟩

/-- `Intermediary::accept`, given what `accept_routed` came to. -/
def acceptRouted (intermediary : Intermediary σ π ε ι δ τ κ ρ β) (routing : Routing τ κ ζ χ)
    (state : σ) (contents : κ) (routed : RoutedAccept τ η θ) (reads retryReads : List Read) :
    RoutedAccepted σ κ ε δ ρ β η θ ζ χ :=
  let w : Accepting σ κ := ⟨state, contents, none, [], 0⟩
  match routed with
  | .failedAccept error => ⟨.failed (.server error), w⟩
  | .failedRoute error => ⟨.failed (.startupRoute error), w⟩
  | .cancellation request =>
    match intermediary.cancellation with
    | .reject => ⟨.failed .cancellationRejected, w⟩
    | .forward =>
      match routing.resolve contents request with
      | none => ⟨.failed .cancellationRejected, w⟩
      | some route =>
        match routing.cancel route with
        | .error error => ⟨.failed (.cancellation error), w⟩
        | .ok _ => ⟨.cancellationForwarded, w⟩
  | .session (.error error) _ => reject intermediary (.startupRoute (.parameters error)) w
  | .session (.ok _) none => ⟨.failed .cancellationRejected, w⟩
  | .session (.ok _) (some selected) =>
    match routing.route selected with
    | .error error => reject intermediary (.authenticatedRoute error) w
    | .ok target =>
      .ofAccepted (accept { intermediary with target } state contents reads retryReads)

theorem reject_registration (intermediary : Intermediary σ π ε ι δ τ κ ρ β)
    (failure : AcceptFailure ε δ ρ β η θ ζ χ) (w : Accepting σ κ) :
    (reject intermediary failure w).status = .failed failure ∧
      (reject intermediary failure w).world.registry = w.registry := by
  have hkeeps : wp (diagnose intermediary : Accept σ κ ε δ ρ β Unit) (fun _ _ => False)
      (fun _ w' => w.Keeps w') w := diagnose_keeps w
  unfold wp at hkeeps
  unfold reject
  cases hm : (diagnose intermediary : Accept σ κ ε δ ρ β Unit) w with
  | ok _ w' =>
    rw [hm] at hkeeps
    exact ⟨rfl, hkeeps.registry⟩
  | error _ w' =>
    rw [hm] at hkeeps
    exact hkeeps.elim

def RoutedAccepted.Registers (registry : CancellationRegistry κ τ ρ) (contents : κ)
    (accepted : RoutedAccepted σ κ ε δ ρ β η θ ζ χ) : Prop :=
  Component.Registers registry contents (∃ failure, accepted.status = .failed failure)
    (accepted.status = .session) accepted.world

theorem reject_registers (intermediary : Intermediary σ π ε ι δ τ κ ρ β)
    (failure : AcceptFailure ε δ ρ β η θ ζ χ) (state : σ) (contents : κ) :
    (reject intermediary failure ⟨state, contents, none, [], 0⟩).Registers
      intermediary.cancellationRegistry contents := by
  obtain ⟨hstatus, hsame⟩ :=
    reject_registration intermediary failure ⟨state, contents, none, [], 0⟩
  refine registers_same ?_ hsame
  rw [hstatus]
  rintro ⟨⟩

theorem ofAccepted_registers {registry : CancellationRegistry κ τ ρ} {contents : κ}
    {accepted : Accepted σ κ ε δ ρ β} (h : accepted.Registers registry contents) :
    (RoutedAccepted.ofAccepted accepted : RoutedAccepted σ κ ε δ ρ β η θ ζ χ).Registers registry
      contents := by
  obtain ⟨status, w⟩ := accepted
  cases status with
  | failed error => exact ⟨fun _ => h.released ⟨error, rfl⟩, by rintro ⟨⟩⟩
  | session => exact ⟨by rintro ⟨_, ⟨⟩⟩, fun _ => h.live rfl⟩
  | awaiting | panicked => exact ⟨by rintro ⟨_, ⟨⟩⟩, by rintro ⟨⟩⟩

/-- The ways out before `connect_core` do not touch the registry. -/
theorem acceptRouted_registers (intermediary : Intermediary σ π ε ι δ τ κ ρ β)
    (routing : Routing τ κ ζ χ) (state : σ) (contents : κ) (routed : RoutedAccept τ η θ)
    (reads retryReads : List Read) :
    (acceptRouted intermediary routing state contents routed reads retryReads).Registers
      intermediary.cancellationRegistry contents := by
  cases routed with
  | failedAccept error | failedRoute error => exact registers_same (by rintro ⟨⟩) rfl
  | cancellation request =>
    unfold acceptRouted
    cases intermediary.cancellation with
    | reject => exact registers_same (by rintro ⟨⟩) rfl
    | forward =>
      cases hroute : routing.resolve contents request with
      | none => exact registers_same (by simp [hroute]) (by simp [hroute])
      | some route =>
        cases hcancel : routing.cancel route with
        | error error | ok _ =>
          exact registers_same (by simp [hroute, hcancel]) (by simp [hroute, hcancel])
  | session startup selected =>
    cases startup with
    | error error => exact reject_registers _ _ _ _
    | ok _ =>
      cases selected with
      | none => exact registers_same (by rintro ⟨⟩) rfl
      | some selected =>
        unfold acceptRouted
        cases hroute : routing.route selected with
        | error error =>
          simp only [hroute]
          exact reject_registers _ _ _ _
        | ok target =>
          simp only [hroute]
          exact ofAccepted_registers
            (accept_registers { intermediary with target } state contents reads retryReads)

/-- A registration does not outlive a call that fails.  In a session it is the only one, under the
key of the session, and is what the session takes away again. -/
theorem registrations_not_leaked (intermediary : Intermediary σ π ε ι δ τ κ ρ β)
    (routing : Routing τ κ ζ χ)
    (hmap : intermediary.cancellationRegistry.IsMap routing.resolve) (state : σ) (contents : κ)
    (routed : RoutedAccept τ η θ) (reads retryReads : List Read)
    (accepted : RoutedAccepted σ κ ε δ ρ β η θ ζ χ)
    (haccepted :
      accepted = acceptRouted intermediary routing state contents routed reads retryReads) :
    (∀ failure, accepted.status = .failed failure →
      ∃ made between,
        Registration intermediary.cancellationRegistry contents made between ∧
        accepted.world.registry =
          intermediary.cancellationRegistry.release between (made.map Prod.fst) ∧
        routing.resolve accepted.world.registry =
          withoutKey (routing.resolve contents) (made.map Prod.fst)) ∧
    (accepted.status = .session →
      ∃ made,
        Registration intermediary.cancellationRegistry contents made accepted.world.registry ∧
        accepted.world.clientCancelKey = made.map Prod.fst ∧
        routing.resolve accepted.world.registry = withRoute (routing.resolve contents) made ∧
        -- whatever others have done to the registry in the meantime
        ∀ later, (∀ key route, made = some (key, route) →
            routing.resolve later key = some route) →
          let session : Accepting σ κ := { accepted.world with registry := later }
          let detached := session.detach intermediary.cancellationRegistry
          detached.1 = made.map Prod.snd ∧
            routing.resolve detached.2.registry =
              withoutKey (routing.resolve later) (made.map Prod.fst) ∧
            ∃ torn, session.teardown intermediary.cancellationRegistry false = some torn ∧
              routing.resolve torn.registry =
                withoutKey (routing.resolve later) (made.map Prod.fst)) := by
  subst haccepted
  obtain ⟨hfailed, hsession⟩ :=
    acceptRouted_registers intermediary routing state contents routed reads retryReads
  refine ⟨?_, ?_⟩
  · intro failure hfailure
    obtain ⟨made, between, hregistration, hregistry⟩ := hfailed ⟨failure, hfailure⟩
    refine ⟨made, between, hregistration, hregistry, ?_⟩
    calc routing.resolve _
        = withoutKey (routing.resolve between) (made.map Prod.fst) := by
          rw [hregistry, hmap.release_eq]
      _ = withoutKey (withRoute (routing.resolve contents) made) (made.map Prod.fst) := by
          rw [hregistration.resolve_eq hmap]
      _ = withoutKey (routing.resolve contents) (made.map Prod.fst) :=
          withoutKey_withRoute _ made
  · intro hstatus
    obtain ⟨made, hregistration, hkey⟩ := hsession hstatus
    refine ⟨made, hregistration, hkey, hregistration.resolve_eq hmap, ?_⟩
    intro later hlater session detached
    have hsessionKey : session.clientCancelKey = made.map Prod.fst := hkey
    have hroutes : routing.resolve detached.2.registry =
        withoutKey (routing.resolve later) (made.map Prod.fst) := by
      rw [session.registry_detach, hsessionKey, hmap.release_eq]
    refine ⟨?_, hroutes, detached.2, rfl, hroutes⟩
    rw [session.route_detach, hsessionKey]
    cases made with
    | none => rfl
    | some entry =>
      obtain ⟨key, route⟩ := entry
      exact (hmap.found later key).trans (hlater key route rfl)

/-- `forwardingIntermediary` with the registry in memory. -/
def inMemoryIntermediary : Intermediary Unit Unit Unit Unit Unit Unit
    (InMemoryCancellationRegistry Unit) InMemoryCancellationRegistryError Unit :=
  { client := forwardingIntermediary.client
    target := ()
    cancellation := .forward
    cancellationRegistry := InMemoryCancellationRegistry.registry
    failurePolicy := .close
    interceptBackend := forwardingIntermediary.interceptBackend
    boundary := forwardingIntermediary.boundary
    maxFrameLen := forwardingIntermediary.maxFrameLen
    flushes := forwardingIntermediary.flushes }

def inMemoryRouting : Routing Unit (InMemoryCancellationRegistry Unit) Unit Unit :=
  { route := fun selected => .ok selected
    resolve := InMemoryCancellationRegistry.resolve
    cancel := fun _ => .ok () }

/-- The key of the server is registered, and detached again with the session. -/
theorem registered_key_detached :
    let accepted : RoutedAccepted _ _ _ _ _ _ Unit Unit Unit Unit :=
      acceptRouted inMemoryIntermediary inMemoryRouting () .new (.session (.ok ()) (some ()))
        statusReads []
    accepted.status = .session ∧
      accepted.world.clientCancelKey = some ⟨7, ascii "keys"⟩ ∧
      accepted.world.registry.resolve ⟨7, ascii "keys"⟩ = some ⟨(), ⟨7, ascii "keys"⟩⟩ ∧
      (accepted.world.detach inMemoryIntermediary.cancellationRegistry).2.registry.resolve =
        withoutKey accepted.world.registry.resolve (some ⟨7, ascii "keys"⟩) := by
  intro accepted
  have hsession : accepted.status = .session := by decide +kernel
  have hkey : accepted.world.clientCancelKey = some ⟨7, ascii "keys"⟩ := by decide +kernel
  have hroute : accepted.world.registry.resolve ⟨7, ascii "keys"⟩ =
      some ⟨(), ⟨7, ascii "keys"⟩⟩ := by decide +kernel
  obtain ⟨-, hlive⟩ := registrations_not_leaked inMemoryIntermediary inMemoryRouting
    InMemoryCancellationRegistry.isMap () .new (.session (.ok ()) (some ())) statusReads [] accepted
    rfl
  obtain ⟨made, -, hmade, hroutes, hlater⟩ := hlive hsession
  rw [hkey] at hmade
  refine ⟨hsession, hkey, hroute, ?_⟩
  rw [hmade]
  refine (hlater accepted.world.registry ?_).2.1
  rintro key route rfl
  change accepted.world.registry.resolve key = some route
  rw [show accepted.world.registry.resolve = _ from hroutes]
  exact Function.update_self _ _ _

end Routed

/-! ## Sessions over one registry -/

section Shared

variable {σ π ε ι δ τ κ ρ β η θ ζ χ : Type}

/-- A registry, and the keys and routes that were registered and not detached. -/
structure Shared (κ τ : Type) where
  contents : κ
  live : List (CancelKey × CancellationRoute τ)

namespace Shared

/-- What a call or a session does to the registry, whatever the others have done in between. -/
inductive Step (registry : CancellationRegistry κ τ ρ) : Shared κ τ → Shared κ τ → Prop
  | registered {s : Shared κ τ} {made : Option (CancelKey × CancellationRoute τ)} {contents : κ}
      (h : Registration registry s.contents made contents) :
      Step registry s ⟨contents, made.toList ++ s.live⟩
  | detached (contents : κ) (before after : List (CancelKey × CancellationRoute τ))
      (entry : CancelKey × CancellationRoute τ) :
      Step registry ⟨contents, before ++ entry :: after⟩
        ⟨(registry.detach contents entry.1).2, before ++ after⟩

/-- A key that is minted is not in use. -/
def Mints (registry : CancellationRegistry κ τ ρ)
    (resolve : κ → PartialMap CancelKey (CancellationRoute τ)) : Prop :=
  ∀ {contents route key contents'},
    registry.register contents route = (.ok key, contents') → resolve contents key = none

theorem mints_inMemory :
    Mints (InMemoryCancellationRegistry.registry (τ := τ)) InMemoryCancellationRegistry.resolve := by
  rintro ⟨routes, poisoned⟩ route key contents' h
  simp only [InMemoryCancellationRegistry.registry, InMemoryCancellationRegistry.register] at h
  split_ifs at h with hpoisoned hused <;> cases h
  simpa [InMemoryCancellationRegistry.resolve, hpoisoned] using hused

/-- The registry has the live routes, under keys of their own. -/
structure Exact (resolve : κ → PartialMap CancelKey (CancellationRoute τ)) (s : Shared κ τ) :
    Prop where
  keys : (s.live.map Prod.fst).Nodup
  routes : ∀ key route, resolve s.contents key = some route ↔ (key, route) ∈ s.live

variable {registry : CancellationRegistry κ τ ρ}
  {resolve : κ → PartialMap CancelKey (CancellationRoute τ)} {s s' : Shared κ τ}

theorem Exact.step (hmap : registry.IsMap resolve) (hmints : Mints registry resolve)
    (h : s.Exact resolve) (hstep : Step registry s s') : s'.Exact resolve := by
  cases hstep with
  | registered hmade =>
    have hroutes := hmade.resolve_eq hmap
    cases hmade with
    | none => exact h
    | refused => exact ⟨h.keys, by simpa [hroutes, withRoute] using h.routes⟩
    | @made route key _ hregister =>
      have hnone := hmints hregister
      have hnot : ∀ route', (key, route') ∉ s.live := by
        intro route' hmem
        simp [(h.routes _ _).mpr hmem] at hnone
      refine ⟨List.nodup_cons.mpr ⟨by simpa using hnot, h.keys⟩, fun key' route' => ?_⟩
      by_cases hkey : key' = key
      · simp [hroutes, withRoute, PartialMap.insert_eq_some, hkey, hnot]
      · simp [hroutes, withRoute, PartialMap.insert_eq_some, hkey, h.routes]
  | detached contents before after entry =>
    obtain ⟨hkeys, hroutes⟩ := h
    simp only [List.map_append, List.map_cons, List.nodup_middle, List.nodup_cons] at hkeys
    refine ⟨by simpa using hkeys.2, fun key route => ?_⟩
    rw [hmap.detached, PartialMap.remove_eq_some, hroutes]
    by_cases hkey : key = entry.1
    · subst hkey
      refine iff_of_false (fun h => h.1 rfl) fun hmem => hkeys.1 ?_
      rw [← List.map_append]
      exact List.mem_map.mpr ⟨_, hmem, rfl⟩
    · simp [hkey, Prod.ext_iff]

/-- However calls and sessions interleave, a cancellation reaches the server whose session has the
key that it presents, and no other. -/
theorem cancellation_routed (intermediary : Intermediary σ π ε ι δ τ κ ρ β)
    (routing : Routing τ κ ζ χ)
    (hmap : intermediary.cancellationRegistry.IsMap routing.resolve)
    (hmints : Mints intermediary.cancellationRegistry routing.resolve) {contents : κ}
    (hempty : routing.resolve contents = .empty)
    (hrun : Relation.ReflTransGen (Step intermediary.cancellationRegistry) ⟨contents, []⟩ s)
    (state : σ) (routed : RoutedAccept τ η θ) (reads retryReads : List Read) :
    let accepted := acceptRouted intermediary routing state s.contents routed reads retryReads
    s.Exact routing.resolve ∧
      -- a call takes such steps itself
      (∀ failure, accepted.status = .failed failure →
        Relation.ReflTransGen (Step intermediary.cancellationRegistry) s
          ⟨accepted.world.registry, s.live⟩) ∧
      (accepted.status = .session →
        ∃ made : Option (CancelKey × CancellationRoute τ),
          accepted.world.clientCancelKey = made.map Prod.fst ∧
            Step intermediary.cancellationRegistry s
              ⟨accepted.world.registry, made.toList ++ s.live⟩) ∧
      ∀ request, routed = .cancellation request →
        (accepted.status = .cancellationForwarded ↔ intermediary.cancellation = .forward ∧
          ∃ route, (request, route) ∈ s.live ∧ routing.cancel route = .ok ()) := by
  intro accepted
  have hexact : s.Exact routing.resolve := by
    clear accepted
    induction hrun with
    | refl => exact ⟨List.Pairwise.nil, by simp [hempty]⟩
    | tail _ hstep ih => exact ih.step hmap hmints hstep
  obtain ⟨hfailed, hlive⟩ :=
    acceptRouted_registers intermediary routing state s.contents routed reads retryReads
  refine ⟨hexact, fun failure hfailure => ?_, fun hsession => ?_, ?_⟩
  · obtain ⟨made, between, hmade, hregistry⟩ := hfailed ⟨failure, hfailure⟩
    rw [show accepted.world.registry = _ from hregistry]
    cases made with
    | none => exact .single (.registered hmade)
    | some entry => exact .tail (.single (.registered hmade)) (.detached _ [] _ _)
  · obtain ⟨made, hmade, hkey⟩ := hlive hsession
    exact ⟨made, hkey, .registered hmade⟩
  · rintro request rfl
    simp only [accepted, acceptRouted, ← hexact.routes]
    cases intermediary.cancellation with
    | reject => simp
    | forward =>
      cases hroute : routing.resolve s.contents request with
      | none => simp
      | some route =>
        cases hcancel : routing.cancel route with
        | error error | ok _ => simp [hcancel]

/-- A cancellation with the key of the only session. -/
theorem registered_cancellation_forwarded :
    (acceptRouted inMemoryIntermediary inMemoryRouting ()
      (InMemoryCancellationRegistry.new.register ⟨(), ⟨7, [1]⟩⟩).2
      (.cancellation ⟨7, [1]⟩ : RoutedAccept Unit Unit Unit) [] []).status =
        .cancellationForwarded := by
  have hmade : Registration InMemoryCancellationRegistry.registry .new
      (some (⟨7, [1]⟩, ⟨(), ⟨7, [1]⟩⟩)) _ := .made rfl
  have hrouted := cancellation_routed inMemoryIntermediary inMemoryRouting
    InMemoryCancellationRegistry.isMap mints_inMemory rfl (.single (.registered hmade)) ()
    (.cancellation ⟨7, [1]⟩ : RoutedAccept Unit Unit Unit) [] []
  exact (hrouted.2.2.2 _ rfl).mpr ⟨rfl, _, List.mem_singleton_self _, rfl⟩

end Shared
end Shared

end Component
end PgProto
