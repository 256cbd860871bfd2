import PgProto.Component.Connection
import PgProto.Intermediary.Connection

/-!
# Accept — the intermediary from the selected target to a session

`Intermediary::accept` of `src/intermediary_component.rs`, from the call of `connect_core` on: the
upstream session is established, its cancellation key is registered, and the startup of the
downstream client is completed with the parameter statuses, the registered key and a ReadyForQuery.

The cancellation registry, the middleware of the server role, the boundary middleware and the
results of writing are parameters.  A message of the server that is relayed is told from one that
the intermediary generates.
-/

namespace PgProto
namespace Component

open Lib Fallible

/-! ## Parameters -/

inductive CancellationPolicy
  | reject
  | forward
  deriving DecidableEq, Repr

inductive EstablishmentFailurePolicy
  | close
  | safeDiagnostic
  deriving DecidableEq, Repr

structure CancellationRoute (τ : Type) where
  target : τ
  upstream : CancelKey
  deriving DecidableEq, Repr

/-- `IntermediaryCancellationRegistry`, whose contents are `κ`, targets `τ` and errors `ρ`. -/
structure CancellationRegistry (κ τ ρ : Type) where
  register : κ → CancellationRoute τ → Except ρ CancelKey × κ
  detach : κ → CancelKey → Option (CancellationRoute τ) × κ

/-- The boundary middleware, once it is created for the two connections. -/
abbrev BoundaryBackend (σ β : Type) :=
  σ → BackendMessage → Except β BackendMiddlewareOutput × σ

/-- `Intermediary`, for a downstream client and the target that was selected for it. -/
structure Intermediary (σ π ε ι δ τ κ ρ β : Type) where
  client : ClientComponent σ π ε ι δ
  target : τ
  cancellation : CancellationPolicy
  cancellationRegistry : CancellationRegistry κ τ ρ
  failurePolicy : EstablishmentFailurePolicy
  /-- `intercept_backend` of the downstream connection. -/
  interceptBackend : σ → BackendMessage → BackendMessage × σ
  /-- `boundary.create`, for what the upstream context says. -/
  boundary : ι → Option CancelKey → BoundaryBackend σ β
  maxFrameLen : Nat
  /-- Which flush fails, and how. -/
  flushes : Nat → Option IoError

/-! ## The machine -/

inductive ClientConnectError (ε δ : Type)
  | unreachable (error : δ)
  | session (error : SessionEstablishError ε)
  deriving DecidableEq, Repr

inductive IntermediaryAcceptError (ε δ ρ β : Type)
  | client (error : ClientConnectError ε δ)
  | cancellationRegistry (error : ρ)
  | serverOutput (error : IoError)
  | middleware (error : β)
  deriving DecidableEq, Repr

/-- A message for the downstream client. -/
inductive Written
  | relayed (message : BackendMessage)
  | generated (message : BackendMessage)
  deriving DecidableEq, Repr

def Written.message : Written → BackendMessage
  | .relayed message => message
  | .generated message => message

def Written.relayed? : Written → Option BackendMessage
  | .relayed message => some message
  | .generated _ => none

structure Accepting (σ κ : Type) where
  state : σ
  registry : κ
  clientCancelKey : Option CancelKey
  /-- What was handed to the downstream transport. -/
  written : List Written
  flushed : Nat

section Accept

variable {σ π ε ι δ τ κ ρ β : Type}

abbrev Accept (σ κ ε δ ρ β : Type) : Type → Type :=
  EStateM (IntermediaryAcceptError ε δ ρ β) (Accepting σ κ)

variable (intermediary : Intermediary σ π ε ι δ τ κ ρ β)

def intercept (message : BackendMessage) : Accept σ κ ε δ ρ β BackendMessage := do
  let w ← get
  let passed := intermediary.interceptBackend w.state message
  modify fun w => { w with state := passed.2 }
  return passed.1

def sendWireRaw (output : Written) : Accept σ κ ε δ ρ β (Except IoError Unit) := do
  match output.message.encode intermediary.maxFrameLen with
  | .error error => return .error error
  | .ok _ => do
    modify fun w => { w with written := w.written ++ [output] }
    let w ← get
    match intermediary.flushes w.flushed with
    | some error => return .error error
    | none => do
      modify fun w => { w with flushed := w.flushed + 1 }
      return .ok ()

def detachCancellation : Accept σ κ ε δ ρ β Unit :=
  modify fun w =>
    match w.clientCancelKey with
    | none => w
    | some key =>
      { w with
        clientCancelKey := none
        registry := (intermediary.cancellationRegistry.detach w.registry key).2 }

/-- An exit after the registration: `detach_cancellation`, `teardown` and the error. -/
def abandon {α : Type} (error : IntermediaryAcceptError ε δ ρ β) : Accept σ κ ε δ ρ β α := do
  detachCancellation intermediary
  throw error

def relay (output : Written) : Accept σ κ ε δ ρ β Unit := do
  match ← sendWireRaw intermediary output with
  | .ok _ => return ()
  | .error error => abandon intermediary (.serverOutput error)

def safeEstablishmentDiagnostic : BackendMessage :=
  .errorResponse ⟨[⟨0x53, ascii "ERROR"⟩, ⟨0x4d, ascii "connection establishment failed"⟩]⟩

/-- The diagnostic of `EstablishmentFailurePolicy::SafeDiagnostic`.  A failed write is not an error
of its own. -/
def diagnose : Accept σ κ ε δ ρ β Unit := do
  match intermediary.failurePolicy with
  | .close => return ()
  | .safeDiagnostic => do
    match ← intercept intermediary safeEstablishmentDiagnostic with
    | .errorResponse response => do
      let _ ← sendWireRaw intermediary (.generated (.errorResponse response))
      return ()
    | _ => return ()

/-- An exit before the registration. -/
def refuse {α : Type} (error : IntermediaryAcceptError ε δ ρ β) : Accept σ κ ε δ ρ β α := do
  diagnose intermediary
  throw error

/-- The key that is exposed downstream. -/
def register (backendKey : Option CancelKey) : Accept σ κ ε δ ρ β (Option CancelKey) := do
  match intermediary.cancellation, backendKey with
  | .forward, some upstream => do
    let w ← get
    let registered :=
      intermediary.cancellationRegistry.register w.registry ⟨intermediary.target, upstream⟩
    modify fun w => { w with registry := registered.2 }
    match registered.1 with
    | .ok key => do
      modify fun w => { w with clientCancelKey := some key }
      return some key
    | .error error => refuse intermediary (.cancellationRegistry error)
  | _, _ => return none

def statusMessage (status : ParameterStatus) : BackendMessage :=
  .parameterStatus status.name status.value

/-- The loop that drains `pop_parameter_status`. -/
def relayStatuses : List ParameterStatus → Accept σ κ ε δ ρ β Unit
  | [] => return ()
  | status :: statuses => do
    relay intermediary (.relayed (statusMessage status))
    relayStatuses statuses

def keyData (key : CancelKey) : BackendMessage :=
  .backendKeyData key.processId key.secretKey

/-- The generated BackendKeyData goes through both middlewares, which may not change it. -/
def relayKey (boundary : BoundaryBackend σ β) (key : CancelKey) : Accept σ κ ε δ ρ β Unit := do
  let w ← get
  let passed := boundary w.state (keyData key)
  modify fun w => { w with state := passed.2 }
  match passed.1 with
  | .ok (.forward message) => do
    let message ← intercept intermediary message
    if message = keyData key then
      relay intermediary (.generated message)
    else
      abandon intermediary
        (.serverOutput (invalid "middleware rejected generated cancellation key"))
  | .ok _ =>
    abandon intermediary
      (.serverOutput (invalid "middleware suppressed or expanded generated cancellation key"))
  | .error error => abandon intermediary (.middleware error)

def relayRegistered (boundary : BoundaryBackend σ β) : Option CancelKey → Accept σ κ ε δ ρ β Unit
  | none => return ()
  | some key => relayKey intermediary boundary key

def relayReadiness : Accept σ κ ε δ ρ β Unit := do
  match ← intercept intermediary (.readyForQuery .idle) with
  | .readyForQuery status => relay intermediary (.generated (.readyForQuery status))
  | _ => abandon intermediary (.serverOutput (invalid "middleware rejected generated readiness"))

/-- What follows the upstream session. -/
def completeStartup (identity : ι) (backendKey : Option CancelKey)
    (statuses : List ParameterStatus) : Accept σ κ ε δ ρ β Unit := do
  let clientKey ← register intermediary backendKey
  relayStatuses intermediary statuses
  relayRegistered intermediary (intermediary.boundary identity backendKey) clientKey
  relayReadiness intermediary

/-! ## Runs -/

inductive AcceptStatus (ε δ ρ β : Type)
  | awaiting
  | session
  | failed (error : IntermediaryAcceptError ε δ ρ β)
  | panicked
  deriving DecidableEq, Repr

/-- How far `accept` got, and what it leaves. -/
structure Accepted (σ κ ε δ ρ β : Type) where
  status : AcceptStatus ε δ ρ β
  world : Accepting σ κ

def Accepted.ofResult :
    EStateM.Result (IntermediaryAcceptError ε δ ρ β) (Accepting σ κ) Unit →
      Accepted σ κ ε δ ρ β
  | .ok _ world => ⟨.session, world⟩
  | .error error world => ⟨.failed error, world⟩

/-- `accept` after an upstream connection was made, or not. -/
def acceptAfter (registry : κ) : Connecting σ π ε ι δ → Accepted σ κ ε δ ρ β
  | .unreachable error state =>
    .ofResult (refuse intermediary (.client (.unreachable error)) ⟨state, registry, none, [], 0⟩)
  | .tried _ transcript =>
    let w : Accepting σ κ := ⟨transcript.state, registry, none, [], 0⟩
    match transcript.status with
    | .awaiting _ => ⟨.awaiting, w⟩
    | .failed .panicked => ⟨.panicked, w⟩
    | .failed (.error error) =>
      .ofResult (refuse intermediary (.client (.session error)) w)
    | .established identity backendKey =>
      .ofResult
        (completeStartup intermediary identity backendKey transcript.demux.parameterStatuses w)

/-- `accept` against an upstream server that sends these messages, in the first attempt and in the
second. -/
def accept (state : σ) (registry : κ) (reads retryReads : List Read) : Accepted σ κ ε δ ρ β :=
  acceptAfter intermediary registry (connectCore intermediary.client state reads retryReads).1

/-! ## What is written -/

def Accepting.relayed (w : Accepting σ κ) : List BackendMessage :=
  w.written.filterMap Written.relayed?

/-- These messages were written, and the registration stands as before. -/
structure Accepting.Adds (outputs : List Written) (w w' : Accepting σ κ) : Prop where
  written : w'.written = w.written ++ outputs
  clientCancelKey : w'.clientCancelKey = w.clientCancelKey

variable {w : Accepting σ κ} {α : Type}

theorem Accepting.Adds.trans {outputs outputs' : List Written} {w' w'' : Accepting σ κ}
    (h : Accepting.Adds outputs w w') (h' : Accepting.Adds outputs' w' w'') :
    Accepting.Adds (outputs ++ outputs') w w'' := by
  refine ⟨?_, h'.clientCancelKey.trans h.clientCancelKey⟩
  rw [h'.written, h.written, List.append_assoc]

theorem Accepting.Adds.relayed {outputs : List Written} {w' : Accepting σ κ}
    (h : Accepting.Adds outputs w w') :
    w'.relayed = w.relayed ++ outputs.filterMap Written.relayed? := by
  unfold Accepting.relayed
  rw [h.written, List.filterMap_append]

/-- The client key is the one that the registry has given for the key of the server; there is none
without forwarding. -/
def Intermediary.Registered (registry : κ) (backendKey : Option CancelKey) :
    Option CancelKey → Prop
  | none => intermediary.cancellation = .reject ∨ backendKey = none
  | some key =>
    intermediary.cancellation = .forward ∧
      ∃ upstream, backendKey = some upstream ∧
        (intermediary.cancellationRegistry.register registry
          ⟨intermediary.target, upstream⟩).1 = .ok key

variable {intermediary} {Q : α → Accepting σ κ → Prop}

theorem sendWireRaw_spec (output : Written) (w : Accepting σ κ) :
    wp (sendWireRaw intermediary output) (fun _ _ => False)
      (fun result w' => w.Adds [output] w' ∨ (∃ error, result = .error error) ∧ w.Adds [] w') w := by
  have hnothing : w.Adds [] w := ⟨(List.append_nil _).symm, rfl⟩
  unfold sendWireRaw
  cases output.message.encode intermediary.maxFrameLen with
  | error error => exact Or.inr ⟨⟨error, rfl⟩, hnothing⟩
  | ok bytes =>
    simp only [wp_bind, wp_modify, wp_get]
    cases intermediary.flushes w.flushed with
    | some error | none => exact Or.inl ⟨rfl, rfl⟩

theorem abandon_spec (error : IntermediaryAcceptError ε δ ρ β) (w : Accepting σ κ) :
    wp (abandon intermediary error : Accept σ κ ε δ ρ β α)
      (fun _ w' => w'.written = w.written) (fun _ _ => False) w := by
  simp only [abandon, detachCancellation, wp_bind, wp_modify, wp_throw]
  cases w.clientCancelKey <;> rfl

theorem relayed_abandon {error : IntermediaryAcceptError ε δ ρ β} :
    wp (abandon intermediary error : Accept σ κ ε δ ρ β α)
      (fun _ w' => w'.relayed = w.relayed) Q w :=
  wp_mono (abandon_spec error w)
    (fun _ _ h => congrArg (List.filterMap Written.relayed?) h) fun _ _ h => h.elim

theorem relay_spec (output : Written) (w : Accepting σ κ) :
    wp (relay intermediary output)
      (fun _ w' => w'.relayed = w.relayed ∨ w'.relayed = w.relayed ++ output.relayed?.toList)
      (fun _ w' => w.Adds [output] w') w := by
  have hoption : [output].filterMap Written.relayed? = output.relayed?.toList := by
    cases output <;> rfl
  unfold relay
  rw [wp_bind]
  refine wp_mono (sendWireRaw_spec output w) (fun _ _ h => h.elim) ?_
  intro result w' hsent
  cases result with
  | ok sent =>
    rcases hsent with hadds | ⟨⟨error, herror⟩, -⟩
    · exact hadds
    · cases herror
  | error error =>
    refine wp_mono relayed_abandon ?_ fun _ _ h => h
    intro failure w'' hsame
    rcases hsent with hadds | ⟨-, hadds⟩
    · exact Or.inr (by rw [hsame, hadds.relayed, hoption])
    · exact Or.inl (by rw [hsame, hadds.relayed, List.filterMap_nil, List.append_nil])

/-- A generated message is not relayed, whether it is written or not. -/
theorem relay_generated (message : BackendMessage) (w : Accepting σ κ) :
    wp (relay intermediary (.generated message)) (fun _ w' => w'.relayed = w.relayed)
      (fun _ w' => w.Adds [.generated message] w') w := by
  refine wp_mono (relay_spec (.generated message) w) ?_ fun _ _ h => h
  intro failure w' h
  rcases h with h | h
  · exact h
  · rw [h]
    exact List.append_nil _

theorem relayStatuses_spec (statuses : List ParameterStatus) (w : Accepting σ κ) :
    wp (relayStatuses intermediary statuses)
      (fun _ w' => ∃ done, done <+: statuses.map statusMessage ∧ w'.relayed = w.relayed ++ done)
      (fun _ w' => w.Adds (statuses.map fun status => .relayed (statusMessage status)) w') w := by
  induction statuses generalizing w with
  | nil => exact ⟨(List.append_nil _).symm, rfl⟩
  | cons status statuses ih =>
    unfold relayStatuses
    rw [wp_bind]
    refine wp_mono (relay_spec (.relayed (statusMessage status)) w) ?_ ?_
    · rintro failure w' (h | h)
      · exact ⟨[], List.nil_prefix, by rw [h, List.append_nil]⟩
      · exact ⟨[statusMessage status], by simp, h⟩
    · intro _ w' hadds
      refine wp_mono (ih w') ?_ fun _ _ h => hadds.trans h
      rintro failure w'' ⟨done, hdone, h⟩
      refine ⟨statusMessage status :: done, ?_, ?_⟩
      · rw [List.map_cons]
        exact (List.prefix_cons_inj _).2 hdone
      · rw [h, hadds.relayed, List.append_assoc]
        rfl

theorem relayKey_spec (boundary : BoundaryBackend σ β) (key : CancelKey) (w : Accepting σ κ) :
    wp (relayKey intermediary boundary key) (fun _ w' => w'.relayed = w.relayed)
      (fun _ w' => w.Adds [.generated (keyData key)] w') w := by
  unfold relayKey intercept
  simp only [wp_bind, wp_get, wp_modify]
  cases (boundary w.state (keyData key)).1 with
  | error error => exact relayed_abandon
  | ok output =>
    cases output with
    | forward message =>
      simp only [wp_bind, wp_get, wp_modify, wp_pure]
      split
      · next hsame =>
          rw [hsame]
          exact wp_mono (relay_generated _ _) (fun _ _ h => h)
            fun _ _ h => ⟨h.written, h.clientCancelKey⟩
      · exact relayed_abandon
    | _ => exact relayed_abandon

theorem relayRegistered_spec (boundary : BoundaryBackend σ β) (key : Option CancelKey)
    (w : Accepting σ κ) :
    wp (relayRegistered intermediary boundary key) (fun _ w' => w'.relayed = w.relayed)
      (fun _ w' => w.Adds (key.toList.map fun key => .generated (keyData key)) w') w := by
  cases key with
  | none => exact ⟨(List.append_nil _).symm, rfl⟩
  | some key => exact relayKey_spec boundary key w

theorem relayReadiness_spec (w : Accepting σ κ) :
    wp (relayReadiness intermediary) (fun _ w' => w'.relayed = w.relayed)
      (fun _ w' => ∃ status, w.Adds [.generated (.readyForQuery status)] w') w := by
  unfold relayReadiness intercept
  simp only [wp_bind, wp_get, wp_modify, wp_pure]
  cases (intermediary.interceptBackend w.state (.readyForQuery .idle)).1 with
  | readyForQuery status =>
    exact wp_mono (relay_generated _ _) (fun _ _ h => h)
      fun _ _ h => ⟨status, h.written, h.clientCancelKey⟩
  | _ => exact relayed_abandon

theorem refuse_spec (error : IntermediaryAcceptError ε δ ρ β) (w : Accepting σ κ) :
    wp (refuse intermediary error : Accept σ κ ε δ ρ β α)
      (fun _ w' => w'.relayed = w.relayed) Q w := by
  unfold refuse diagnose
  rw [wp_bind]
  cases intermediary.failurePolicy with
  | close => rfl
  | safeDiagnostic =>
    simp only [intercept, wp_bind, wp_get, wp_modify, wp_pure]
    cases (intermediary.interceptBackend w.state safeEstablishmentDiagnostic).1 with
    | errorResponse response =>
      rw [wp_bind]
      refine wp_mono (sendWireRaw_spec _ _) (fun _ _ h => h.elim) ?_
      rintro result w' (hadds | ⟨-, hadds⟩)
      · exact hadds.relayed.trans (List.append_nil _)
      · exact hadds.relayed.trans (List.append_nil _)
    | _ => rfl

theorem register_spec (backendKey : Option CancelKey) (w : Accepting σ κ)
    (hw : w.clientCancelKey = none) :
    wp (register intermediary backendKey) (fun _ w' => w'.relayed = w.relayed)
      (fun key w' => w'.written = w.written ∧ w'.clientCancelKey = key ∧
        intermediary.Registered w.registry backendKey key) w := by
  unfold register
  cases hpolicy : intermediary.cancellation with
  | reject => exact ⟨rfl, hw, Or.inl hpolicy⟩
  | forward =>
    cases backendKey with
    | none => exact ⟨rfl, hw, Or.inr rfl⟩
    | some upstream =>
      simp only [wp_bind, wp_get, wp_modify]
      cases hregister : (intermediary.cancellationRegistry.register w.registry
          ⟨intermediary.target, upstream⟩).1 with
      | ok key => exact ⟨rfl, rfl, hpolicy, upstream, rfl, hregister⟩
      | error error => exact refuse_spec _ _

theorem filterMap_relayed (statuses : List ParameterStatus) :
    (statuses.map fun status => Written.relayed (statusMessage status)).filterMap
      Written.relayed? = statuses.map statusMessage := by
  rw [List.filterMap_map]
  exact congrFun List.filterMap_eq_map statuses

theorem filterMap_generated (key : Option CancelKey) :
    (key.toList.map fun key => Written.generated (keyData key)).filterMap Written.relayed? = [] := by
  cases key <;> rfl

/-- What is written for the downstream client, and what of it is relayed if that fails. -/
theorem completeStartup_spec (identity : ι) (backendKey : Option CancelKey)
    (statuses : List ParameterStatus) (w : Accepting σ κ) (hkey : w.clientCancelKey = none)
    (hwritten : w.written = []) :
    wp (completeStartup intermediary identity backendKey statuses)
      (fun _ w' => w'.relayed <+: statuses.map statusMessage)
      (fun _ w' => intermediary.Registered w.registry backendKey w'.clientCancelKey ∧
        ∃ status, w'.written =
          statuses.map (fun status => .relayed (statusMessage status)) ++
            (w'.clientCancelKey.toList.map (fun key => .generated (keyData key)) ++
              [.generated (.readyForQuery status)])) w := by
  unfold completeStartup
  rw [wp_bind]
  refine wp_mono (register_spec backendKey w hkey) ?_ ?_
  · intro failure w' h
    rw [h, Accepting.relayed, hwritten]
    exact List.nil_prefix
  rintro key w₁ ⟨hwritten₁, hkey₁, hregistered⟩
  rw [hwritten] at hwritten₁
  have hrelayed₁ : w₁.relayed = [] := congrArg (List.filterMap Written.relayed?) hwritten₁
  rw [wp_bind]
  refine wp_mono (relayStatuses_spec statuses w₁) ?_ ?_
  · rintro failure w' ⟨done, hdone, h⟩
    rw [h, hrelayed₁]
    exact hdone
  intro _ w₂ hstatuses
  have hrelayed₂ : w₂.relayed = statuses.map statusMessage := by
    rw [hstatuses.relayed, hrelayed₁, filterMap_relayed, List.nil_append]
  rw [wp_bind]
  refine wp_mono (relayRegistered_spec _ key w₂) ?_ ?_
  · intro failure w' h
    rw [h, hrelayed₂]
  intro _ w₃ hgenerated
  refine wp_mono (relayReadiness_spec w₃) ?_ ?_
  · intro failure w' h
    rw [h, hgenerated.relayed, filterMap_generated, List.append_nil, hrelayed₂]
  rintro _ w' ⟨status, hready⟩
  have hall := (hstatuses.trans hgenerated).trans hready
  rw [hall.clientCancelKey.trans hkey₁]
  refine ⟨hregistered, status, ?_⟩
  rw [hall.written, hwritten₁, List.nil_append, List.append_assoc]

/-! ## Outcomes -/

/-- The parameter statuses that a connection hands over. -/
def Connecting.statuses : Connecting σ π ε ι δ → List BackendMessage
  | .unreachable _ _ => []
  | .tried _ transcript => transcript.demux.parameterStatuses.map statusMessage

theorem Accepted.of_wp {m : Accept σ κ ε δ ρ β Unit}
    {F : IntermediaryAcceptError ε δ ρ β → Accepting σ κ → Prop} {Q : Unit → Accepting σ κ → Prop}
    {P : Accepted σ κ ε δ ρ β → Prop} (h : wp m F Q w)
    (hF : ∀ error w', F error w' → P ⟨.failed error, w'⟩) (hQ : ∀ w', Q () w' → P ⟨.session, w'⟩) :
    P (Accepted.ofResult (m w)) := by
  unfold wp at h
  cases hm : m w with
  | ok _ w' =>
    rw [hm] at h
    exact hQ w' h
  | error error w' =>
    rw [hm] at h
    exact hF error w' h

/-- A startup that `accept` has completed. -/
def Accepting.Completes (w : Accepting σ κ) (statuses : List BackendMessage) : Prop :=
  ∃ status, w.written.map Written.message =
    statuses ++ (w.clientCancelKey.toList.map keyData ++ [.readyForQuery status])

theorem acceptAfter_session {registry : κ} {connecting : Connecting σ π ε ι δ}
    (h : (acceptAfter intermediary registry connecting).status = .session) :
    ∃ setup transcript identity backendKey, connecting = .tried setup transcript ∧
      transcript.status = .established identity backendKey ∧
      intermediary.Registered registry backendKey
        (acceptAfter intermediary registry connecting).world.clientCancelKey ∧
      (acceptAfter intermediary registry connecting).world.Completes connecting.statuses := by
  have hrefuse : ∀ (error : IntermediaryAcceptError ε δ ρ β) (w : Accepting σ κ),
      (Accepted.ofResult (refuse intermediary error w)).status ≠ .session := by
    intro error w
    refine Accepted.of_wp (P := fun accepted => accepted.status ≠ .session)
      (refuse_spec (Q := fun _ _ => False) error w) ?_ fun _ h => h.elim
    intro failure w' _ hsession
    cases hsession
  cases connecting with
  | unreachable error state => exact absurd h (hrefuse _ _)
  | tried setup transcript =>
    obtain ⟨status, log, state, demux⟩ := transcript
    cases status with
    | awaiting stage => cases h
    | failed failure =>
      cases failure with
      | panicked => cases h
      | error error => exact absurd h (hrefuse _ _)
    | established identity backendKey =>
      refine ⟨setup, _, identity, backendKey, rfl, rfl, ?_⟩
      revert h
      refine Accepted.of_wp (P := fun accepted => accepted.status = .session →
        intermediary.Registered registry backendKey accepted.world.clientCancelKey ∧
          accepted.world.Completes (demux.parameterStatuses.map statusMessage))
        (completeStartup_spec identity backendKey demux.parameterStatuses _ rfl rfl) ?_ ?_
      · intro error w' _ hsession
        cases hsession
      · rintro w' ⟨hregistered, status, hwritten⟩ _
        refine ⟨hregistered, status, ?_⟩
        rw [hwritten]
        simp [Written.message, Function.comp_def]

/-- Whatever becomes of `accept`, it relays parameter statuses that it was handed. -/
theorem acceptAfter_relayed (registry : κ) (connecting : Connecting σ π ε ι δ) :
    (acceptAfter intermediary registry connecting).world.relayed <+: connecting.statuses := by
  have hrefuse : ∀ (error : IntermediaryAcceptError ε δ ρ β) (state : σ),
      (Accepted.ofResult
        (refuse intermediary error ⟨state, registry, none, [], 0⟩)).world.relayed = [] := by
    intro error state
    exact Accepted.of_wp (P := fun accepted => accepted.world.relayed = [])
      (refuse_spec (Q := fun _ _ => False) error _) (fun _ _ h => h) fun _ h => h.elim
  cases connecting with
  | unreachable error state =>
    change (Accepted.ofResult (refuse intermediary _ _)).world.relayed <+: _
    rw [hrefuse]
    exact List.nil_prefix
  | tried setup transcript =>
    obtain ⟨status, log, state, demux⟩ := transcript
    cases status with
    | awaiting stage => exact List.nil_prefix
    | failed failure =>
      cases failure with
      | panicked => exact List.nil_prefix
      | error error =>
        change (Accepted.ofResult (refuse intermediary _ _)).world.relayed <+: _
        rw [hrefuse]
        exact List.nil_prefix
    | established identity backendKey =>
      refine Accepted.of_wp (P := fun accepted =>
        accepted.world.relayed <+: demux.parameterStatuses.map statusMessage)
        (completeStartup_spec identity backendKey demux.parameterStatuses _ rfl rfl)
        (fun _ _ h => h) ?_
      rintro w' ⟨-, status, hwritten⟩
      have hready : [Written.generated (.readyForQuery status)].filterMap Written.relayed? = [] :=
        rfl
      rw [Accepting.relayed, hwritten, List.filterMap_append, List.filterMap_append,
        filterMap_relayed, filterMap_generated, hready, List.append_nil, List.append_nil]

end Accept
end Component
end PgProto
