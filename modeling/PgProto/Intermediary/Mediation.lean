import PgProto.Intermediary.Sessions
import PgProto.Intermediary.Steady

/-!
# Mediation — what client-role middleware sees of the server while forwarding

Middleware may keep an account of the server messages that its hook is given.  Against a server that
sends a given stream, and with everybody else leaving the account alone, the account is at every
await and after every call what has been received so far: each message once, in wire order.

* `Audits` — middleware with such an account;
* `Fits` — the answers of the environment that this is about;
* `Mediated` — the account is right, an invariant of all calls;
* `processBackend_congr` — what the hook makes of a message is all that is used of it.
-/

namespace PgProto

open Lib
open Async

section Mediation

variable {σ ε : Type}

/-- The client role's hook for server messages writes to the account, and no other role does. -/
structure Audits (handlers : Handlers σ) (audit : σ → List BackendMessage) : Prop where
  clientBackend (s : σ) (message : BackendMessage) :
    audit (handlers.clientBackend s message).2 = audit s ++ [message]
  clientFrontend (s : σ) (message : FrontendMessage) :
    audit (handlers.clientFrontend s message).2 = audit s
  serverFrontend (s : σ) (message : FrontendMessage) :
    audit (handlers.serverFrontend s message).2 = audit s
  serverBackend (s : σ) (message : BackendMessage) :
    audit (handlers.serverBackend s message).2 = audit s

/-- The server sends `server` from message number `start` on. -/
def Arrives (server : List BackendMessage) (start : Nat) (w : World σ) (message : BackendMessage) :
    Prop :=
  server[w.conn.upstream.received - start]? = some message

/-- The next message of the server arrives, and middleware leaves the account alone. -/
def Fits (audit : σ → List BackendMessage) (server : List BackendMessage) (start : Nat)
    (w : World σ) : (request : Request) → Answer σ ε request → Prop
  | .receiveBackend, .ok message => Arrives server start w message
  | .receiveEither, .inr (.ok message) => Arrives server start w message
  | .frontendOperation _ _, answer => audit answer.2 = audit w.conn.state
  | .backendOperation _ _, answer => audit answer.2 = audit w.conn.state
  | .flushBackendOperations _ _ _, answer => audit answer.2 = audit w.conn.state
  | .observeTransition _, state => audit state = audit w.conn.state
  | _, _ => True

/-- Since `start`, when the account was `before`, it has got what was received. -/
structure Mediated (audit : σ → List BackendMessage) (server : List BackendMessage) (start : Nat)
    (before : List BackendMessage) (w : World σ) : Prop where
  started : start ≤ w.conn.upstream.received
  account : audit w.conn.state = before ++ server.take (w.conn.upstream.received - start)

variable {handlers : Handlers σ} {audit : σ → List BackendMessage}
  {server before : List BackendMessage} {start : Nat}

/-- The calls with fitting answers keep the account right. -/
abbrev Mediates (audit : σ → List BackendMessage) (server : List BackendMessage) (start : Nat)
    (before : List BackendMessage) (α : Type) (m : Forward σ ε α) : Prop :=
  m.Preserves (Fits audit server start) (Mediated audit server start before)

/-! ## Primitives -/

theorem mediates_update {f : Connection σ → Connection σ}
    (haudit : ∀ c, audit (f c).state = audit c.state)
    (hreceived : ∀ c, (f c).upstream.received = c.upstream.received) :
    Mediates audit server start before Unit (update f : Forward σ ε Unit) := by
  refine preserves_modify ?_
  intro w h
  refine ⟨?_, ?_⟩
  · change start ≤ (f w.conn).upstream.received
    rw [hreceived]
    exact h.started
  · change audit (f w.conn).state = before ++ server.take ((f w.conn).upstream.received - start)
    rw [haudit, hreceived]
    exact h.account

theorem mediates_intercept {μ : Type} {handler : σ → μ → μ × σ}
    (haudit : ∀ s message, audit (handler s message).2 = audit s) (message : μ) :
    Mediates audit server start before μ (intercept handler message : Forward σ ε μ) := by
  intro w h outcome t hleads
  cases hleads
  exact ⟨h.started, (haudit _ _).trans h.account⟩

variable {w : World σ}

theorem Mediated.setState {s : σ} (h : Mediated audit server start before w)
    (haudit : audit s = audit w.conn.state) : Mediated audit server start before (w.setState s) :=
  ⟨h.started, haudit.trans h.account⟩

theorem mediates_consult {request : Request} {state : Answer σ ε request → σ} {α : Type}
    {f : Answer σ ε request → Forward σ ε α}
    (hfits : ∀ (w : World σ) (answer : Answer σ ε request),
      Fits audit server start w request answer → audit (state answer) = audit w.conn.state)
    (hf : ∀ answer, Mediates audit server start before α (f answer)) :
    Mediates audit server start before α (do
      let answer ← Async.ask request
      update fun c => { c with state := state answer }
      f answer) := by
  refine preserves_ask_bind ?_
  intro w answer h hanswer
  exact hf answer (w.setState (state answer)) (h.setState (hfits w answer hanswer))

theorem mediated_steady :
    Steady (Mediates (ε := ε) audit server start before) where
  keeps_pure := Async.preserves_pure
  bind hm hf := hm.bind hf
  keeps_connection := Async.preserves_get.bind fun _ => Async.preserves_pure _
  keeps_record _ := preserves_modify fun _ h => ⟨h.started, h.account⟩
  pipeline _ := mediates_update (fun _ => rfl) fun _ => rfl
  queue _ := mediates_update (fun _ => rfl) fun _ => rfl
  keeps_setTransport side f hreceived := by
    cases side with
    | upstream => exact mediates_update (fun _ => rfl) fun c => hreceived c.upstream
    | downstream => exact mediates_update (fun _ => rfl) fun _ => rfl
  write _ _ := Async.preserves_ask _
  flush _ _ := Async.preserves_ask _
  keeps_observeTransition observation := by
    refine preserves_ask_bind ?_
    intro w s h hfits outcome t hleads
    cases hleads
    exact h.setState hfits
  io error := preserves_fail _
  backend error := preserves_fail _
  keeps_panicked _ := preserves_fail _

theorem mediated_clientSteady (haudits : Audits handlers audit) :
    ClientSteady handlers (Mediates (ε := ε) audit server start before) :=
  { mediated_steady with
    slot := fun _ => mediates_update (fun _ => rfl) fun _ => rfl
    receive := Async.preserves_ask _
    keeps_takeFrontend := fun _ => mediated_steady.reads fun _ =>
      mediated_steady.bind (mediates_update (fun _ => rfl) fun _ => rfl) fun _ =>
        mediated_steady.keeps_pure _
    serverFrontend := mediates_intercept haudits.serverFrontend
    clientFrontend := mediates_intercept haudits.clientFrontend
    serverBackend := mediates_intercept haudits.serverBackend
    consult := fun _ _ _ hf => mediates_consult (fun _ _ hfits => hfits) hf
    frontend := fun _ => preserves_fail _
    middleware := fun _ => preserves_fail _ }

theorem mediated_serverSteady (haudits : Audits handlers audit) :
    ServerSteady handlers (Mediates (ε := ε) audit server start before) :=
  { mediated_steady with
    logged := fun _ => preserves_modify fun _ h => ⟨h.started, h.account⟩
    loggedAll := fun _ => preserves_modify fun _ h => ⟨h.started, h.account⟩
    hold := fun _ => mediates_update (fun _ => rfl) fun _ => rfl
    released := fun _ => mediates_update (fun _ => rfl) fun _ => rfl
    serverBackend := mediates_intercept haudits.serverBackend
    consult := fun _ _ _ hf => mediates_consult (fun _ _ hfits => hfits) hf
    consultFlush := fun _ _ _ _ hf => mediates_consult (fun _ _ hfits => hfits) hf
    refused := fun _ => preserves_fail _
    aborted := fun _ => preserves_fail _ }

/-! ## Receiving -/

theorem Mediated.receive (haudits : Audits handlers audit) {message : BackendMessage}
    (h : Mediated audit server start before w) (harrives : Arrives server start w message) :
    Mediated audit server start before
      ((w.received .upstream).setState (handlers.clientBackend w.conn.state message).2) := by
  have hcount : w.conn.upstream.received + 1 - start = w.conn.upstream.received - start + 1 :=
    Nat.sub_add_comm h.started
  refine ⟨Nat.le_succ_of_le h.started, ?_⟩
  change audit (handlers.clientBackend w.conn.state message).2 =
    before ++ server.take (w.conn.upstream.received + 1 - start)
  rw [haudits.clientBackend, h.account, hcount, List.take_add_one, harrives, List.append_assoc]
  rfl

/-- What follows the reception of a message is the hook, and then `k`. -/
structure Inspects (handlers : Handlers σ) {α : Type}
    (f : Receipt BackendMessage → Forward σ ε α)
    (k : Nat → BackendMessage → Forward σ ε α) : Prop where
  eq (source : Receipt BackendMessage) : f source = (do
    let message ← intercept handlers.clientBackend source.message
    k source.number message)

section Receiving

variable {α : Type} {f : Receipt BackendMessage → Forward σ ε α}
  {k : Nat → BackendMessage → Forward σ ε α}

/-- Between the reception of a message and the hook there is no await. -/
theorem takeBackend_mediates (haudits : Audits handlers audit) (hinspects : Inspects handlers f k)
    (hk : ∀ number message, Mediates audit server start before α (k number message))
    {message : BackendMessage} (h : Mediated audit server start before w)
    (harrives : Arrives server start w message) {outcome : Outcome Request (Except (Stop ε) α)}
    {t : World σ} (hleads : ((takeBackend message >>= f : Forward σ ε α) w).LeadsWith
      (Fits audit server start) outcome t) : Mediated audit server start before t := by
  rw [show f = _ from funext hinspects.eq] at hleads
  exact hk w.conn.upstream.received (handlers.clientBackend w.conn.state message).1 _
    (h.receive haudits harrives) outcome t hleads

theorem receiveBackend_mediates (haudits : Audits handlers audit)
    (hinspects : Inspects handlers f k)
    (hk : ∀ number message, Mediates audit server start before α (k number message)) :
    Mediates audit server start before α (receiveBackend >>= f) := by
  refine preserves_ask_bind ?_
  intro w answer h hfits outcome t hleads
  rcases answer with error | message
  · cases hleads
    exact ⟨h.started, h.account⟩
  · exact takeBackend_mediates haudits hinspects hk h hfits hleads

end Receiving

/-! ## Calls -/

theorem forwardBackend_mediates (haudits : Audits handlers audit) :
    Mediates audit server start before BackendForwarding
      (forwardBackend handlers : Forward σ ε BackendForwarding) := by
  apply mediated_steady.reads
  intro c
  split
  · exact (mediated_serverSteady haudits).keeps_processPendingBackend
  · refine mediated_steady.bind (mediated_serverSteady haudits).keeps_makeRoom fun _ => ?_
    exact receiveBackend_mediates haudits ⟨fun _ => rfl⟩
      (mediated_serverSteady haudits).keeps_processInspected

theorem pollTransports_mediates (haudits : Audits handlers audit) :
    Mediates audit server start before ForwardedMessage
      (pollTransports handlers : Forward σ ε ForwardedMessage) := by
  have hinspected : ∀ number message, Mediates audit server start before ForwardedMessage (do
      let outcome ← processInspected handlers number message
      return .ofBackend outcome : Forward σ ε ForwardedMessage) := by
    intro number message
    exact mediated_steady.bind ((mediated_serverSteady haudits).keeps_processInspected _ _) fun _ =>
      mediated_steady.keeps_pure _
  apply mediated_steady.reads
  intro c
  split
  · exact receiveBackend_mediates haudits ⟨fun _ => rfl⟩ hinspected
  · refine preserves_ask_bind ?_
    intro w answer h hfits outcome t hleads
    rcases answer with (error | message) | (error | message)
    · exact mediated_steady.keeps_interrupted _ _ w h outcome t hleads
    · have hclient : ClientSteady handlers (Mediates (ε := ε) audit server start before) :=
        mediated_clientSteady haudits
      exact hclient.bind (hclient.keeps_takeFrontend message) (fun source =>
        hclient.bind (hclient.keeps_processFrontend source) fun _ => hclient.keeps_pure _)
          w h outcome t hleads
    · exact mediated_steady.keeps_interrupted _ _ w h outcome t hleads
    · exact takeBackend_mediates haudits ⟨fun _ => rfl⟩ hinspected h hfits hleads

theorem forwardNext_mediates (haudits : Audits handlers audit) :
    Mediates audit server start before ForwardedMessage
      (forwardNext handlers : Forward σ ε ForwardedMessage) := by
  apply mediated_steady.reads
  intro c
  split
  · exact mediated_steady.bind (mediated_serverSteady haudits).keeps_processPendingBackend fun _ =>
      mediated_steady.keeps_pure _
  · refine mediated_steady.bind (mediated_serverSteady haudits).keeps_makeRoom fun _ => ?_
    apply mediated_steady.reads
    intro c
    split
    · exact pollTransports_mediates haudits
    · next prepared _ =>
        refine mediated_steady.bind ((mediated_clientSteady haudits).slot none) fun _ => ?_
        refine mediated_steady.bind (Async.Preserves.attempt
          ((mediated_clientSteady haudits).keeps_forwardPreparedFrontend prepared)) fun result => ?_
        split
        · exact mediated_steady.keeps_pure _
        · exact pollTransports_mediates haudits
        · exact preserves_fail _

theorem perform_mediates (haudits : Audits handlers audit) (call : ForwardCall) :
    Mediates audit server start before CallResult
      (perform handlers call : Forward σ ε CallResult) := by
  cases call <;> refine mediated_steady.bind ?_ fun _ => mediated_steady.keeps_pure _
  case forwardFrontend => exact (mediated_clientSteady haudits).keeps_forwardFrontend
  case forwardBackend => exact forwardBackend_mediates haudits
  case forwardNext => exact forwardNext_mediates haudits
  case flushBackendHold => exact (mediated_serverSteady haudits).keeps_flushBackendHoldFor _
  case prepareBackendTeardown => exact (mediated_serverSteady haudits).keeps_prepareBackendTeardown

/-- All that is used of a server message is what the hook makes of it. -/
theorem processBackend_congr {number : Nat} {message message' : BackendMessage}
    (h : ∀ s, handlers.clientBackend s message = handlers.clientBackend s message') :
    (processBackend handlers { number := number, message := message } :
        Forward σ ε BackendForwarding) =
      processBackend handlers { number := number, message := message' } := by
  have hintercept : (intercept handlers.clientBackend message : Forward σ ε BackendMessage) =
      intercept handlers.clientBackend message' := by
    unfold intercept
    simp only [h]
  rw [processBackend_eq, processBackend_eq]
  exact congrArg (· >>= processInspected handlers number) hintercept

/-! ## Sessions -/

namespace Session

/-- One call with fitting answers.  Middleware that is dropped leaves the account alone, too. -/
inductive FittingStep (handlers : Handlers σ) (audit : σ → List BackendMessage)
    (server : List BackendMessage) (start : Nat) :
    World σ → ForwardCall → CallOutcome ε → World σ → Prop
  | returned {w w' : World σ} {call : ForwardCall} {result : CallResult} :
      ((perform handlers call : Forward σ ε CallResult) w).LeadsWith (Fits audit server start)
        (.returned (.ok result)) w' →
      FittingStep handlers audit server start w call (.returned result) w'
  | failed {w w' : World σ} {call : ForwardCall} {error : ForwardError ε} :
      ((perform handlers call : Forward σ ε CallResult) w).LeadsWith (Fits audit server start)
        (.returned (.error (.failed error))) w' →
      FittingStep handlers audit server start w call (.failed error) w'
  | dropped {w w' : World σ} {call : ForwardCall} {request : Request} (s : σ) :
      audit s = audit w'.conn.state →
      ((perform handlers call : Forward σ ε CallResult) w).LeadsWith (Fits audit server start)
        (.dropped request) w' →
      FittingStep handlers audit server start w call (.dropped request)
        ((w'.setState s).logged (.interrupted request))

theorem FittingStep.mediated (haudits : Audits handlers audit) {w' : World σ} {call : ForwardCall}
    {outcome : CallOutcome ε} (h : FittingStep handlers audit server start w call outcome w')
    (hw : Mediated audit server start before w) : Mediated audit server start before w' := by
  cases h with
  | returned hleads | failed hleads => exact perform_mediates haudits call w hw _ _ hleads
  | dropped s haudit hleads =>
    have hw' := (perform_mediates haudits call w hw _ _ hleads).setState haudit
    exact ⟨hw'.started, hw'.account⟩

/-- The finite sessions of a connection with fitting answers. -/
abbrev FittingRun (ε : Type) (handlers : Handlers σ) (audit : σ → List BackendMessage)
    (server : List BackendMessage) (conn : Connection σ) (h : List (SessionEntry σ ε))
    (w : World σ) : Prop :=
  History (FittingStep handlers audit server conn.upstream.received) (World.new conn) h w

/-- After every session the hook has been given what was received, in wire order. -/
theorem FittingRun.mediated (haudits : Audits handlers audit) {conn : Connection σ}
    {h : List (SessionEntry σ ε)} (hr : FittingRun ε handlers audit server conn h w) :
    Mediated audit server conn.upstream.received (audit conn.state) w := by
  induction hr with
  | nil =>
    refine ⟨Nat.le_refl _, ?_⟩
    change audit conn.state =
      audit conn.state ++ server.take (conn.upstream.received - conn.upstream.received)
    rw [Nat.sub_self, List.take_zero, List.append_nil]
  | snoc _ hstep ih => exact hstep.mediated haudits ih

end Session
end Mediation
end PgProto
