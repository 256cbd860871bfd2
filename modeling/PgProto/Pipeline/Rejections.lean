import PgProto.Pipeline.Recovery

/-!
# Rejections — the ledger when a local request is answered with an error

An ErrorResponse to a local request of the extended protocol takes the request state into
`ExtendedError`, and client messages are discarded from then on up to a Sync.  The ledger sees the
error when it is emitted, or deferred, as the next response of the request.

* `Pipeline.Effect.extendedError` — `ExtendedError` lasts until a Sync is accepted, as long as no
  response takes the front operation into COPY;
* `Pipeline.AboutToReject` — the newest record is a local request whose next responses lead to an
  error;
* `Pipeline.Wf.aboutToReject_step` — offering those responses one by one leads to `ExtendedError`.
-/

namespace PgProto

open Backend (RuntimeState respond request)
open Lib

/-! ## Requests of the extended protocol -/

def FrontendVariant.isRejectable : FrontendVariant → Bool
  | .parse | .bind | .describe | .execute | .close => true
  | _ => false

def OperationKind.isRejectable : OperationKind → Bool
  | .parse | .bind | .describe | .execute | .close => true
  | _ => false

variable {kind : OperationKind}

theorem classifyFrontend_rejectable {state : RequestState} {message : FrontendVariant}
    {next : RequestState} (h : classifyFrontend state message = .ok (some (kind, next)))
    (hmessage : message.isRejectable = true) :
    kind.isRejectable = true ∧ (next = .extendedError → state = .extendedError) := by
  cases message with
  | parse | bind | describe | execute | close =>
    cases state <;> cases h <;> simp [OperationKind.isRejectable]
  | _ => cases hmessage

theorem OperationKind.isRejectable_error (h : kind.isRejectable = true) :
    responseIsTerminal kind .errorResponse = true ∧ isExtendedKind kind = true ∧
      isInertKind kind = false ∧ (respond (initialResponseState kind) .errorResponse).isSome := by
  cases kind with
  | parse | bind | describe | execute | close => decide +kernel
  | _ => cases h

/-- The messages lead an operation at the front from this phase to an ErrorResponse: what comes
before the error is asynchronous or a legal response that does not end the operation. -/
def announces (kind : OperationKind) : RuntimeState → List BackendMessage → Bool
  | _, [] => false
  | state, message :: messages =>
    if isAsynchronous message then
      announces kind state messages
    else
      match respond state message.variant with
      | none => false
      | some next =>
        decide (message.variant = .errorResponse) ||
          (!responseIsTerminal kind message.variant && announces kind next messages)

theorem isAsynchronous_error {message : BackendMessage}
    (h : message.variant = .errorResponse) : isAsynchronous message = false := by
  cases message <;> first | rfl | cases h

theorem announces_error {message : BackendMessage} {messages : List BackendMessage}
    (hkind : kind.isRejectable = true) (herror : message.variant = .errorResponse) :
    announces kind (initialResponseState kind) (message :: messages) = true := by
  rcases Option.isSome_iff_exists.1 (OperationKind.isRejectable_error hkind).2.2.2 with ⟨next, hnext⟩
  simp [announces, isAsynchronous_error herror, herror, hnext]

namespace Pipeline

/-! ## In `ExtendedError` -/

/-- A Sync is accepted. -/
def acceptsSync (e : LedgerEntry) : Bool :=
  match e.input, e.output with
  | .frontend message _, .frontend (.ok _) => decide (message.variant = .sync)
  | _, _ => false

/-- The response takes the front operation into COPY IN or COPY BOTH. -/
def entersCopy (p : Pipeline) (call : Call) : Bool :=
  match call.response?, p.operations with
  | some message, head :: _ =>
    match respond head.responseState message.variant with
    | some next =>
      decide (responseCopyState next = some .copyIn ∨ responseCopyState next = some .copyBoth)
    | none => false
  | _, _ => false

theorem classifyFrontend_inError {message : FrontendVariant} {kind : OperationKind}
    {next : RequestState}
    (h : classifyFrontend .extendedError message = .ok (some (kind, next))) :
    message = .sync ∨ (next = .extendedError ∧ kind ≠ .sync) := by
  cases message <;> cases h <;> simp

variable {p p' : Pipeline} {reply : Reply} {admission : FrontendAdmission} {id : OperationId}
  {messages : List BackendMessage} {o : Operation} {message : BackendMessage}

/-- `ExtendedError` lasts until a Sync is accepted. -/
theorem Effect.extendedError {call : Call} (h : p.Effect call reply p')
    (hstate : p.requestState = .extendedError) (hcopy : p.entersCopy call = false) :
    acceptsSync ⟨p, call, reply, p'⟩ = true ∨ p'.requestState = .extendedError := by
  cases h with
  | refused _ | asynchronous _ _ | deferred _ _ | illegal _ _ | completed _ _ _ _ _ _ =>
    exact Or.inr hstate
  | accepted _ hproject _ =>
    have hclass := projectFrontend_classify hproject
    rw [hstate] at hclass
    rcases classifyFrontend_inError hclass with hsync | ⟨hnext, -⟩
    · exact Or.inl (by simp [acceptsSync, hsync])
    · exact Or.inr hnext
  | @continued _ message head rest next hcall _ hops hstep _ =>
    refine Or.inr ?_
    simp only [entersCopy, hcall, hops, hstep, decide_eq_false_iff_not, not_or] at hcopy
    unfold copyRequest
    split
    · next heq => exact absurd heq hcopy.1
    · next heq => exact absurd heq hcopy.2
    · exact hstate
  | failed _ _ _ _ _ _ _ | deferredError _ _ _ _ _ _ =>
    refine Or.inr ?_
    dsimp only
    split
    · exact hstate
    · rfl

/-- In `ExtendedError` the ledger takes a Sync and discards everything else. -/
theorem Effect.discards {message : FrontendMessage} {handling : FrontendHandling}
    (h : p.Effect (.frontend message handling) (.frontend (.ok admission)) p')
    (hstate : p.requestState = .extendedError) (hsync : message.variant ≠ .sync) :
    admission.intoAction = .discard p.nextId := by
  cases h with
  | @accepted _ _ kind next _ _ hproject _ =>
    have hclass := projectFrontend_classify hproject
    rw [hstate] at hclass
    rcases classifyFrontend_inError hclass with heq | ⟨hnext, hkind⟩
    · exact absurd heq hsync
    · have hdiscarded : (Operation.admitted p.nextId kind next handling).discarded = true := by
        simp [Operation.admitted, hnext, hkind]
      rw [intoAction_behind, hdiscarded]
      cases handling <;> rfl

/-! ## A request about to be rejected -/

/-- The newest record is a local request.  It is at the front and the messages lead to an error, or
it is behind other records and the next message is the error. -/
structure Rejecting (p : Pipeline) (id : OperationId) (messages : List BackendMessage)
    (before : List Operation) (o : Operation) : Prop where
  operations : p.operations = before ++ [o]
  identity : o.id = id
  origin : o.origin = .local
  kind : o.kind.isRejectable = true
  first : ∀ x ∈ before, x.id ≠ id
  next : (before = [] ∧ announces o.kind o.responseState messages = true) ∨
    (before ≠ [] ∧ ∃ message rest, messages = message :: rest ∧ message.variant = .errorResponse)

def AboutToReject (p : Pipeline) (id : OperationId) (messages : List BackendMessage) : Prop :=
  ∃ before o, p.Rejecting id messages before o

theorem AboutToReject.ne_nil (h : p.AboutToReject id messages) : messages ≠ [] := by
  rintro rfl
  rcases h with ⟨before, o, hrejecting⟩
  rcases hrejecting.next with ⟨-, hannounces⟩ | ⟨-, m, rest, hcons, -⟩
  · cases hannounces
  · cases hcons

theorem projectDeferredLocalError_newest {before : List Operation}
    (hops : p.operations = before ++ [o]) (hbefore : ∀ x ∈ before, x.id ≠ id) (hid : o.id = id)
    (horigin : o.origin = .local) (hextended : isExtendedKind o.kind = true) :
    (p.projectDeferredLocalError id).requestState = .extendedError := by
  have hnone : before.findIdx? (fun x => decide (x.id = id)) = none := by
    simpa using hbefore
  have hfound : p.operations.findIdx? (fun x => decide (x.id = id)) = some before.length := by
    simp [hops, List.findIdx?_append, hnone, hid]
  have hdrop : p.operations.drop before.length = [o] := by simp [hops]
  simp [projectDeferredLocalError, hfound, hdrop, horigin, hextended, discardUntilSync]

theorem Rejecting.step_behind {before : List Operation}
    (h : p.Rejecting id (message :: messages) before o) (hbefore : before ≠ [])
    (hstep : Step p (.emitLocal id message) reply p') : p'.requestState = .extendedError := by
  have herror : message.variant = .errorResponse := by
    rcases h.next with ⟨hnil, -⟩ | ⟨-, m, rest, hcons, herror⟩
    · exact absurd hnil hbefore
    · cases hcons
      exact herror
  have hprepared : p.prepareResponse (some id) message = .deferred := by
    rcases before with _ | ⟨head, rest⟩
    · exact absurd rfl hbefore
    · have hid : head.id ≠ id := h.first head List.mem_cons_self
      simp [prepareResponse, isAsynchronous_error herror, h.operations, hid]
  have hprojected : p.tryEmitLocal id message =
      .ok (.ok (.deferred message), p.projectDeferredLocalError id) := by
    simp [tryEmitLocal, acceptResponse, hprepared, herror, commitResponse]
  have hcall : p.call (.emitLocal id message) = .ok (reply, p') := hstep
  simp only [call, hprojected, Except.map, Except.ok.injEq, Prod.mk.injEq] at hcall
  rw [← hcall.2]
  exact projectDeferredLocalError_newest h.operations h.first h.identity h.origin
    (OperationKind.isRejectable_error h.kind).2.1

theorem Wf.step_emitted (hwf : p.Wf) {next : RuntimeState}
    (h : p.Rejecting id (message :: messages) [] o) (hasync : ¬isAsynchronous message = true)
    (hrespond : respond o.responseState message.variant = some next)
    (hannounces : announces o.kind o.responseState (message :: messages) = true)
    (hstep : Step p (.emitLocal id message) (.backend (.ok (.emit message))) p') :
    p'.requestState = .extendedError ∨ p'.AboutToReject id messages := by
  have hops : p.operations = [o] := h.operations
  have hkind := OperationKind.isRejectable_error h.kind
  have hcases : message.variant = .errorResponse ∨
      responseIsTerminal o.kind message.variant = false ∧ announces o.kind next messages = true := by
    simpa [announces, hasync, hrespond] using hannounces
  cases hwf.effect_of_step hstep with
  | asynchronous _ hasync' => exact absurd hasync' hasync
  | @continued _ _ head rest next' hcall haddr hops' hrespond' hmore =>
    rw [hops] at hops'
    cases hops'
    rw [hrespond] at hrespond'
    cases hrespond'
    rcases hcases with herror | ⟨-, hannounces'⟩
    · rw [herror, hkind.1] at hmore
      cases hmore
    · refine Or.inr ⟨[], { o with responseState := next }, ?_⟩
      exact
        { operations := rfl
          identity := h.identity
          origin := h.origin
          kind := h.kind
          first := h.first
          next := Or.inl ⟨rfl, hannounces'⟩ }
  | @completed _ _ head rest _ hcall haddr hops' _ hlast hplain =>
    rw [hops] at hops'
    cases hops'
    rcases hcases with herror | ⟨hmore, -⟩
    · exact absurd ⟨herror, hkind.2.1⟩ hplain
    · rw [hlast] at hmore
      cases hmore
  | @failed _ _ head rest _ hcall haddr hops' _ hlast herror hextended =>
    rw [hops] at hops'
    cases hops'
    exact Or.inl rfl

/-- A request at the front: its next response is emitted, and ends it if it is the error. -/
theorem Wf.step_front (hwf : p.Wf) (h : p.Rejecting id (message :: messages) [] o)
    (hstep : Step p (.emitLocal id message) reply p') :
    p'.requestState = .extendedError ∨
      (reply = .backend (.ok (.emit message)) ∧ p'.AboutToReject id messages) := by
  have hops : p.operations = [o] := h.operations
  have hannounces : announces o.kind o.responseState (message :: messages) = true := by
    rcases h.next with ⟨-, hannounces⟩ | ⟨hne, -⟩
    · exact hannounces
    · exact absurd rfl hne
  have hcall : p.call (.emitLocal id message) = .ok (reply, p') := hstep
  by_cases hasync : isAsynchronous message
  · right
    have hprepared : p.prepareResponse (some id) message = .asynchronous := by
      simp [prepareResponse, hasync]
    simp only [call, tryEmitLocal, acceptResponse, hprepared, commitResponse, Except.map] at hcall
    simp only [announces, hasync, if_true] at hannounces
    cases hcall
    exact ⟨rfl, [], o, { h with next := Or.inl ⟨rfl, hannounces⟩ }⟩
  · cases hrespond : respond o.responseState message.variant with
    | none => simp [announces, hasync, hrespond] at hannounces
    | some next =>
      have hlive : o.discarded = false := (Operation.isInert_eq_false.1 (hwf.headLive hops)).2
      have hfits : responseFits o message.variant = true := responseFits_of_respond hrespond
      have haddr : Call.Addresses (.emitLocal id message) o := ⟨h.origin, h.identity⟩
      have hresponse : Call.response? (.emitLocal id message) = some message := rfl
      rcases call_of_fits hops hlive hresponse haddr hfits with ⟨_, -, hemit⟩
      rw [hemit] at hcall
      have hreply : .backend (.ok (.emit message)) = reply := congrArg Prod.fst (Except.ok.inj hcall)
      subst hreply
      exact (hwf.step_emitted h hasync hrespond hannounces hstep).imp_right fun h => ⟨rfl, h⟩

/-- Offering the next response to a request that is about to be rejected rejects it, or brings the
rejection nearer. -/
theorem Wf.aboutToReject_step (hwf : p.Wf) (h : p.AboutToReject id (message :: messages))
    (hstep : Step p (.emitLocal id message) reply p') :
    p'.requestState = .extendedError ∨
      (reply = .backend (.ok (.emit message)) ∧ p'.AboutToReject id messages) := by
  rcases h with ⟨before, o, hrejecting⟩
  cases before with
  | nil => exact hwf.step_front hrejecting hstep
  | cons head rest => exact Or.inl (hrejecting.step_behind (List.cons_ne_nil head rest) hstep)

/-- The first response is the error. -/
def startsWithError : List BackendMessage → Bool
  | [] => false
  | message :: _ => decide (message.variant = .errorResponse)

/-- The responses to a local request lead to an error as soon as they are offered to the ledger: the
first is the error, or nothing is outstanding and what comes before the error is asynchronous or a
legal response that does not end the request. -/
def rejectsAtOnce (p : Pipeline) (request : FrontendMessage) (messages : List BackendMessage) : Bool :=
  startsWithError messages ||
    p.operations.isEmpty &&
      match classifyFrontend p.requestState request.variant with
      | .ok (some (kind, _)) => announces kind (initialResponseState kind) messages
      | _ => false

/-- Outside `ExtendedError`, a local request of the extended protocol is about to be rejected once it
is admitted. -/
theorem Wf.aboutToReject_accepted (hwf : p.Wf) (hord : p.Ordered) {request : FrontendMessage}
    (haccept : p.acceptFrontend request .local = .ok (.ok admission, p'))
    (hrequest : request.variant.isRejectable = true) (hstate : p.requestState ≠ .extendedError)
    (hrejects : p.rejectsAtOnce request messages = true) : p'.AboutToReject p.nextId messages := by
  cases hwf.effect_frontend haccept with
  | @accepted _ _ kind next _ _ hproject _ =>
    have hclass := projectFrontend_classify hproject
    rcases classifyFrontend_rejectable hclass hrequest with ⟨hkind, hnext⟩
    have hlive : next ≠ .extendedError := fun heq => hstate (hnext heq)
    have hinert : (Operation.admitted p.nextId kind next .local).isInert = false := by
      simp [Operation.isInert, Operation.admitted, hlive,
        (OperationKind.isRejectable_error hkind).2.2.1]
    -- With nothing in front the responses are emitted at once; behind other records only an
    -- ErrorResponse takes effect while it is deferred.
    cases hops : p.operations with
    | nil =>
      have hannounces : announces kind (initialResponseState kind) messages = true := by
        simp only [rejectsAtOnce, hops, hclass, List.isEmpty_nil, Bool.true_and,
          Bool.or_eq_true] at hrejects
        rcases hrejects with hstarts | hannounces
        · cases messages with
          | nil => cases hstarts
          | cons message messages =>
            exact announces_error hkind (of_decide_eq_true hstarts)
        · exact hannounces
      refine ⟨[], Operation.admitted p.nextId kind next .local, ?_⟩
      exact
        { operations := by simp [enqueue, hinert]
          identity := rfl
          origin := rfl
          kind := hkind
          first := fun x hx => absurd hx List.not_mem_nil
          next := Or.inl ⟨rfl, hannounces⟩ }
    | cons head rest =>
      have hstarts : startsWithError messages = true := by
        simpa [rejectsAtOnce, hops] using hrejects
      have hfirst : ∀ x ∈ head.advance request.variant ::
          cancelSyncFor p.requestState kind rest, x.id ≠ p.nextId := by
        intro x hx
        rcases List.mem_cons.1 hx with rfl | hx
        · exact Nat.ne_of_lt (hord.lt_nextId (o := head) (by simp [hops]))
        · rcases exists_strip_eq (cancelSyncFor_map_strip p.requestState kind rest) hx with
            ⟨y, hy, hstrip⟩
          rw [← (Operation.eq_of_strip hstrip).1]
          exact Nat.ne_of_lt (hord.lt_nextId (by simp [hops, hy]))
      refine ⟨head.advance request.variant :: cancelSyncFor p.requestState kind rest,
        Operation.admitted p.nextId kind next .local, ?_⟩
      exact
        { operations := rfl
          identity := rfl
          origin := rfl
          kind := hkind
          first := hfirst
          next := by
            refine Or.inr ⟨List.cons_ne_nil _ _, ?_⟩
            cases messages with
            | nil => cases hstarts
            | cons message messages =>
              exact ⟨message, messages, rfl, of_decide_eq_true hstarts⟩ }

end Pipeline
end PgProto
