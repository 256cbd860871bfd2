import PgProto.Pipeline.Mirror

/-!
# HalfClose — the client's half of a COPY BOTH

In COPY BOTH each side closes its own half.  Which halves are open is kept in the phase of the front
record, while `accept_frontend` decides from the request state, which is `CopyBoth` from the first
CopyBothResponse on: neither the client's CopyDone nor the end of the COPY BOTH takes it back.

`clientHalf` follows the client's half through a run from the messages alone, and
`clientHalf_eq_headOpen` ties it to the phase of the front record.  A COPY message accepted in
`CopyBoth` moves the front record exactly when the half is open (`moves_front_iff`), so the
half-close is enforced in exactly the runs in which the client sends COPY messages only then
(`copyBoth_half_close`).
-/

namespace PgProto

open Backend (RuntimeState respond request)
open Lib
open Operation (admitted advance isInert strip)

/-! ## The phases of a COPY BOTH -/

/-- The phases of a COPY BOTH in which the client may still send. -/
def isClientOpen : RuntimeState → Bool
  | .simpleCopyBoth | .simpleCopyBothServerDone | .extendedCopyBoth
  | .extendedCopyBothServerDone => true
  | _ => false

/-- The client message ends the client's half. -/
def endsClientHalf : FrontendVariant → Bool
  | .copyDone | .copyFail => true
  | _ => false

theorem isClientOpen_initial (kind : OperationKind) :
    isClientOpen (initialResponseState kind) = false := by
  cases kind <;> rfl

variable {state next : RuntimeState} {kind : OperationKind} {message : FrontendVariant}

theorem isClientOpen_respond {message : BackendVariant} (hstep : respond state message = some next)
    :
    isClientOpen next =
      (decide (message = .copyBothResponse) ||
        (isClientOpen state && !decide (message = .errorResponse))) :=
  Backend.respond_rule (by decide +kernel) hstep

/-- The last response of an operation leads to a phase between operations. -/
theorem isClientOpen_terminal {message : BackendVariant} (hstep : respond state message = some next)
    (howned : state ∈ ownedStates kind) (hlast : responseIsTerminal kind message = true) :
    isClientOpen next = false := by
  have hbetween := respond_terminal hstep howned hlast
  simp only [List.mem_cons, List.not_mem_nil, or_false] at hbetween
  rcases hbetween with rfl | rfl | rfl <;> rfl

/-- While its half is open every COPY message of the client is mapped. -/
theorem request_of_open (hopen : isClientOpen state = true) (hcopy : isCopyMessage message = true) :
    (request state message).isSome = true := by
  cases state <;> cases hopen <;> cases message <;> first | rfl | cases hcopy

theorem request_phases (hstep : request state message = some next)
    (howned : state ∈ ownedStates kind) :
    (isCopyInState state = true ∨ isClientOpen state = true) ∧
      isClientOpen next = (isClientOpen state && !endsClientHalf message) ∧
      (isCopyInState next = true → isCopyInState state = true) := by
  revert kind
  change ∀ kind, _
  exact Backend.request_rule (by decide +kernel) hstep

theorem isClientOpen_advance {o : Operation} (message : FrontendVariant)
    (howned : o.responseState ∈ ownedStates o.kind) :
    isClientOpen (o.advance message).responseState =
      (isClientOpen o.responseState && !endsClientHalf message) := by
  unfold advance
  cases hstep : request o.responseState message with
  | some next => exact (request_phases hstep howned).2.1
  | none =>
    -- nothing that ends an open half is left unmapped
    cases hopen : isClientOpen o.responseState with
    | false => simp [hopen]
    | true =>
      cases hends : endsClientHalf message with
      | false => simp [hopen]
      | true =>
        have hcopy : isCopyMessage message = true := by
          cases message <;> first | rfl | cases hends
        have hsome := request_of_open hopen hcopy
        rw [hstep] at hsome
        cases hsome

theorem isCopyInState_advance {o : Operation} (howned : o.responseState ∈ ownedStates o.kind)
    (hin : isCopyInState (o.advance message).responseState = true) :
    isCopyInState o.responseState = true := by
  unfold advance at hin
  cases hstep : request o.responseState message with
  | some next =>
    rw [hstep] at hin
    exact (request_phases hstep howned).2.2 hin
  | none =>
    rw [hstep] at hin
    exact hin

theorem classifyFrontend_copyBoth {state : RequestState} {next : RequestState}
    (h : classifyFrontend state message = .ok (some (kind, next))) :
    state = .copyBoth ↔ next = .copyBoth := by
  cases state <;> cases message <;> cases h <;> simp

/-- In `CopyBoth` data and its end are accepted, and nothing else. -/
theorem projectFrontend_copyBoth (message : FrontendVariant) :
    projectFrontend .copyBoth message = .ok none ↔
      message ∉ [FrontendVariant.copyData, .copyDone] := by
  cases message <;> decide

namespace Pipeline

/-! ## The client's half in a run -/

/-- The response that a call emits. -/
def emitted? (e : LedgerEntry) : Option BackendVariant :=
  match e.output with
  | .backend (.ok (.emit message)) => some message.variant
  | _ => none

/-- The client message that a call accepts. -/
def accepted? (e : LedgerEntry) : Option FrontendVariant :=
  if e.output.isAdmission then e.input.request?.map FrontendMessage.variant else none

/-- A CopyBothResponse opens the client's half.  An ErrorResponse closes it, and so does the client
with CopyDone or CopyFail. -/
def halfAfter (half : Bool) (e : LedgerEntry) : Bool :=
  if emitted? e = some .copyBothResponse then true
  else if emitted? e = some .errorResponse ∨ (accepted? e).any endsClientHalf then false
  else half

def clientHalf (h : List LedgerEntry) : Bool :=
  h.foldl halfAfter false

theorem clientHalf_snoc (h : List LedgerEntry) (e : LedgerEntry) :
    clientHalf (h ++ [e]) = halfAfter (clientHalf h) e := by
  simp [clientHalf]

variable {h : List LedgerEntry} {p p' : Pipeline} {call : Call} {reply : Reply}
  {policy : PipelinePolicy}

theorem clientHalf_reopened {more : List LedgerEntry} (hclosed : clientHalf h = false)
    (hreopened : clientHalf (h ++ more) = true) :
    ∃ e ∈ more, emitted? e = some .copyBothResponse := by
  induction more using List.reverseRecOn with
  | nil =>
    rw [List.append_nil, hclosed] at hreopened
    cases hreopened
  | append_singleton more e ih =>
    rw [← List.append_assoc, clientHalf_snoc] at hreopened
    by_cases hbegins : emitted? e = some .copyBothResponse
    · exact ⟨e, by simp, hbegins⟩
    · have hbefore : clientHalf (h ++ more) = true := by
        unfold halfAfter at hreopened
        rw [if_neg hbegins] at hreopened
        split at hreopened
        · cases hreopened
        · exact hreopened
      obtain ⟨x, hx, hemitted⟩ := ih hbefore
      exact ⟨x, List.mem_append_left _ hx, hemitted⟩

/-- The front record is in a COPY BOTH in which the client may still send. -/
def headOpen (p : Pipeline) : Bool :=
  (p.operations.head?.map fun o => isClientOpen o.responseState).getD false

theorem Wf.headOpen_pop (hwf : p.Wf) {head : Operation} {rest os : List Operation}
    (hops : p.operations = head :: rest)
    (hstrip : os.map strip = rest.map strip)
    (hops' : p'.operations = os.dropWhile isInert) : p'.headOpen = false := by
  unfold headOpen
  rw [hops']
  cases hfront : os.dropWhile isInert with
  | nil => rfl
  | cons o after =>
    have hmem : o ∈ os := (List.dropWhile_suffix _).subset (hfront ▸ List.mem_cons_self)
    have hinitial := hwf.waiting_of_strip hops hstrip hmem
    simp [hinitial, isClientOpen_initial]

section HalfAfter

variable {p p' : Pipeline} (half : Bool)

theorem halfAfter_admission (message : FrontendMessage) (handling : FrontendHandling)
    (admission : FrontendAdmission) :
    halfAfter half ⟨p, .frontend message handling, .frontend (.ok admission), p'⟩ =
      (half && !endsClientHalf message.variant) := by
  cases hends : endsClientHalf message.variant <;>
    simp [halfAfter, emitted?, accepted?, Reply.isAdmission, Call.request?, hends]

theorem halfAfter_emit (call : Call) (message : BackendMessage) :
    halfAfter half ⟨p, call, .backend (.ok (.emit message)), p'⟩ =
      (decide (message.variant = .copyBothResponse) ||
        (half && !decide (message.variant = .errorResponse))) := by
  by_cases hbegins : message.variant = .copyBothResponse
  · simp [halfAfter, emitted?, hbegins]
  · by_cases herror : message.variant = .errorResponse <;>
      simp [halfAfter, emitted?, accepted?, Reply.isAdmission, hbegins, herror]

theorem halfAfter_closed {e : LedgerEntry} {message : FrontendVariant}
    (haccepted : accepted? e = some message) (hends : endsClientHalf message = true) :
    halfAfter half e = false := by
  have hemitted : emitted? e = none := by
    unfold accepted? at haccepted
    unfold emitted?
    split
    next hreply => simp [hreply, Reply.isAdmission] at haccepted
    next => rfl
  simp [halfAfter, hemitted, haccepted, hends]

/-- A message that is refused or has to wait leaves the half alone. -/
theorem halfAfter_idle (call : Call) {reply : Reply} (hadmission : reply.isAdmission = false)
    (hemitted : ∀ message, reply ≠ .backend (.ok (.emit message))) :
    halfAfter half ⟨p, call, reply, p'⟩ = half := by
  have hnone : emitted? ⟨p, call, reply, p'⟩ = none := by
    unfold emitted?
    split
    next message hreply => exact absurd hreply (hemitted message)
    next => rfl
  simp [halfAfter, hnone, accepted?, hadmission]

end HalfAfter

theorem variant_of_asynchronous {message : BackendMessage} (h : isAsynchronous message = true) :
    message.variant ≠ .copyBothResponse ∧ message.variant ≠ .errorResponse := by
  constructor <;>
  · intro hvariant
    simp [isAsynchronous, hvariant, BackendVariant.isAsynchronous] at h

theorem Wf.headOpen_effect (hwf : p.Wf) (heff : p.Effect call reply p') :
    p'.headOpen = halfAfter p.headOpen ⟨p, call, reply, p'⟩ := by
  cases heff with
  | refused _ | deferred _ _ | illegal _ _ => exact (halfAfter_idle _ _ rfl (by simp)).symm
  | @asynchronous _ message _ hasync =>
    obtain ⟨hbegins, herror⟩ := variant_of_asynchronous hasync
    rw [halfAfter_emit]
    simp [hbegins, herror]
  | @deferredError _ _ before o rest _ hops _ _ _ _ =>
    rw [halfAfter_idle _ _ rfl (by simp)]
    -- discarding starts behind the front record
    cases before <;> simp [headOpen, hops]
  | @accepted message handling kind next phase _ hproject _ =>
    rw [halfAfter_admission]
    cases hops : p.operations with
    | nil =>
      -- the new record comes to the front in its initial phase, or not at all
      simp only [headOpen, enqueue, hops]
      split
      · simp
      · simp [admitted, isClientOpen_initial]
    | cons head rest =>
      have howned := hwf.owned head (by simp [hops])
      simpa [headOpen, enqueue, hops] using isClientOpen_advance message.variant howned
  | @continued _ message head rest next _ _ hops hstep _ =>
    rw [halfAfter_emit]
    simpa [headOpen, hops] using isClientOpen_respond hstep
  | @completed _ message head rest next _ _ hops hstep hlast _ =>
    have howned := hwf.owned head (by simp [hops])
    have hnext := isClientOpen_respond hstep
    rw [isClientOpen_terminal hstep howned hlast] at hnext
    rw [halfAfter_emit, hwf.headOpen_pop hops rfl rfl, hnext]
    simp [headOpen, hops]
  | @failed _ message head rest next _ _ hops hstep hlast _ _ =>
    have howned := hwf.owned head (by simp [hops])
    have hnext := isClientOpen_respond hstep
    rw [isClientOpen_terminal hstep howned hlast] at hnext
    rw [halfAfter_emit, hwf.headOpen_pop hops (discardUntilSync_map_strip rest) rfl, hnext]
    simp [headOpen, hops]

theorem clientHalf_eq_headOpen (hrun : Run policy h p) : clientHalf h = p.headOpen := by
  induction hrun with
  | nil => rfl
  | snoc hbefore hstep ih =>
    have hwf : Pipeline.Wf _ := Run.wf hbefore
    rw [clientHalf_snoc, ih, hwf.headOpen_effect (hwf.effect_of_step hstep)]

/-! ## The request state -/

/-- A front record in COPY IN is not taken for one in COPY BOTH. -/
def CopyInApart (p : Pipeline) : Prop :=
  ∀ head rest, p.operations = head :: rest → isCopyInState head.responseState = true →
    p.requestState ≠ .copyBoth

theorem copyRequest_copyIn {next : RuntimeState} {state : RequestState}
    (hin : isCopyInState next = true) : copyRequest next state = .copyIn := by
  simp [copyRequest, (isCopyInState_iff_responseCopyState next).1 hin]

theorem Wf.copyInApart_pop (hwf : p.Wf) {head : Operation} {rest os : List Operation}
    (hops : p.operations = head :: rest)
    (hstrip : os.map strip = rest.map strip)
    (hops' : p'.operations = os.dropWhile isInert) : p'.CopyInApart := by
  intro front after hfront hin
  rw [hops'] at hfront
  have hmem : front ∈ os := (List.dropWhile_suffix _).subset (hfront ▸ List.mem_cons_self)
  rw [hwf.waiting_of_strip hops hstrip hmem] at hin
  cases hkind : front.kind <;> simp [hkind, initialResponseState, isCopyInState] at hin

theorem Wf.copyInApart_effect (hwf : p.Wf) (hapart : p.CopyInApart) (heff : p.Effect call reply p') :
    p'.CopyInApart := by
  cases heff with
  | refused _ | deferred _ _ | illegal _ _ | asynchronous _ _ => exact hapart
  | completed _ _ hops _ _ _ => exact hwf.copyInApart_pop hops rfl rfl
  | @failed _ _ _ rest _ _ _ hops _ _ _ _ =>
    exact hwf.copyInApart_pop hops (discardUntilSync_map_strip rest) rfl
  | @continued _ message head rest next _ _ hops hstep _ =>
    intro front after hfront hin
    cases hfront
    dsimp only at hin ⊢
    rw [copyRequest_copyIn hin]
    simp
  | @deferredError _ _ before o rest _ hops _ _ _ _ =>
    intro front after hfront hin
    have hstate : p.requestState ≠ .copyBoth := by
      cases before <;> cases hfront <;> exact hapart _ _ hops hin
    dsimp only
    split
    · exact hstate
    · simp
  | @accepted message handling kind next phase _ hproject _ =>
    intro front after hfront hin hboth
    have hstate := (classifyFrontend_copyBoth (projectFrontend_classify hproject)).2 hboth
    cases hops : p.operations with
    | nil =>
      simp only [enqueue, hops] at hfront
      split at hfront
      · cases hfront
      · cases hfront
        cases kind <;> cases hin
    | cons head rest =>
      simp only [enqueue, hops] at hfront
      cases hfront
      have howned := hwf.owned head (by simp [hops])
      exact hapart head rest hops (isCopyInState_advance howned hin) hstate

theorem Run.copyInApart (hrun : Run policy h p) : p.CopyInApart := by
  induction hrun with
  | nil =>
    intro head rest hops
    cases hops
  | snoc hbefore hstep ih =>
    have hwf : Pipeline.Wf _ := Run.wf hbefore
    exact hwf.copyInApart_effect ih (hwf.effect_of_step hstep)

/-! ## The half-close -/

/-- `accept_frontend` takes a COPY message while the request state is `CopyBoth`. -/
def AcceptsInCopyBoth (e : LedgerEntry) : Prop :=
  e.before.requestState = .copyBoth ∧ (accepted? e).any isCopyMessage = true

instance : DecidablePred AcceptsInCopyBoth :=
  fun _ => inferInstanceAs (Decidable (_ ∧ _))

/-- The message is mapped from the phase of the front record and moves it along that transition. -/
def MovesFront (e : LedgerEntry) : Prop :=
  ∃ message handling head rest event edge,
    e.input = .frontend message handling ∧ e.before.operations = head :: rest ∧
    Backend.projectExternal head.responseState message.variant = some event ∧
    Backend.transition head.responseState event = some edge ∧
    e.after.operations.head? = some { head with responseState := edge.target }

/-- The client sends CopyData or CopyDone while the request state is `CopyBoth`. -/
def OffersInCopyBoth (e : LedgerEntry) : Prop :=
  e.before.requestState = .copyBoth ∧
    ∃ variant ∈ [FrontendVariant.copyData, .copyDone],
      e.input.request?.map FrontendMessage.variant = some variant

instance : DecidablePred OffersInCopyBoth :=
  fun _ => inferInstanceAs (Decidable (_ ∧ _))

/-- `accept_frontend` takes what it is offered in `CopyBoth`, CopyFail apart. -/
theorem acceptsInCopyBoth_iff (heff : p.Effect call reply p') :
    AcceptsInCopyBoth ⟨p, call, reply, p'⟩ ↔ OffersInCopyBoth ⟨p, call, reply, p'⟩ := by
  unfold AcceptsInCopyBoth OffersInCopyBoth
  apply and_congr_right
  intro hstate
  dsimp only at hstate ⊢
  cases heff with
  | @refused message handling error hrefused =>
    have hother : message.variant ∉ [FrontendVariant.copyData, .copyDone] := by
      rcases hrefused with ⟨-, -, hboth⟩ | hnone
      · exact absurd hstate hboth
      · rw [hstate] at hnone
        exact (projectFrontend_copyBoth _).1 hnone
    simpa [accepted?, Reply.isAdmission, Call.request?] using hother
  | @accepted message handling kind next phase _ hproject _ =>
    have hcopy : message.variant ∈ [FrontendVariant.copyData, .copyDone] := by
      by_contra hother
      rw [hstate, (projectFrontend_copyBoth _).2 hother] at hproject
      cases hproject
    have hkind : isCopyMessage message.variant = true := by
      simp only [List.mem_cons, List.not_mem_nil, or_false] at hcopy
      rcases hcopy with hdata | hdone
      · rw [hdata]
        rfl
      · rw [hdone]
        rfl
    simpa [accepted?, Reply.isAdmission, Call.request?, hkind] using hcopy
  | deferredError _ _ _ _ _ _ => simp [accepted?, Reply.isAdmission, Call.request?]
  | asynchronous hresponse _ | deferred hresponse _ | illegal hresponse _
  | continued hresponse _ _ _ _ | completed hresponse _ _ _ _ _
  | failed hresponse _ _ _ _ _ _ =>
    simp [accepted?, Reply.isAdmission, Call.request?_of_response? hresponse]

theorem OffersInCopyBoth.front (hoffers : OffersInCopyBoth ⟨p, call, reply, p'⟩)
    (heff : p.Effect call reply p') :
    ∃ message handling head rest, call = .frontend message handling ∧
      isCopyMessage message.variant = true ∧ p.operations = head :: rest ∧
      p'.operations.head? = some (head.advance message.variant) := by
  have haccepted := ((acceptsInCopyBoth_iff heff).2 hoffers).2
  have hstate := hoffers.1
  cases heff with
  | @accepted message handling kind next phase _ hproject hphase =>
    dsimp only at hstate
    rw [hstate] at hphase
    cases hops : p.operations with
    | nil =>
      rw [hops] at hphase
      cases hphase
    | cons head rest =>
      exact ⟨message, handling, head, rest, rfl, haccepted, rfl,
        by simp [enqueue]⟩
  | _ => simp [accepted?, Reply.isAdmission] at haccepted

theorem request_eq_some {state next : RuntimeState} {message : FrontendVariant} :
    request state message = some next ↔
      ∃ event edge, Backend.projectExternal state message = some event ∧
        Backend.transition state event = some edge ∧ edge.target = next := by
  simp only [request, Table.stepExternal, Option.bind_eq_some_iff, Option.map_eq_some_iff]
  constructor
  · rintro ⟨event, hevent, edge, hedge, rfl⟩
    exact ⟨event, edge, hevent, hedge, rfl⟩
  · rintro ⟨event, edge, hevent, hedge, rfl⟩
    exact ⟨event, hevent, edge, hedge, rfl⟩

/-- A COPY message sent in `CopyBoth` moves the front record exactly when the client's half is
open. -/
theorem moves_front_iff {e : LedgerEntry} (hrun : Run policy h e.before)
    (hstep : Step e.before e.input e.output e.after) (hoffers : OffersInCopyBoth e) :
    MovesFront e ↔ clientHalf h = true := by
  obtain ⟨p, call, reply, p'⟩ := e
  have hwf : p.Wf := Run.wf hrun
  obtain ⟨message, handling, head, rest, rfl, hcopy, hops, hafter⟩ :=
    hoffers.front (hwf.effect_of_step hstep)
  have howned := hwf.owned head (by simp [hops])
  have hhalf : clientHalf h = isClientOpen head.responseState := by
    rw [clientHalf_eq_headOpen hrun]
    simp [headOpen, hops]
  rw [hhalf]
  constructor
  · rintro ⟨_, _, _, _, event, edge, ⟨⟩, hops', hevent, hedge, -⟩
    rw [hops] at hops'
    cases hops'
    have hmoves := request_eq_some.2 ⟨event, edge, hevent, hedge, rfl⟩
    -- in `CopyBoth` the front record is not in COPY IN, the other place that listens
    rcases (request_phases hmoves howned).1 with hin | hopen
    · exact absurd hoffers.1 (Run.copyInApart hrun head rest hops hin)
    · exact hopen
  · intro hclient
    obtain ⟨next, hnext⟩ := Option.isSome_iff_exists.1 (request_of_open hclient hcopy)
    obtain ⟨event, edge, hevent, hedge, rfl⟩ := request_eq_some.1 hnext
    refine ⟨message, handling, head, rest, event, edge, rfl, hops, hevent, hedge, ?_⟩
    rw [hafter, advance, hnext]
    rfl

/-- After the client's CopyDone no COPY message is accepted before the next COPY BOTH. -/
def ClosedByCopyDone (h : List LedgerEntry) : Prop :=
  ∀ before done between e after, h = before ++ done :: (between ++ e :: after) →
    AcceptsInCopyBoth done → accepted? done = some .copyDone → AcceptsInCopyBoth e →
      ∃ x ∈ between, emitted? x = some .copyBothResponse

/-- The half-close is enforced in exactly the runs in which the client sends CopyData and CopyDone
in `CopyBoth` only while its half is open. -/
theorem copyBoth_half_close {policy : PipelinePolicy} {h : List LedgerEntry} {p : Pipeline}
    (hrun : Run policy h p) :
    (AllAfter (fun _ e => AcceptsInCopyBoth e → MovesFront e) h ∧ ClosedByCopyDone h) ↔
      AllAfter (fun before e => OffersInCopyBoth e → clientHalf before = true) h := by
  have hentry : ∀ before e after, h = before ++ e :: after →
      (AcceptsInCopyBoth e ↔ OffersInCopyBoth e) ∧
      (OffersInCopyBoth e → (MovesFront e ↔ clientHalf before = true)) := by
    rintro before e after rfl
    obtain ⟨hbefore, hstep, -⟩ := hrun.split
    have hwf : e.before.Wf := Run.wf hbefore
    exact ⟨acceptsInCopyBoth_iff (hwf.effect_of_step hstep), moves_front_iff hbefore hstep⟩
  constructor
  · rintro ⟨hmoves, -⟩ before e after hsplit hoffers
    obtain ⟨haccepts, hiff⟩ := hentry before e after hsplit
    exact (hiff hoffers).1 (hmoves before e after hsplit (haccepts.2 hoffers))
  · intro hopen
    refine ⟨?_, ?_⟩
    · intro before e after hsplit haccepts
      obtain ⟨hoffers, hiff⟩ := hentry before e after hsplit
      exact (hiff (hoffers.1 haccepts)).2 (hopen before e after hsplit (hoffers.1 haccepts))
    · intro before done between e after hsplit _ hdone haccepts
      have hclosed : clientHalf (before ++ [done]) = false := by
        rw [clientHalf_snoc]
        exact halfAfter_closed _ hdone rfl
      have hsplit' : h = (before ++ [done] ++ between) ++ e :: after := by
        simp [hsplit]
      have hreopened := hopen _ e after hsplit' ((hentry _ e after hsplit').1.1 haccepts)
      exact clientHalf_reopened hclosed hreopened

/-- A COPY BOTH in which the client sends data and closes its half, and then the server its own. -/
theorem copyBoth_half_close_once :
    ∃ h p, Run .noPipeline h p ∧ ForwardOnly h ∧
      (∃ e ∈ h, AcceptsInCopyBoth e ∧ accepted? e = some .copyDone) ∧
      AllAfter (fun _ e => AcceptsInCopyBoth e → MovesFront e) h ∧ ClosedByCopyDone h := by
  obtain ⟨h, p, hr, hforward, hdone, hopen⟩ : ∃ h p, Run .noPipeline h p ∧ ForwardOnly h ∧
      (∃ e ∈ h, AcceptsInCopyBoth e ∧ accepted? e = some .copyDone) ∧
      AllAfter (fun before e => OffersInCopyBoth e → clientHalf before = true) h :=
    ⟨_, _, .of_exec [.frontend (.query []) .forward, .backend (.copyBothResponse ⟨0, []⟩),
      .frontend (.copyData []) .forward, .frontend .copyDone .forward, .backend .copyDone] rfl,
      by decide, by decide, by decide⟩
  exact ⟨h, p, hr, hforward, hdone, (copyBoth_half_close hr).2 hopen⟩

/-- The client sends CopyDone twice, and the ledger takes both: the second one moves nothing. -/
theorem copyDone_taken_twice :
    ∃ h p, Run .noPipeline h p ∧ ForwardOnly h ∧
      ¬ AllAfter (fun _ e => AcceptsInCopyBoth e → MovesFront e) h ∧ ¬ ClosedByCopyDone h := by
  obtain ⟨a, b, c, d, p, hr, hforward, hclosed, hfirst, hdone, hsecond, hoffers⟩ :
      ∃ a b c d p, Run .noPipeline ([a, b, c] ++ d :: []) p ∧ ForwardOnly [a, b, c, d] ∧
        clientHalf [a, b, c] = false ∧ AcceptsInCopyBoth c ∧ accepted? c = some .copyDone ∧
        AcceptsInCopyBoth d ∧ OffersInCopyBoth d :=
    ⟨_, _, _, _, _, .of_exec [.frontend (.query []) .forward,
      .backend (.copyBothResponse ⟨0, []⟩), .frontend .copyDone .forward,
      .frontend .copyDone .forward] rfl, by decide, rfl, by decide, rfl, by decide, by decide⟩
  obtain ⟨hbefore, hstep, -⟩ := hr.split
  refine ⟨_, p, hr, hforward, ?_, ?_⟩
  · intro hall
    have hmoves := hall [a, b, c] d [] rfl hsecond
    rw [moves_front_iff hbefore hstep hoffers, hclosed] at hmoves
    cases hmoves
  · intro hall
    obtain ⟨x, hx, -⟩ := hall [a, b] c [] d [] rfl hfirst hdone hsecond
    cases hx

end Pipeline
end PgProto
