import Mathlib.Data.List.Find
import PgProto.Pipeline.Ordering
import PgProto.Pipeline.Sequences

/-!
# Attribution — the operation a server message is shown with

`backend_operation_id` searches the ledger for the first forwarded record that a message fits.  The
ledger does not know of server messages that are held back, so the record it finds may be one that a
held message has already ended.

* `Pipeline.owing` — the operations that the server owes responses for;
* `Pipeline.ended` — how many of them a list of messages ends;
* `Pipeline.fitsInFront` — the first operation a message fits is the one that held messages leave in
  front;
* `Pipeline.Wf.owingKeys_append`, `Pipeline.Wf.owingKeys_emit` — what a call does to them;
* `Pipeline.Wf.span` — the operations of a released span, as shown and as committed.
-/

namespace PgProto

open Lib

/-- The server owes responses for the record. -/
def Operation.owes (o : Operation) : Bool :=
  decide (o.origin = .forwarded) && !o.isInert

namespace Pipeline

/-! ## Operations and the messages that end them -/

def owing (p : Pipeline) : List Operation :=
  p.operations.filter Operation.owes

def owingKeys (p : Pipeline) : List (OperationId × OperationKind) :=
  p.owing.map Operation.key

/-- How many of the operations, in order, the messages end. -/
def ended : List BackendMessage → List (OperationId × OperationKind) → Nat
  | [], _ => 0
  | _ :: _, [] => 0
  | message :: messages, key :: keys =>
    if isAsynchronous message = false ∧ responseIsTerminal key.2 message.variant = true then
      ended messages keys + 1
    else
      ended messages (key :: keys)

/-- The message fits no operation that the held messages end, and it fits the next one. -/
def fitsInFront (p : Pipeline) (held : List BackendMessage) (message : BackendMessage) : Bool :=
  (p.owing.take (ended held p.owingKeys)).all (fun o => !responseFits o message.variant) &&
    (p.owing[ended held p.owingKeys]?).any fun o => responseFits o message.variant

@[simp] theorem ended_nil_keys (messages : List BackendMessage) : ended messages [] = 0 := by
  cases messages <;> rfl

theorem ended_cons (message : BackendMessage) (messages : List BackendMessage)
    (keys : List (OperationId × OperationKind)) :
    ended (message :: messages) keys =
      ended [message] keys + ended messages (keys.drop (ended [message] keys)) := by
  cases keys with
  | nil => simp
  | cons key keys =>
    by_cases hends : isAsynchronous message = false ∧
        responseIsTerminal key.2 message.variant = true
    · simp [ended, hends, Nat.add_comm]
    · simp [ended, hends]

theorem ended_append {messages : List BackendMessage}
    {keys : List (OperationId × OperationKind)} (h : ended messages keys < keys.length)
    (more : List (OperationId × OperationKind)) :
    ended messages (keys ++ more) = ended messages keys := by
  induction messages generalizing keys with
  | nil => rfl
  | cons message messages ih =>
    cases keys with
    | nil => simp at h
    | cons key keys =>
      by_cases hends : isAsynchronous message = false ∧
          responseIsTerminal key.2 message.variant = true
      · have hrest : ended messages keys < keys.length := by
          simpa [ended, hends] using h
        simp [ended, hends, ih hrest]
      · have hrest : ended messages (key :: keys) < (key :: keys).length := by
          simpa [ended, hends] using h
        have hkeys := ih hrest
        simp only [List.cons_append] at hkeys
        simp [ended, hends, hkeys]

theorem ended_variant {messages messages' : List BackendMessage}
    (h : messages.map BackendMessage.variant = messages'.map BackendMessage.variant)
    (keys : List (OperationId × OperationKind)) : ended messages keys = ended messages' keys := by
  induction messages generalizing messages' keys with
  | nil =>
    cases messages' with
    | nil => rfl
    | cons message' messages' => cases h
  | cons message messages ih =>
    cases messages' with
    | nil => cases h
    | cons message' messages' =>
      simp only [List.map_cons, List.cons.injEq] at h
      cases keys with
      | nil => rfl
      | cons key keys =>
        have hasync : isAsynchronous message = isAsynchronous message' :=
          congrArg BackendVariant.isAsynchronous h.1
        rw [ended, ended, hasync, h.1, ih h.2, ih h.2]

/-! ## The first operation a message fits -/

variable {p : Pipeline}

theorem Wf.owes_of_fits (hwf : p.Wf) {o : Operation} (ho : o ∈ p.operations)
    {message : BackendVariant} (hfits : responseFits o message = true) :
    o.owes = (decide (o.origin = .forwarded) && !o.discarded) := by
  have hsome : (Backend.respond o.responseState message).isSome = true := by
    rw [Backend.respond_isSome]
    exact hfits
  rcases Option.isSome_iff_exists.1 hsome with ⟨next, hnext⟩
  have hkind : isInertKind o.kind = false := respond_inert hnext (hwf.owned o ho)
  simp [Operation.owes, Operation.isInert, hkind]

theorem Wf.backendOperationId_eq (hwf : p.Wf) {message : BackendMessage}
    (hsync : isAsynchronous message = false) :
    p.backendOperationId message =
      (p.owing.find? fun o => responseFits o message.variant).map Operation.id := by
  have hfind : p.operations.find? (fun o => decide (o.origin = .forwarded) && !o.discarded &&
        responseFits o message.variant) =
      p.operations.find? fun o => o.owes && responseFits o message.variant := by
    apply List.find?_congr
    intro o ho
    cases hfits : responseFits o message.variant with
    | false => simp
    | true => rw [hwf.owes_of_fits ho hfits]
  rw [backendOperationId, hsync, if_neg Bool.false_ne_true, hfind, owing, List.find?_filter]
  simp

/-- A message that fits in front is attributed to the operation in front. -/
theorem Wf.backendOperationId_of_fitsInFront (hwf : p.Wf) {held : List BackendMessage}
    {message : BackendMessage} (hsync : isAsynchronous message = false)
    (h : p.fitsInFront held message = true) :
    ∃ key, p.owingKeys[ended held p.owingKeys]? = some key ∧
      p.backendOperationId message = some key.1 := by
  simp only [fitsInFront, Bool.and_eq_true, List.all_eq_true, Option.any_eq_true] at h
  rcases h with ⟨hbefore, o, ho, hfits⟩
  refine ⟨o.key, ?_, ?_⟩
  · rw [owingKeys, List.getElem?_map, ← owingKeys, ho]
    rfl
  · rcases List.getElem?_eq_some_iff.1 ho with ⟨hlt, hget⟩
    have hsplit : p.owing = p.owing.take (ended held p.owingKeys) ++
        o :: p.owing.drop (ended held p.owingKeys + 1) := by
      calc p.owing
          = p.owing.take (ended held p.owingKeys) ++ p.owing.drop (ended held p.owingKeys) :=
            (List.take_append_drop _ _).symm
        _ = _ := by rw [List.drop_eq_getElem_cons hlt, hget]
    have hfirst : p.owing.find? (fun o => responseFits o message.variant) = some o :=
      List.find?_eq_some_iff_append.2 ⟨hfits, _, _, hsplit, hbefore⟩
    rw [hwf.backendOperationId_eq hsync, hfirst]
    rfl

/-! ## What a call does to the operations -/

section Calls

variable {p p' : Pipeline} {message emitted : BackendMessage} {head : Operation}
  {rest : List Operation}

theorem owingKeys_cons (hops : p.operations = head :: rest) (howes : head.owes = true) :
    p.owingKeys = head.key :: (rest.filter Operation.owes).map Operation.key := by
  rw [owingKeys, owing, hops, List.filter_cons_of_pos howes, List.map_cons]

/-- The record that a server message is answered with is in front of all that are owing. -/
theorem Wf.owes_front (hwf : p.Wf) (hops : p.operations = head :: rest)
    (haddr : Call.Addresses (.backend message) head) : head.owes = true := by
  have horigin : head.origin = .forwarded := haddr
  simp [Operation.owes, horigin, hwf.headLive hops]

theorem Wf.backendOperationId_of_emit (hwf : p.Wf)
    (hstep : Step p (.backend message) (.backend (.ok (.emit emitted))) p')
    (hsync : isAsynchronous message = false) :
    ∃ head rest, p.operations = head :: rest ∧ p.owingKeys.head? = some head.key ∧
      p.backendOperationId message = some head.id := by
  have hfront : ∀ {head : Operation} {rest : List Operation} {next},
      p.operations = head :: rest → Call.Addresses (.backend message) head →
      Backend.respond head.responseState message.variant = some next →
      p.owingKeys.head? = some head.key ∧ p.backendOperationId message = some head.id := by
    intro head rest next hops haddr hnext
    have howes := hwf.owes_front hops haddr
    have hfits : responseFits head message.variant = true := responseFits_of_respond hnext
    refine ⟨by rw [owingKeys_cons hops howes]; rfl, ?_⟩
    simp [hwf.backendOperationId_eq hsync, owing, hops, howes, hfits]
  cases hwf.effect_of_step hstep with
  | asynchronous hcall hasync =>
    cases hcall
    exact absurd (hsync.symm.trans hasync) nofun
  | continued hcall haddr hops hnext _ | completed hcall haddr hops hnext _ _
  | failed hcall haddr hops hnext _ _ _ =>
    cases hcall
    exact ⟨_, _, hops, hfront hops haddr hnext⟩

theorem filter_owes_dropWhile (os : List Operation) :
    (os.dropWhile Operation.isInert).filter Operation.owes = os.filter Operation.owes := by
  induction os with
  | nil => rfl
  | cons o os ih =>
    cases hinert : o.isInert with
    | false => rw [List.dropWhile_cons_of_neg (by simp [hinert])]
    | true =>
      have howes : ¬o.owes = true := by simp [Operation.owes, hinert]
      rw [List.dropWhile_cons_of_pos hinert, ih, List.filter_cons_of_neg howes]

theorem filter_owes_front (head : Operation) (state : Backend.RuntimeState)
    (rest : List Operation) :
    (({ head with responseState := state } :: rest).filter Operation.owes).map Operation.key =
      ((head :: rest).filter Operation.owes).map Operation.key := by
  have howes : ({ head with responseState := state } : Operation).owes = head.owes := rfl
  rw [List.filter_cons, List.filter_cons, howes]
  cases head.owes <;> rfl

/-- A server message that is emitted, other than an error, ends at most the operation in front. -/
theorem Wf.owingKeys_emit (hwf : p.Wf)
    (hstep : Step p (.backend message) (.backend (.ok (.emit emitted))) p')
    (herror : message.variant ≠ .errorResponse) :
    p'.owingKeys = p.owingKeys.drop (ended [message] p.owingKeys) := by
  cases hwf.effect_of_step hstep with
  | asynchronous hcall hasync =>
    cases hcall
    have hended : ended [message] p.owingKeys = 0 := by
      cases p.owingKeys <;> simp [ended, hasync]
    rw [hended, List.drop_zero]
  | continued hcall haddr hops hnext hmore =>
    cases hcall
    have hkeys := owingKeys_cons hops (hwf.owes_front hops haddr)
    have hended : ended [message] p.owingKeys = 0 := by
      simp [hkeys, ended, Operation.key, hmore]
    rw [hended, List.drop_zero, owingKeys, owing, filter_owes_front, ← hops]
    rfl
  | completed hcall haddr hops hnext hlast _ =>
    cases hcall
    have hkeys := owingKeys_cons hops (hwf.owes_front hops haddr)
    have hsync : isAsynchronous message = false := respond_not_asynchronous hnext
    have hended : ended [message] p.owingKeys = 1 := by
      simp [hkeys, ended, Operation.key, hlast, hsync]
    rw [hended, hkeys, List.drop_one, List.tail_cons, owingKeys, owing, filter_owes_dropWhile]
  | failed hcall _ _ _ _ hvariant _ =>
    cases hcall
    exact absurd hvariant herror

/-- The call discards a Sync that was accepted before. -/
def cancelsSync (p : Pipeline) : Call → Bool
  | .frontend message _ =>
    decide (p.requestState = .copyIn) &&
      (decide (message.variant = .copyDone) || decide (message.variant = .copyFail))
  | _ => false

/-- The call is a response that is an error. -/
def isError (call : Call) : Bool :=
  call.response?.any fun message => decide (message.variant = .errorResponse)

theorem classifyFrontend_ends_copy {state next : RequestState} {message : FrontendVariant}
    {kind : OperationKind} (h : classifyFrontend state message = .ok (some (kind, next)))
    (hstate : state = .copyIn) (hkind : kind = .copyDone ∨ kind = .copyFail) :
    message = .copyDone ∨ message = .copyFail := by
  subst hstate
  cases message <;> cases h <;> simp at hkind ⊢

/-- Client messages and local responses only add operations at the end, unless a Sync is cancelled
or a local request is rejected. -/
theorem Wf.owingKeys_append (hwf : p.Wf) {call : Call} {reply : Reply}
    (hstep : Step p call reply p') (hserver : ∀ message, call ≠ .backend message)
    (herror : isError call = false) (hcancel : p.cancelsSync call = false) :
    ∃ more, p'.owingKeys = p.owingKeys ++ more := by
  -- A local response is addressed to a record from which the server owes nothing.
  have hlocal : ∀ {head : Operation} {rest : List Operation}, p.operations = head :: rest →
      call.Addresses head → p.owingKeys = (rest.filter Operation.owes).map Operation.key := by
    intro head rest hops haddr
    have howes : ¬head.owes = true := by
      cases call with
      | frontend message handling => exact haddr.elim
      | backend message => exact absurd rfl (hserver message)
      | emitLocal id message => simp [Operation.owes, haddr.1]
    rw [owingKeys, owing, hops, List.filter_cons_of_neg howes]
  have hsame : ∃ more, p.owingKeys = p.owingKeys ++ more := ⟨[], (List.append_nil _).symm⟩
  cases hwf.effect_of_step hstep with
  | refused _ | asynchronous _ _ | deferred _ _ | illegal _ _ => exact hsame
  | @accepted message handling kind next _ _ hproject _ =>
    generalize hrecord : Operation.admitted p.nextId kind next handling = record
    have hkind : record.kind = kind := by rw [← hrecord]; rfl
    -- The queue is only touched by the end of a COPY that cancels a Sync.
    have hkeeps : ∀ os, cancelSyncFor p.requestState record.kind os = os := by
      intro os
      apply if_neg
      rintro ⟨hstate, hends⟩
      rw [hkind] at hends
      have hmessage := classifyFrontend_ends_copy (projectFrontend_classify hproject) hstate hends
      rcases hmessage with hmessage | hmessage <;> simp [cancelsSync, hstate, hmessage] at hcancel
    cases hops : p.operations with
    | nil =>
      have hnone : p.owingKeys = [] := by simp [owingKeys, owing, hops]
      rw [hnone]
      exact ⟨_, rfl⟩
    | cons o os =>
      refine ⟨([record].filter Operation.owes).map Operation.key, ?_⟩
      calc ((enqueue message.variant p.requestState record (o :: os)).filter
            Operation.owes).map Operation.key
          = ((o :: (os ++ [record])).filter Operation.owes).map Operation.key := by
            rw [enqueue, hkeeps, Operation.advance, filter_owes_front]
        _ = ((o :: os).filter Operation.owes).map Operation.key ++
              ([record].filter Operation.owes).map Operation.key := by
            rw [← List.cons_append, List.filter_append, List.map_append]
        _ = p.owingKeys ++ ([record].filter Operation.owes).map Operation.key := by
            rw [owingKeys, owing, hops]
  | continued hcall haddr hops hnext hmore =>
    refine ⟨[], ?_⟩
    rw [List.append_nil, owingKeys, owing, filter_owes_front, ← hops]
    rfl
  | completed hcall haddr hops hnext hlast _ =>
    refine ⟨[], ?_⟩
    rw [List.append_nil, hlocal hops haddr, owingKeys, owing, filter_owes_dropWhile]
  | failed hcall _ _ _ _ hvariant _ => simp [isError, hcall, hvariant] at herror
  | deferredError hvariant _ _ _ _ _ => simp [isError, Call.response?, hvariant] at herror

theorem Wf.owingKeys_history (hwf : p.Wf) {h : List LedgerEntry} (hh : History Step p h p')
    (hclient : ∀ e ∈ h, (∀ message, e.input ≠ .backend message) ∧ isError e.input = false ∧
      e.before.cancelsSync e.input = false) :
    ∃ more, p'.owingKeys = p.owingKeys ++ more := by
  induction hh with
  | nil => exact ⟨[], (List.append_nil _).symm⟩
  | @snoc h s s' i o hh hs ih =>
    rcases ih fun e he => hclient e (List.mem_append_left _ he) with ⟨more, hmore⟩
    rcases hclient ⟨s, i, o, s'⟩ (by simp) with ⟨hserver, herror, hcancel⟩
    have hwf' : s.Wf := History.invariant hwf (fun _ _ _ _ hwf hstep => hwf.step hstep) hh
    rcases hwf'.owingKeys_append hs hserver herror hcancel with ⟨last, hlast⟩
    exact ⟨more ++ last, by rw [hlast, hmore, List.append_assoc]⟩

end Calls

/-! ## Released spans -/

/-- The ledger looks at nothing but the variant of a server message. -/
theorem acceptBackend_variant (p : Pipeline) {message message' : BackendMessage}
    (h : message.variant = message'.variant) :
    (p.acceptBackend message).map Prod.snd = (p.acceptBackend message').map Prod.snd := by
  have hasync : isAsynchronous message = isAsynchronous message' :=
    congrArg BackendVariant.isAsynchronous h
  have hprepare : p.prepareResponse none message = p.prepareResponse none message' := by
    simp only [prepareResponse, hasync, h]
  simp only [acceptBackend, acceptResponse, hprepare]
  cases p.prepareResponse none message' with
  | emit head state =>
    simp only [commitResponse, h]
    cases Backend.projectInternal state message'.variant with
    | none => rfl
    | some event =>
      cases hedge : Backend.transition state event with
      | none | some edge => simp [hedge, Except.map]
  | _ => rfl

theorem accept_like {next : Pipeline} {message message' : BackendMessage} {reply : Reply}
    (hstep : Step p (.backend message') reply next) (h : message.variant = message'.variant) :
    ∃ result, p.acceptBackend message = .ok (result, next) := by
  have hcall : (p.acceptBackend message').map (fun r => (Reply.backend r.1, r.2)) =
      .ok (reply, next) := hstep
  have hnext : (p.acceptBackend message').map Prod.snd = .ok next := by
    cases haccept : p.acceptBackend message' with
    | error panic => simp [haccept, Except.map] at hcall
    | ok r =>
      simp only [haccept, Except.map, Except.ok.injEq, Prod.mk.injEq] at hcall ⊢
      exact hcall.2
  rw [← p.acceptBackend_variant h] at hnext
  cases haccept : p.acceptBackend message with
  | error panic => simp [haccept, Except.map] at hnext
  | ok r =>
    simp only [haccept, Except.map, Except.ok.injEq] at hnext
    exact ⟨r.1, by rw [← hnext]⟩

/-- Every step of a span that is released in place of held messages finds the operation in front that
the messages before it leave there, and the held message is shown with what the ledger then says. -/
theorem Wf.span {sources replacements : List BackendMessage} {q : Pipeline} {h : List LedgerEntry}
    (hwf : p.Wf) (hexec : exec call p (replacements.map .backend) = .ok (h, q))
    (houtputs : h.map Entry.output = replacements.map (fun m => .backend (.ok (.emit m))))
    (hvariants : sources.map BackendMessage.variant = replacements.map BackendMessage.variant)
    (herror : ∀ source ∈ sources, source.variant ≠ .errorResponse) :
    ∃ ids, p.backendOperationIds sources = .ok ids ∧
      ∀ i e source, h[i]? = some e → sources[i]? = some source →
        e.before.Wf ∧ Step e.before e.input e.output e.after ∧
        e.before.owingKeys = p.owingKeys.drop (ended (sources.take i) p.owingKeys) ∧
        ids[i]? = some (e.before.backendOperationId source) := by
  -- Along the span: each message passes on a well-formed ledger with fewer operations in front.
  induction sources generalizing p h replacements with
  | nil => exact ⟨[], rfl, fun _ _ _ _ hsource => by simp at hsource⟩
  | cons source sources ih =>
    cases replacements with
    | nil => cases hvariants
    | cons replacement replacements =>
      simp only [List.map_cons, List.cons.injEq] at hvariants
      rcases exec_cons_iff.1 hexec with ⟨reply, next, h', hcall, hrest, rfl⟩
      simp only [List.map_cons, List.cons.injEq] at houtputs
      rcases houtputs with ⟨rfl, houtputs⟩
      have hstep : Step p (.backend replacement) (.backend (.ok (.emit replacement))) next := hcall
      rcases accept_like hstep hvariants.1 with ⟨result, haccept⟩
      have herror' : replacement.variant ≠ .errorResponse := by
        rw [← hvariants.1]
        exact herror source List.mem_cons_self
      rcases ih (hwf.step hstep) hrest houtputs hvariants.2
        (fun s hs => herror s (List.mem_cons_of_mem _ hs)) with ⟨ids, hids, hspan⟩
      refine ⟨p.backendOperationId source :: ids, ?_, ?_⟩
      · simp only [backendOperationIds, haccept, hids]
      · intro i e s he hs
        cases i with
        | zero =>
          cases he
          cases hs
          exact ⟨hwf, hstep, rfl, rfl⟩
        | succ i =>
          rcases hspan i e s he hs with ⟨hwf', hstep', hkeys, hid⟩
          refine ⟨hwf', hstep', ?_, hid⟩
          have hfirst : ended [source] p.owingKeys = ended [replacement] p.owingKeys :=
            ended_variant (by simp [hvariants.1]) _
          calc e.before.owingKeys
              = next.owingKeys.drop (ended (sources.take i) next.owingKeys) := hkeys
            _ = (p.owingKeys.drop (ended [source] p.owingKeys)).drop
                  (ended (sources.take i) (p.owingKeys.drop (ended [source] p.owingKeys))) := by
                rw [hwf.owingKeys_emit hstep herror', hfirst]
            _ = p.owingKeys.drop (ended (source :: sources.take i) p.owingKeys) := by
                rw [List.drop_drop, ← ended_cons]

end Pipeline
end PgProto
