import PgProto.Lib.Dialogue
import PgProto.Pipeline.Mirror

/-!
# Exchanges — whole responses, as the protocol documentation describes them

The ledger knows a response only through the `backend` grammar and its table of last responses.
Here the responses are described independently, as dialogues between the server and the client,
and compared with what the ledger makes of them.

* `follow` — the dialogue the ledger itself recognises for a record of a given kind;
* `Pipeline.Wf.relays`, `Pipeline.Wf.relays_last` — an exchange that `follow` reads is relayed:
  every server message is emitted, the record stays at the front until the last one and leaves
  with it;
* `executeResponse`, `simpleResponse` — the response to Execute and to a simple Query.  Neither is
  contained in `follow`; the restrictions `relaysExecute` and `relaysSimple` are;
* `Pipeline.copyIn_failure_relayed` — what becomes of an error that the server reports while it
  reads COPY data.
-/

namespace PgProto

open Backend (RuntimeState respond request)
open Lib

variable {h : List LedgerEntry} {q : Pipeline}

/-- A message of an exchange: of the server (internal) or of the client (external). -/
abbrev ExchangeMessage := Signal BackendVariant FrontendVariant

/-! ## What the ledger recognises -/

/-- How a record of the given kind follows an exchange.  A client message that does not map from
its phase leaves it where it is. -/
def follow (kind : OperationKind) : Dialogue RuntimeState ExchangeMessage
  | state, .internal message =>
    (respond state message).map fun next =>
      if responseIsTerminal kind message then none else some next
  | state, .external message => some (some ((request state message).getD state))

variable {kind : OperationKind} {state : RuntimeState} {message : BackendVariant}

theorem follow_internal {r : Option RuntimeState}
    (h : follow kind state (.internal message) = some r) :
    ∃ next, respond state message = some next ∧
      r = if responseIsTerminal kind message then none else some next := by
  rcases Option.map_eq_some_iff.1 h with ⟨next, hstep, heq⟩
  exact ⟨next, hstep, heq.symm⟩

variable {next : RuntimeState}

/-- A message that leaves the exchange open is a response, but not the last one. -/
theorem follow_open (h : follow kind state (.internal message) = some (some next)) :
    respond state message = some next ∧ responseIsTerminal kind message = false := by
  rcases follow_internal h with ⟨t, hstep, heq⟩
  cases hlast : responseIsTerminal kind message with
  | true => simp [hlast] at heq
  | false =>
    simp only [hlast, Bool.false_eq_true, if_false, Option.some.injEq] at heq
    rw [heq]
    exact ⟨hstep, rfl⟩

theorem follow_last (h : follow kind state (.internal message) = some none) :
    ∃ next, respond state message = some next ∧ responseIsTerminal kind message = true := by
  rcases follow_internal h with ⟨next, hstep, heq⟩
  cases hlast : responseIsTerminal kind message with
  | true => exact ⟨next, hstep, rfl⟩
  | false => simp [hlast] at heq

namespace Pipeline

/-- What a call adds to the exchange about the front operation: a message of the server, whatever
becomes of it, or a COPY message of the client that is accepted. -/
def exchanged (e : LedgerEntry) : List ExchangeMessage :=
  match e.input with
  | .frontend message _ =>
    if isCopyMessage message.variant && e.output.isAdmission then
      [.external message.variant]
    else
      []
  | .backend message => if isAsynchronous message then [] else [.internal message.variant]
  | .emitLocal _ _ => []

def exchange (h : List LedgerEntry) : List ExchangeMessage :=
  h.flatMap exchanged

theorem exchange_snoc (h : List LedgerEntry) (e : LedgerEntry) :
    exchange (h ++ [e]) = exchange h ++ exchanged e := by
  simp [exchange]

/-- The server's messages of a run are all emitted. -/
def EmitsAll (h : List LedgerEntry) : Prop :=
  ∀ e ∈ h, ∀ message, e.input = .backend message →
    e.output = .backend (.ok (.emit message))

theorem emitsAll_nil : EmitsAll [] := by
  intro e he
  cases he

theorem EmitsAll.snoc {e : LedgerEntry} (hall : EmitsAll h)
    (hlast : ∀ message, e.input = .backend message →
      e.output = .backend (.ok (.emit message))) : EmitsAll (h ++ [e]) := by
  intro x hx
  rcases List.mem_append.1 hx with hx | hx
  · exact hall x hx
  · rw [List.mem_singleton.1 hx]
    exact hlast

/-! ## One call, seen from a forwarded front record -/

section Front

variable {p p' : Pipeline} {o : Operation} {os : List Operation}

variable {message : BackendMessage} {reply : Reply} {s : RuntimeState}

/-- A message of the server that maps from the phase of the front record is emitted. -/
theorem Wf.acceptBackend_front (hwf : p.Wf) (hops : p.operations = o :: os)
    (horigin : o.origin = .forwarded)
    (hstep : respond o.responseState message.variant = some next) :
    p.acceptBackend message =
      .ok (.ok (.emit message), p.commitEmit o next message.variant) := by
  have hmark : o.discarded = false := (Operation.isInert_eq_false.1 (hwf.headLive hops)).2
  have hfits : responseFits o message.variant = true := responseFits_of_respond hstep
  have hprep : p.prepareResponse none message = .emit o o.responseState :=
    prepareResponse_eq_emit.2
      ⟨respond_not_asynchronous hstep, ⟨os, hops⟩, horigin, hmark, hfits, rfl⟩
  rcases commitResponse_emit (p := p) hfits with ⟨next', hstep', hcommit⟩
  have hnext : next' = next := by
    rw [hstep] at hstep'
    exact (Option.some.inj hstep').symm
  rw [hnext] at hcommit
  simpa [acceptBackend, acceptResponse, hprep] using hcommit

/-- The records that a last response leaves behind the front: an error of the extended protocol
discards them up to the next Sync. -/
def survivors (kind : OperationKind) (message : BackendVariant) (os : List Operation) :
    List Operation :=
  if message = .errorResponse ∧ isExtendedKind kind = true then fromSync os else os

theorem Wf.commitEmit_last (hwf : p.Wf) (hops : p.operations = o :: os) {message : BackendVariant}
    (hstep : respond o.responseState message = some next)
    (hlast : responseIsTerminal o.kind message = true) :
    (p.commitEmit o next message).operations =
      (survivors o.kind message os).dropWhile Operation.isInert := by
  have hcopy : responseCopyState next = none :=
    responseCopyState_terminal hstep (hwf.owned o (by simp [hops])) hlast
  unfold survivors
  by_cases hfail : message = .errorResponse ∧ isExtendedKind o.kind = true
  · rw [commitEmit_fail hops hcopy hlast hfail.1 hfail.2, if_pos hfail]
    exact dropWhile_discardUntilSync os
  · rw [commitEmit_complete hops hcopy hlast hfail, if_neg hfail]

/-- Without a last response of its own a forwarded front record stays where it is, whatever local
responses are tried. -/
theorem Effect.front_of_emitLocal {id : OperationId}
    (heff : p.Effect (.emitLocal id message) reply p') (hops : p.operations = o :: os)
    (horigin : o.origin = .forwarded) : ∃ os', p'.operations = o :: os' := by
  -- A local response that is attributed to the front record needs a local record there.
  have hforeign : ∀ head rest, (Call.emitLocal id message).Addresses head →
      p.operations = head :: rest → False := by
    intro head rest haddr hhead
    rw [hops] at hhead
    cases hhead
    have hlocal : o.origin = .local := haddr.1
    rw [horigin] at hlocal
    cases hlocal
  cases heff with
  | asynchronous _ _ | deferred _ _ | illegal _ _ => exact ⟨os, hops⟩
  | continued _ haddr hhead _ _ | completed _ haddr hhead _ _ _ | failed _ haddr hhead _ _ _ _ =>
    exact (hforeign _ _ haddr hhead).elim
  | @deferredError _ _ before x rest _ hsplit _ _ hlocal _ =>
    rw [hops] at hsplit
    cases before with
    | nil =>
      cases hsplit
      rw [horigin] at hlocal
      cases hlocal
    | cons b before =>
      cases hsplit
      exact ⟨_, rfl⟩

theorem Wf.front_of_frontend (hwf : p.Wf) {message : FrontendMessage} {handling : FrontendHandling}
    (heff : p.Effect (.frontend message handling) reply p') (hops : p.operations = o :: os)
    (hreach : (follow o.kind).reach o.responseState
      (exchanged ⟨p, .frontend message handling, reply, p'⟩) = some s) :
    ∃ os', p'.operations = { o with responseState := s } :: os' := by
  cases heff with
  | refused _ =>
    have hs : o.responseState = s := by simpa [exchanged, Reply.isAdmission] using hreach
    exact ⟨os, by rw [hops, ← hs]⟩
  | asynchronous hcall _ | deferred hcall _ | illegal hcall _ | continued hcall _ _ _ _
  | completed hcall _ _ _ _ _ | failed hcall _ _ _ _ _ _ => cases hcall
  | @accepted _ _ kind next phase hroom hproject hphase =>
    have hs : (request o.responseState message.variant).getD o.responseState = s := by
      cases hcopy : isCopyMessage message.variant with
      | true => simpa [exchanged, Reply.isAdmission, hcopy, follow] using hreach
      | false =>
        -- Only COPY messages map from the phase of a record.
        have hnone : request o.responseState message.variant = none := by
          cases hmove : request o.responseState message.variant with
          | none => rfl
          | some t =>
            have howned := hwf.owned o (by simp [hops])
            rw [request_copyMessage hmove howned] at hcopy
            cases hcopy
        simpa [exchanged, Reply.isAdmission, hcopy, hnone] using hreach
    simp only [hops, enqueue, Operation.advance, hs]
    exact ⟨_, rfl⟩

/-- One call of an open exchange: the front record follows it, and a message of the server is
emitted. -/
theorem Wf.relays_step (hwf : p.Wf) {call : Call} (hcall : Step p call reply p')
    (hops : p.operations = o :: os) (horigin : o.origin = .forwarded)
    (hreach : (follow o.kind).reach o.responseState (exchanged ⟨p, call, reply, p'⟩) = some s) :
    (∃ os', p'.operations = { o with responseState := s } :: os') ∧
      ∀ message, call = .backend message → reply = .backend (.ok (.emit message)) := by
  cases call with
  | frontend message handling =>
    refine ⟨hwf.front_of_frontend (hwf.effect_of_step hcall) hops hreach, ?_⟩
    intro message h
    cases h
  | emitLocal id message =>
    have hs : o.responseState = s := by simpa [exchanged] using hreach
    refine ⟨?_, ?_⟩
    · rw [← hs]
      exact (hwf.effect_of_step hcall).front_of_emitLocal hops horigin
    · intro message h
      cases h
  | backend message =>
    have hcall' : (p.acceptBackend message).map (fun r => (Reply.backend r.1, r.2)) =
        .ok (reply, p') := hcall
    cases hasync : isAsynchronous message with
    | true =>
      have hs : o.responseState = s := by simpa [exchanged, hasync] using hreach
      have hprep : p.prepareResponse none message = .asynchronous :=
        prepareResponse_eq_asynchronous.2 hasync
      simp only [acceptBackend, acceptResponse, hprep, commitResponse, Except.map,
        Except.ok.injEq, Prod.mk.injEq] at hcall'
      rcases hcall' with ⟨rfl, rfl⟩
      refine ⟨⟨os, by rw [hops, ← hs]⟩, ?_⟩
      intro m h
      cases h
      rfl
    | false =>
      have hopen : follow o.kind o.responseState (.internal message.variant) =
          some (some s) := by
        simpa [exchanged, hasync, Option.join_eq_some_iff] using hreach
      rcases follow_open hopen with ⟨hstep, hmore⟩
      rw [hwf.acceptBackend_front hops horigin hstep] at hcall'
      simp only [Except.map, Except.ok.injEq, Prod.mk.injEq] at hcall'
      rcases hcall' with ⟨rfl, rfl⟩
      refine ⟨⟨os, ?_⟩, ?_⟩
      · rw [commitEmit_continue hops (hwf.headLive hops) hmore]
      · intro m h
        cases h
        rfl

/-! ## Whole exchanges -/

/-- An open exchange is relayed: the record is still at the front, in the phase the exchange has
reached, and every server message so far was emitted. -/
theorem Wf.relays (hwf : p.Wf) (hops : p.operations = o :: os) (horigin : o.origin = .forwarded)
    (hh : History Step p h q)
    (hreach : (follow o.kind).reach o.responseState (exchange h) = some s) :
    q.Wf ∧ (∃ os', q.operations = { o with responseState := s } :: os') ∧ EmitsAll h := by
  induction hh generalizing s with
  | nil =>
    have hs : o.responseState = s := by simpa [exchange] using hreach
    exact ⟨hwf, ⟨os, by rw [hops, ← hs]⟩, emitsAll_nil⟩
  | @snoc h q q' call reply hh hcall ih =>
    rw [exchange_snoc, Dialogue.reach_append] at hreach
    rcases Option.bind_eq_some_iff.1 hreach with ⟨t, hbefore, hlast⟩
    rcases ih hbefore with ⟨hwf', ⟨os', hops'⟩, hall⟩
    rcases hwf'.relays_step hcall hops' horigin hlast with ⟨hfront, hemit⟩
    exact ⟨hwf'.step hcall, hfront, hall.snoc hemit⟩

/-- The last message of an exchange is emitted, and the record leaves the ledger with it. -/
theorem Wf.relays_last (hwf : p.Wf) (hops : p.operations = o :: os)
    (horigin : o.origin = .forwarded)
    (hlast : follow o.kind o.responseState (.internal message.variant) = some none) :
    ∃ q, p.acceptBackend message = .ok (.ok (.emit message), q) ∧ q.Wf ∧
      q.operations = (survivors o.kind message.variant os).dropWhile Operation.isInert ∧
      ∀ x ∈ q.operations, x.responseState = initialResponseState x.kind := by
  rcases follow_last hlast with ⟨next, hstep, hterminal⟩
  have haccept := hwf.acceptBackend_front hops horigin hstep
  have hpopped := hwf.commitEmit_last hops hstep hterminal
  refine ⟨_, haccept, hwf.step (step_backend haccept), hpopped, ?_⟩
  intro x hx
  rw [hpopped] at hx
  have hmem : x ∈ os := by
    have hx' := (List.dropWhile_suffix _).subset hx
    unfold survivors at hx'
    split at hx'
    · exact (List.dropWhile_suffix _).subset hx'
    · exact hx'
  exact hwf.waiting x (by simpa [hops] using hmem)

end Front
end Pipeline

/-! ## The response to Execute -/

/-- How far the response to an Execute has come. -/
inductive ExecutePhase
  | start
  | rows
  | copyIn
  | copyInDone
  | copyInFailed
  | copyOut
  | copyOutDone
  | copyBoth
  | copyBothClientDone
  | copyBothServerDone
  | copyBothDone
  | copyBothFailed
  deriving DecidableEq, Repr

namespace ExecutePhase

instance : Fintype ExecutePhase :=
  Fintype.ofList
    [.start, .rows, .copyIn, .copyInDone, .copyInFailed, .copyOut, .copyOutDone, .copyBoth,
     .copyBothClientDone, .copyBothServerDone, .copyBothDone, .copyBothFailed]
    (by intro φ; cases φ <;> decide)

/-- The messages that end the response.  While data is still to come only an error does. -/
def terminators : ExecutePhase → List BackendVariant
  | .start | .rows | .copyInDone | .copyOutDone | .copyBothDone =>
    [.commandComplete, .emptyQueryResponse, .portalSuspended, .errorResponse]
  | _ => [.errorResponse]

/-- The phase of the record that the ledger keeps for the Execute. -/
def recordState : ExecutePhase → RuntimeState
  | .start | .rows => .executeResponse
  | .copyIn => .extendedCopyIn
  | .copyInDone => .extendedCopyInDone
  | .copyInFailed => .extendedCopyInFailed
  | .copyOut => .extendedCopyOut
  | .copyOutDone => .extendedCopyOutDone
  | .copyBoth => .extendedCopyBoth
  | .copyBothClientDone => .extendedCopyBothClientDone
  | .copyBothServerDone => .extendedCopyBothServerDone
  | .copyBothDone => .extendedCopyBothDone
  | .copyBothFailed => .extendedCopyBothFailed

end ExecutePhase

/-- The response to Execute after the protocol documentation: DataRow messages or a COPY exchange,
ended by one of the terminators. -/
def executeResponse : Dialogue ExecutePhase ExchangeMessage
  | .start, .internal .dataRow | .rows, .internal .dataRow => some (some .rows)
  | .start, .internal .copyInResponse => some (some .copyIn)
  | .start, .internal .copyOutResponse => some (some .copyOut)
  | .start, .internal .copyBothResponse => some (some .copyBoth)
  | .copyOut, .internal .copyData => some (some .copyOut)
  | .copyOut, .internal .copyDone => some (some .copyOutDone)
  | .copyBoth, .internal .copyData => some (some .copyBoth)
  | .copyBoth, .internal .copyDone => some (some .copyBothServerDone)
  | .copyBothClientDone, .internal .copyData => some (some .copyBothClientDone)
  | .copyBothClientDone, .internal .copyDone => some (some .copyBothDone)
  | φ, .internal message => if φ.terminators.contains message then some none else none
  | .copyIn, .external .copyDone => some (some .copyInDone)
  | .copyIn, .external .copyFail => some (some .copyInFailed)
  | .copyBoth, .external .copyDone => some (some .copyBothClientDone)
  | .copyBoth, .external .copyFail => some (some .copyBothFailed)
  | .copyBothServerDone, .external .copyDone => some (some .copyBothDone)
  | .copyBothServerDone, .external .copyFail => some (some .copyBothFailed)
  | φ, .external _ => some (some φ)

/-- The server messages of this response that the ledger takes as the documentation means them.
EmptyQueryResponse leaves the Execute open, and the grammar has no error while the server reads
COPY data or after its own CopyDone. -/
def relaysExecute : ExecutePhase → ExchangeMessage → Bool
  | _, .internal .emptyQueryResponse => false
  | φ, .internal .portalSuspended => [.start, .rows].contains φ
  | φ, .internal .errorResponse =>
    !([.copyIn, .copyOutDone, .copyBothServerDone, .copyBothDone].contains φ)
  | _, _ => true

theorem executeResponse_follow : ∀ φ message, ∀ r ∈ executeResponse.only relaysExecute φ message,
    follow .execute φ.recordState message = some (r.map ExecutePhase.recordState) := by
  intro φ message
  cases message with
  | internal m | external m =>
    revert φ m
    decide +kernel

namespace Pipeline

/-- The front operation is answered in turn: every exchange that its record follows from its first
phase on is relayed, and so is the next message of it. -/
def AnswersFront (p : Pipeline) : Prop :=
  ∀ o os, p.operations = o :: os → o.origin = .forwarded →
    ∀ h q s, History Step p h q →
      (follow o.kind).reach (initialResponseState o.kind) (exchange h) = some s →
      EmitsAll h ∧ ∀ message, (respond s message.variant).isSome = true →
        ∃ q', q.acceptBackend message = .ok (.ok (.emit message), q')

theorem Wf.answersFront {p : Pipeline} (hwf : p.Wf)
    (hinitial : ∀ o ∈ p.operations, o.responseState = initialResponseState o.kind) :
    p.AnswersFront := by
  intro o os hops horigin h q s hh hreach
  have hfirst : o.responseState = initialResponseState o.kind := hinitial o (by simp [hops])
  rw [← hfirst] at hreach
  rcases hwf.relays hops horigin hh hreach with ⟨hwf', ⟨os', hops'⟩, hall⟩
  refine ⟨hall, ?_⟩
  intro message hfits
  rcases Option.isSome_iff_exists.1 hfits with ⟨next, hstep⟩
  exact ⟨_, hwf'.acceptBackend_front hops' horigin hstep⟩

/-- In every run, once the response to the Execute at the front has come as far as `φ`, all its
messages were emitted and the record is still at the front.  The next message is emitted; the
record stays when the response goes on, and leaves when it is the last one, after which the
operation behind it is answered in turn. -/
theorem execute_response_relayed {policy : PipelinePolicy} {h₀ h : List LedgerEntry}
    {p q : Pipeline} (hr : Run policy h₀ p) {o : Operation} {os : List Operation}
    (hops : p.operations = o :: os) (hkind : o.kind = .execute) (horigin : o.origin = .forwarded)
    (hstart : o.responseState = .executeResponse) (hh : History Step p h q) {φ : ExecutePhase}
    (hreach : (executeResponse.only relaysExecute).reach .start (exchange h) = some φ)
    {message : BackendMessage} {r : Option ExecutePhase}
    (hnext : executeResponse.only relaysExecute φ (.internal message.variant) = some r) :
    EmitsAll h ∧ ∃ x rest q', q.operations = x :: rest ∧ x.key = o.key ∧
      q.acceptBackend message = .ok (.ok (.emit message), q') ∧
      (r ≠ none → ∃ y, q'.operations = y :: rest ∧ y.key = o.key) ∧
      (r = none →
        q'.operations =
          (survivors .execute message.variant rest).dropWhile Operation.isInert ∧
        q'.AnswersFront) := by
  have hview : (follow o.kind).reach o.responseState (exchange h) = some φ.recordState := by
    rw [hkind, hstart]
    exact Dialogue.reach_map executeResponse_follow hreach
  rcases (Run.wf hr).relays hops horigin hh hview with ⟨hwf, ⟨rest, hfront⟩, hall⟩
  refine ⟨hall, { o with responseState := φ.recordState }, rest, ?_⟩
  have hfollow : follow o.kind φ.recordState (.internal message.variant) =
      some (r.map ExecutePhase.recordState) := by
    rw [hkind]
    exact executeResponse_follow φ _ r hnext
  cases r with
  | some φ' =>
    rcases follow_open hfollow with ⟨hstep, hmore⟩
    refine ⟨_, hfront, rfl, hwf.acceptBackend_front hfront horigin hstep, ?_, ?_⟩
    · intro _
      rw [commitEmit_continue hfront (hwf.headLive hfront) hmore]
      exact ⟨_, rfl, rfl⟩
    · intro h
      cases h
  | none =>
    rcases hwf.relays_last hfront horigin hfollow with
      ⟨q', haccept, hwf', hpopped, hinitial⟩
    refine ⟨q', hfront, rfl, haccept, ?_, ?_⟩
    · intro h
      exact absurd rfl h
    · intro _
      rw [← hkind]
      exact ⟨hpopped, hwf'.answersFront hinitial⟩

/-- An Execute with a Sync behind it: a row, then CommandComplete, which takes the Execute off the
ledger. -/
theorem execute_response_relayed_rows :
    ∃ h₀ p h q q', Run (.bounded ⟨4, by decide⟩) h₀ p ∧ History Step p h q ∧ EmitsAll h ∧
      (executeResponse.only relaysExecute).reach .start (exchange h) = some .rows ∧
      q.acceptBackend (.commandComplete []) = .ok (.ok (.emit (.commandComplete [])), q') ∧
      q'.AnswersFront := by
  obtain ⟨h₀, p, h, q, o, os, hr, hh, hops, hkind, horigin, hstart, hreach⟩ :
      ∃ h₀ p h q o os, Run (.bounded ⟨4, by decide⟩) h₀ p ∧ History Step p h q ∧
        p.operations = o :: os ∧ o.kind = .execute ∧ o.origin = .forwarded ∧
        o.responseState = .executeResponse ∧
        (executeResponse.only relaysExecute).reach .start (exchange h) = some .rows := by
    exact ⟨_, _, _, _, _, _,
        .of_exec [.frontend (.execute ⟨[], 0⟩) .forward, .frontend .sync .forward] rfl,
        .of_exec [.backend (.dataRow ⟨[]⟩)] rfl, rfl, rfl, rfl, rfl, rfl⟩
  have hlast : executeResponse.only relaysExecute .rows
      (.internal (BackendMessage.commandComplete []).variant) = some none := rfl
  rcases execute_response_relayed hr hops hkind horigin hstart hh hreach hlast with
    ⟨hall, _, _, q', -, -, haccept, -, hends⟩
  exact ⟨h₀, p, h, q, q', hr, hh, hall, hreach, haccept, (hends rfl).2⟩

/-- An Execute of an empty query with a Sync behind it.  EmptyQueryResponse is emitted but does not
end the Execute, so that the ReadyForQuery for the Sync is deferred. -/
theorem empty_query_keeps_execute :
    ∃ h₀ p h q o os, Run (.bounded ⟨4, by decide⟩) h₀ p ∧ p.operations = o :: os ∧
      o.kind = .execute ∧ o.origin = .forwarded ∧ o.responseState = .executeResponse ∧
      History Step p h q ∧ exchange h = [.internal .emptyQueryResponse] ∧
      executeResponse .start (.internal .emptyQueryResponse) = some none ∧
      q.operations = o :: os ∧
      q.acceptBackend (.readyForQuery .idle) =
        .ok (.ok (.deferred (.readyForQuery .idle)), q) :=
  ⟨_, _, _, _, _, _,
    .of_exec [.frontend (.execute ⟨[], 0⟩) .forward, .frontend .sync .forward] rfl,
    rfl, rfl, rfl, rfl, .of_exec [.backend .emptyQueryResponse] rfl, rfl, rfl, rfl, rfl⟩

/-! ## Reading COPY data -/

/-- While the front operation reads COPY data, so does the request side. -/
def CopyInReads (p : Pipeline) : Prop :=
  ∀ o os, p.operations = o :: os → isCopyInState o.responseState = true →
    p.requestState = .copyIn

end Pipeline

theorem initialResponseState_ne_copyIn (kind : OperationKind) :
    isCopyInState (initialResponseState kind) = false := by
  cases kind <;> rfl

/-- A record that reads COPY data after a client message did so before, and the message was not
the end of the COPY. -/
theorem advance_copyIn {message : FrontendVariant}
    (h : isCopyInState ((request state message).getD state) = true) :
    isCopyInState state = true ∧ message ≠ .copyDone ∧ message ≠ .copyFail := by
  have hends : ∀ state, isCopyInState state = true →
      request state .copyDone ≠ none ∧ request state .copyFail ≠ none := by
    decide
  cases hstep : request state message with
  | none =>
    rw [hstep] at h
    have hcopy : isCopyInState state = true := h
    refine ⟨hcopy, ?_, ?_⟩
    · rintro rfl
      exact (hends state hcopy).1 hstep
    · rintro rfl
      exact (hends state hcopy).2 hstep
  | some next =>
    rw [hstep] at h
    revert h
    exact Backend.request_rule (by decide) hstep

theorem classifyFrontend_stays_copyIn {message : FrontendVariant} {next : RequestState}
    (h : classifyFrontend .copyIn message = .ok (some (kind, next))) (hdone : message ≠ .copyDone)
    (hfail : message ≠ .copyFail) : next = .copyIn := by
  cases message <;> cases h <;> first | rfl | exact absurd rfl hdone | exact absurd rfl hfail

namespace Pipeline

variable {p : Pipeline} {message : FrontendMessage}

theorem copyInReads_of_initial
    (h : ∀ o ∈ p.operations, o.responseState = initialResponseState o.kind) : p.CopyInReads := by
  intro o os hops hcopy
  rw [h o (by simp [hops]), initialResponseState_ne_copyIn] at hcopy
  cases hcopy

theorem CopyInReads.of_accepted (hinv : p.CopyInReads) {handling : FrontendHandling}
    {kind : OperationKind} {next : RequestState}
    (hproject : projectFrontend p.requestState message.variant = .ok (some (kind, next))) :
    ({ p with
        nextId := saturatingSucc p.nextId
        requestState := next
        operations := enqueue message.variant p.requestState
          (Operation.admitted p.nextId kind next handling) p.operations } :
      Pipeline).CopyInReads := by
  intro x xs hops' hcopy
  cases hops : p.operations with
  | nil =>
    simp only [hops, enqueue] at hops'
    split at hops'
    · cases hops'
    · cases hops'
      have hinitial := initialResponseState_ne_copyIn kind
      rw [show (Operation.admitted p.nextId kind next handling).responseState =
        initialResponseState kind from rfl, hinitial] at hcopy
      cases hcopy
  | cons o os =>
    simp only [hops, enqueue] at hops'
    cases hops'
    rcases advance_copyIn hcopy with ⟨hbefore, hdone, hfail⟩
    have hstate : p.requestState = .copyIn := hinv o os hops hbefore
    rw [hstate] at hproject
    exact classifyFrontend_stays_copyIn (projectFrontend_classify hproject) hdone hfail

theorem CopyInReads.effect {p' : Pipeline} {call : Call} {reply : Reply} (hwf : p.Wf)
    (hall : p.AllForwarded) (hinv : p.CopyInReads) (heff : p.Effect call reply p') :
    p'.CopyInReads := by
  cases heff with
  | refused _ | asynchronous _ _ | deferred _ _ | illegal _ _ => exact hinv
  | accepted _ hproject _ => exact hinv.of_accepted hproject
  | continued _ _ _ _ _ =>
    intro o os hops hcopy
    cases hops
    have hnext := (isCopyInState_iff_responseCopyState _).1 hcopy
    simp [copyRequest, hnext]
  | completed _ _ hops _ _ _ =>
    apply copyInReads_of_initial
    intro o ho
    exact hwf.waiting_of_strip hops rfl ((List.dropWhile_suffix _).subset ho)
  | failed _ _ hops _ _ _ _ =>
    apply copyInReads_of_initial
    intro o ho
    exact hwf.waiting_of_strip hops (discardUntilSync_map_strip _)
      ((List.dropWhile_suffix _).subset ho)
  | deferredError _ hops _ _ horigin _ => exact (hall.not_local hops horigin).elim

theorem Run.copyInReads {policy : PipelinePolicy} (hr : Run policy h p) (hfwd : ForwardOnly h) :
    p.CopyInReads := by
  induction hr with
  | nil =>
    apply copyInReads_of_initial
    intro o ho
    cases ho
  | @snoc h s s' i o hr hs ih =>
    have hbefore : ForwardOnly h := fun e he => hfwd e (by simp [he])
    have hwf := Run.wf hr
    exact (ih hbefore).effect hwf (Run.allForwarded hr hbefore) (hwf.effect_of_step hs)

/-- A COPY message of the client is accepted as long as the server reads. -/
theorem Wf.accepts_copy (hwf : p.Wf) (hstate : p.requestState = .copyIn)
    (hcopy : isCopyMessage message.variant = true) (handling : FrontendHandling) :
    ∃ admission q, p.acceptFrontend message handling = .ok (.ok admission, q) := by
  have hproject : ∃ kind next,
      projectFrontend .copyIn message.variant = .ok (some (kind, next)) := by
    cases message <;> first | exact ⟨_, _, rfl⟩ | cases hcopy
  rcases hproject with ⟨kind, next, hproject⟩
  exact ⟨_, _, hwf.acceptFrontend_copyIn hstate hproject handling⟩

end Pipeline

/-! ## The response to a simple Query -/

/-- How far the response to a simple Query has come. -/
inductive SimplePhase
  /-- Between two statements; the last one was a COPY or not. -/
  | boundary (copied : Bool)
  | rows
  | copyIn
  | copyInDone
  | copyInFailed
  | copyOut
  | copyOutDone
  /-- A statement has failed: a COPY or another one. -/
  | failed (copied : Bool)
  deriving DecidableEq, Repr

namespace SimplePhase

instance : Fintype SimplePhase :=
  Fintype.ofList
    [.boundary false, .boundary true, .rows, .copyIn, .copyInDone, .copyInFailed, .copyOut,
     .copyOutDone, .failed false, .failed true]
    (by
      intro φ
      cases φ with
      | boundary copied | failed copied => cases copied <;> decide
      | _ => decide)

/-- The phase of the record that the ledger keeps for the Query. -/
def recordState : SimplePhase → RuntimeState
  | .boundary false | .rows => .simple
  | .boundary true | .failed true => .simpleCopyReady
  | .copyIn => .simpleCopyIn
  | .copyInDone => .simpleCopyInDone
  | .copyInFailed => .simpleCopyInFailed
  | .copyOut => .simpleCopyOut
  | .copyOutDone => .simpleCopyOutDone
  | .failed false => .simpleError

end SimplePhase

/-- The response to a simple Query after the protocol documentation: the responses to its
statements in any order and number, ended by ReadyForQuery or by ErrorResponse ReadyForQuery. -/
def simpleResponse : Dialogue SimplePhase ExchangeMessage
  | .boundary _, .internal .rowDescription => some (some .rows)
  | .boundary _, .internal .commandComplete => some (some (.boundary false))
  | .boundary _, .internal .emptyQueryResponse => some (some (.boundary false))
  | .boundary _, .internal .copyInResponse => some (some .copyIn)
  | .boundary _, .internal .copyOutResponse => some (some .copyOut)
  | .boundary _, .internal .errorResponse => some (some (.failed false))
  | .boundary _, .internal .readyForQuery => some none
  | .rows, .internal .dataRow => some (some .rows)
  | .rows, .internal .commandComplete => some (some (.boundary false))
  | .rows, .internal .errorResponse => some (some (.failed false))
  | .copyIn, .external .copyDone => some (some .copyInDone)
  | .copyIn, .external .copyFail => some (some .copyInFailed)
  | .copyInDone, .internal .commandComplete => some (some (.boundary true))
  | .copyInDone, .internal .errorResponse => some (some (.failed true))
  | .copyInFailed, .internal .errorResponse => some (some (.failed true))
  | .copyOut, .internal .copyData => some (some .copyOut)
  | .copyOut, .internal .copyDone => some (some .copyOutDone)
  | .copyOut, .internal .errorResponse => some (some (.failed true))
  | .copyOutDone, .internal .commandComplete => some (some (.boundary true))
  | .failed _, .internal .readyForQuery => some none
  | _, .internal _ => none
  | φ, .external _ => some (some φ)

/-- The ledger takes the end of a COPY for the end of the whole response: only ReadyForQuery may
follow. -/
def relaysSimple : SimplePhase → ExchangeMessage → Bool
  | .boundary true, .internal message => decide (message = .readyForQuery)
  | _, _ => true

theorem simpleResponse_follow : ∀ φ message, ∀ r ∈ simpleResponse.only relaysSimple φ message,
    follow .query φ.recordState message = some (r.map SimplePhase.recordState) := by
  intro φ message
  cases message with
  | internal m | external m =>
    revert φ m
    decide +kernel

namespace Pipeline

/-- In every run, once the response to the Query at the front has come as far as `φ`, all its
messages were emitted, the next one is emitted too, and in COPY IN the client's COPY messages are
accepted. -/
theorem simple_response_relayed {policy : PipelinePolicy} {h₀ h : List LedgerEntry}
    {p q : Pipeline} (hr : Run policy h₀ p) {o : Operation} {os : List Operation}
    (hops : p.operations = o :: os) (hkind : o.kind = .query) (horigin : o.origin = .forwarded)
    (hstart : o.responseState = .simple) (hh : History Step p h q) {φ : SimplePhase}
    (hreach : (simpleResponse.only relaysSimple).reach (.boundary false) (exchange h) = some φ) :
    EmitsAll h ∧
      (∀ message r, simpleResponse.only relaysSimple φ (.internal message.variant) = some r →
        ∃ q', q.acceptBackend message = .ok (.ok (.emit message), q')) ∧
      (φ = .copyIn → ForwardOnly (h₀ ++ h) → ∀ message, isCopyMessage message.variant = true →
        ∃ admission q', q.acceptFrontend message .forward = .ok (.ok admission, q')) := by
  have hview : (follow o.kind).reach o.responseState (exchange h) = some φ.recordState := by
    rw [hkind, hstart]
    exact Dialogue.reach_map simpleResponse_follow hreach
  rcases (Run.wf hr).relays hops horigin hh hview with ⟨hwf, ⟨rest, hfront⟩, hall⟩
  refine ⟨hall, ?_, ?_⟩
  · intro message r hnext
    have hfollow : follow o.kind φ.recordState (.internal message.variant) =
        some (r.map SimplePhase.recordState) := by
      rw [hkind]
      exact simpleResponse_follow φ _ r hnext
    rcases follow_internal hfollow with ⟨next, hstep, -⟩
    exact ⟨_, hwf.acceptBackend_front hfront horigin hstep⟩
  · intro hphase hfwd message hcopy
    have hreads : q.CopyInReads := Run.copyInReads (History.append hr hh) hfwd
    have hstate : q.requestState = .copyIn := hreads _ rest hfront (by rw [hphase]; rfl)
    exact hwf.accepts_copy hstate hcopy .forward

/-- A statement with rows and a COPY IN as the last one: ReadyForQuery is emitted. -/
theorem simple_response_relayed_rows_copy :
    ∃ h₀ p h q q', Run .noPipeline h₀ p ∧ History Step p h q ∧ EmitsAll h ∧
      exchange h = [.internal .rowDescription, .internal .dataRow, .internal .commandComplete,
        .internal .copyInResponse, .external .copyData, .external .copyDone,
        .internal .commandComplete] ∧
      q.acceptBackend (.readyForQuery .idle) =
        .ok (.ok (.emit (.readyForQuery .idle)), q') := by
  obtain ⟨h₀, p, h, q, o, os, hr, hh, hops, hkind, horigin, hstart, hword⟩ :
      ∃ h₀ p h q o os, Run .noPipeline h₀ p ∧ History Step p h q ∧ p.operations = o :: os ∧
        o.kind = .query ∧ o.origin = .forwarded ∧ o.responseState = .simple ∧
        exchange h = [.internal .rowDescription, .internal .dataRow, .internal .commandComplete,
          .internal .copyInResponse, .external .copyData, .external .copyDone,
          .internal .commandComplete] :=
    ⟨_, _, _, _, _, _, .of_exec [.frontend (.query []) .forward] rfl,
      .of_exec [.backend (.rowDescription ⟨[]⟩), .backend (.dataRow ⟨[]⟩),
        .backend (.commandComplete []), .backend (.copyInResponse ⟨0, []⟩),
        .frontend (.copyData []) .forward, .frontend .copyDone .forward,
        .backend (.commandComplete [])] rfl, rfl, rfl, rfl, rfl, rfl⟩
  have hreach : (simpleResponse.only relaysSimple).reach (.boundary false) (exchange h) =
      some (.boundary true) := by
    rw [hword]
    rfl
  rcases simple_response_relayed hr hops hkind horigin hstart hh hreach with ⟨hall, hnext, -⟩
  rcases hnext (.readyForQuery .idle) none rfl with ⟨q', haccept⟩
  exact ⟨h₀, p, h, q, q', hr, hh, hall, hword, haccept⟩

/-- A COPY OUT followed by another statement in one simple Query: the CommandComplete of the second
statement is refused. -/
theorem statement_after_copy_refused :
    ∃ h₀ p h q o os, Run .noPipeline h₀ p ∧ p.operations = o :: os ∧ o.kind = .query ∧
      o.origin = .forwarded ∧ o.responseState = .simple ∧ History Step p h q ∧
      simpleResponse.reach (.boundary false) (exchange h) = some (.boundary true) ∧
      simpleResponse (.boundary true) (.internal .commandComplete) =
        some (some (.boundary false)) ∧
      q.acceptBackend (.commandComplete []) =
        .ok (.error { state := .ready, message := .commandComplete [] }, q) :=
  ⟨_, _, _, _, _, _, .of_exec [.frontend (.query []) .forward] rfl, rfl, rfl, rfl, rfl,
    .of_exec [.backend (.copyOutResponse ⟨0, []⟩), .backend .copyDone,
      .backend (.commandComplete [])] rfl, rfl, rfl, rfl⟩

/-! ## A COPY IN that the server fails -/

/-- The requests that start an operation. -/
def startsOperation : FrontendVariant → Bool
  | .query | .functionCall | .parse | .bind | .describe | .execute | .close => true
  | _ => false

/-- What the client still sends in a COPY IN: data and the end of it. -/
def copyCalls (data : List Bytes) (ending : FrontendMessage) : List Call :=
  data.map (fun d => .frontend (.copyData d) .forward) ++ [.frontend ending .forward]

/-- The end of a COPY IN, with the request state it leads to. -/
def copyEnd? : FrontendVariant → Option (OperationKind × RequestState)
  | .copyDone => some (.copyDone, .extended true)
  | .copyFail => some (.copyFail, .extendedError)
  | _ => none

variable {message : FrontendVariant} {kind : OperationKind} {next : RequestState} {p : Pipeline}
  {o : Operation} {os : List Operation}

theorem projectFrontend_copyEnd (h : copyEnd? message = some (kind, next)) :
    projectFrontend .copyIn message = .ok (some (kind, next)) := by
  cases message <;> cases h <;> rfl

/-- While the front operation reads COPY data no error is emitted for it. -/
theorem Wf.no_error_in_copyIn (hwf : p.Wf) (hops : p.operations = o :: os)
    (hcopy : isCopyInState o.responseState = true) (response : DiagnosticResponse) :
    p.acceptBackend (.errorResponse response) ≠
      .ok (.ok (.emit (.errorResponse response)), q) := by
  intro haccept
  -- Whatever the message does to the front record, the grammar would have to map it.
  have hmapped : ∀ head rest next, p.operations = head :: rest →
      respond head.responseState .errorResponse = some next → False := by
    intro head rest next hhead hstep
    rw [hops] at hhead
    cases hhead
    rw [respond_copyIn hstep] at hcopy
    cases hcopy
  cases hwf.effect_of_step (step_backend haccept) with
  | asynchronous hresponse hasync =>
    cases hresponse
    cases hasync
  | continued hresponse _ hhead hstep _ | completed hresponse _ hhead hstep _ _
  | failed hresponse _ hhead hstep _ _ _ =>
    cases hresponse
    exact hmapped _ _ _ hhead hstep

theorem advance_copyData_eq (h : isCopyInState o.responseState = true) :
    o.advance .copyData = o := by
  have hstays : ∀ state, isCopyInState state = true →
      (request state .copyData).getD state = state := by
    decide
  unfold Operation.advance
  rw [hstays o.responseState h]

theorem Wf.call_copy (hwf : p.Wf) (hstate : p.requestState = .copyIn)
    (hops : p.operations = o :: os) {message : FrontendMessage}
    (hproject : projectFrontend .copyIn message.variant = .ok (some (kind, next))) :
    ∃ reply q, p.call (.frontend message .forward) = .ok (reply, q) ∧
      reply.isAdmission = true ∧ q.Wf ∧ q.requestState = next ∧
      ∃ os', q.operations = o.advance message.variant :: os' := by
  have haccept := hwf.acceptFrontend_copyIn hstate hproject .forward
  refine ⟨_, _, step_frontend haccept, rfl, hwf.step (step_frontend haccept), rfl, ?_⟩
  simp only [hops, enqueue]
  exact ⟨_, rfl⟩

/-- The client's remaining COPY messages are all accepted.  They take the front record past its
COPY IN and the request state to where the end of the COPY leads. -/
theorem Wf.exec_copyCalls (hwf : p.Wf) (hstate : p.requestState = .copyIn)
    (hops : p.operations = o :: os) (hcopy : isCopyInState o.responseState = true)
    (data : List Bytes) {ending : FrontendMessage}
    (hend : copyEnd? ending.variant = some (kind, next)) :
    ∃ h q, exec call p (copyCalls data ending) = .ok (h, q) ∧
      (∀ e ∈ h, e.output.isAdmission = true) ∧ q.Wf ∧ q.requestState = next ∧
      ∃ os', q.operations = o.advance ending.variant :: os' := by
  induction data generalizing p os with
  | nil =>
    rcases hwf.call_copy hstate hops (projectFrontend_copyEnd hend) with
      ⟨reply, q, hcall, hadmitted, hwf', hnext, hfront⟩
    refine ⟨_, q, exec_cons_iff.2 ⟨reply, q, [], hcall, rfl, rfl⟩, ?_, hwf', hnext, hfront⟩
    intro e he
    rw [List.mem_singleton.1 he]
    exact hadmitted
  | cons d data ih =>
    have hproject : projectFrontend .copyIn (FrontendMessage.copyData d).variant =
        .ok (some (.copyData, .copyIn)) := rfl
    rcases hwf.call_copy hstate hops hproject with
      ⟨reply, p', hcall, hadmitted, hwf', hstate', ⟨os', hops'⟩⟩
    have hsame : o.advance (FrontendMessage.copyData d).variant = o := advance_copyData_eq hcopy
    rw [hsame] at hops'
    rcases ih hwf' hstate' hops' with ⟨h, q, hexec, hall, hrest⟩
    refine ⟨_, q, exec_cons_iff.2 ⟨reply, p', h, hcall, hexec, rfl⟩, ?_, hrest⟩
    intro e he
    rcases List.mem_cons.1 he with rfl | he
    · exact hadmitted
    · exact hall e he

/-- The ledger takes new requests: whatever may start an operation is accepted and forwarded, as
long as there is room. -/
def AcceptsRequests (p : Pipeline) : Prop :=
  ∀ message : FrontendMessage, startsOperation message.variant = true → p.HasRoom →
    ∃ q, p.acceptFrontend message .forward =
      .ok (.ok (.behind (!p.operations.isEmpty) (.forward p.nextId message)), q)

theorem Wf.acceptsRequests (hwf : p.Wf) (hready : p.requestState = .ready) : p.AcceptsRequests := by
  intro message hstarts hroom
  have hproject : ∃ kind next, projectFrontend p.requestState message.variant =
      .ok (some (kind, next)) ∧ next ≠ .extendedError := by
    rw [hready]
    cases message <;> first | exact ⟨_, _, rfl, by decide⟩ | cases hstarts
  rcases hproject with ⟨kind, next, hproject, hnext⟩
  have hphase : frontendPhase p.requestState (p.operations.head?.map Operation.kind) =
      .ok .ready := by
    rw [hready]
    rfl
  have haccept := hwf.acceptFrontend_eq hroom hproject hphase .forward
  have hmark : (Operation.admitted p.nextId kind next .forward).discarded = false := by
    simp [Operation.admitted, hnext]
  rw [hmark] at haccept
  exact ⟨_, haccept⟩

/-- A ledger that is past the failed COPY: it takes new requests, for a simple Query also after the
ReadyForQuery that ends it. -/
def Recovers (kind : OperationKind) (p : Pipeline) : Prop :=
  p.AcceptsRequests ∧
    (kind = .query → ∀ status, ∃ q, p.acceptBackend (.readyForQuery status) =
      .ok (.ok (.emit (.readyForQuery status)), q) ∧ q.AcceptsRequests)

theorem Wf.recovers (hwf : p.Wf) (hready : p.requestState = .ready) (horigin : o.origin = .forwarded)
    (hfront : o.kind = .query →
      ∃ os, p.operations = { o with responseState := .simpleCopyReady } :: os) :
    p.Recovers o.kind := by
  refine ⟨hwf.acceptsRequests hready, fun hkind status => ?_⟩
  rcases hfront hkind with ⟨os, hops⟩
  have hlast : responseIsTerminal o.kind (BackendMessage.readyForQuery status).variant = true := by
    rw [hkind]
    rfl
  have hstep : respond RuntimeState.simpleCopyReady (BackendMessage.readyForQuery status).variant =
      some .ready := by
    rfl
  have hplain : ¬((BackendMessage.readyForQuery status).variant = .errorResponse ∧
      isExtendedKind o.kind = true) := by
    rintro ⟨h, -⟩
    cases h
  have haccept := hwf.acceptBackend_front hops horigin hstep
  refine ⟨_, haccept, (hwf.step (step_backend haccept)).acceptsRequests ?_⟩
  rw [commitEmit_complete hops rfl hlast hplain]
  exact hready

theorem discardUntilSync_snoc {record : Operation} (hsync : record.kind = .sync)
    (os : List Operation) : (discardUntilSync (os ++ [record])).2 = true := by
  induction os with
  | nil => simp [discardUntilSync, hsync]
  | cons o os ih =>
    rw [List.cons_append, discardUntilSync]
    split
    · rfl
    · exact ih

/-- A Sync is accepted in the extended protocol, before and after an error, and leads back to
`Ready`. -/
theorem Wf.accept_sync (hwf : p.Wf)
    (hstate : p.requestState = .extended true ∨ p.requestState = .extendedError) (hroom : p.HasRoom)
    :
    ∃ admission q, p.acceptFrontend .sync .forward = .ok (.ok admission, q) ∧ q.Wf ∧
      q.requestState = .ready ∧
      ∀ o os, p.operations = o :: os → ∃ os', q.operations = o.advance .sync :: os' ∧
        (discardUntilSync os').2 = true := by
  have hproject : projectFrontend p.requestState (FrontendMessage.sync).variant =
      .ok (some (.sync, .ready)) := by
    rcases hstate with h | h <;> rw [h] <;> rfl
  have hphase : ∃ phase, frontendPhase p.requestState (p.operations.head?.map Operation.kind) =
      .ok phase := by
    rcases hstate with h | h <;> rw [h] <;> exact ⟨_, rfl⟩
  rcases hphase with ⟨phase, hphase⟩
  have haccept := hwf.acceptFrontend_eq hroom hproject hphase .forward
  refine ⟨_, _, haccept, hwf.step (step_frontend haccept), rfl, ?_⟩
  intro o os hops
  simp only [hops, enqueue]
  exact ⟨_, rfl, discardUntilSync_snoc rfl _⟩

theorem owned_copyIn_state : ∀ kind, ∀ state ∈ ownedStates kind, isCopyInState state = true →
    (kind = .query ∧ state = .simpleCopyIn) ∨ (kind = .execute ∧ state = .extendedCopyIn) := by
  decide

/-- Once the client has ended the COPY an error maps from the phase of either operation. -/
theorem respond_after_copyEnd : ∀ message, (copyEnd? message).isSome = true →
    respond ((request .simpleCopyIn message).getD .simpleCopyIn) .errorResponse =
      some .simpleCopyReady ∧
    respond ((request .extendedCopyIn message).getD .extendedCopyIn) .errorResponse =
      some .extendedError := by
  decide

/-- The Sync that follows leaves the record of the COPY where it is. -/
theorem advance_sync_after_copyEnd (hend : (copyEnd? message).isSome = true)
    (hcopy : isCopyInState o.responseState = true) :
    (o.advance message).advance .sync = o.advance message := by
  have hstays : ∀ message, (copyEnd? message).isSome = true →
      ∀ state, isCopyInState state = true →
        request ((request state message).getD state) .sync = none := by
    decide
  unfold Operation.advance
  simp only [hstays message hend o.responseState hcopy, Option.getD_none]

theorem copyEnd?_next (h : copyEnd? message = some (kind, next)) :
    next = .extended true ∨ next = .extendedError := by
  cases message <;> cases h
  · exact Or.inl rfl
  · exact Or.inr rfl

/-- The error of a COPY IN that the client has ended is emitted.  A simple Query then waits for
ReadyForQuery; an Execute has left the ledger. -/
theorem Wf.error_after_copyEnd (hwf : q.Wf) {xs : List Operation} {ending : FrontendVariant}
    (hend : (copyEnd? ending).isSome = true) (howned : o.responseState ∈ ownedStates o.kind)
    (horigin : o.origin = .forwarded) (hcopy : isCopyInState o.responseState = true)
    (hops : q.operations = o.advance ending :: xs) (response : DiagnosticResponse) :
    ∃ q₁, q.acceptBackend (.errorResponse response) =
        .ok (.ok (.emit (.errorResponse response)), q₁) ∧
      (q₁.requestState = q.requestState ∨
        (discardUntilSync xs).2 = false ∧ q₁.requestState = .extendedError) ∧
      (o.kind = .query → q₁.operations = { o with responseState := .simpleCopyReady } :: xs) := by
  have hphase : (o.advance ending).responseState =
      (request o.responseState ending).getD o.responseState := rfl
  rcases respond_after_copyEnd ending hend with ⟨hsimple, hextended⟩
  rcases owned_copyIn_state o.kind o.responseState howned hcopy with ⟨hk, hs⟩ | ⟨hk, hs⟩
  · have hstep : respond (o.advance ending).responseState
        (BackendMessage.errorResponse response).variant = some .simpleCopyReady := by
      rw [hphase, hs]
      exact hsimple
    have hmore : responseIsTerminal o.kind (BackendMessage.errorResponse response).variant =
        false := by
      rw [hk]
      rfl
    refine ⟨_, hwf.acceptBackend_front hops horigin hstep, ?_⟩
    rw [commitEmit_continue hops (hwf.headLive hops) hmore]
    exact ⟨Or.inl rfl, fun _ => rfl⟩
  · have hstep : respond (o.advance ending).responseState
        (BackendMessage.errorResponse response).variant = some .extendedError := by
      rw [hphase, hs]
      exact hextended
    have hlast : responseIsTerminal o.kind (BackendMessage.errorResponse response).variant =
        true := by
      rw [hk]
      rfl
    have hext : isExtendedKind o.kind = true := by
      rw [hk]
      rfl
    refine ⟨_, hwf.acceptBackend_front hops horigin hstep, ?_⟩
    rw [commitEmit_fail hops rfl hlast rfl hext]
    refine ⟨?_, ?_⟩
    · -- Without a Sync record behind the front the error leaves `ExtendedError`.
      cases (discardUntilSync xs).2 with
      | true => exact Or.inl rfl
      | false => exact Or.inr ⟨rfl, rfl⟩
    · intro h
      rw [hk] at h
      cases h

/-- While the server reads COPY data its error is never emitted.  It is emitted once the client has
sent the rest of its COPY messages.  With a Sync behind these, before the error or after it, the
ledger takes new requests again, for a simple Query with the ReadyForQuery that ends it. -/
theorem copyIn_failure_relayed {policy : PipelinePolicy} {h : List LedgerEntry} {p : Pipeline}
    (hr : Run policy h p) (hfwd : ForwardOnly h) {o : Operation} {os : List Operation}
    (hops : p.operations = o :: os) (hcopy : isCopyInState o.responseState = true)
    (data : List Bytes) {ending : FrontendMessage}
    (hend : (copyEnd? ending.variant).isSome = true) (response : DiagnosticResponse) :
    (∀ q, p.acceptBackend (.errorResponse response) ≠
      .ok (.ok (.emit (.errorResponse response)), q)) ∧
    ∃ h₁ q q₁, exec call p (copyCalls data ending) = .ok (h₁, q) ∧
      (∀ e ∈ h₁, e.output.isAdmission = true) ∧
      q.acceptBackend (.errorResponse response) =
        .ok (.ok (.emit (.errorResponse response)), q₁) ∧
      (q₁.HasRoom → ∃ admission q₂,
        q₁.acceptFrontend .sync .forward = .ok (.ok admission, q₂) ∧ q₂.Recovers o.kind) ∧
      (q.HasRoom → ∃ admission q₂ q₃,
        q.acceptFrontend .sync .forward = .ok (.ok admission, q₂) ∧
        q₂.acceptBackend (.errorResponse response) =
          .ok (.ok (.emit (.errorResponse response)), q₃) ∧ q₃.Recovers o.kind) := by
  have hwf := Run.wf hr
  have howned := hwf.owned o (by simp [hops])
  have horigin : o.origin = .forwarded := Run.allForwarded hr hfwd o (by simp [hops])
  have hstate : p.requestState = .copyIn := Run.copyInReads hr hfwd o os hops hcopy
  refine ⟨fun q => hwf.no_error_in_copyIn hops hcopy response, ?_⟩
  -- The client's remaining messages.
  rcases Option.isSome_iff_exists.1 hend with ⟨⟨kind, next⟩, hnext⟩
  rcases hwf.exec_copyCalls hstate hops hcopy data hnext with
    ⟨h₁, q, hexec, hall, hwf', hstate', ⟨xs, hfront⟩⟩
  have hopen : q.requestState = .extended true ∨ q.requestState = .extendedError := by
    rw [hstate']
    exact copyEnd?_next hnext
  -- The server's error, and behind it the client's Sync.
  rcases hwf'.error_after_copyEnd hend howned horigin hcopy hfront response with
    ⟨q₁, herror, hopen₁, hsimple⟩
  refine ⟨h₁, q, q₁, hexec, hall, herror, ?_, ?_⟩
  · intro hroom
    have hwf₁ : q₁.Wf := hwf'.step (step_backend herror)
    have hopen₁' : q₁.requestState = .extended true ∨ q₁.requestState = .extendedError := by
      rcases hopen₁ with hsame | ⟨-, hfailed⟩
      · rwa [hsame]
      · exact Or.inr hfailed
    rcases hwf₁.accept_sync hopen₁' hroom with ⟨admission, q₂, hsync, hwf₂, hready, hkept⟩
    refine ⟨admission, q₂, hsync, hwf₂.recovers hready horigin fun hkind => ?_⟩
    rcases hkept _ _ (hsimple hkind) with ⟨ys, hfront₂, -⟩
    exact ⟨ys, hfront₂⟩
  · -- The client's Sync, and behind it the server's error, which stops at the record of the Sync.
    intro hroom
    rcases hwf'.accept_sync hopen hroom with ⟨admission, q₂, hsync, hwf₂, hready, hkept⟩
    rcases hkept _ _ hfront with ⟨ys, hfront₂, hfound⟩
    rw [advance_sync_after_copyEnd hend hcopy] at hfront₂
    rcases hwf₂.error_after_copyEnd hend howned horigin hcopy hfront₂ response with
      ⟨q₃, herror₂, hsame | ⟨hmissing, -⟩, hsimple₂⟩
    · refine ⟨admission, q₂, q₃, hsync, herror₂, ?_⟩
      exact (hwf₂.step (step_backend herror₂)).recovers (hsame.trans hready) horigin
        fun hkind => ⟨ys, hsimple₂ hkind⟩
    · rw [hfound] at hmissing
      cases hmissing

/-- A simple COPY IN that fails after the client's CopyDone, with a Sync behind it. -/
theorem copyIn_failure_relayed_simple :
    ∃ h p h₁ q q₁ admission q₂ q₃, Run (.bounded ⟨8, by decide⟩) h p ∧ ForwardOnly h ∧
      exec call p (copyCalls [[]] .copyDone) = .ok (h₁, q) ∧
      q.acceptBackend (.errorResponse ⟨[]⟩) = .ok (.ok (.emit (.errorResponse ⟨[]⟩)), q₁) ∧
      q₁.acceptFrontend .sync .forward = .ok (.ok admission, q₂) ∧
      q₂.acceptBackend (.readyForQuery .idle) = .ok (.ok (.emit (.readyForQuery .idle)), q₃) ∧
      q₃.AcceptsRequests := by
  obtain ⟨h, p, o, os, h₁, q, q₁, hr, hfwd, hops, hcopy, hkind, hcopied, herror, hroom⟩ :
      ∃ h p o os h₁ q q₁, Run (.bounded ⟨8, by decide⟩) h p ∧ ForwardOnly h ∧
        p.operations = o :: os ∧ isCopyInState o.responseState = true ∧ o.kind = .query ∧
        exec call p (copyCalls [[]] .copyDone) = .ok (h₁, q) ∧
        q.acceptBackend (.errorResponse ⟨[]⟩) = .ok (.ok (.emit (.errorResponse ⟨[]⟩)), q₁) ∧
        q₁.HasRoom := by
    exact ⟨_, _, _, _, _, _, _,
        .of_exec [.frontend (.query []) .forward, .backend (.copyInResponse ⟨0, []⟩)] rfl,
        by decide, rfl, rfl, rfl, rfl, rfl, by decide⟩
  have hend : (copyEnd? FrontendMessage.copyDone.variant).isSome = true := rfl
  rcases copyIn_failure_relayed hr hfwd hops hcopy [[]] hend ⟨[]⟩ with
    ⟨-, h₁', q', q₁', hcopied', -, herror', hrest, -⟩
  -- The calls are functions, so these are the ledgers found above.
  rw [hcopied] at hcopied'
  cases hcopied'
  rw [herror] at herror'
  cases herror'
  rcases hrest hroom with ⟨admission, q₂, hsync, -, hsimple⟩
  rcases hsimple hkind .idle with ⟨q₃, hready, haccepts⟩
  exact ⟨h, p, h₁, q, q₁, admission, q₂, q₃, hr, hfwd, hcopied, herror, hsync, hready, haccepts⟩

/-- An error during COPY IN is refused, for a simple Query and for an Execute.  After a CopyDone it
is emitted, but the ReadyForQuery that ends the simple Query leaves a ledger that refuses the next
Query. -/
theorem copyIn_failure_lost :
    (∃ h p, Run .noPipeline h p ∧ ForwardOnly h ∧
      p.operations.head?.map Operation.responseState = some .simpleCopyIn ∧
      p.acceptBackend (.errorResponse ⟨[]⟩) =
        .ok (.error { state := .copyIn, message := .errorResponse ⟨[]⟩ }, p)) ∧
    (∃ h p, Run .noPipeline h p ∧ ForwardOnly h ∧
      p.operations.head?.map Operation.responseState = some .extendedCopyIn ∧
      p.acceptBackend (.errorResponse ⟨[]⟩) =
        .ok (.error { state := .copyIn, message := .errorResponse ⟨[]⟩ }, p)) ∧
    (∃ h p, Run .noPipeline h p ∧ ForwardOnly h ∧
      h.map Entry.input =
        [.frontend (.query []) .forward, .backend (.copyInResponse ⟨0, []⟩),
         .frontend .copyDone .forward, .backend (.errorResponse ⟨[]⟩),
         .backend (.readyForQuery .idle)] ∧
      p.operations = [] ∧
      p.acceptFrontend (.query []) .forward =
        .ok (.error (.illegal .extended (.query [])), p)) :=
  ⟨⟨_, _, .of_exec [.frontend (.query []) .forward, .backend (.copyInResponse ⟨0, []⟩),
      .frontend (.copyData []) .forward] rfl, by decide, rfl, rfl⟩,
    ⟨_, _, .of_exec [.frontend (.execute ⟨[], 0⟩) .forward, .backend (.copyInResponse ⟨0, []⟩),
      .frontend (.copyData []) .forward] rfl, by decide, rfl, rfl⟩,
    ⟨_, _, .of_exec [.frontend (.query []) .forward, .backend (.copyInResponse ⟨0, []⟩),
      .frontend .copyDone .forward, .backend (.errorResponse ⟨[]⟩),
      .backend (.readyForQuery .idle)] rfl, by decide, rfl, rfl, rfl⟩⟩

end Pipeline
end PgProto
