import Mathlib.Data.List.TakeWhile
import PgProto.Pipeline.Mirror

/-!
# Readiness — when ReadyForQuery really means ready

The request state follows the client's messages and ReadyForQuery only pops the ledger, so the two
are related by an invariant: if the newest record that still owes a response is one whose answer
ends in ReadyForQuery, then the request state is `Ready`, or the front operation is reading COPY
data.  Three kinds of steps can break it, all of them changes of the request state that leave no
owing record behind: Terminate, the end of a COPY IN and the start of a COPY BOTH.
-/

namespace PgProto

open Backend (respond)
open Lib
open Operation (admitted isInert kind)

/-! ## The newest record that owes a response -/

def newestOwing (os : List Operation) : Option Operation :=
  os.reverse.find? fun o => !o.isInert

/-- Kinds whose last response is ReadyForQuery. -/
def endsInReady : OperationKind → Bool
  | .query | .functionCall | .sync => true
  | _ => false

/-- The newest record that owes a response waits for ReadyForQuery. -/
def awaitsReady (os : List Operation) : Bool :=
  (newestOwing os).any fun o => endsInReady o.kind

theorem newestOwing_append (as bs : List Operation) :
    newestOwing (as ++ bs) = (newestOwing bs).or (newestOwing as) := by
  simp [newestOwing, List.find?_append]

theorem newestOwing_eq_none {os : List Operation} (h : ∀ o ∈ os, o.isInert = true) :
    newestOwing os = none := by
  refine List.find?_eq_none.2 ?_
  intro o ho
  simp [h o (List.mem_reverse.1 ho)]

theorem newestOwing_singleton (o : Operation) :
    newestOwing [o] = if o.isInert then none else some o := by
  cases h : o.isInert <;> simp [newestOwing, h]

theorem awaitsReady_snoc (os : List Operation) (o : Operation) :
    awaitsReady (os ++ [o]) = if o.isInert then awaitsReady os else endsInReady o.kind := by
  unfold awaitsReady
  rw [newestOwing_append, newestOwing_singleton]
  cases o.isInert <;> simp

theorem awaitsReady_of_suffix {as bs : List Operation} (h : awaitsReady (as ++ bs) = false) :
    awaitsReady bs = false := by
  unfold awaitsReady at h ⊢
  rw [newestOwing_append] at h
  cases hb : newestOwing bs with
  | none => rfl
  | some o => simpa [hb] using h

theorem awaitsReady_append_inert {as : List Operation} (bs : List Operation)
    (h : ∀ o ∈ as, o.isInert = true) :
    awaitsReady (as ++ bs) = awaitsReady bs := by
  unfold awaitsReady
  rw [newestOwing_append, newestOwing_eq_none h, Option.or_none]

theorem awaitsReady_dropWhile (os : List Operation) :
    awaitsReady (os.dropWhile isInert) = awaitsReady os := by
  have hsplit := List.takeWhile_append_dropWhile (p := isInert) (l := os)
  have hinert : ∀ o ∈ os.takeWhile isInert, o.isInert = true := by
    intro o ho
    exact List.mem_takeWhile_imp ho
  have happend := awaitsReady_append_inert (os.dropWhile isInert) hinert
  rw [hsplit] at happend
  exact happend.symm

/-- Replacing the front record by one of the same kind and mark changes nothing. -/
theorem awaitsReady_cons_congr {o x : Operation} (os : List Operation) (hkind : x.kind = o.kind)
    (hmark : x.isInert = o.isInert) : awaitsReady (x :: os) = awaitsReady (o :: os) := by
  unfold awaitsReady
  rw [← List.singleton_append, ← List.singleton_append (l := os), newestOwing_append,
    newestOwing_append, newestOwing_singleton, newestOwing_singleton, hmark]
  cases newestOwing os with
  | none => cases o.isInert <;> simp [hkind]
  | some y => rfl

/-! ## Changes of the request state -/

variable {kind : OperationKind}

/-- What a client message does to the request state, and whether its record owes a response. -/
theorem classifyFrontend_readiness {state next : RequestState} {message : FrontendVariant}
    (h : classifyFrontend state message = .ok (some (kind, next))) (hready : next ≠ .ready)
    (hcopy : next ≠ .copyIn) :
    (isInertKind kind = false ∧ endsInReady kind = false) ∨
      (next = state ∧ (isInertKind kind = true ∨ (next = .extendedError ∧ kind ≠ .sync))) ∨
      (state = .ready ∧ message = .terminate) ∨
      (state = .copyIn ∧ (kind = .copyDone ∨ kind = .copyFail) ∧
        (message = .copyDone ∨ message = .copyFail)) := by
  cases state <;> cases message <;> cases h <;> simp_all [isInertKind, endsInReady]

namespace Pipeline

/-! ## Steps that keep readiness -/

/-- A response that puts the front operation into COPY BOTH. -/
def entersCopyBoth (p : Pipeline) (call : Call) : Bool :=
  match p.operations, call.response? with
  | head :: _, some message =>
    decide ((respond head.responseState message.variant).bind responseCopyState = some .copyBoth)
  | _, _ => false

/-- The three kinds of steps that change the request state without leaving an owing record. -/
structure KeepsReadiness (e : LedgerEntry) : Prop where
  /-- A Terminate that is admitted. -/
  terminate : e.before.requestState = .ready →
    e.before.operations.length ≠ e.before.policy.operationLimit →
    e.input.request?.map FrontendMessage.variant = some .terminate →
      awaitsReady e.before.operations = false
  /-- The client's end of a COPY IN, which cancels the newest live Sync. -/
  copyIn : e.before.requestState = .copyIn →
    e.input.request?.map FrontendMessage.variant = some .copyDone ∨
      e.input.request?.map FrontendMessage.variant = some .copyFail →
      awaitsReady (cancelLastSync e.before.operations) = false
  /-- A server message that takes the request state into COPY BOTH. -/
  copyBoth : e.before.requestState ≠ .copyBoth → entersCopyBoth e.before e.input = true →
    awaitsReady e.before.operations = false

instance : DecidablePred KeepsReadiness := fun e =>
  decidable_of_iff
    ((e.before.requestState = .ready →
        e.before.operations.length ≠ e.before.policy.operationLimit →
        e.input.request?.map FrontendMessage.variant = some .terminate →
          awaitsReady e.before.operations = false) ∧
      (e.before.requestState = .copyIn →
        e.input.request?.map FrontendMessage.variant = some .copyDone ∨
          e.input.request?.map FrontendMessage.variant = some .copyFail →
          awaitsReady (cancelLastSync e.before.operations) = false) ∧
      (e.before.requestState ≠ .copyBoth → entersCopyBoth e.before e.input = true →
        awaitsReady e.before.operations = false))
    ⟨fun h => ⟨h.1, h.2.1, h.2.2⟩, fun h => ⟨h.terminate, h.copyIn, h.copyBoth⟩⟩

/-- Outside `Ready` and COPY IN the newest owing record does not wait for ReadyForQuery. -/
def ReadyWhenAwaited (p : Pipeline) : Prop :=
  p.requestState ≠ .ready → p.requestState ≠ .copyIn → awaitsReady p.operations = false

theorem readyWhenAwaited_new (policy : PipelinePolicy) : (new policy).ReadyWhenAwaited := by
  intro _ _
  rfl

variable {p p' : Pipeline}

theorem Wf.awaitsReady_enqueue (hwf : p.Wf) (message : FrontendVariant) (record : Operation) :
    awaitsReady (enqueue message p.requestState record p.operations) =
      if record.isInert then
        awaitsReady (cancelSyncFor p.requestState record.kind p.operations)
      else
        endsInReady record.kind := by
  cases hops : p.operations with
  | nil =>
    have hcancel : cancelSyncFor p.requestState record.kind [] = [] := by
      simp [cancelSyncFor, cancelLastSync, discardFirst]
    rw [hcancel]
    cases hinert : record.isInert with
    | true => simp [enqueue, hinert]
    | false => simp [enqueue, hinert, awaitsReady, newestOwing_singleton]
  | cons o os =>
    rw [hwf.cancelSyncFor_cons hops]
    simp only [enqueue]
    rw [← List.cons_append, awaitsReady_snoc]
    have hfront : awaitsReady (o.advance message ::
        cancelSyncFor p.requestState record.kind os) =
        awaitsReady (o :: cancelSyncFor p.requestState record.kind os) :=
      awaitsReady_cons_congr _ rfl rfl
    rw [hfront]

theorem ReadyWhenAwaited.of_accepted (hwf : p.Wf) (hinv : p.ReadyWhenAwaited)
    {message : FrontendMessage} {handling : FrontendHandling} {next : RequestState} {reply : Reply}
    (hroom : p.operations.length = p.policy.operationLimit →
      p.requestState = .copyIn ∨ p.requestState = .copyBoth)
    (hclass : classifyFrontend p.requestState message.variant = .ok (some (kind, next)))
    (hkeeps : KeepsReadiness ⟨p, .frontend message handling, reply, p'⟩) (hready : next ≠ .ready)
    (hcopy : next ≠ .copyIn) :
    awaitsReady (enqueue message.variant p.requestState
      (admitted p.nextId kind next handling) p.operations) = false := by
  rw [hwf.awaitsReady_enqueue]
  have hkind : (admitted p.nextId kind next handling).kind = kind := rfl
  rw [hkind]
  rcases classifyFrontend_readiness hclass hready hcopy with
    ⟨hlive, hends⟩ | ⟨hsame, hinert⟩ | ⟨hstate, hterm⟩ | ⟨hstate, hkinds, hmessages⟩
  · -- The new record owes a response and does not wait for ReadyForQuery.
    split
    · rename_i hinert
      have hdiscarded : (admitted p.nextId kind next handling).discarded = true := by
        simpa [isInert, hkind, hlive] using hinert
      have herror := admitted_discarded hdiscarded
      subst herror
      rcases classifyFrontend_extendedError hclass with ⟨hstate, -⟩ | ⟨hstate, hfail⟩
      · have hold := hinv (by simp [hstate]) (by simp [hstate])
        simpa [cancelSyncFor, hstate] using hold
      · have hcancel := hkeeps.copyIn hstate (Or.inr (congrArg some hfail))
        unfold cancelSyncFor
        split
        · exact hcancel
        · rename_i hkinds
          rw [hstate, hfail] at hclass
          cases hclass
          exact absurd ⟨hstate, Or.inr rfl⟩ hkinds
    · exact hends
  · -- The request state does not change and the record owes nothing.
    have hrecord : (admitted p.nextId kind next handling).isInert = true := by
      rcases hinert with hk | ⟨herror, hk⟩
      · simp [isInert, hkind, hk]
      · simp [isInert, admitted, herror, hk]
    rw [if_pos hrecord]
    have hstate : p.requestState ≠ .copyIn := by
      rw [← hsame]
      exact hcopy
    have hold := hinv (by rw [← hsame]; exact hready) hstate
    simpa [cancelSyncFor, hstate] using hold
  · -- Terminate.
    rw [hstate, hterm] at hclass
    cases hclass
    have hlen : p.operations.length ≠ p.policy.operationLimit := by
      intro hlen
      rcases hroom hlen with h | h <;> rw [hstate] at h <;> cases h
    have hold := hkeeps.terminate hstate hlen (congrArg some hterm)
    have hrecord : (admitted p.nextId .terminate .terminated handling).isInert = true :=
      rfl
    rw [if_pos hrecord]
    simpa [cancelSyncFor, hstate] using hold
  · -- CopyDone or CopyFail at the end of a COPY IN.
    have hrecord : (admitted p.nextId kind next handling).isInert = true := by
      rcases hkinds with rfl | rfl <;> rfl
    rw [if_pos hrecord]
    have hcancel : awaitsReady (cancelLastSync p.operations) = false := by
      refine hkeeps.copyIn hstate ?_
      rcases hmessages with h | h
      · exact Or.inl (congrArg some h)
      · exact Or.inr (congrArg some h)
    simpa [cancelSyncFor, hstate, hkinds] using hcancel

theorem ReadyWhenAwaited.effect {call : Call} {reply : Reply} (hwf : p.Wf)
    (hinv : p.ReadyWhenAwaited) (hall : p.AllForwarded) (heff : p.Effect call reply p')
    (hkeeps : KeepsReadiness ⟨p, call, reply, p'⟩) : p'.ReadyWhenAwaited := by
  cases heff with
  | refused _ | asynchronous _ _ | deferred _ _ | illegal _ _ => exact hinv
  | accepted hroom hproject _ =>
    intro hready hcopy
    exact hinv.of_accepted hwf hroom (projectFrontend_classify hproject) hkeeps hready hcopy
  | @continued _ message head rest next hcall _ hops hnext _ =>
    intro hready hcopy
    have hsame : awaitsReady ({ head with responseState := next } :: rest) =
        awaitsReady p.operations := by
      rw [hops]
      exact awaitsReady_cons_congr rest rfl rfl
    have hgoal : awaitsReady p.operations = false := by
      dsimp only [copyRequest] at hready hcopy
      cases hphase : responseCopyState next with
      | none =>
        rw [hphase] at hready hcopy
        exact hinv hready hcopy
      | some state =>
        by_cases hboth : p.requestState = .copyBoth
        · exact hinv (by simp [hboth]) (by simp [hboth])
        · rw [hphase] at hready hcopy
          cases state with
          | copyBoth =>
            refine hkeeps.copyBoth hboth ?_
            simp [entersCopyBoth, hops, hcall, hnext, hphase]
          | copyIn => exact absurd rfl hcopy
          | _ => exact hinv hready hcopy
    exact hsame.trans hgoal
  | @completed _ _ head rest _ _ _ hops _ _ _ =>
    intro hready hcopy
    have hold := hinv hready hcopy
    rw [hops, ← List.singleton_append] at hold
    have hrest : awaitsReady rest = false := awaitsReady_of_suffix hold
    exact (awaitsReady_dropWhile rest).trans hrest
  | @failed _ _ head rest _ _ _ hops hnext _ _ _ =>
    intro hready hcopy
    dsimp only at hready hcopy ⊢
    rw [dropWhile_discardUntilSync, awaitsReady_dropWhile]
    cases hfrom : fromSync rest with
    | nil => rfl
    | cons sync after =>
      have hfound : (discardUntilSync rest).2 = true := by
        rw [discardUntilSync_eq, hfrom]
        rfl
      rw [hfound] at hready hcopy
      have hold := hinv hready hcopy
      rw [hops] at hold
      -- What stands from the Sync on is a suffix of the old queue.
      have hsplit : head :: rest = (head :: beforeSync rest) ++ fromSync rest := by
        rw [List.cons_append, beforeSync, fromSync, List.takeWhile_append_dropWhile]
      rw [hsplit] at hold
      rw [← hfrom]
      exact awaitsReady_of_suffix hold
  | deferredError _ hops _ _ horigin _ => exact (hall.not_local hops horigin).elim

theorem Run.readyWhenAwaited {policy : PipelinePolicy} {h : List LedgerEntry} (hr : Run policy h p)
    (hfwd : ForwardOnly h) (hkeeps : ∀ e ∈ h, KeepsReadiness e) : p.ReadyWhenAwaited := by
  induction hr with
  | nil => exact readyWhenAwaited_new policy
  | @snoc h s s' i o hr hs ih =>
    have hfwd' : ForwardOnly h := fun e he => hfwd e (by simp [he])
    have hinv := ih hfwd' fun e he => hkeeps e (by simp [he])
    have hwf := Run.wf hr
    exact hinv.effect hwf (Run.allForwarded hr hfwd') (hwf.effect_of_step hs)
      (hkeeps _ (by simp))

/-! ## Return to readiness -/

/-- The server's ReadyForQuery is emitted. -/
def EmitsReady (e : LedgerEntry) : Prop :=
  ∃ status, e.input = .backend (.readyForQuery status) ∧
    e.output = .backend (.ok (.emit (.readyForQuery status)))

/-- ReadyForQuery ends exactly the records that wait for it. -/
theorem endsInReady_of_terminal (hinert : isInertKind kind = false)
    (h : responseIsTerminal kind .readyForQuery = true) : endsInReady kind = true := by
  cases kind <;> first | rfl | (cases h; done) | cases hinert

/-- A ledger that ReadyForQuery has emptied is `Ready`. -/
theorem ReadyWhenAwaited.ready_of_emptied {status : TransactionStatus} (hwf : p.Wf)
    (hinv : p.ReadyWhenAwaited) (heff : p.Effect (.backend (.readyForQuery status))
      (.backend (.ok (.emit (.readyForQuery status)))) p') (hempty : p'.operations = []) :
    p'.requestState = .ready := by
  cases heff with
  | asynchronous _ hasync => cases hasync
  | continued _ _ _ _ _ => cases hempty
  | failed _ _ _ _ _ herror _ => cases herror
  | @completed _ _ head rest _ _ _ hops hnext hlast _ =>
    have hinert : ∀ o ∈ rest, o.isInert = true := List.dropWhile_eq_nil_iff.1 hempty
    have hhead : head.isInert = false := hwf.headLive hops
    have hkind : isInertKind head.kind = false := (Operation.isInert_eq_false.1 hhead).1
    -- The front record was the only one that owed a response.
    have hawaits : awaitsReady p.operations = true := by
      unfold awaitsReady
      rw [hops, ← List.singleton_append, newestOwing_append, newestOwing_eq_none hinert,
        newestOwing_singleton, hhead]
      simpa using endsInReady_of_terminal hkind hlast
    by_contra hready
    have hcopy := hwf.requestState_ne_copyIn hops hnext
    rw [hinv hready hcopy] at hawaits
    cases hawaits

/-- An empty ledger in `Ready` takes the next Query and forwards it. -/
theorem acceptFrontend_query (hwf : p.Wf) (hempty : p.operations = [])
    (hready : p.requestState = .ready) (sql : Bytes) :
    ∃ q, p.acceptFrontend (.query sql) .forward =
      .ok (.ok (.immediate (.forward p.nextId (.query sql))), q) := by
  have hroom : p.operations.length = p.policy.operationLimit →
      p.requestState = .copyIn ∨ p.requestState = .copyBoth := by
    intro hlen
    have hpos := p.policy.operationLimit_pos
    rw [← hlen, hempty] at hpos
    exact absurd hpos (Nat.lt_irrefl _)
  have hproject : projectFrontend p.requestState (FrontendMessage.query sql).variant =
      .ok (some (.query, .ready)) := by
    rw [hready]
    rfl
  have hphase : frontendPhase p.requestState (p.operations.head?.map kind) =
      .ok .ready := by
    rw [hready]
    rfl
  have haccept := hwf.acceptFrontend_eq hroom hproject hphase .forward
  have hempty' : (!p.operations.isEmpty) = false := by
    rw [hempty]
    rfl
  rw [hempty'] at haccept
  exact ⟨_, haccept⟩

/-- In every run whose messages are all handed on and whose steps keep readiness, a ReadyForQuery
that empties the ledger leaves it `Ready`, and the next Query is accepted and forwarded. -/
theorem return_to_readiness {policy : PipelinePolicy} {h : List LedgerEntry} {p : Pipeline}
    (hr : Run policy h p) (hfwd : ForwardOnly h) (hkeeps : ∀ e ∈ h, KeepsReadiness e) :
    ∀ e ∈ h, EmitsReady e → e.after.operations = [] →
      e.after.requestState = .ready ∧
        ∀ sql, ∃ q, e.after.acceptFrontend (.query sql) .forward =
          .ok (.ok (.immediate (.forward e.after.nextId (.query sql))), q) := by
  rintro e he ⟨status, hinput, houtput⟩ hempty
  rcases hr.mem_split he with ⟨h₁, h₂, rfl, hbefore, hstep, -⟩
  have hwf := Run.wf hbefore
  have hinv : e.before.ReadyWhenAwaited :=
    Run.readyWhenAwaited hbefore (fun x hx => hfwd x (by simp [hx]))
      (fun x hx => hkeeps x (by simp [hx]))
  have heff := hwf.effect_of_step hstep
  rw [hinput, houtput] at heff
  have hready := hinv.ready_of_emptied hwf heff hempty
  exact ⟨hready, acceptFrontend_query (hwf.step hstep) hempty hready⟩

/-- An extended COPY IN whose Sync follows CopyDone returns to `Ready`. -/
theorem return_to_readiness_extended_copy :
    ∃ h p e, Run (.bounded ⟨4, by decide⟩) h p ∧ ForwardOnly h ∧ (∀ e ∈ h, KeepsReadiness e) ∧
      e ∈ h ∧ EmitsReady e ∧ e.after.operations = [] ∧ e.after.requestState = .ready := by
  obtain ⟨h, p, e, hr, hfwd, hkeeps, hget, hemits, hempty⟩ :
      ∃ h p e, Run (.bounded ⟨4, by decide⟩) h p ∧ ForwardOnly h ∧ (∀ e ∈ h, KeepsReadiness e) ∧
        h[6]? = some e ∧ EmitsReady e ∧ e.after.operations = [] := by
    exact ⟨_, _, _, .of_exec [.frontend (.execute ⟨[], 0⟩) .forward, .backend (.copyInResponse ⟨0, []⟩),
        .frontend (.copyData []) .forward, .frontend .copyDone .forward, .frontend .sync .forward,
        .backend (.commandComplete []), .backend (.readyForQuery .idle)] rfl,
        by decide, by decide, rfl, ⟨.idle, rfl, rfl⟩, rfl⟩
  have hmem : e ∈ h := List.mem_of_getElem? hget
  exact ⟨h, p, e, hr, hfwd, hkeeps, hmem, hemits, hempty,
    (return_to_readiness hr hfwd hkeeps e hmem hemits hempty).1⟩

/-- Two runs in which ReadyForQuery empties the ledger and the request state is not `Ready`: a
Terminate sent behind the query, and a simple-query COPY IN, after which the next Query is
refused. -/
theorem readyForQuery_without_readiness :
    (∃ h p e, Run (.bounded ⟨4, by decide⟩) h p ∧ ForwardOnly h ∧ e ∈ h ∧ EmitsReady e ∧
      e.after.operations = [] ∧ e.after.requestState = .terminated) ∧
    (∃ h p e, Run .noPipeline h p ∧ ForwardOnly h ∧ e ∈ h ∧ EmitsReady e ∧
      e.after.operations = [] ∧ e.after.requestState = .extended true ∧
      e.after.acceptFrontend (.query []) .forward =
        .ok (.error (.illegal .extended (.query [])), e.after)) :=
  ⟨⟨_, _, _, .of_exec [.frontend (.query []) .forward, .frontend .terminate .forward,
      .backend (.readyForQuery .idle)] rfl, by decide, List.mem_of_getElem? (i := 2) rfl,
      ⟨.idle, rfl, rfl⟩, rfl, rfl⟩,
    ⟨_, _, _, .of_exec [.frontend (.query []) .forward, .backend (.copyInResponse ⟨0, []⟩),
      .frontend .copyDone .forward, .backend (.commandComplete []),
      .backend (.readyForQuery .idle)] rfl, by decide, List.mem_of_getElem? (i := 4) rfl,
      ⟨.idle, rfl, rfl⟩, rfl, rfl, rfl⟩⟩

end Pipeline
end PgProto
