import PgProto.Typestate.Client

/-!
# Pristine — what the cleanliness index of a client connection promises

A connection is released to a pool only in phase `Ready` with cleanliness `Pristine`.  Here is what
that says about the run which led there: since authentication, or since the last completed reset,
nothing was sent that a session keeps, and every ReadyForQuery found the session idle with the
parameters of its startup.

* `Conn.next_pristine`, `Conn.offer_pristine`, `Conn.offerBackend_pristine` — which moves end in a
  pristine connection;
* `Session.PristineInv` — the invariant of runs, about the entries and not only the last state.
-/

namespace PgProto
namespace Client

open Lib

/-! ## The cleanliness index -/

/-- Operations that do not leave the session as it was, as far as the client can tell. -/
def Op.retains : Op → Bool
  | .pushQuery _ | .pushFunctionCall _ | .beginReset | .pushParse _ | .pushBind _ | .markDirty =>
    true
  | _ => false

variable {conn conn' : Conn} {branch : Branch} {status : TransactionStatus}

variable {op : Op}

theorem Conn.next_pristine (h : conn.next op = some conn') (hc : conn'.cleanliness = .pristine) :
    conn.cleanliness = .pristine ∧ op.retains = false := by
  unfold Conn.next at h
  split at h <;> cases h <;> first | exact ⟨hc, rfl⟩ | cases hc

/-- No operation enters `ResetComplete`. -/
theorem Conn.next_resetComplete (h : conn.next op = some conn')
    (hp : conn'.phase = .resetComplete) :
    conn.phase = .resetComplete := by
  unfold Conn.next at h
  split at h <;> cases h <;> first | exact hp | cases hp

/-- An item that is no ReadyForQuery, or an idle one without a parameter change. -/
def Quiet (item : SessionItem) : Prop :=
  ∀ status changed, item = .readyForQuery status changed → status = .idle ∧ changed = false

/-- The offer of a phase that passes its index `c` on: a pristine connection comes only from a
pristine one and a quiet item. -/
def PassesOn (c : Cleanliness) (item : SessionItem) (offer : Offer) : Prop :=
  ∀ conn branch, offer = .accepted conn branch → conn.cleanliness = .pristine →
    c = .pristine ∧ Quiet item

namespace PassesOn

variable {c : Cleanliness} {item : SessionItem}

theorem rejected {error : Option IoError} : PassesOn c item (.rejected error) := by
  rintro conn branch ⟨⟩

theorem accepted {phase : Phase} {branch : Branch}
    (hitem : ∀ status changed, item ≠ .readyForQuery status changed) :
    PassesOn c item (.accepted ⟨phase, c⟩ branch) := by
  rintro conn branch ⟨⟩ hc
  exact ⟨hc, fun status changed heq => absurd heq (hitem status changed)⟩

theorem readyState {status : TransactionStatus} {changed : Bool} :
    PassesOn c (.readyForQuery status changed) (readyState c status changed) := by
  intro conn branch h hc
  unfold Client.readyState at h
  split at h
  · next hquiet =>
      cases h
      refine ⟨hc, ?_⟩
      rintro _ _ ⟨⟩
      exact hquiet
  · cases h
    cases hc

theorem simpleQuery : PassesOn c item (SimpleQuery.offer c item) := by
  unfold SimpleQuery.offer
  split <;> first | exact readyState | exact rejected | exact accepted (by simp)

theorem copyIn : PassesOn c item (CopyIn.offer c item) := by
  unfold CopyIn.offer
  split <;> first | exact rejected | exact accepted (by simp)

theorem copyOut : PassesOn c item (CopyOut.offer c item) := by
  unfold CopyOut.offer
  split <;> first | exact rejected | exact accepted (by simp)

theorem copyBoth : PassesOn c item (CopyBoth.offer c item) := by
  unfold CopyBoth.offer
  split <;> first | exact rejected | exact accepted (by simp)

theorem copyBothClientDone : PassesOn c item (CopyBothClientDone.offer c item) := by
  unfold CopyBothClientDone.offer
  split <;> first | exact rejected | exact accepted (by simp)

/-- A ReadyForQuery never falls through to the branch that discards. -/
theorem draining : PassesOn c item (Draining.offer c item) := by
  unfold Draining.offer
  split
  · exact readyState
  · next hother =>
      apply accepted
      rintro status changed rfl
      exact hother status changed rfl rfl

theorem awaitingReady : PassesOn c item (AwaitingReady.offer c item) := by
  unfold AwaitingReady.offer
  split
  · exact readyState
  · exact accepted (by simp)
  · next hready _ =>
      apply accepted
      rintro status changed rfl
      exact hready status changed rfl rfl

end PassesOn

variable {item : SessionItem}

/-- What an accepted item says when the connection after it is pristine. -/
theorem Conn.offer_pristine (h : conn.offer item = some (.accepted conn' branch))
    (hc : conn'.cleanliness = .pristine) :
    (conn.cleanliness = .pristine ∧ Quiet item) ∨
      (conn.phase = .resetComplete ∧ item = .readyForQuery .idle false ∧ branch = .ready) := by
  unfold Conn.offer at h
  split at h <;> try have h := Option.some.inj h
  · -- Startup ends with a quiet ReadyForQuery only.
    unfold AwaitingStartupReady.offerReady at h
    split at h <;> cases h
    left
    refine ⟨rfl, ?_⟩
    rintro _ _ ⟨⟩
    exact ⟨rfl, rfl⟩
  · exact Or.inl (PassesOn.simpleQuery _ _ h hc)
  · exact Or.inl (PassesOn.copyIn _ _ h hc)
  · exact Or.inl (PassesOn.copyOut _ _ h hc)
  · exact Or.inl (PassesOn.copyBoth _ _ h hc)
  · exact Or.inl (PassesOn.copyBothClientDone _ _ h hc)
  · exact Or.inl (PassesOn.draining _ _ h hc)
  · exact Or.inl (PassesOn.awaitingReady _ _ h hc)
  · -- A reset under way is dirty whatever arrives.
    unfold Resetting.offer at h
    repeat' split at h
    all_goals
      cases h
      cases hc
  · unfold ResetComplete.offer at h
    split at h <;> cases h
    · exact Or.inr ⟨rfl, rfl, rfl⟩
    all_goals cases hc
  · cases h

theorem Conn.offerBackend_readyForQuery :
    conn.offerBackend (.readyForQuery status) ≠ some (.accepted conn' branch) := by
  intro h
  unfold Conn.offerBackend at h
  split at h <;> cases h

/-- The phases that take messages start pristine or pass their index on. -/
theorem Conn.offerBackend_pristine {message : BackendMessage}
    (h : conn.offerBackend message = some (.accepted conn' branch))
    (hc : conn'.cleanliness = .pristine) : conn.cleanliness = .pristine := by
  unfold Conn.offerBackend at h
  split at h <;> try rfl
  · -- Only the function call is made on a connection that may be dirty.
    have hoffer := Option.some.inj h
    unfold FunctionCalling.offer at hoffer
    split at hoffer <;> cases hoffer
    · exact hc
    · exact hc
  · cases h

theorem readyState_phase {c : Cleanliness} {changed : Bool}
    (h : readyState c status changed = .accepted conn branch) : conn.phase = .ready := by
  unfold readyState at h
  split at h <;> cases h <;> rfl

/-- `ResetComplete` is entered by the completion of `DISCARD ALL` only. -/
theorem Conn.offer_resetComplete (h : conn.offer item = some (.accepted conn' branch))
    (hp : conn'.phase = .resetComplete) :
    conn.phase = .resetComplete ∨
      (branch = .complete ∧ ∃ command notices, item = .commandComplete discardAll command notices) := by
  unfold Conn.offer at h
  split at h <;> try have h := Option.some.inj h
  case h_9 =>
    unfold Resetting.offer at h
    split at h
    · split at h <;> cases h
      · next htag =>
          rw [htag]
          exact Or.inr ⟨rfl, _, _, rfl⟩
      · cases hp
    · cases h
      cases hp
    · cases h
      cases hp
  case h_10 => exact Or.inl rfl
  case h_11 => cases h
  all_goals
    simp only [AwaitingStartupReady.offerReady, SimpleQuery.offer, CopyIn.offer, CopyOut.offer,
      CopyBoth.offer, CopyBothClientDone.offer, Draining.offer, AwaitingReady.offer] at h
    split at h
    all_goals first
      | (cases h <;> cases hp)
      | (rw [readyState_phase h] at hp; cases hp)

theorem Auth.offer_resetComplete {authentication : Authentication}
    (h : Auth.offer authentication = .ok (conn, branch)) : conn.phase ≠ .resetComplete := by
  intro hp
  cases authentication <;> cases h <;> cases hp

theorem Conn.offerBackend_resetComplete {message : BackendMessage}
    (h : conn.offerBackend message = some (.accepted conn' branch)) :
    conn'.phase ≠ .resetComplete := by
  intro hp
  unfold Conn.offerBackend at h
  split at h <;> try have h := Option.some.inj h
  · unfold Auth.offerBackend at h
    split at h
    case h_4 =>
      split at h <;> cases h
      next hoffer => exact Auth.offer_resetComplete hoffer hp
    all_goals cases h <;> cases hp
  · unfold TokenChallenge.offer at h
    split at h <;> cases h <;> cases hp
  · unfold Sasl.offerBackend Sasl.offer at h
    repeat' split at h
    all_goals cases h <;> cases hp
  · unfold AwaitingAuthOk.offer at h
    split at h <;> cases h <;> cases hp
  · unfold FunctionCalling.offer at h
    split at h <;> cases h <;> cases hp
  · cases h

/-! ## Runs -/

namespace Session

/-- The entry sends the frame of a message. -/
def Sends (e : Entry) (message : FrontendMessage) : Prop :=
  ∃ frame, message.toFrame = .ok frame ∧ e.output = .sent (some frame)

/-- The entry reads a message and the connection takes it.  A message that an offer hands back is
not received. -/
def Takes (e : Entry) (message : BackendMessage) : Prop :=
  e.input.message? = some message ∧ ∃ branch, e.output = .accepted branch

/-- The entry leaves nothing behind in the session: no query and no function call but those
declared stateless, no Parse, no Bind; and readiness is idle with the parameters of startup. -/
structure Untouched (e : Entry) : Prop where
  query : ∀ sql, Sends e (.query sql) → e.input = .call (.pushStatelessQuery sql)
  functionCall : ∀ message, Sends e (.functionCall message) →
    e.input = .call (.pushStatelessFunctionCall message)
  parse : ∀ message, ¬ Sends e (.parse message)
  bind : ∀ message, ¬ Sends e (.bind message)
  ready : ∀ status, Takes e (.readyForQuery status) →
    status = .idle ∧ e.after.demux.AtBaseline

/-- A CommandComplete tagged `DISCARD ALL` was taken for the end of a reset, and the connection has
been waiting for readiness since. -/
def Discarded : List Entry → Prop :=
  Since (fun e => e.after.conn.phase = .resetComplete) fun _ e =>
    e.input = .receive (.commandComplete discardAll) ∧ e.output = .accepted .complete

/-- The entry completes a reset: the ReadyForQuery after `DISCARD ALL`, idle and with the
parameters of startup. -/
def CompletesReset (earlier : List Entry) (e : Entry) : Prop :=
  Discarded earlier ∧ e.input = .receive (.readyForQuery .idle) ∧ e.output = .accepted .ready ∧
    e.after.demux.AtBaseline

variable {s s' : Session}

theorem sends_call {frame : Option Frame} {message : FrontendMessage}
    (hframe : op.frame = .ok frame) (h : Sends ⟨s, .call op, .sent frame, s'⟩ message) :
    op.message = some message := by
  obtain ⟨f, hf, heq⟩ := h
  cases heq
  have hop := Op.frame_eq_ok hframe
  cases hm : op.message with
  | none =>
    rw [hm] at hop
    cases hop
  | some m =>
    rw [hm] at hop
    obtain ⟨f', hf', hsome⟩ := hop
    cases hsome
    -- Both messages decode from the one frame.
    have hdecode := (toFrame_eq_ok_iff_decode m f).1 hf'
    rw [(toFrame_eq_ok_iff_decode message f).1 hf] at hdecode
    rw [Except.ok.inj hdecode]

theorem untouched_call {frame : Option Frame} (hframe : op.frame = .ok frame)
    (hop : op.retains = false) : Untouched ⟨s, .call op, .sent frame, s'⟩ := by
  refine ⟨?_, ?_, ?_, ?_, by rintro status ⟨⟨⟩, -⟩⟩ <;>
  · intro message hsends
    have hm := sends_call hframe hsends
    cases op <;> cases hm <;> first | rfl | cases hop

/-- What is read is untouched when it is not taken, or is no ReadyForQuery, or a good one. -/
theorem untouched_read {e : Entry} (hsent : ∀ frame, e.output ≠ .sent frame)
    (hready : ∀ status, Takes e (.readyForQuery status) →
      status = .idle ∧ e.after.demux.AtBaseline) : Untouched e := by
  have hnone (message : FrontendMessage) : ¬ Sends e message := by
    rintro ⟨frame, -, heq⟩
    exact hsent _ heq
  exact ⟨fun sql h => absurd h (hnone _), fun m h => absurd h (hnone _), fun m => hnone _,
    fun m => hnone _, hready⟩

theorem CompletesReset.untouched {earlier : List Entry} {e : Entry} (h : CompletesReset earlier e) :
    Untouched e := by
  obtain ⟨-, hinput, houtput, hbase⟩ := h
  apply untouched_read
  · intro frame heq
    rw [houtput] at heq
    cases heq
  · rintro status ⟨hread, -⟩
    rw [hinput] at hread
    cases hread
    exact ⟨rfl, hbase⟩

/-- The invariant of runs. -/
structure PristineInv (h : List Entry) (s : Session) : Prop where
  accurate : s.demux.Accurate
  discarded : s.conn.phase = .resetComplete → Discarded h
  untouched : s.conn.cleanliness = .pristine → BackTo Untouched CompletesReset h

theorem pristineInv_init : PristineInv [] init :=
  { accurate := Demux.accurate_new
    discarded := fun hphase => by cases hphase
    untouched := fun _ => Or.inl (List.forall_mem_nil _) }

theorem accurate_demuxAfter {demux : Demux} (h : demux.Accurate) (i : Input) :
    (demuxAfter demux i).Accurate := by
  cases i with
  | receive message => exact h.route message
  | call op | receiveWire message => exact h

/-- A quiet ReadyForQuery is idle and finds the parameters of startup. -/
theorem quiet_ready {demux demux' : Demux} {message : BackendMessage} {status : TransactionStatus}
    (haccurate : demux.Accurate) (hroute : demux.route message = (some item, demux'))
    (hquiet : Quiet item) (hmessage : message = .readyForQuery status) :
    status = .idle ∧ demux'.AtBaseline := by
  subst hmessage
  obtain ⟨rfl, hunchanged⟩ := hquiet status demux.parametersChanged (by cases hroute; rfl)
  have hitem : demux.route (.readyForQuery .idle) = (some (.readyForQuery .idle false), demux') := by
    rw [hroute, ← hunchanged]
    cases hroute
    rfl
  exact ⟨rfl, haccurate.atBaseline hitem⟩

theorem PristineInv.step {h : List Entry} {i : Input} {o : Output} (hinv : PristineInv h s)
    (hstep : s.step i = .ok (o, s')) : PristineInv (h ++ [⟨s, i, o, s'⟩]) s' := by
  obtain ⟨hdemux, hmoved⟩ := step_moved hstep
  have haccurate : s'.demux.Accurate := by
    rw [hdemux]
    exact accurate_demuxAfter hinv.accurate i
  refine ⟨haccurate, ?_, ?_⟩
  · intro hphase
    generalize hconn : s'.conn = conn' at hmoved hphase
    cases hmoved with
    | call hnext hframe =>
      have hbefore := Conn.next_resetComplete hnext hphase
      exact (hinv.discarded hbefore).snoc (by rw [hconn, hphase])
    | item hroute hoffer =>
      rcases Conn.offer_resetComplete hoffer hphase with hbefore | ⟨rfl, command, notices, rfl⟩
      · exact (hinv.discarded hbefore).snoc (by rw [hconn, hphase])
      · have hmessage := Demux.intoBackendMessage_route hroute
        exact Since.now ⟨by rw [← hmessage]; rfl, rfl⟩
    | message hmessage hoffer => exact absurd hphase (Conn.offerBackend_resetComplete hoffer)
    | stays => exact (hinv.discarded hphase).snoc (by rw [hconn, hphase])
  · intro hc
    generalize hconn : s'.conn = conn' at hmoved hc
    cases hmoved with
    | call hnext hframe =>
      obtain ⟨hbefore, hop⟩ := Conn.next_pristine hnext hc
      exact (hinv.untouched hbefore).snoc (untouched_call hframe hop)
    | @item message item demux conn branch hroute hoffer =>
      have hafter : s'.demux = demux := by
        rw [hdemux, demuxAfter, hroute]
      rcases Conn.offer_pristine hoffer hc with ⟨hbefore, hquiet⟩ | ⟨hbefore, rfl, rfl⟩
      · apply (hinv.untouched hbefore).snoc
        apply untouched_read (by simp)
        rintro status ⟨hread, -⟩
        rw [hafter]
        exact quiet_ready hinv.accurate hroute hquiet (Option.some.inj hread)
      · -- The one way back to `Pristine`.
        have hready : s'.demux.AtBaseline := by
          rw [hafter]
          exact hinv.accurate.atBaseline hroute
        have hmessage := Demux.intoBackendMessage_route hroute
        exact Or.inr (Since.now ⟨hinv.discarded hbefore, by rw [← hmessage]; rfl, rfl, hready⟩)
    | message hmessage hoffer =>
      apply (hinv.untouched (Conn.offerBackend_pristine hoffer hc)).snoc
      apply untouched_read
      · simp
      · rintro status ⟨hread, -⟩
        rw [hmessage] at hread
        cases hread
        exact absurd hoffer Conn.offerBackend_readyForQuery
    | stays hmessage haccept hsent =>
      apply (hinv.untouched hc).snoc
      apply untouched_read hsent
      rintro status ⟨-, branch, hbranch⟩
      exact absurd hbranch (haccept branch)

theorem Run.pristineInv {h : List Entry} (hr : Run h s) : PristineInv h s := by
  induction hr with
  | nil => exact pristineInv_init
  | snoc _ hstep ih => exact ih.step hstep

/-- A ready and pristine connection was not touched since authentication or since the last
completed reset.  So `release` is possible only when a reset was completed after everything that may
have left something behind. -/
theorem pristine_untouched {h : List Entry} {s : Session} (hr : Run h s) :
    (s.conn.phase = .ready → s.conn.cleanliness = .pristine →
      BackTo Untouched CompletesReset h) ∧
      (s.conn.release = true → ∀ h₁ e h₂, h = h₁ ++ e :: h₂ → ¬ Untouched e →
        ∃ m₁ r m₂, h₂ = m₁ ++ r :: m₂ ∧ CompletesReset (h₁ ++ e :: m₁) r) := by
  have hinv := Run.pristineInv hr
  constructor
  · intro _ hc
    exact hinv.untouched hc
  · intro hrelease h₁ e h₂ hsplit htouched
    have hc : s.conn.cleanliness = .pristine := by
      unfold Conn.release at hrelease
      split at hrelease
      · next hconn => rw [hconn]
      · cases hrelease
    exact (hinv.untouched hc).followed (fun _ _ hreset => hreset.untouched) hsplit htouched

/-- Startup, a query, and a reset. -/
def resetRun : List Input :=
  [.receiveWire (.authentication .ok), .receive (.readyForQuery .idle),
    .call (.pushQuery (ascii "listen a")), .receive (.commandComplete (ascii "LISTEN")),
    .receive (.readyForQuery .idle), .call .beginReset,
    .receive (.commandComplete (ascii "ROLLBACK")), .receive (.commandComplete (ascii "DISCARD ALL")),
    .receive (.readyForQuery .idle)]

theorem pristine_untouched_resetRun :
    ∃ h s, exec step init resetRun = .ok (h, s) ∧ s.conn.release = true ∧
      BackTo Untouched CompletesReset h := by
  refine ⟨_, _, rfl, rfl, ?_⟩
  have hrun : Run _ _ := .of_exec resetRun rfl
  exact (pristine_untouched hrun).1 rfl rfl

end Session
end Client
end PgProto
