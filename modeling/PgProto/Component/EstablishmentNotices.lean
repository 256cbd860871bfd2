import PgProto.Component.EstablishmentFrame
import PgProto.Lib.Interleave

/-!
# EstablishmentNotices — notices and parameter statuses during establishment

A server may send a NoticeResponse or a ParameterStatus at any time.  This file compares two runs
of `establish_client_session`: one against a stream, one against the same stream with such messages
added to it.

* `onProjected_route` — before the first ReadyForQuery, what the demultiplexer has gathered does not
  matter;
* `Attempt.Agree` — the relation between the two attempts, kept by every read of both and by every
  added message that is read outside of an exchange.

The stages that wait for an answer of an authentication mechanism take no notices: they fail at the
first one.
-/

namespace PgProto
namespace Component

open Lib
open Client (Op)

/-! ## Added messages -/

def isNotice (message : BackendMessage) : Bool :=
  [.noticeResponse, .parameterStatus].contains message.variant

/-- A NoticeResponse or a ParameterStatus. -/
def Notice : Type :=
  { message : BackendMessage // isNotice message = true }

/-- The stages of an authentication exchange. -/
def Stage.exchanging : Stage → Bool
  | .passwordCompletion | .sasl | .saslCompletion | .token => true
  | .authentication | .readiness _ => false

def Status.exchanging {ε ι : Type} : Status ε ι → Bool
  | .awaiting stage => stage.exchanging
  | _ => false

/-- The stream with the added messages. -/
def spliced (items : List (Read ⊕ Notice)) : List Read :=
  items.map (Sum.elim id fun notice => .ok notice.1)

/-- The middleware lets notices pass. -/
def ClientMiddleware.LeavesNotices {σ : Type} (middleware : ClientMiddleware σ) : Prop :=
  ∀ state message, isNotice message = true → middleware.backend state message = (message, state)

/-- What an attempt has sent. -/
def Transcript.responses {σ ε ι : Type} (t : Transcript σ ε ι) : List FrontendMessage :=
  (operations t.log).filterMap Op.message

/-- How far establishment got, whether it succeeded with which identity and key, and what it
sent. -/
def Transcript.Same {σ ε ι : Type} (t t' : Transcript σ ε ι) : Prop :=
  t.status = t'.status ∧ t.responses = t'.responses

variable {message : BackendMessage}

section Readiness

variable {σ π ε ι : Type} {setup : ClientSetup σ π ε ι}

/-! ## Two runs -/

/-- No ReadyForQuery has been routed yet. -/
def Fresh (d : Demux) : Prop :=
  d.startupParameters = none ∧ d.parametersChanged = false

theorem Fresh.route {d : Demux} (h : Fresh d) (hready : message.variant ≠ .readyForQuery) :
    Fresh (d.route message).2 := by
  cases message with
  | readyForQuery status => exact absurd rfl hready
  | parameterStatus name value =>
    refine ⟨h.1, ?_⟩
    simp only [Demux.route, Demux.pushAsync, h.1]
    exact h.2
  | _ => exact h

variable {backendKey : Option CancelKey}

/-- The second loop does not use what a CommandComplete item says besides its tag. -/
theorem onReadiness_commandComplete {tag : Bytes} {command command' : CommandIndex}
    {notices notices' : List TaggedNotice} :
    onReadiness setup backendKey (.commandComplete tag command notices) =
      onReadiness setup backendKey (.commandComplete tag command' notices') := by
  refine congrArg (bind (inspect setup (.commandComplete tag))) (funext fun replacement => ?_)
  cases replacement <;> rfl

/-- Before the first ReadyForQuery the second loop takes a message in one way. -/
theorem onProjected_route {d d' : Demux} (h : Fresh d) (h' : Fresh d') :
    onProjected setup backendKey (d.route message).1 =
      onProjected setup backendKey (d'.route message).1 := by
  cases message with
  | readyForQuery status =>
    change onReadiness setup backendKey (.readyForQuery status d.parametersChanged) =
      onReadiness setup backendKey (.readyForQuery status d'.parametersChanged)
    rw [h.2, h'.2]
  | commandComplete tag => exact onReadiness_commandComplete
  | _ => rfl

theorem onReadiness_readyForQuery {status : TransactionStatus} {changed : Bool} (w : World σ π) :
    Fallible.wp (onReadiness setup backendKey (.readyForQuery status changed)) (fun _ _ => True)
      (fun status _ => ∀ stage, status ≠ .awaiting stage) w := by
  have hauthenticated : ∀ key w', Fallible.wp (authenticated setup key) (fun _ _ => True)
      (fun status _ => ∀ stage, status ≠ .awaiting stage) w' := by
    intro key w'
    simp only [authenticated, Fallible.wp_bind, Fallible.wp_get]
    cases setup.authentication.authenticated w'.policy with
    | ok identity =>
      intro stage hstatus
      cases hstatus
    | error error => trivial
  refine (Fallible.wp_congr (onReadiness_apply backendKey _ w)).2 ?_
  -- The middleware may change the status, not the kind of the message.
  cases (setup.middleware.backend w.state (SessionItem.readyForQuery status changed
    |>.intoBackendMessage)).1 with
  | readyForQuery status' =>
    cases status' <;> cases changed
    all_goals first
      | exact hauthenticated _ _
      | trivial
  | _ => trivial

end Readiness

/-! ## Attempts -/

section Attempts

variable {σ π ε ι : Type} {setup : ClientSetup σ π ε ι}

/-- Two attempts that differ only in the notices they have read. -/
structure Attempt.Agree (attempt attempt' : Attempt σ π ε ι) : Prop where
  status : attempt.status = attempt'.status
  alike : Alike attempt.world.frame attempt'.world.frame attempt.world attempt'.world
  fresh : ∀ stage, attempt.status = .awaiting stage →
    Fresh attempt.world.demux ∧ Fresh attempt'.world.demux

theorem Attempt.agree_of_matches {f f' : Frame}
    {r r' : EStateM.Result (Failure ε) (World σ π) (Status ε ι)}
    (h : Fallible.Matches (Alike f f') r r')
    (hfresh : ∀ stage, (Attempt.ofResult r).status = .awaiting stage →
      Fresh f.demux ∧ Fresh f'.demux) :
    (Attempt.ofResult r).Agree (Attempt.ofResult r') := by
  cases r with
  | ok status w =>
    cases r' with
    | ok status' w' =>
      obtain ⟨rfl, halike⟩ := h
      refine ⟨rfl, halike.current, ?_⟩
      intro stage hstatus
      change Fresh w.frame.demux ∧ Fresh w'.frame.demux
      rw [halike.frame, halike.frame']
      exact hfresh stage hstatus
    | error failure' w' => exact h.elim
  | error failure w =>
    cases r' with
    | ok status' w' => exact h.elim
    | error failure' w' =>
      obtain ⟨rfl, halike⟩ := h
      refine ⟨rfl, halike.current, ?_⟩
      intro stage hstatus
      cases hstatus

variable {w w' : World σ π} {backendKey : Option CancelKey} {attempt attempt' : Attempt σ π ε ι}
  {items : List (Read ⊕ Notice)}

theorem blind_onProjected (setup : ClientSetup σ π ε ι) (backendKey : Option CancelKey)
    (item : Option SessionItem) {f f' : Frame} (h : Alike f f' w w') :
    ∃ g g', g.demux = f.demux ∧ g'.demux = f'.demux ∧
      Fallible.Matches (Alike g g') (onProjected setup backendKey item w)
        (onProjected setup backendKey item w') := by
  cases item with
  | none => exact ⟨f, f', rfl, rfl, rfl, h⟩
  | some item =>
    have hinspected := h.inspected setup item.intoBackendMessage
    refine ⟨(w.inspected setup item.intoBackendMessage).frame,
      (w'.inspected setup item.intoBackendMessage).frame,
      (congrArg Frame.demux h.frame :), (congrArg Frame.demux h.frame' :), ?_⟩
    change Fallible.Matches _ (onReadiness setup backendKey item w)
      (onReadiness setup backendKey item w')
    rw [onReadiness_apply, onReadiness_apply, h.state]
    exact blind_onReplacement _ _ _ _ _ hinspected

theorem Attempt.Agree.readiness (h : Alike w.frame w'.frame w w') (hd : Fresh w.demux)
    (hd' : Fresh w'.demux) :
    (Attempt.ofResult (advance setup (.readiness backendKey) message w)).Agree
      (Attempt.ofResult (advance setup (.readiness backendKey) message w')) := by
  have hrouted : Alike _ _
      { w.logged (.received message true) with demux := (w.demux.route message).2 }
      { w'.logged (.received message true) with demux := (w'.demux.route message).2 } :=
    ⟨h.state, h.policy, h.flushed,
      (operations_logged rfl).trans (h.operations.trans (operations_logged rfl).symm), rfl, rfl⟩
  rw [advance_readiness, advance_readiness, ← onProjected_route hd hd']
  obtain ⟨g, g', hg, hg', hmatches⟩ :=
    blind_onProjected setup backendKey (w.demux.route message).1 hrouted
  refine Attempt.agree_of_matches hmatches ?_
  intro stage hstatus
  rw [hg, hg']
  cases message with
  | readyForQuery status =>
    -- The attempt has ended.
    refine absurd hstatus ?_
    refine Attempt.of_wp (P := fun attempt => attempt.status ≠ .awaiting stage)
      (onReadiness_readyForQuery _) ?_ ?_
    · intro failure w'' _ hfailed
      cases hfailed
    · intro status' w'' hended
      exact hended stage
  | _ => exact ⟨hd.route BackendVariant.noConfusion, hd'.route BackendVariant.noConfusion⟩

theorem Attempt.Agree.wire {stage : Stage} (h : Alike w.frame w'.frame w w') (hd : Fresh w.demux)
    (hd' : Fresh w'.demux) (hwire : stage.demuxed = false) :
    (Attempt.ofResult (advance setup stage message w)).Agree
      (Attempt.ofResult (advance setup stage message w')) := by
  have hlogged : Alike _ _ (w.logged (.received message false))
      (w'.logged (.received message false)) :=
    ⟨h.state, h.policy, h.flushed,
      (operations_logged rfl).trans (h.operations.trans (operations_logged rfl).symm), rfl, rfl⟩
  rw [advance_wire hwire, advance_wire hwire, h.state]
  refine Attempt.agree_of_matches
    (blind_onWire stage _ _ _ (hlogged.inspected setup message)) ?_
  intro stage' _
  exact ⟨hd, hd'⟩

theorem Attempt.Agree.resume (h : attempt.Agree attempt') (read : Read) :
    (attempt.resume setup read).Agree (attempt'.resume setup read) := by
  obtain ⟨status, w⟩ := attempt
  obtain ⟨status', w'⟩ := attempt'
  obtain ⟨rfl, halike, hfresh⟩ := h
  cases status with
  | established identity backendKey | failed failure => exact ⟨rfl, halike, hfresh⟩
  | awaiting stage =>
    cases read with
    | error error =>
      refine ⟨rfl, halike, ?_⟩
      intro stage' hstatus
      cases hstatus
    | ok message =>
      obtain ⟨hd, hd'⟩ := hfresh stage rfl
      cases hwire : stage.demuxed with
      | false =>
        exact Agree.wire halike hd hd' hwire
      | true =>
        cases stage with
        | readiness backendKey =>
          exact Agree.readiness halike hd hd'
        | _ => cases hwire

theorem Attempt.Agree.notice (hleaves : setup.middleware.LeavesNotices) (h : attempt.Agree attempt')
    (notice : Notice) (hexchange : attempt'.status.exchanging = false) :
    attempt.Agree (attempt'.resume setup (.ok notice.1)) := by
  obtain ⟨message, hmessage⟩ := notice
  obtain ⟨status, w⟩ := attempt
  obtain ⟨status', w'⟩ := attempt'
  obtain ⟨rfl, halike, hfresh⟩ := h
  cases status with
  | established identity backendKey | failed failure => exact ⟨rfl, halike, hfresh⟩
  | awaiting stage =>
    cases stage with
    | authentication =>
      have hpass : Attempt.resume setup ⟨.awaiting .authentication, w'⟩ (.ok message) =
          ⟨.awaiting .authentication,
            (w'.logged (.received message false)).logged (.inspected message)⟩ := by
        change Attempt.ofResult (advance setup .authentication message w') = _
        simp only [advance, inspect, World.logged, hleaves _ _ hmessage]
        cases message <;> cases hmessage <;> rfl
      rw [hpass]
      refine ⟨rfl, ⟨halike.state, halike.policy, halike.flushed, ?_, rfl, rfl⟩, hfresh⟩
      exact halike.operations.trans
        ((operations_logged rfl).trans (operations_logged rfl)).symm
    | readiness backendKey =>
      have hpass : Attempt.resume setup ⟨.awaiting (.readiness backendKey), w'⟩ (.ok message) =
          ⟨.awaiting (.readiness backendKey),
            { w'.logged (.received message true) with
              demux := (w'.demux.route message).2 }⟩ := by
        cases message <;> cases hmessage <;> rfl
      rw [hpass]
      obtain ⟨hd, hd'⟩ := hfresh _ rfl
      refine ⟨rfl, ?_, ?_⟩
      · exact ⟨halike.state, halike.policy, halike.flushed,
          halike.operations.trans (operations_logged rfl).symm, rfl, rfl⟩
      · intro stage _
        refine ⟨hd, hd'.route ?_⟩
        intro hready
        cases message <;> cases hmessage <;> cases hready
    | passwordCompletion | sasl | saslCompletion | token => cases hexchange

theorem resume_notice_exchanging (hleaves : setup.middleware.LeavesNotices) {stage : Stage}
    (notice : Notice) (hexchange : stage.exchanging = true) :
    ∃ failure, (Attempt.resume setup ⟨.awaiting stage, w⟩ (.ok notice.1)).status =
      .failed failure := by
  obtain ⟨message, hmessage⟩ := notice
  cases stage with
  | authentication | readiness backendKey => cases hexchange
  | passwordCompletion | sasl | saslCompletion | token =>
    simp only [Attempt.resume, advance, inspect, hleaves _ _ hmessage]
    cases message <;> cases hmessage <;> exact ⟨_, rfl⟩

variable (setup)

/-- An added message is not read during an exchange. -/
def OutsideExchange (state : σ) (before : List (Read ⊕ Notice)) : Read ⊕ Notice → Prop
  | .inl _ => True
  | .inr _ =>
    (establishClientSession setup state (spliced before)).status.exchanging = false

instance (state : σ) (before : List (Read ⊕ Notice)) :
    (item : Read ⊕ Notice) → Decidable (OutsideExchange setup state before item)
  | .inl _ => isTrue trivial
  | .inr _ => inferInstanceAs (Decidable (_ = false))

variable {setup}

theorem spliced_snoc {item : Read ⊕ Notice} :
    spliced (items ++ [item]) =
      spliced items ++ [Sum.elim id (fun notice => .ok notice.1) item] := by
  simp [spliced]

theorem agree_of_outside (hleaves : setup.middleware.LeavesNotices) {state : σ}
    (hstart : setup.start state = .ok w) (h : AllAfter (OutsideExchange setup state) items) :
    (establishFrom setup w (lefts items)).Agree (establishFrom setup w (spliced items)) := by
  induction items using List.reverseRecOn with
  | nil =>
    refine ⟨rfl, ⟨rfl, rfl, rfl, rfl, rfl, rfl⟩, ?_⟩
    intro stage _
    change Fresh w.demux ∧ Fresh w.demux
    rw [(start_eq_ok hstart).2.1]
    exact ⟨⟨rfl, rfl⟩, ⟨rfl, rfl⟩⟩
  | append_singleton items item ih =>
    have hagree := ih h.left
    rw [spliced_snoc, establishFrom_snoc]
    cases item with
    | inl read =>
      have hlefts : lefts (items ++ [.inl read]) = lefts items ++ [read] := by simp [lefts]
      rw [hlefts, establishFrom_snoc]
      exact hagree.resume read
    | inr notice =>
      have hlefts : lefts (items ++ [.inr notice]) = lefts items := by simp [lefts]
      have houtside : (establishFrom setup w (spliced items)).status.exchanging = false := by
        have hlast : (establishClientSession setup state (spliced items)).status.exchanging =
          false := h items (.inr notice) [] rfl
        rwa [establishClientSession_ok hstart] at hlast
      rw [hlefts]
      exact hagree.notice hleaves notice houtside

theorem Attempt.resume_failed {failure : Failure ε} (h : attempt.status = .failed failure)
    (reads : List Read) :
    (reads.foldl (Attempt.resume setup) attempt).status = .failed failure := by
  induction reads generalizing attempt with
  | nil => exact h
  | cons read reads ih =>
    obtain ⟨status, w⟩ := attempt
    cases h
    exact ih rfl

/-- Where a session is established, no notice was read during an exchange. -/
theorem outside_of_established (hleaves : setup.middleware.LeavesNotices) {state : σ} {identity : ι}
    (h : (establishClientSession setup state (spliced items)).status =
      .established identity backendKey) : AllAfter (OutsideExchange setup state) items := by
  rintro before item after rfl
  cases hstart : setup.start state with
  | error error =>
    rw [establishClientSession_error hstart] at h
    cases h
  | ok w =>
    cases item with
    | inl read => trivial
    | inr notice =>
      change (establishClientSession setup state (spliced before)).status.exchanging = false
      rw [establishClientSession_ok hstart] at h ⊢
      have hsplit : establishFrom setup w (spliced (before ++ .inr notice :: after)) =
          (spliced after).foldl (Attempt.resume setup)
            ((establishFrom setup w (spliced before)).resume setup (.ok notice.1)) := by
        simp [establishFrom, spliced]
      rw [hsplit] at h
      generalize establishFrom setup w (spliced before) = attempt at h ⊢
      obtain ⟨status, w'⟩ := attempt
      cases status with
      | established identity backendKey | failed failure => rfl
      | awaiting stage =>
        by_contra hexchange
        have hstage : stage.exchanging = true := Bool.eq_true_of_not_eq_false hexchange
        obtain ⟨failure, hfailed⟩ := resume_notice_exchanging hleaves (w := w') notice hstage
        have hends : ((spliced after).foldl (Attempt.resume setup) _).status =
          .failed failure := Attempt.resume_failed hfailed _
        cases hends.symm.trans h

/-- Notices that are added outside of exchanges change neither the outcome of establishment nor what
it sends; and where the stream itself leads to a session, only those do not. -/
theorem notices_transparent (setup : ClientSetup σ π ε ι)
    (hleaves : setup.middleware.LeavesNotices) (state : σ) (items : List (Read ⊕ Notice)) :
    (AllAfter (OutsideExchange setup state) items →
      (establishClientSession setup state (lefts items)).Same
        (establishClientSession setup state (spliced items))) ∧
    ∀ identity backendKey,
      (establishClientSession setup state (lefts items)).status =
          .established identity backendKey →
        ((establishClientSession setup state (lefts items)).Same
            (establishClientSession setup state (spliced items)) ↔
          AllAfter (OutsideExchange setup state) items) := by
  have hsame : AllAfter (OutsideExchange setup state) items →
      (establishClientSession setup state (lefts items)).Same
        (establishClientSession setup state (spliced items)) := by
    intro houtside
    cases hstart : setup.start state with
    | error error =>
      rw [establishClientSession_error hstart, establishClientSession_error hstart]
      exact ⟨rfl, rfl⟩
    | ok w =>
      have hagree := agree_of_outside hleaves hstart houtside
      rw [establishClientSession_ok hstart, establishClientSession_ok hstart]
      exact ⟨hagree.status, congrArg (List.filterMap Op.message) hagree.alike.operations⟩
  refine ⟨hsame, ?_⟩
  intro identity backendKey hestablished
  constructor
  · rintro ⟨hstatus, -⟩
    exact outside_of_established hleaves (hstatus.symm.trans hestablished)
  · exact hsame

theorem identity_leavesNotices : (ClientMiddleware.identity σ).LeavesNotices :=
  fun _ _ _ => rfl

def startupNotice : Notice :=
  ⟨.noticeResponse ⟨[]⟩, rfl⟩

/-- A notice between AuthenticationOk and readiness. -/
def readinessNotice : List (Read ⊕ Notice) :=
  [.inl (.ok (.authentication .cleartextPassword)), .inl (.ok (.authentication .ok)),
   .inr startupNotice, .inl (.ok (.readyForQuery .idle))]

theorem readiness_notice_transparent :
    (establishClientSession passwordClient () (lefts readinessNotice)).Same
      (establishClientSession passwordClient () (spliced readinessNotice)) :=
  (notices_transparent passwordClient identity_leavesNotices () readinessNotice).1 (by decide)

/-- A notice between the password and AuthenticationOk. -/
def completionNotice : List (Read ⊕ Notice) :=
  [.inl (.ok (.authentication .cleartextPassword)), .inr startupNotice,
   .inl (.ok (.authentication .ok)), .inl (.ok (.readyForQuery .idle))]

theorem completion_notice_fails :
    (establishClientSession passwordClient () (lefts completionNotice)).status =
        .established () none ∧
      (establishClientSession passwordClient () (spliced completionNotice)).status =
        .failed (.error (.protocol (invalid "illegal authentication completion"))) := by
  decide

end Attempts
end Component
end PgProto
