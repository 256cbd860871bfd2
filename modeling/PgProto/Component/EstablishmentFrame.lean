import Mathlib.Data.List.Induction
import PgProto.Component.Establishment

/-!
# EstablishmentFrame — what a read does besides authentication

The mechanisms of `establish_client_session` read the state of the middleware, the policy and the
results of writing.  They do not look at the demultiplexer or at what was read before, and they
leave both alone.

* `Alike` — worlds that differ only in those, with the `Frame` of each;
* `Blind` — computations that cannot tell alike worlds apart and keep the frames;
* `advance_frame` — what one read does to the frame, in every stage and whatever comes of it;
* `establishFrom_frame` — an invariant of the frame holds after all reads.
-/

namespace PgProto
namespace Component

open Lib Fallible
open Client (Op)

/-! ## Logs -/

def Event.op? : Event → Option Op
  | .performed op => some op
  | _ => none

def operations (log : List Event) : List Op :=
  log.filterMap Event.op?

/-- What a log says of the messages of the server. -/
def seen (log : List Event) : List Event :=
  log.filter fun event => event.op?.isNone

variable {event : Event}

theorem operations_snoc {log : List Event} :
    operations (log ++ [event]) = operations log ++ event.op?.toList := by
  unfold operations
  rw [List.filterMap_append, List.filterMap_cons]
  cases event.op? <;> rfl

theorem seen_snoc {log : List Event} :
    seen (log ++ [event]) = seen log ++ if event.op?.isNone then [event] else [] := by
  unfold seen
  rw [List.filter_append, List.filter_cons, List.filter_nil]

/-! ## Alike worlds -/

/-- The demultiplexer, and what was received and inspected. -/
structure Frame where
  demux : Demux
  seen : List Event

section Alike

variable {σ π ε ι : Type}

def World.frame (w : World σ π) : Frame :=
  { demux := w.demux
    seen := seen w.log }

/-- Worlds that differ only in their frames, `f` and `f'`. -/
structure Alike (f f' : Frame) (w w' : World σ π) : Prop where
  state : w.state = w'.state
  policy : w.policy = w'.policy
  flushed : w.flushed = w'.flushed
  operations : operations w.log = operations w'.log
  frame : w.frame = f
  frame' : w'.frame = f'

theorem Alike.refl (w : World σ π) : Alike w.frame w.frame w w :=
  ⟨rfl, rfl, rfl, rfl, rfl, rfl⟩

variable {w : World σ π}

theorem Alike.current {f f' : Frame} {w' : World σ π} (h : Alike f f' w w') :
    Alike w.frame w'.frame w w' :=
  ⟨h.state, h.policy, h.flushed, h.operations, rfl, rfl⟩

theorem operations_logged (hop : event.op? = none) :
    operations (w.logged event).log = operations w.log := by
  simp only [World.logged, operations_snoc, hop, Option.toList_none, List.append_nil]

theorem Alike.inspected {f f' : Frame} {w' : World σ π} (h : Alike f f' w w')
    (setup : ClientSetup σ π ε ι) (message : BackendMessage) :
    Alike (w.inspected setup message).frame (w'.inspected setup message).frame
      (w.inspected setup message) (w'.inspected setup message) := by
  refine ⟨?_, h.policy, h.flushed, ?_, rfl, rfl⟩
  · simp only [World.inspected, h.state]
  · exact (operations_logged rfl).trans (h.operations.trans (operations_logged rfl).symm)

variable {setup : ClientSetup σ π ε ι} {f f' : Frame}

/-- Computations that cannot tell alike worlds apart, and keep the frames. -/
abbrev Blind {α : Type} (f f' : Frame) (m : Establish σ π ε α) : Prop :=
  Fallible.Respects (Alike f f') m

theorem blind_performed (op : Op) : Blind f f' (record (.performed op) : Establish σ π ε Unit) := by
  refine respects_modify ?_
  have hframe : ∀ w : World σ π, (w.logged (.performed op)).frame = w.frame := by
    intro w
    simp [World.frame, World.logged, seen_snoc, Event.op?]
  intro w w' h
  refine ⟨h.state, h.policy, h.flushed, ?_, (hframe w).trans h.frame, (hframe w').trans h.frame'⟩
  simp only [World.logged, operations_snoc, h.operations]

theorem blind_respond (challenge : ClientAuthenticationChallenge) :
    Blind f f' (respond setup challenge) := by
  refine respects_read ?_ ?_
  · intro w w' h
    rw [h.policy]
  · intro w
    refine respects_bind (respects_modify ?_) fun _ => ?_
    · intro w w' h
      exact ⟨h.state, rfl, h.flushed, h.operations, h.frame, h.frame'⟩
    · cases (setup.authentication.respond w.policy challenge).1 with
      | ok response => exact respects_pure _
      | error error => exact respects_throw _

theorem blind_interceptAuthResponse (response : Bytes) :
    Blind f f' (interceptAuthResponse setup response) := by
  refine respects_read ?_ ?_
  · intro w w' h
    rw [h.state]
  · intro w
    refine respects_bind (respects_modify ?_) fun _ => ?_
    · intro w w' h
      exact ⟨rfl, h.policy, h.flushed, h.operations, h.frame, h.frame'⟩
    · cases (setup.middleware.frontend w.state (.passwordResponse response)).1 with
      | passwordResponse response => exact respects_pure _
      | _ => exact respects_throw _

theorem blind_flush : Blind f f' (flush setup) := by
  refine respects_read ?_ ?_
  · intro w w' h
    rw [h.flushed]
  · intro w
    cases setup.flushes w.flushed with
    | some error => exact respects_throw _
    | none =>
      refine respects_modify ?_
      intro w w' h
      exact ⟨h.state, h.policy, congrArg (· + 1) h.flushed, h.operations, h.frame, h.frame'⟩

theorem blind_send (op : Op) : Blind f f' (send setup op) := by
  unfold send
  cases op.frame with
  | error error => exact respects_throw _
  | ok frame =>
    cases frame with
    | none => exact blind_performed op
    | some frame =>
      dsimp only
      cases encodeFrame setup.maxFrameLen frame with
      | error error => exact respects_throw _
      | ok bytes => exact respects_bind (blind_performed op) fun _ => blind_flush

theorem blind_authenticated (backendKey : Option CancelKey) :
    Blind f f' (authenticated setup backendKey) := by
  refine respects_read ?_ ?_
  · intro w w' h
    rw [h.policy]
  · intro w
    cases setup.authentication.authenticated w.policy with
    | ok identity => exact respects_pure _
    | error error => exact respects_throw _

/-! ## Mechanisms and reads -/

/-- A challenge is answered by an operation, or the response is of the wrong kind. -/
theorem blind_answer (op : Bytes → Op) (response : Bytes) (stage : Stage) :
    Blind f f' (do
      let response ← interceptAuthResponse setup response
      send setup (op response)
      return (.awaiting stage : Status ε ι)) :=
  respects_bind (blind_interceptAuthResponse response) fun _ =>
    respects_bind (blind_send _) fun _ => respects_pure _

theorem blind_completePassword (challenge : ClientAuthenticationChallenge) :
    Blind f f' (completePassword setup challenge) := by
  refine respects_bind (blind_respond challenge) fun response => ?_
  cases response with
  | password password => exact blind_answer .password password _
  | _ => exact respects_throw _

theorem blind_completeSasl (mechanisms : List Bytes) : Blind f f' (completeSasl setup mechanisms) := by
  refine respects_bind (blind_respond _) fun response => ?_
  cases response with
  | saslInitial mechanism response => exact blind_answer (.sasl mechanism) response _
  | _ => exact respects_throw _

theorem blind_respondToken (challenge : ClientAuthenticationChallenge) :
    Blind f f' (respondToken setup challenge) := by
  refine respects_bind (blind_respond challenge) fun response => ?_
  cases response with
  | token token => exact blind_answer .respond token _
  | _ => exact respects_throw _

theorem blind_onAuthentication (message : BackendMessage) :
    Blind f f' (onAuthentication setup message) := by
  unfold onAuthentication
  cases Client.Auth.offerBackend message with
  | accepted c event =>
    cases event with
    | authenticated | negotiate => exact respects_pure _
    | cleartext | md5 => exact blind_completePassword _
    | sasl => exact blind_completeSasl _
    | gss | sspi | kerberosV5 => exact blind_respondToken _
    | _ => exact respects_throw _
  | rejected source =>
    cases source with
    | none => exact respects_pure _
    | some source => exact respects_throw _
  | panicked => exact respects_throw _

theorem blind_onCompletion (illegal : String) (message : BackendMessage) :
    Blind f f' (onCompletion illegal message : Establish σ π ε (Status ε ι)) := by
  unfold onCompletion
  split
  · exact respects_pure _
  all_goals exact respects_throw _

theorem blind_onSasl (message : BackendMessage) : Blind f f' (onSasl setup message) := by
  unfold onSasl
  split
  · refine respects_bind (blind_respond _) fun response => ?_
    cases response with
    | sasl response => exact blind_answer .respond response _
    | _ => exact respects_throw _
  · refine respects_bind (blind_respond _) fun response => ?_
    cases response with
    | verified => exact respects_bind (blind_send _) fun _ => respects_pure _
    | _ => exact respects_throw _
  all_goals exact respects_throw _

theorem blind_onToken (message : BackendMessage) : Blind f f' (onToken setup message) := by
  unfold onToken
  split
  · exact blind_respondToken _
  · exact respects_pure _
  all_goals exact respects_throw _

theorem blind_onWire (stage : Stage) (message : BackendMessage) :
    Blind f f' (onWire setup stage message) := by
  cases stage with
  | authentication | readiness backendKey => exact blind_onAuthentication message
  | passwordCompletion | saslCompletion => exact blind_onCompletion _ message
  | sasl => exact blind_onSasl message
  | token => exact blind_onToken message

theorem blind_onReplacement (backendKey : Option CancelKey) (item : SessionItem)
    (replacement : BackendMessage) :
    Blind f f' (onReplacement setup backendKey item replacement) := by
  unfold onReplacement
  cases replaceSessionItem item replacement with
  | none => exact respects_throw _
  | some item =>
    dsimp only
    split
    · exact blind_authenticated _
    · exact respects_pure _
    · exact respects_throw _

/-! ## One read -/

/-- What the demultiplexer keeps to itself. -/
def absorbed (message : BackendMessage) : Bool :=
  [.noticeResponse, .parameterStatus, .notificationResponse].contains message.variant

theorem isSome_route (d : Demux) (message : BackendMessage) :
    (d.route message).1.isSome = !absorbed message := by
  cases message <;> rfl

/-- The frame after a read, from the wire or through the demultiplexer. -/
def Frame.read (f : Frame) (message : BackendMessage) : Bool → Frame
  | false =>
    { demux := f.demux
      seen := f.seen ++ [.received message false, .inspected message] }
  | true =>
    { demux := (f.demux.route message).2
      seen := f.seen ++ .received message true ::
        if absorbed message then [] else [.inspected message] }

theorem frame_of_blind {α : Type} {m : Establish σ π ε α} (hw : w.frame = f) (h : Blind f f m) :
    wp m (fun _ w' => w'.frame = f) (fun _ w' => w'.frame = f) w := by
  subst hw
  exact wp_mono (h.wp (Alike.refl w)) (fun _ _ halike => halike.frame)
    fun _ _ halike => halike.frame

theorem frame_inspected {message : BackendMessage} :
    (w.inspected setup message).frame = ⟨w.demux, seen w.log ++ [.inspected message]⟩ := by
  simp [World.frame, World.inspected, World.logged, seen_snoc, Event.op?]

theorem seen_received {message : BackendMessage} {demuxed : Bool} :
    seen (w.logged (.received message demuxed)).log =
      seen w.log ++ [.received message demuxed] := by
  simp [World.logged, seen_snoc, Event.op?]

/-- A computation that is given what the demultiplexer makes of a message, and passes an item to the
middleware before it goes on blindly. -/
theorem frame_of_projected (setup : ClientSetup σ π ε ι) {α : Type}
    {k : Option SessionItem → Establish σ π ε α}
    {g : SessionItem → BackendMessage → Establish σ π ε α} (hnone : Blind f f (k none))
    (hsome : ∀ item w, k (some item) w =
      g item (setup.middleware.backend w.state item.intoBackendMessage).1
        (w.inspected setup item.intoBackendMessage))
    (hg : ∀ item message, Blind f f (g item message)) {message : BackendMessage} {d : Demux}
    (hw : f = ⟨w.demux, seen w.log ++ if absorbed message then [] else [.inspected message]⟩) :
    wp (k (d.route message).1) (fun _ w' => w'.frame = f) (fun _ w' => w'.frame = f) w := by
  have hisSome := isSome_route d message
  cases hroute : d.route message with
  | mk item d' =>
    rw [hroute] at hisSome
    cases item with
    | none =>
      have habsorbed : absorbed message = true := by simpa using hisSome
      refine frame_of_blind ?_ hnone
      rw [hw, habsorbed]
      exact congrArg (Frame.mk w.demux) (List.append_nil _).symm
    | some item =>
      have hnot : absorbed message = false := by simpa using hisSome
      have hmessage : item.intoBackendMessage = message := Demux.intoBackendMessage_route hroute
      refine (wp_congr (hsome item w)).2 ?_
      refine frame_of_blind ?_ (hg _ _)
      rw [frame_inspected, hmessage, hw, hnot]
      rfl

theorem advance_frame (stage : Stage) (message : BackendMessage) (w : World σ π) :
    wp (advance setup stage message)
      (fun _ w' => w'.frame = w.frame.read message stage.demuxed)
      (fun _ w' => w'.frame = w.frame.read message stage.demuxed) w := by
  cases hwire : stage.demuxed with
  | false =>
    refine (wp_congr (advance_wire hwire message w)).2 ?_
    refine frame_of_blind ?_ (blind_onWire stage _)
    rw [frame_inspected, seen_received]
    simp [Frame.read, World.frame, World.logged]
  | true =>
    cases stage with
    | readiness backendKey =>
      refine (wp_congr (advance_readiness backendKey message w)).2 ?_
      refine frame_of_projected setup (respects_pure _)
        (g := fun item => onReplacement setup (seenKey backendKey item.intoBackendMessage) item)
        (onReadiness_apply backendKey) (fun item => blind_onReplacement _ item) ?_
      simp [Frame.read, World.frame, seen_received]
    | _ => cases hwire

/-! ## Runs -/

/-- The server message that is read next, and whether it goes through the demultiplexer. -/
def Status.reading : Status ε ι → Read → Option (BackendMessage × Bool)
  | .awaiting stage, .ok message => some (message, stage.demuxed)
  | _, _ => none

/-- The frame after a read, if there is one. -/
def Frame.after (f : Frame) : Option (BackendMessage × Bool) → Frame
  | none => f
  | some (message, demuxed) => f.read message demuxed

theorem Attempt.resume_frame (attempt : Attempt σ π ε ι) (read : Read) :
    (attempt.resume setup read).world.frame =
      attempt.world.frame.after (attempt.status.reading read) := by
  obtain ⟨status, w⟩ := attempt
  cases status with
  | established identity backendKey | failed failure => rfl
  | awaiting stage =>
    cases read with
    | error error => rfl
    | ok message =>
      exact Attempt.of_wp
        (P := fun attempt => attempt.world.frame = w.frame.read message stage.demuxed)
        (advance_frame stage message w) (fun _ _ h => h) fun _ _ h => h

theorem establishFrom_frame {P : Frame → Prop}
    (hread : ∀ f message demuxed, P f → P (f.read message demuxed)) (hw : P w.frame)
    (reads : List Read) : P (establishFrom setup w reads).world.frame := by
  induction reads using List.reverseRecOn with
  | nil => exact hw
  | append_singleton reads read ih =>
    rw [establishFrom_snoc, Attempt.resume_frame]
    cases (establishFrom setup w reads).status.reading read with
    | none => exact ih
    | some taken => exact hread _ _ _ ih

end Alike
end Component
end PgProto
