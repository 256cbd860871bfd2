import PgProto.Typestate.Client

/-!
# ClientGrammar — the client typestates and the generated grammars

The typestates of `Typestate/Client` are written by hand next to the grammars `authentication` and
`frontend`, which the `protocol!` macro turns into runtime machines.  This file compares the two
along runs.

* `Fsm` — the two machines one after the other;
* `agrees` — an offer takes a message exactly when the machine does, and both end in one phase;
* `Conn.offer_agrees` — for which messages an offer agrees with the machine;
* `Conn.next_advances` — every operation is a path of the machine.

Four offers are more lenient than the grammar: `Draining`, `AwaitingReady`, `Resetting` and
`ResetComplete` pass on whatever they do not know.
-/

namespace PgProto
namespace Client

open Lib

/-! ## The generated machines -/

/-- A state of the machine in charge. -/
inductive Fsm
  | authentication (state : AuthGrammar.RuntimeState)
  | frontend (state : Frontend.RuntimeState)
  deriving DecidableEq, Repr

/-- What the machines see of a session: messages, and the choices without a message. -/
inductive Letter
  | sends (message : FrontendMessage)
  | receives (message : BackendMessage)
  | verified
  | beginExtended
  | reset
  deriving DecidableEq, Repr

namespace Fsm

/-- The `frontend` machine starts where authentication ends. -/
def handOver : AuthGrammar.RuntimeState → Fsm
  | .ready => .frontend .ready
  | state => .authentication state

/-- `RuntimeFsm::advance`, after projection where there is a message. -/
def advance : Fsm → Letter → Option Fsm
  | .authentication state, .sends message =>
    (AuthGrammar.transitions.stepInternal state message.variant).map handOver
  | .authentication state, .receives message =>
    (AuthGrammar.transitions.stepExternal state message).map handOver
  | .authentication state, .verified =>
    (AuthGrammar.transitions.transition state .verified).map fun edge => handOver edge.target
  | .frontend state, .sends message =>
    (Frontend.transitions.stepInternal state message.variant).map .frontend
  | .frontend state, .receives message =>
    (Frontend.transitions.stepExternal state message.pattern).map .frontend
  | .frontend state, .beginExtended =>
    (Frontend.transitions.transition state .beginExtended).map fun edge => .frontend edge.target
  | .frontend state, .reset =>
    (Frontend.transitions.transition state .reset).map fun edge => .frontend edge.target
  | _, _ => none

/-- The machine after a word. -/
def walk (fsm : Fsm) (word : List Letter) : Option Fsm :=
  word.foldlM advance fsm

theorem walk_append {fsm : Fsm} {word more : List Letter} :
    fsm.walk (word ++ more) = (fsm.walk word).bind fun fsm' => fsm'.walk more :=
  List.foldlM_append

theorem walk_single {fsm : Fsm} {letter : Letter} : fsm.walk [letter] = fsm.advance letter := by
  simp [walk]

/-- The grammars do not speak of asynchronous messages. -/
theorem advance_asynchronous {fsm : Fsm} {message : BackendMessage}
    (h : isAsynchronous message = true) : fsm.advance (.receives message) = none := by
  cases message <;> cases h <;> rcases fsm with state | state <;> cases state <;> rfl

end Fsm

/-- The states associated with a phase.  Both machines have a state for a closed connection. -/
def Phase.states : Phase → List Fsm
  | .auth => [.authentication .auth]
  | .passwordResponse => [.authentication .passwordResponse]
  | .saslInitial => [.authentication .saslInitial]
  | .sasl => [.authentication .sasl]
  | .saslChallenge => [.authentication .saslChallenge]
  | .saslFinal => [.authentication .saslFinal]
  | .tokenResponse => [.authentication .tokenResponse]
  | .tokenChallenge => [.authentication .tokenChallenge]
  | .awaitingAuthOk => [.authentication .awaitingAuthOk]
  | .awaitingStartupReady => [.authentication .awaitingStartupReady]
  | .ready => [.frontend .ready]
  | .functionCalling => [.frontend .functionCalling]
  | .simpleQuery => [.frontend .simple]
  | .building => [.frontend .building]
  | .boundBuilding => [.frontend .boundBuilding]
  | .awaitingReady => [.frontend .awaitingReady]
  | .copyIn => [.frontend .copyIn]
  | .copyOut => [.frontend .copyOut]
  | .copyBoth => [.frontend .copyBoth]
  | .copyBothClientDone => [.frontend .copyBothClientDone]
  | .copyBothServerDone => [.frontend .copyBothServerDone]
  | .draining => [.frontend .draining]
  | .resetting => [.frontend .resetting]
  | .resetComplete => [.frontend .resetComplete]
  | .terminated => [.authentication .terminated, .frontend .terminated]

/-! ## Operations -/

def Op.letters : Op → List Letter
  | .verified => [.verified]
  | .beginExtended => [.beginExtended]
  | .beginReset => [.reset]
  | op => op.message.toList.map .sends

variable {conn : Conn} {offer : Offer}

theorem Conn.next_advances {conn' : Conn} {op : Op} {fsm : Fsm} (h : conn.next op = some conn')
    (hfsm : fsm ∈ conn.phase.states) :
    ∃ fsm', fsm.walk op.letters = some fsm' ∧ fsm' ∈ conn'.phase.states := by
  -- One arm for each operation of a type: where it leads is an edge of the table.
  unfold Conn.next at h
  split at h <;> cases h
  case h_6 =>
    -- `Terminate` closes the `frontend` machine.
    cases List.mem_singleton.1 hfsm
    exact ⟨_, rfl, List.mem_cons_of_mem _ (List.mem_singleton.2 rfl)⟩
  -- `mark_dirty` sends nothing and stays in the phase.
  case h_33 => exact ⟨fsm, rfl, hfsm⟩
  all_goals
    cases List.mem_singleton.1 hfsm
    exact ⟨_, rfl, List.mem_singleton.2 rfl⟩

/-! ## Offers -/

/-- An offer and the machine agree on a message: both take it and end in one phase, or neither
does. -/
def agrees : Offer → Option Fsm → Bool
  | .accepted conn _, some fsm => decide (fsm ∈ conn.phase.states)
  | .rejected _, none => true
  | _, _ => false

variable {branch : Branch} {fsm : Fsm}

theorem agrees_accepted {target : Option Fsm} (h : agrees (.accepted conn branch) target = true) :
    ∃ fsm, target = some fsm ∧ fsm ∈ conn.phase.states := by
  cases target with
  | none => cases h
  | some fsm => exact ⟨fsm, rfl, of_decide_eq_true h⟩

theorem agrees_rejected_iff {target : Option Fsm} (h : agrees offer target = true) :
    (∃ error, offer = .rejected error) ↔ target = none := by
  cases offer <;> cases target <;> simp_all [agrees]

/-- What the grammar expects in the four lenient phases. -/
def Phase.expects : Phase → List BackendVariant
  | .draining =>
    [.rowDescription, .dataRow, .commandComplete, .emptyQueryResponse, .parseComplete,
     .bindComplete, .closeComplete, .noData, .parameterDescription, .portalSuspended,
     .readyForQuery]
  | .awaitingReady =>
    [.rowDescription, .dataRow, .commandComplete, .emptyQueryResponse, .parseComplete,
     .bindComplete, .closeComplete, .noData, .parameterDescription, .portalSuspended,
     .readyForQuery, .errorResponse]
  | .resetting =>
    [.rowDescription, .dataRow, .commandComplete, .emptyQueryResponse, .errorResponse]
  | .resetComplete =>
    [.rowDescription, .dataRow, .commandComplete, .emptyQueryResponse, .readyForQuery,
     .errorResponse]
  | _ => []

/-- The messages on which the offers of a phase agree with the grammar: in the lenient phases those
which the grammar expects, a reset's CommandComplete being that of `DISCARD ALL`; at the end of
startup a ReadyForQuery must be idle and without a parameter change. -/
def Phase.regular (phase : Phase) (parametersChanged : Bool) (message : BackendMessage) : Bool :=
  match phase, message with
  | .awaitingStartupReady, .readyForQuery status => decide (status = .idle) && !parametersChanged
  | .resetting, .commandComplete tag => decide (tag = discardAll)
  | .draining, message => (Phase.expects .draining).contains message.variant
  | .awaitingReady, message => (Phase.expects .awaitingReady).contains message.variant
  | .resetting, message => (Phase.expects .resetting).contains message.variant
  | .resetComplete, message => (Phase.expects .resetComplete).contains message.variant
  | _, _ => true

theorem readyState_agrees {c : Cleanliness} {status : TransactionStatus} {changed : Bool} :
    agrees (readyState c status changed) (some (.frontend .ready)) = true := by
  unfold readyState
  split <;> rfl

theorem discard_agrees {tag : Bytes} {command : CommandIndex} {notices : List TaggedNotice} :
    agrees (Resetting.offer (.commandComplete tag command notices))
        (Fsm.advance (.frontend .resetting) (.receives (.commandComplete tag))) =
      decide (tag = discardAll) := by
  have hoffer : Resetting.offer (.commandComplete tag command notices) =
      if tag = discardAll then
        .accepted ⟨.resetComplete, .dirty⟩ .complete
      else
        .accepted ⟨.resetting, .dirty⟩ (.continue (.commandComplete tag command notices)) := rfl
  rw [hoffer]
  split
  · next htag =>
      rw [decide_eq_true htag]
      rfl
  · next htag =>
      -- The connection stays in `Resetting`.
      rw [decide_eq_false htag]
      rfl

/-- The offers of the session stream agree with the machine on the regular messages and on no
others. -/
theorem Conn.offer_agrees {demux demux' : Demux} {message : BackendMessage} {item : SessionItem}
    (hroute : demux.route message = (some item, demux')) (hoffer : conn.offer item = some offer)
    (hfsm : fsm ∈ conn.phase.states) :
    agrees offer (fsm.advance (.receives message)) =
      conn.phase.regular demux.parametersChanged message := by
  -- Phase by message: both sides are closed terms, up to the payload of the message.
  unfold Conn.offer at hoffer
  split at hoffer <;> cases hoffer <;> cases List.mem_singleton.1 hfsm <;>
    cases message <;> cases hroute
  all_goals try rfl
  · -- At the end of startup the machine takes every ReadyForQuery.
    next status => cases status <;> cases demux.parametersChanged <;> rfl
  · exact readyState_agrees
  · exact readyState_agrees
  · exact readyState_agrees
  · exact discard_agrees
  · -- After a reset readiness is clean or not; the machine is in `Ready` either way.
    next status => cases status <;> cases demux.parametersChanged <;> rfl

theorem Conn.offerBackend_agrees {message : BackendMessage}
    (hoffer : conn.offerBackend message = some offer) (hfsm : fsm ∈ conn.phase.states) :
    agrees offer (fsm.advance (.receives message)) = true := by
  unfold Conn.offerBackend at hoffer
  split at hoffer <;> cases hoffer <;> cases List.mem_singleton.1 hfsm <;> cases message
  all_goals try rfl
  -- The machine looks into an authentication request.
  all_goals
    next request => cases request <;> rfl

/-- BackendKeyData reaches the session stream, and no offer moves on it. -/
theorem Conn.offer_backendKeyData {conn' : Conn} {processId : UInt32} {secretKey : Bytes}
    (h : conn.offer (.message (.backendKeyData processId secretKey)) =
      some (.accepted conn' branch)) : conn' = conn := by
  unfold Conn.offer at h
  split at h <;> cases h <;> rfl

/-! ## Runs -/

namespace Session

/-- Whether an input stays within the messages on which typestates and grammar agree.  Asynchronous
messages are no part of the grammars. -/
def regular (s : Session) : Input → Bool
  | .receive message =>
    isAsynchronous message || s.conn.phase.regular s.demux.parametersChanged message
  | _ => true

/-- The offer that a reading input makes. -/
def offered (s : Session) : Input → Option Offer
  | .call _ => none
  | .receive message =>
    match s.demux.route message with
    | (none, _) => none
    | (some item, _) => offerItem s.conn item
  | .receiveWire message => s.conn.offerBackend message

/-- What the machines see of a message which the connection took. -/
def readLetters (message : BackendMessage) : List Letter :=
  if isAsynchronous message then [] else [.receives message]

/-- What the machines see of an entry. -/
def letters (e : Entry) : List Letter :=
  match e.input, e.output with
  | .call op, _ => op.letters
  | .receive message, .accepted _ => readLetters message
  | .receiveWire message, .accepted _ => readLetters message
  | _, _ => []

variable {s s' : Session} {i : Input} {message : BackendMessage}

theorem letters_accepted (h : i.message? = some message) :
    letters ⟨s, i, .accepted branch, s'⟩ = readLetters message := by
  cases i <;> cases h <;> rfl

theorem letters_stays {o : Output} (h : i.message? = some message)
    (ho : ∀ branch, o ≠ .accepted branch) :
    letters ⟨s, i, o, s'⟩ = [] := by
  cases i with
  | call op => cases h
  | receive message | receiveWire message =>
    cases o with
    | accepted branch => exact absurd rfl (ho branch)
    | sent | absorbed | rejected | unoffered => rfl

theorem offered_agrees {offer : Offer} (hmessage : i.message? = some message)
    (hsync : isAsynchronous message = false) (hregular : s.regular i = true)
    (hoffer : s.offered i = some offer) (hfsm : fsm ∈ s.conn.phase.states) :
    agrees offer (fsm.advance (.receives message)) = true := by
  cases i with
  | call op => cases hmessage
  | receive m =>
    cases hmessage
    simp only [offered] at hoffer
    split at hoffer
    · cases hoffer
    · next item demux hroute =>
        -- The item is offered itself, or as the message that it came from.
        unfold offerItem at hoffer
        split at hoffer
        · next hitem =>
            cases hoffer
            rw [Conn.offer_agrees hroute hitem hfsm]
            simpa [regular, hsync] using hregular
        · rw [Demux.intoBackendMessage_route hroute] at hoffer
          exact Conn.offerBackend_agrees hoffer hfsm
  | receiveWire m =>
    cases hmessage
    exact Conn.offerBackend_agrees hoffer hfsm

theorem walk_readLetters {conn : Conn} (hsync : isAsynchronous message = false)
    (h : agrees (.accepted conn branch) (fsm.advance (.receives message)) = true) :
    ∃ fsm', fsm.walk (readLetters message) = some fsm' ∧ fsm' ∈ conn.phase.states := by
  obtain ⟨fsm', hadvance, hmem⟩ := agrees_accepted h
  refine ⟨fsm', ?_, hmem⟩
  simp [readLetters, hsync, Fsm.walk_single, hadvance]

/-- A regular step is a path of the machine. -/
theorem walk_step {o : Output} (hstep : s.step i = .ok (o, s')) (hregular : s.regular i = true)
    (hfsm : fsm ∈ s.conn.phase.states) :
    ∃ fsm', fsm.walk (letters ⟨s, i, o, s'⟩) = some fsm' ∧ fsm' ∈ s'.conn.phase.states := by
  obtain ⟨-, hmoved⟩ := step_moved hstep
  generalize hconn : s'.conn = conn' at hmoved
  cases hmoved with
  | call hnext hframe => exact Conn.next_advances hnext hfsm
  | @item message item demux conn branch hroute hoffer =>
    rw [letters_accepted rfl]
    cases hsync : isAsynchronous message with
    | true =>
      -- Only BackendKeyData passes the demultiplexer.
      have hkeep : conn' = s.conn := by
        cases message <;> cases hsync <;> cases hroute
        exact Conn.offer_backendKeyData hoffer
      rw [hkeep]
      exact ⟨fsm, by simp [readLetters, hsync, Fsm.walk], hfsm⟩
    | false =>
      apply walk_readLetters hsync
      rw [Conn.offer_agrees hroute hoffer hfsm]
      simpa [regular, hsync] using hregular
  | @message i message conn branch hmessage hoffer =>
    rw [letters_accepted hmessage]
    have hagrees := Conn.offerBackend_agrees hoffer hfsm
    cases hsync : isAsynchronous message with
    | true =>
      -- The machine refuses it, so no agreeing offer took it.
      rw [Fsm.advance_asynchronous hsync] at hagrees
      cases hagrees
    | false => exact walk_readLetters hsync hagrees
  | stays hmessage haccept _ =>
    rw [letters_stays hmessage haccept]
    exact ⟨fsm, rfl, hfsm⟩

theorem Run.walk {h : List Entry} (hr : Run h s)
    (hregular : ∀ e ∈ h, e.before.regular e.input = true) :
    ∃ fsm, Fsm.walk (.authentication .auth) (h.flatMap letters) = some fsm ∧
      fsm ∈ s.conn.phase.states := by
  induction hr with
  | nil => exact ⟨_, rfl, List.mem_singleton.2 rfl⟩
  | @snoc h s s' i o _ hstep ih =>
    obtain ⟨fsm, hwalk, hfsm⟩ := ih fun e he => hregular e (List.mem_append_left _ he)
    have hlast : s.regular i = true :=
      hregular ⟨s, i, o, s'⟩ (List.mem_append_right _ (List.mem_singleton.2 rfl))
    obtain ⟨fsm', hnext, hfsm'⟩ := walk_step hstep hlast hfsm
    refine ⟨fsm', ?_, hfsm'⟩
    rw [List.flatMap_append, Fsm.walk_append, hwalk]
    simpa using hnext

/-- In a run whose messages are regular the generated machines accept what the typestates accept,
end in the state of the resulting phase, and refuse exactly the messages which the offers there
reject. -/
theorem client_refines_grammar {h : List Entry} {s : Session} (hr : Run h s)
    (hregular : ∀ e ∈ h, e.before.regular e.input = true) :
    ∃ fsm, Fsm.walk (.authentication .auth) (h.flatMap letters) = some fsm ∧
      fsm ∈ s.conn.phase.states ∧
      ∀ i message offer, i.message? = some message → isAsynchronous message = false →
        s.regular i = true → s.offered i = some offer →
          ((∃ error, offer = .rejected error) ↔ fsm.advance (.receives message) = none) := by
  obtain ⟨fsm, hwalk, hfsm⟩ := Run.walk hr hregular
  refine ⟨fsm, hwalk, hfsm, ?_⟩
  intro i message offer hmessage hsync hlast hoffer
  exact agrees_rejected_iff (offered_agrees hmessage hsync hlast hoffer hfsm)

/-- Authentication without credentials and the first ReadyForQuery. -/
def startup : List Input :=
  [.receiveWire (.authentication .ok), .receive (.backendKeyData 7 [1]),
    .receive (.readyForQuery .idle)]

theorem client_refines_grammar_query :
    ∃ h s, exec step init (startup ++ [.call (.pushQuery (ascii "select 1")),
        .receive (.commandComplete (ascii "SELECT 1")), .receive (.readyForQuery .inTransaction)]) =
        .ok (h, s) ∧ (∀ e ∈ h, e.before.regular e.input = true) ∧
      ∃ fsm, Fsm.walk (.authentication .auth) (h.flatMap letters) = some fsm ∧
        fsm ∈ s.conn.phase.states := by
  refine ⟨_, _, rfl, List.all_eq_true.1 rfl, ?_⟩
  have hrun : Run _ _ := .of_exec (startup ++
    [.call (.pushQuery (ascii "select 1")), .receive (.commandComplete (ascii "SELECT 1")),
      .receive (.readyForQuery .inTransaction)]) rfl
  obtain ⟨fsm, hwalk, hfsm, -⟩ := client_refines_grammar hrun (List.all_eq_true.1 rfl)
  exact ⟨fsm, hwalk, hfsm⟩

/-- Three ways in which the typestates leave the grammar: `AwaitingReady` takes a CopyInResponse;
the CommandComplete of `ROLLBACK` moves the machine but not the connection; the end of startup
rejects a ReadyForQuery inside a transaction, which the machine takes. -/
theorem client_leaves_grammar :
    (∃ h s, exec step init (startup ++ [.call .beginExtended, .call .pushSync,
        .receive (.copyInResponse ⟨0, []⟩)]) = .ok (h, s) ∧ s.conn.phase = .awaitingReady ∧
      Fsm.walk (.authentication .auth) (h.flatMap letters) = none) ∧
    (∃ h s, exec step init (startup ++ [.call (.pushQuery (ascii "select 1")),
        .receive (.commandComplete (ascii "SELECT 1")), .receive (.readyForQuery .idle),
        .call .beginReset, .receive (.commandComplete (ascii "ROLLBACK"))]) = .ok (h, s) ∧
      s.conn.phase = .resetting ∧
      Fsm.walk (.authentication .auth) (h.flatMap letters) = some (.frontend .resetComplete)) ∧
    ∃ h s, exec step init [.receiveWire (.authentication .ok)] = .ok (h, s) ∧
      s.offered (.receive (.readyForQuery .inTransaction)) = some (.rejected none) ∧
      (Fsm.walk (.authentication .auth) (h.flatMap letters)).bind
          (fun fsm => fsm.advance (.receives (.readyForQuery .inTransaction))) =
        some (.frontend .ready) :=
  ⟨⟨_, _, rfl, rfl, rfl⟩, ⟨_, _, rfl, rfl, rfl⟩, ⟨_, _, rfl, rfl, rfl⟩⟩

end Session
end Client
end PgProto
