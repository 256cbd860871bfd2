import PgProto.Grammar.ServerAuthentication
import PgProto.Lib.Channels

/-!
# AuthenticationCompatibility — the two authentication grammars on one connection

The `authentication` grammar of the client and the `server_authentication` grammar, joined by two
queues.  The client drops an asynchronous message at the front of its queue, for which its grammar
has no edge.

The server comes back to `Auth` after a password response, after `SaslFinal` and after a verified
token, and there it may ask again.  The client does not come back: it waits for the end of its
authentication, and cannot project another request (`second_request_unspecified`).  When the server
asks only while the client is in `Auth`, there is no unspecified reception
(`authentication_compatible`).

The proof follows the shadow of the client, its own table with the silent `Verified` taken at once.
A phase in which the client sends takes no message but asynchronous ones, so that the diamond of the
shadow is immediate.
-/

namespace PgProto
namespace AuthCompatibility

open Lib

/-! ## The composition -/

/-- The two grammars over wire messages. -/
abbrev client : Table AuthGrammar.RuntimeState AuthGrammar.Event FrontendMessage BackendMessage :=
  AuthGrammar.transitions.comap FrontendMessage.variant id

abbrev server :
    Table ServerAuthGrammar.RuntimeState ServerAuthGrammar.Event BackendMessage FrontendMessage :=
  ServerAuthGrammar.transitions.comap id FrontendMessage.variant

abbrev Configuration :=
  Config AuthGrammar.RuntimeState ServerAuthGrammar.RuntimeState FrontendMessage BackendMessage

def initial : Configuration :=
  { left := .auth
    right := .startup
    toRight := []
    toLeft := [] }

/-- One move of the composition; without an action the client drops an asynchronous message. -/
inductive Move : Configuration → Option (Action FrontendMessage BackendMessage) →
    Configuration → Prop
  | acts {c c' : Configuration} {a : Action FrontendMessage BackendMessage} :
      Composed client server c a c' → Move c (some a) c'
  | drops {c : Configuration} {n : BackendMessage} {rest : List BackendMessage} :
      c.toLeft = n :: rest → isAsynchronous n = true → Move c none { c with toLeft := rest }

/-- A role waits in front of a message it cannot project, and which is not asynchronous. -/
def Unspecified (c : Configuration) : Prop :=
  (∃ n rest, c.toLeft = n :: rest ∧ isAsynchronous n = false ∧ Rejects client c.left c.toLeft) ∨
    Rejects server c.right c.toRight

/-- The messages which end an authentication. -/
def concludes : BackendMessage → Bool
  | .authentication .ok | .errorResponse _ => true
  | _ => false

/-- In `Auth` the server asks only a client that waits to be asked. -/
def Orderly (c : Configuration) : Option (Action FrontendMessage BackendMessage) → Prop
  | some (.rightSends n) => c.right = .auth → concludes n = false → c.left = .auth
  | _ => True

/-- Moves of the composition which are orderly. -/
def OrderlyMove (c : Configuration) (a : Option (Action FrontendMessage BackendMessage))
    (c' : Configuration) : Prop :=
  Move c a c' ∧ Orderly c a

/-! ## The shadow of the client -/

/-- `Verified` has no message: where it may be taken, it counts as taken. -/
def settled : AuthGrammar.RuntimeState → AuthGrammar.RuntimeState
  | .saslFinal => .awaitingAuthOk
  | s => s

def shadow : Shadow AuthGrammar.RuntimeState FrontendMessage BackendMessage where
  out s m := AuthGrammar.transitions.stepInternal s m.variant
  into s n :=
    if isAsynchronous n then
      some s
    else
      (AuthGrammar.transitions.stepExternal s n).map settled

/-- The phases of the server in which it may be once the client has received everything and sent
nothing more. -/
def related : AuthGrammar.RuntimeState → ServerAuthGrammar.RuntimeState → Bool
  | .auth, .startup | .auth, .auth => true
  | .passwordResponse, .passwordResponse => true
  | .awaitingAuthOk, .auth => true
  | .tokenResponse, .tokenResponse => true
  | .tokenChallenge, .tokenPolicy | .tokenChallenge, .auth => true
  | .saslInitial, .saslInitial => true
  | .sasl, .sasl => true
  | .saslChallenge, .saslResponse => true
  | .awaitingStartupReady, .startupReady => true
  | .ready, .ready => true
  | .terminated, .terminated => true
  | _, _ => false

abbrev Related (s : AuthGrammar.RuntimeState) (t : ServerAuthGrammar.RuntimeState) : Prop :=
  related s t = true

/-! ## Checks of the tables -/

instance : Fintype AuthGrammar.RuntimeState :=
  Fintype.ofList
    [.auth, .passwordResponse, .tokenResponse, .tokenChallenge, .saslInitial, .sasl, .saslChallenge,
     .saslFinal, .awaitingAuthOk, .awaitingStartupReady, .ready, .terminated]
    (by intro s; cases s <;> decide)

instance : Fintype ServerAuthGrammar.RuntimeState :=
  Fintype.ofList
    [.startup, .auth, .passwordResponse, .saslInitial, .sasl, .saslResponse, .tokenResponse,
     .tokenPolicy, .startupReady, .ready, .terminated]
    (by intro s; cases s <;> decide)

/-- A client which is related to the server takes what the edge sends, unless it is asked again. -/
def Meets (n : BackendMessage) : Prop :=
  ∀ e ∈ ServerAuthGrammar.transitions, e.guard.acceptsInternal n = true → ∀ s, Related s e.source →
    (e.source = .auth ∧ s ≠ .auth ∧ concludes n = false) ∨
      (shadow.into s n).any (related · e.target) = true

instance (n : BackendMessage) : Decidable (Meets n) :=
  inferInstanceAs (Decidable (∀ e ∈ ServerAuthGrammar.transitions, _ → ∀ _, _ → _))

theorem server_sends (n : BackendMessage) : Meets n := by
  refine of_decide_eq_true ?_
  -- no pattern looks at the data of a message
  cases n with
  | authentication request => cases request <;> rfl
  | _ => rfl

theorem server_takes : ∀ e ∈ AuthGrammar.transitions, ∀ m, e.guard.acceptsInternal m = true →
    ∀ t, Related e.source t →
      (ServerAuthGrammar.transitions.stepExternal t m).any (related e.target ·) = true := by
  decide

theorem server_moves : ∀ e ∈ ServerAuthGrammar.transitions, e.guard.isSilent = true →
    ∀ s, Related s e.source → Related s e.target := by
  decide

theorem client_sends : ∀ e ∈ AuthGrammar.transitions, ∀ m, e.guard.acceptsInternal m = true →
    AuthGrammar.transitions.stepInternal e.source m = some e.target ∧
      settled e.source = e.source ∧ settled e.target = e.target := by
  decide

theorem client_moves : ∀ e ∈ AuthGrammar.transitions, e.guard.isSilent = true →
    settled e.target = settled e.source := by
  decide

theorem client_deterministic : AuthGrammar.transitions.Deterministic := by
  decide

/-- A phase offers either choices of the client or choices of the server. -/
theorem client_uniform : ∀ e ∈ AuthGrammar.transitions, ∀ e' ∈ AuthGrammar.transitions,
    e.source = e'.source → e.guard.choice = e'.guard.choice := by
  decide

theorem client_skips (n : BackendMessage) (h : isAsynchronous n = true) :
    ∀ s, AuthGrammar.transitions.stepExternal s n = none := by
  refine of_decide_eq_true ?_
  cases n with
  | noticeResponse _ | parameterStatus _ _ | notificationResponse _ _ _ | backendKeyData _ _ => rfl
  | _ => cases h

/-- Where a client may be that has not answered a request. -/
def unanswered : AuthGrammar.RuntimeState → Bool
  | .auth | .passwordResponse | .tokenResponse | .saslInitial | .awaitingStartupReady | .ready
  | .terminated => true
  | _ => false

theorem unanswered_into (n : BackendMessage) :
    ∀ s, unanswered s = true → (shadow.into s n).all unanswered = true := by
  refine of_decide_eq_true ?_
  cases n with
  | authentication request => cases request <;> rfl
  | _ => rfl

/-- A client that waits for the end of its authentication sends nothing. -/
theorem related_auth : ∀ s, Related s .auth → s ≠ .auth →
    unanswered s = false ∧ ∀ m, AuthGrammar.transitions.stepInternal s m = none := by
  decide

/-! ## The shadow commutes -/

variable {s s' t d : AuthGrammar.RuntimeState} {m : FrontendMessage} {n : BackendMessage}
  {c c' : Configuration} {rest : List BackendMessage} {e : Edge _ _ BackendMessage FrontendMessage}
  {a : Option (Action FrontendMessage BackendMessage)}

theorem into_of_out (hout : shadow.out s m = some s') (hinto : shadow.into s n = some t) :
    isAsynchronous n = true ∧ t = s := by
  obtain ⟨e, he, rfl, haccepts, -⟩ := Table.exists_edge_of_stepInternal client_deterministic hout
  have hchoice : e.guard.choice = .internal := by
    obtain ⟨_, _, _, guard⟩ := e
    cases guard with
    | internal accepts => rfl
    | external accepts | silent choice => cases haccepts
  have hnone : AuthGrammar.transitions.stepExternal e.source n = none :=
    Table.stepExternal_eq_none
      (fun e' he' hsource => (client_uniform e' he' e he hsource).trans hchoice) n
  simp only [shadow, hnone] at hinto
  split at hinto
  next hasync =>
    cases hinto
    exact ⟨hasync, rfl⟩
  next => cases hinto

theorem into_asynchronous (h : isAsynchronous n = true) : shadow.into s n = some s :=
  if_pos h

theorem shadow_diamond : shadow.Diamond fun _ _ => True where
  meet := by
    intro s m n s₁ s₂ _ hout hinto
    obtain ⟨hasync, rfl⟩ := into_of_out hout hinto
    exact ⟨s₁, into_asynchronous hasync, hout⟩
  keep := by
    intros
    trivial

theorem into_settled (h : AuthGrammar.transitions.stepExternal s n = some t) :
    shadow.into (settled s) n = some (settled t) := by
  have hasync : isAsynchronous n = false := by
    rw [Bool.eq_false_iff]
    intro hasync
    cases (client_skips n hasync s).symm.trans h
  have hsettled : settled s = s := by
    cases s with
    | saslFinal =>
      cases (Table.stepExternal_eq_none (T := AuthGrammar.transitions) (s := .saslFinal)
        (by decide) n).symm.trans h
    | _ => rfl
  rw [hsettled]
  simp [shadow, hasync, h]

/-! ## The invariant -/

def Inv (c : Configuration) : Prop :=
  Lagging shadow Related (settled c.left) c.right c.toRight c.toLeft

theorem inv_initial : Inv initial :=
  Lagging.of_related rfl

theorem Inv.leftSends {e : Edge _ _ FrontendMessage BackendMessage} (hinv : Inv c) (he : e ∈ client)
    (hs : e.source = c.left) (hm : e.guard.acceptsInternal m = true) :
    Inv { c with left := e.target, toRight := c.toRight ++ [m] } := by
  obtain ⟨e₀, he₀, hsource, -, htarget, hguard⟩ := Table.mem_comap.mp he
  rw [← hguard, Guard.acceptsInternal_comap] at hm
  obtain ⟨hstep, hsettled, hsettled'⟩ := client_sends e₀ he₀ m.variant hm
  rw [hsource, hs] at hstep hsettled
  rw [htarget] at hstep hsettled'
  have hout : shadow.out (settled c.left) m = some (settled e.target) := by
    rw [hsettled, hsettled']
    exact hstep
  refine Lagging.leftSends hinv fun d hintos => ?_
  exact shadow_diamond.out_intos (P := fun _ => True) trivial (fun _ _ _ => trivial)
    (fun _ _ => trivial) hintos hout

theorem Inv.leftTakes (hinv : Inv c) (hc : c.toLeft = n :: rest)
    (ht : client.stepExternal c.left n = some t) : Inv { c with left := t, toLeft := rest } := by
  rw [Inv, hc] at hinv
  obtain ⟨v, hinto, hlag⟩ := hinv.leftTakes
  rw [Table.stepExternal_comap] at ht
  cases hinto.symm.trans (into_settled ht)
  exact hlag

theorem Inv.drops (hinv : Inv c) (hc : c.toLeft = n :: rest) (hn : isAsynchronous n = true) :
    Inv { c with toLeft := rest } := by
  rw [Inv, hc] at hinv
  obtain ⟨v, hinto, hlag⟩ := hinv.leftTakes
  cases hinto.symm.trans (into_asynchronous hn)
  exact hlag

/-- In flight to a client which has not answered there is nothing that makes it answer. -/
theorem unanswered_intos {ns : List BackendMessage} (h : shadow.intos s ns = some d)
    (hs : unanswered s = true) : unanswered d = true := by
  induction ns generalizing s with
  | nil =>
    cases h
    exact hs
  | cons n ns ih =>
    simp only [Shadow.intos, List.foldlM_cons, Option.bind_eq_bind, Option.bind_eq_some_iff] at h
    obtain ⟨t, hinto, hrest⟩ := h
    have hall := unanswered_into n s hs
    rw [hinto] at hall
    exact ih hrest hall

/-- A client in `Auth` has answered nothing, so that the server has not come back to `Auth`. -/
theorem base_eq_auth {base : AuthGrammar.RuntimeState} {ms : List FrontendMessage}
    {ns : List BackendMessage} (hR : Related base .auth) (houts : shadow.outs base ms = some d)
    (hintos : shadow.intos .auth ns = some d) : base = .auth := by
  by_contra hne
  obtain ⟨hanswered, hsilent⟩ := related_auth base hR hne
  have hd : d = base := by
    cases ms with
    | nil =>
      cases houts
      rfl
    | cons m ms => simp [Shadow.outs, shadow, hsilent] at houts
  rw [hd] at hintos
  rw [unanswered_intos hintos rfl] at hanswered
  cases hanswered

theorem Inv.rightSends (hinv : Inv c) (he : e ∈ server) (hs : e.source = c.right)
    (hn : e.guard.acceptsInternal n = true) (hok : Orderly c (some (.rightSends n))) :
    Inv { c with right := e.target, toLeft := c.toLeft ++ [n] } := by
  obtain ⟨e₀, he₀, hsource, -, htarget, hguard⟩ := Table.mem_comap.mp he
  rw [← hguard, Guard.acceptsInternal_comap] at hn
  refine Lagging.rightSends hinv fun base d hR houts hintos => ?_
  rw [← hs, ← hsource] at hR
  rcases server_sends n e₀ he₀ hn base hR with ⟨hauth, hne, hasks⟩ | hmeets
  · -- the server asks, so the client is in `Auth`
    have hleft : c.left = .auth := hok (by rw [← hs, ← hsource, hauth]) hasks
    rw [hauth] at hR
    rw [hleft] at hintos
    exact absurd (base_eq_auth hR houts hintos) hne
  · obtain ⟨base', hinto, hR'⟩ := (Option.any_eq_true _ _).1 hmeets
    obtain ⟨w, hd, hw⟩ := shadow_diamond.outs_into trivial houts hinto
    rw [htarget] at hR'
    exact ⟨base', w, hR', hw, hd⟩

theorem Inv.rightMoves (hinv : Inv c) (he : e ∈ server) (hs : e.source = c.right)
    (hg : e.guard.isSilent = true) : Inv { c with right := e.target } := by
  obtain ⟨e₀, he₀, hsource, -, htarget, hguard⟩ := Table.mem_comap.mp he
  rw [← hguard, Guard.isSilent_comap] at hg
  refine Lagging.rightMoves hinv fun base hR => ?_
  rw [← htarget]
  exact server_moves e₀ he₀ hg base (by rw [hsource, hs]; exact hR)

theorem server_takes_message {t : ServerAuthGrammar.RuntimeState} (hR : Related s t)
    (hout : shadow.out s m = some s') :
    ∃ t', server.stepExternal t m = some t' ∧ Related s' t' := by
  obtain ⟨e, he, rfl, haccepts, rfl⟩ := Table.exists_edge_of_stepInternal client_deterministic hout
  rw [Table.stepExternal_comap]
  exact (Option.any_eq_true _ _).1 (server_takes e he m.variant haccepts t hR)

theorem Inv.rightTakes {rest : List FrontendMessage} {t : ServerAuthGrammar.RuntimeState}
    (hinv : Inv c) (hc : c.toRight = m :: rest) (ht : server.stepExternal c.right m = some t) :
    Inv { c with right := t, toRight := rest } := by
  rw [Inv, hc] at hinv
  obtain ⟨base, base', hR, hout, hnext⟩ := hinv.rightTakes (t := t)
  obtain ⟨t', hstep, hR'⟩ := server_takes_message hR hout
  cases ht.symm.trans hstep
  exact hnext hR'

theorem Inv.move (hinv : Inv c) (hmove : OrderlyMove c a c') : Inv c' := by
  obtain ⟨hstep, hok⟩ := hmove
  cases hstep with
  | drops hc hn => exact hinv.drops hc hn
  | acts hstep =>
    cases hstep with
    | leftSends he hs hm => exact hinv.leftSends he hs hm
    | leftMoves he hs hg =>
      obtain ⟨e₀, he₀, hsource, -, htarget, hguard⟩ := Table.mem_comap.mp he
      rw [← hguard, Guard.isSilent_comap] at hg
      have hsettled := client_moves e₀ he₀ hg
      rw [hsource, hs, htarget] at hsettled
      rw [Inv, hsettled]
      exact hinv
    | leftTakes hc ht => exact hinv.leftTakes hc ht
    | rightSends he hs hn => exact hinv.rightSends he hs hn hok
    | rightMoves he hs hg => exact hinv.rightMoves he hs hg
    | rightTakes hc ht => exact hinv.rightTakes hc ht

/-! ## Receptions -/

theorem Inv.client_receives (hinv : Inv c) (hc : c.toLeft = n :: rest)
    (hn : isAsynchronous n = false) : ¬ Rejects client c.left c.toLeft := by
  rintro ⟨hwaits, n', rest', hc', hnone⟩
  cases hc.symm.trans hc'
  rw [Inv, hc] at hinv
  obtain ⟨v, hinto, -⟩ := hinv.leftTakes
  have hsettled : settled c.left = c.left := by
    revert hwaits
    rw [waits_comap]
    cases c.left with
    | saslFinal => exact fun hwaits => absurd hwaits (by decide)
    | _ => exact fun _ => rfl
  rw [hsettled] at hinto
  simp only [shadow, hn, Bool.false_eq_true, if_false, Option.map_eq_some_iff] at hinto
  obtain ⟨t, ht, -⟩ := hinto
  have hsome := Table.stepExternal_isSome (T := AuthGrammar.transitions) (s := c.left) (m := n)
  rw [Table.projectExternal_comap] at hnone
  rw [ht, show AuthGrammar.transitions.projectExternal c.left n = none from hnone] at hsome
  cases hsome

theorem Inv.server_receives (hinv : Inv c) : ¬ Rejects server c.right c.toRight := by
  rintro ⟨-, m, rest, hc, hnone⟩
  rw [Inv, hc] at hinv
  obtain ⟨base, base', hR, hout, -⟩ := hinv.rightTakes (t := c.right)
  obtain ⟨t, hstep, -⟩ := server_takes_message hR hout
  have hsome := Table.stepExternal_isSome (T := server) (s := c.right) (m := m)
  rw [hstep, hnone] at hsome
  cases hsome

/-- In a run in which the server asks only a client that waits to be asked, there is no unspecified
reception. -/
theorem authentication_compatible
    {actions : List (Option (Action FrontendMessage BackendMessage))} {c : Configuration}
    (hrun : Path OrderlyMove initial actions c) : ¬ Unspecified c := by
  have hinv : Inv c := hrun.invariant (fun hinv hmove => hinv.move hmove) inv_initial
  rintro (⟨n, rest, hc, hn, hclient⟩ | hserver)
  · exact hinv.client_receives hc hn hclient
  · exact hinv.server_receives hserver

/-! ## Runs -/

/-- Performs a move with the first edge that fits it. -/
def act (c : Configuration) : Option (Action FrontendMessage BackendMessage) → Option Configuration
  | some a => perform client server c a
  | none =>
    match c.toLeft with
    | n :: rest => if isAsynchronous n then some { c with toLeft := rest } else none
    | [] => none

theorem move_of_act (h : act c a = some c') : Move c a c' := by
  cases a with
  | some a => exact .acts (composed_of_perform h)
  | none =>
    simp only [act] at h
    split at h
    next n rest hc =>
      split at h
      case isTrue hn =>
        cases h
        exact .drops hc hn
      case isFalse => cases h
    next => cases h

instance (c : Configuration) : (a : Option (Action FrontendMessage BackendMessage)) →
    Decidable (Orderly c a)
  | some (.rightSends _) => inferInstanceAs (Decidable (_ → _ → _))
  | some (.leftSends _) | some .leftMoves | some (.leftTakes _) | some .rightMoves
  | some (.rightTakes _) | none => inferInstanceAs (Decidable True)

theorem orderly_of_act {actions : List (Option (Action FrontendMessage BackendMessage))}
    (h : actions.foldlM (fun c a => if Orderly c a then act c a else none) c = some c') :
    Path OrderlyMove c actions c' := by
  refine Path.of_foldlM ?_ h
  intro s a t hstep
  split at hstep
  case isTrue horderly => exact ⟨move_of_act hstep, horderly⟩
  case isFalse => cases hstep

/-- A password is asked for and accepted; a ParameterStatus is dropped, and the first ReadyForQuery
is on its way. -/
theorem authentication_compatible_password :
    ∃ actions c, Path OrderlyMove initial actions c ∧ c.left = .awaitingStartupReady ∧
      c.toLeft = [.readyForQuery .idle] ∧ ¬ Unspecified c := by
  let ask : BackendMessage := .authentication .cleartextPassword
  let response : FrontendMessage := .passwordResponse []
  have hrun : Path OrderlyMove initial
      [some .rightMoves, some (.rightSends ask), some (.leftTakes ask), some (.leftSends response),
        some (.rightTakes response), some (.rightSends (.authentication .ok)),
        some (.rightSends (.parameterStatus [] [])), some (.rightSends (.readyForQuery .idle)),
        some (.leftTakes (.authentication .ok)), none]
      ⟨.awaitingStartupReady, .ready, [], [.readyForQuery .idle]⟩ :=
    orderly_of_act rfl
  exact ⟨_, _, hrun, rfl, rfl, authentication_compatible hrun⟩

/-- A server which asks again leads to a client that waits in front of a request it cannot
project: after a password response, after `SaslFinal` and after a verified token. -/
theorem second_request_unspecified :
    (∃ actions c, Path Move initial actions c ∧
      c = ⟨.awaitingAuthOk, .passwordResponse, [], [.authentication .cleartextPassword]⟩ ∧
      Unspecified c) ∧
    (∃ actions c, Path Move initial actions c ∧
      c = ⟨.awaitingAuthOk, .auth, [], [.negotiateProtocolVersion ⟨⟨3, 0⟩, []⟩]⟩ ∧
      Unspecified c) ∧
    (∃ actions c, Path Move initial actions c ∧
      c = ⟨.tokenChallenge, .tokenResponse, [], [.authentication .gss]⟩ ∧ Unspecified c) := by
  let response : FrontendMessage := .passwordResponse []
  refine ⟨?_, ?_, ?_⟩
  · let ask : BackendMessage := .authentication .cleartextPassword
    have hrun : Path Move initial
        [some .rightMoves, some (.rightSends ask), some (.leftTakes ask),
          some (.leftSends response), some (.rightTakes response), some (.rightSends ask)]
        ⟨.awaitingAuthOk, .passwordResponse, [], [ask]⟩ :=
      Path.of_foldlM move_of_act rfl
    exact ⟨_, _, hrun, rfl, .inl ⟨_, _, rfl, rfl, waits_comap.mpr (by decide), _, _, rfl, rfl⟩⟩
  · let ask : BackendMessage := .authentication (.sasl [])
    let final : BackendMessage := .authentication (.saslFinal [])
    let negotiate : BackendMessage := .negotiateProtocolVersion ⟨⟨3, 0⟩, []⟩
    have hrun : Path Move initial
        [some .rightMoves, some (.rightSends ask), some (.leftTakes ask),
          some (.leftSends response), some (.rightTakes response), some (.rightSends final),
          some (.rightSends negotiate), some (.leftTakes final), some .leftMoves]
        ⟨.awaitingAuthOk, .auth, [], [negotiate]⟩ :=
      Path.of_foldlM move_of_act rfl
    exact ⟨_, _, hrun, rfl, .inl ⟨_, _, rfl, rfl, waits_comap.mpr (by decide), _, _, rfl, rfl⟩⟩
  · let ask : BackendMessage := .authentication .gss
    have hrun : Path Move initial
        [some .rightMoves, some (.rightSends ask), some (.leftTakes ask),
          some (.leftSends response), some (.rightTakes response), some .rightMoves,
          some (.rightSends ask)]
        ⟨.tokenChallenge, .tokenResponse, [], [ask]⟩ :=
      Path.of_foldlM move_of_act rfl
    exact ⟨_, _, hrun, rfl, .inl ⟨_, _, rfl, rfl, waits_comap.mpr (by decide), _, _, rfl, rfl⟩⟩

end AuthCompatibility
end PgProto
