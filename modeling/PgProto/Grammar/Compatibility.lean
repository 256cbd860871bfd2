import PgProto.Grammar.Frontend
import PgProto.Grammar.Backend
import PgProto.Lib.Channels
import Mathlib.Data.Fintype.Option

/-!
# Compatibility — the client and the server grammar on one connection

The `frontend` and the `backend` grammar, joined by two queues.  Their composition has
unspecified receptions (`unspecified_receptions`):

* the server leaves `Ready` by a message of the extended protocol, but not by a `Flush` or `Sync`,
  which the client may send right after `BeginExtended`;
* the server may answer an `Execute` by a COPY response, for which the client has no edge once it
  has sent the `Sync` of its cycle;
* in COPY BOTH both sides may send, and a failed server forgets that copy data may be in flight.

`no_unspecified_reception` excludes every other one: in a run without these moves a role which
waits always projects the message in front of it.  The proof follows the shadow of the client, the
machine `View`.  While the client builds an extended cycle it takes no message, but the server
already answers; the shadow receives these answers at once and remembers an error.
-/

namespace PgProto
namespace Compatibility

open Lib

/-! ## The composition -/

/-- The two grammars over wire messages. -/
abbrev client : Table Frontend.RuntimeState Frontend.Event FrontendMessage BackendMessage :=
  Frontend.transitions.comap FrontendMessage.variant BackendMessage.pattern

abbrev server : Table Backend.RuntimeState Backend.Event BackendMessage FrontendMessage :=
  Backend.transitions.comap BackendMessage.variant FrontendMessage.variant

abbrev Configuration :=
  Config Frontend.RuntimeState Backend.RuntimeState FrontendMessage BackendMessage

def initial : Configuration :=
  { left := .ready
    right := .ready
    toRight := []
    toLeft := [] }

def isCopyResponse : BackendVariant → Bool
  | .copyInResponse | .copyOutResponse | .copyBothResponse => true
  | _ => false

/-- The moves which keep the two grammars together. -/
def Orderly (c : Configuration) : Action FrontendMessage BackendMessage → Prop
  | .leftSends m =>
    -- the first message of an extended cycle is neither `Flush` nor `Sync`
    (c.left = .building → c.right = .ready → c.toRight = [] → m ≠ .flush ∧ m ≠ .sync) ∧
    -- no copy data crosses an error
    (c.left = .copyBoth → ∀ n ∈ c.toLeft, n.variant ≠ .errorResponse)
  | .rightSends n =>
    (c.right = .executeResponse → ¬ isCopyResponse n.variant) ∧
    (c.right = .simpleCopyBoth → n.variant = .errorResponse → c.toRight = [])
  | _ => True

instance (c : Configuration) : (a : Action FrontendMessage BackendMessage) →
    Decidable (Orderly c a)
  | .leftSends _ => inferInstanceAs (Decidable (_ ∧ _))
  | .rightSends _ => inferInstanceAs (Decidable (_ ∧ _))
  | .leftMoves | .leftTakes _ | .rightMoves | .rightTakes _ => inferInstanceAs (Decidable True)

/-- Moves of the composition which are orderly. -/
def OrderlyMove (c : Configuration) (a : Action FrontendMessage BackendMessage)
    (c' : Configuration) : Prop :=
  Composed client server c a c' ∧ Orderly c a

/-! ## The shadow of the client -/

/-- The phases of the client, with what it will find in its queue.  In `begun` it has entered
`Building` and sent nothing yet; in `failing` and `boundFailing` the server has failed and skips to
the `Sync`. -/
inductive View
  | ready
  | functionCalling
  | simple
  | begun
  | building
  | boundBuilding
  | failing
  | boundFailing
  | awaitingReady
  | copyIn
  | copyOut
  | copyBoth
  | copyBothClientDone
  | copyBothServerDone
  | draining
  | resetting
  | terminated
  deriving DecidableEq, Repr

instance : Fintype View :=
  Fintype.ofList
    [.ready, .functionCalling, .simple, .begun, .building, .boundBuilding, .failing, .boundFailing,
     .awaitingReady, .copyIn, .copyOut, .copyBoth, .copyBothClientDone, .copyBothServerDone,
     .draining, .resetting, .terminated]
    (by intro v; cases v <;> decide)

namespace View

def phase : View → Frontend.RuntimeState
  | .ready => .ready
  | .functionCalling => .functionCalling
  | .simple => .simple
  | .begun | .building | .failing => .building
  | .boundBuilding | .boundFailing => .boundBuilding
  | .awaitingReady => .awaitingReady
  | .copyIn => .copyIn
  | .copyOut => .copyOut
  | .copyBoth => .copyBoth
  | .copyBothClientDone => .copyBothClientDone
  | .copyBothServerDone => .copyBothServerDone
  | .draining => .draining
  | .resetting => .resetting
  | .terminated => .terminated

/-- The view after a sent message. -/
def out : View → FrontendVariant → Option View
  | .ready, .query => some .simple
  | .ready, .functionCall => some .functionCalling
  | .ready, .terminate => some .terminated
  | .begun, .parse | .begun, .describe | .begun, .close => some .building
  | .begun, .bind => some .boundBuilding
  | .building, .parse | .building, .describe | .building, .close | .building, .flush =>
    some .building
  | .building, .bind => some .boundBuilding
  | .building, .sync => some .awaitingReady
  | .boundBuilding, .parse | .boundBuilding, .describe | .boundBuilding, .bind
  | .boundBuilding, .execute | .boundBuilding, .close | .boundBuilding, .flush =>
    some .boundBuilding
  | .boundBuilding, .sync => some .awaitingReady
  | .failing, .parse | .failing, .describe | .failing, .close | .failing, .flush => some .failing
  | .failing, .bind => some .boundFailing
  | .failing, .sync => some .draining
  | .boundFailing, .parse | .boundFailing, .describe | .boundFailing, .bind
  | .boundFailing, .execute | .boundFailing, .close | .boundFailing, .flush => some .boundFailing
  | .boundFailing, .sync => some .draining
  | .copyIn, .copyData => some .copyIn
  | .copyIn, .copyDone | .copyIn, .copyFail => some .awaitingReady
  | .copyBoth, .copyData => some .copyBoth
  | .copyBoth, .copyDone => some .copyBothClientDone
  | .copyBothServerDone, .copyData => some .copyBothServerDone
  | .copyBothServerDone, .copyDone => some .awaitingReady
  | _, _ => none

/-- Messages which answer a message of the extended protocol and leave its cycle open. -/
def isAnswer : BackendVariant → Bool
  | .parseComplete | .bindComplete | .closeComplete | .rowDescription | .noData
  | .parameterDescription | .dataRow | .commandComplete | .portalSuspended
  | .emptyQueryResponse => true
  | _ => false

/-- The view after a received message, or one which the client will find in its queue. -/
def into : View → BackendVariant → Option View
  | .functionCalling, .functionCallResponse => some .awaitingReady
  | .functionCalling, .errorResponse => some .draining
  | .simple, .rowDescription | .simple, .dataRow | .simple, .commandComplete
  | .simple, .emptyQueryResponse => some .simple
  | .simple, .copyInResponse => some .copyIn
  | .simple, .copyOutResponse => some .copyOut
  | .simple, .copyBothResponse => some .copyBoth
  | .simple, .readyForQuery => some .ready
  | .simple, .errorResponse => some .draining
  | .building, n =>
    if n = .errorResponse then some .failing else if isAnswer n then some .building else none
  | .boundBuilding, n =>
    if n = .errorResponse then some .boundFailing
    else if isAnswer n then some .boundBuilding else none
  | .awaitingReady, n =>
    if n = .errorResponse then some .draining
    else if n = .readyForQuery then some .ready
    else if isAnswer n then some .awaitingReady else none
  | .copyOut, .copyData => some .copyOut
  | .copyOut, .copyDone => some .awaitingReady
  | .copyOut, .errorResponse => some .draining
  | .copyBoth, .copyData => some .copyBoth
  | .copyBoth, .copyDone => some .copyBothServerDone
  | .copyBoth, .errorResponse => some .draining
  | .copyBothClientDone, .copyData => some .copyBothClientDone
  | .copyBothClientDone, .copyDone => some .awaitingReady
  | .copyBothClientDone, .errorResponse => some .draining
  | .draining, .readyForQuery => some .ready
  | _, _ => none

/-- The phases of the server in which it may be once the client has received everything and sent
nothing more. -/
def related : View → Backend.RuntimeState → Bool
  | .ready, .ready | .begun, .ready | .resetting, .ready => true
  | .functionCalling, .functionResponse => true
  | .simple, .simple => true
  | .building, s | .boundBuilding, s =>
    [.building, .parseResponse, .bindResponse, .describeResponse, .executeResponse,
      .closeResponse].contains s
  | .failing, .extendedError | .boundFailing, .extendedError => true
  | .awaitingReady, s =>
    [.syncResponse, .functionReady, .simpleCopyInDone, .simpleCopyInFailed, .simpleCopyOutDone,
      .simpleCopyBothDone, .simpleCopyReady].contains s
  | .copyIn, .simpleCopyIn => true
  | .copyOut, .simpleCopyOut => true
  | .copyBoth, .simpleCopyBoth => true
  | .copyBothClientDone, .simpleCopyBothClientDone => true
  | .copyBothServerDone, .simpleCopyBothServerDone => true
  | .draining, s => [.syncResponse, .simpleError, .functionReady, .simpleCopyReady].contains s
  | .terminated, .terminated => true
  | _, _ => false

end View

def shadow : Shadow View FrontendMessage BackendMessage where
  out v m := v.out m.variant
  into v n := v.into n.variant

/-! ## Checks of the tables -/

theorem view_commutes : ∀ (v : View) (m : FrontendVariant) (n : BackendVariant),
    v ≠ .copyBoth ∨ n ≠ .errorResponse → (v.out m).isSome → (v.into n).isSome →
      ((v.out m).bind (View.into · n)).isSome ∧
      (v.out m).bind (View.into · n) = (v.into n).bind (View.out · m) ∧
      (v.out m ≠ some .copyBoth ∨ n ≠ .errorResponse) := by
  decide +kernel

/-- The client itself is never ahead of its queue. -/
def View.isActual : View → Bool
  | .failing | .boundFailing => false
  | _ => true

theorem client_sends : ∀ v : View, v.isActual → ∀ e ∈ Frontend.transitions, e.source = v.phase →
    ∀ m : FrontendVariant, e.guard.acceptsInternal m = true →
      (v = .begun ∧ (m = .flush ∨ m = .sync)) ∨
        ∃ v', v.out m = some v' ∧ v'.isActual ∧ v'.phase = e.target := by
  decide

instance : Fintype TransactionStatus :=
  Fintype.ofList [.idle, .inTransaction, .failedTransaction] (by intro s; cases s <;> decide)

theorem client_takes : ∀ v : View, v.isActual → ∀ n : BackendVariant, (v.into n).isSome →
    ∀ status : Option TransactionStatus,
      (Frontend.transitions.stepExternal v.phase ⟨n, status⟩ = none ∧
        ¬ Waits Frontend.transitions v.phase) ∨
      (Frontend.transitions.stepExternal v.phase ⟨n, status⟩ = (v.into n).map View.phase ∧
        (v.into n).all View.isActual) := by
  decide +kernel

theorem server_sends : ∀ v : View, ∀ e ∈ Backend.transitions, v.related e.source →
    ∀ n : BackendVariant, e.guard.acceptsInternal n = true →
      (e.source = .executeResponse ∧ isCopyResponse n) ∨
        ((v.into n).isSome ∧ (v.into n).all fun v' => v'.related e.target) := by
  decide +kernel

theorem server_takes : ∀ (v : View) (s : Backend.RuntimeState), v.related s →
    ∀ m : FrontendVariant, (v.out m).isSome →
      (Backend.transitions.stepExternal s m = none ∧ ¬ Waits Backend.transitions s) ∨
      ((Backend.transitions.stepExternal s m).isSome ∧
        (v.out m).all fun v' => (Backend.transitions.stepExternal s m).all v'.related) := by
  decide +kernel

theorem client_moves : ∀ e ∈ Frontend.transitions, e.guard.isSilent = true →
    e.source = .ready ∧ (e.target = .building ∨ e.target = .resetting) := by
  decide

theorem server_never_moves : ∀ e ∈ Backend.transitions, e.guard.isSilent = false := by
  decide

/-! ## The shadow commutes -/

/-- The diamond fails for copy data against an error only. -/
def Commuting (v : View) (n : BackendMessage) : Prop :=
  v ≠ .copyBoth ∨ n.variant ≠ .errorResponse

theorem shadow_diamond : shadow.Diamond Commuting where
  meet := by
    intro v m n v₁ v₂ hQ hout hinto
    have hout' : v.out m.variant = some v₁ := hout
    have hinto' : v.into n.variant = some v₂ := hinto
    have h := view_commutes v m.variant n.variant hQ (by simp [hout']) (by simp [hinto'])
    rw [hout', hinto'] at h
    obtain ⟨hsome, hmeet, -⟩ := h
    obtain ⟨w, hw⟩ := Option.isSome_iff_exists.mp hsome
    exact ⟨w, hw, hmeet.symm.trans hw⟩
  keep := by
    intro v m n v₁ v₂ hQ hout hinto
    have hout' : v.out m.variant = some v₁ := hout
    have hinto' : v.into n.variant = some v₂ := hinto
    have h := view_commutes v m.variant n.variant hQ (by simp [hout']) (by simp [hinto'])
    rw [hout'] at h
    simpa [Commuting] using h.2.2

/-- Views which send and never take part in COPY BOTH from both ends. -/
def View.offers : View → Bool
  | .ready | .begun | .building | .boundBuilding | .failing | .boundFailing | .copyIn
  | .copyBothServerDone => true
  | _ => false

theorem View.offers_of_out : ∀ (v : View) (m : FrontendVariant), (v.out m).isSome →
    v = .copyBoth ∨ v.offers := by
  decide

theorem View.offers_into : ∀ (v : View) (n : BackendVariant), v.offers →
    (v.into n).all View.offers := by
  decide

theorem View.out_ne_idle : ∀ (v : View) (m : FrontendVariant),
    v.out m ≠ some .ready ∧ v.out m ≠ some .begun := by
  decide

theorem View.related_idle : ∀ s : Backend.RuntimeState,
    View.ready.related s ∨ View.begun.related s → s = .ready := by
  decide

theorem View.ne_copyBoth_of_offers {v : View} (h : v.offers) : v ≠ .copyBoth := by
  rintro rfl
  exact absurd h (by decide)

/-! ## The invariant -/

abbrev Related (v : View) (s : Backend.RuntimeState) : Prop := v.related s = true

def Inv (c : Configuration) : Prop :=
  ∃ v : View, v.isActual = true ∧ v.phase = c.left ∧
    Lagging shadow Related v c.right c.toRight c.toLeft

theorem inv_initial : Inv initial :=
  ⟨.ready, rfl, rfl, Lagging.of_related rfl⟩

theorem pattern_eq (n : BackendMessage) : ∃ status, n.pattern = ⟨n.variant, status⟩ := by
  cases n <;> exact ⟨_, rfl⟩

variable {n : BackendMessage} {m : FrontendMessage} {c : Configuration}
  {e : Edge _ _ FrontendMessage BackendMessage}

theorem client_takes_message {v v' : View} (hv : v.isActual) (hinto : shadow.into v n = some v') :
    (client.stepExternal v.phase n = none ∧ ¬ Waits client v.phase) ∨
      (client.stepExternal v.phase n = some v'.phase ∧ v'.isActual) := by
  have hinto' : v.into n.variant = some v' := hinto
  obtain ⟨status, hstatus⟩ := pattern_eq n
  rw [Table.stepExternal_comap, waits_comap, hstatus]
  simpa [hinto'] using client_takes v hv n.variant (by simp [hinto']) status

theorem server_takes_message {v v' : View} {s : Backend.RuntimeState} (hR : Related v s)
    (hout : shadow.out v m = some v') :
    (server.stepExternal s m = none ∧ ¬ Waits server s) ∨
      ∃ t, server.stepExternal s m = some t ∧ Related v' t := by
  have hout' : v.out m.variant = some v' := hout
  rw [Table.stepExternal_comap, waits_comap]
  rcases server_takes v s hR m.variant (by simp [hout']) with hnone | ⟨hsome, hall⟩
  · exact .inl hnone
  · obtain ⟨t, ht⟩ := Option.isSome_iff_exists.mp hsome
    refine .inr ⟨t, ht, ?_⟩
    simpa [hout', ht] using hall

theorem Inv.leftSends (hinv : Inv c) (he : e ∈ client) (hs : e.source = c.left)
    (hm : e.guard.acceptsInternal m = true) (hok : Orderly c (.leftSends m)) :
    Inv { c with left := e.target, toRight := c.toRight ++ [m] } := by
  obtain ⟨v, hv, hphase, hlag⟩ := hinv
  obtain ⟨e₀, he₀, hsource, -, htarget, hguard⟩ := Table.mem_comap.mp he
  rw [← hguard, Guard.acceptsInternal_comap] at hm
  rcases client_sends v hv e₀ he₀ (by rw [hsource, hs, hphase]) m.variant hm with
    ⟨rfl, hfirst⟩ | ⟨v', hout, hv', hphase'⟩
  · -- nothing was sent since `BeginExtended`, and an orderly client does not end the cycle at once
    obtain ⟨hR, hempty, -⟩ := hlag.of_isolated (fun _ => rfl) fun u m => (u.out_ne_idle m.variant).2
    have hready : c.right = .ready := View.related_idle c.right (.inr hR)
    obtain ⟨hflush, hsync⟩ := hok.1 hphase.symm hready hempty
    cases m <;> simp_all [FrontendMessage.variant]
  · refine ⟨v', hv', hphase'.trans htarget, hlag.leftSends fun d hintos => ?_⟩
    rcases v.offers_of_out m.variant (by simp [hout]) with rfl | hoffers
    · -- in COPY BOTH no error is in flight
      exact shadow_diamond.out_intos (P := fun _ => True) trivial (fun _ _ _ => trivial)
        (fun _ hn => .inr (hok.2 hphase.symm _ hn)) hintos hout
    · refine shadow_diamond.out_intos (P := fun v => v.offers = true) hoffers ?_ ?_ hintos hout
      · intro u u' n hu _ hinto
        have hinto' : u.into n.variant = some u' := hinto
        simpa [hinto'] using View.offers_into u n.variant hu
      · intro u n hu _
        exact .inl (View.ne_copyBoth_of_offers hu)

theorem Inv.leftMoves (hinv : Inv c) (he : e ∈ client) (hs : e.source = c.left)
    (hg : e.guard.isSilent = true) : Inv { c with left := e.target } := by
  obtain ⟨v, hv, hphase, hlag⟩ := hinv
  obtain ⟨e₀, he₀, hsource, -, htarget, hguard⟩ := Table.mem_comap.mp he
  rw [← hguard, Guard.isSilent_comap] at hg
  obtain ⟨hready, hnext⟩ := client_moves e₀ he₀ hg
  obtain rfl : v = .ready := by
    have hphase' : v.phase = .ready := by rw [hphase, ← hs, ← hsource, hready]
    cases v <;> first | rfl | cases hphase'
  -- the client is idle, so the queues are empty and the server is idle too
  obtain ⟨hR, hright, hleft⟩ :=
    hlag.of_isolated (fun _ => rfl) fun u m => (u.out_ne_idle m.variant).1
  have hserver : c.right = .ready := View.related_idle c.right (.inl hR)
  rcases hnext with hbuild | hreset
  · refine ⟨.begun, rfl, hbuild.symm.trans htarget, ?_⟩
    simp only [hright, hleft, hserver]
    exact Lagging.of_related rfl
  · refine ⟨.resetting, rfl, hreset.symm.trans htarget, ?_⟩
    simp only [hright, hleft, hserver]
    exact Lagging.of_related rfl

theorem Inv.leftTakes {rest : List BackendMessage} {t : Frontend.RuntimeState} (hinv : Inv c)
    (hc : c.toLeft = n :: rest) (ht : client.stepExternal c.left n = some t) :
    Inv { c with left := t, toLeft := rest } := by
  obtain ⟨v, hv, hphase, hlag⟩ := hinv
  rw [hc] at hlag
  obtain ⟨v', hinto, hlag'⟩ := hlag.leftTakes
  rw [← hphase] at ht
  rcases client_takes_message hv hinto with ⟨hnone, -⟩ | ⟨hstep, hv'⟩
  · rw [ht] at hnone
    cases hnone
  · rw [ht] at hstep
    cases hstep
    exact ⟨v', hv', rfl, hlag'⟩

theorem Inv.rightSends {e : Edge _ _ BackendMessage FrontendMessage} (hinv : Inv c)
    (he : e ∈ server) (hs : e.source = c.right) (hn : e.guard.acceptsInternal n = true)
    (hok : Orderly c (.rightSends n)) :
    Inv { c with right := e.target, toLeft := c.toLeft ++ [n] } := by
  obtain ⟨v, hv, hphase, hlag⟩ := hinv
  obtain ⟨e₀, he₀, hsource, -, htarget, hguard⟩ := Table.mem_comap.mp he
  rw [← hguard, Guard.acceptsInternal_comap] at hn
  refine ⟨v, hv, hphase, hlag.rightSends fun base d hR houts _ => ?_⟩
  have hR₀ : base.related e₀.source := by rw [hsource, hs]; exact hR
  rcases server_sends base e₀ he₀ hR₀ n.variant hn with ⟨hexecute, hcopy⟩ | ⟨hsome, hall⟩
  · exact absurd hcopy (hok.1 (by rw [← hs, ← hsource, hexecute]))
  · obtain ⟨base', hinto⟩ := Option.isSome_iff_exists.mp hsome
    have hR' : Related base' e.target := by
      rw [← htarget]
      simpa [hinto] using hall
    by_cases hQ : Commuting base n
    · obtain ⟨w, hd, hw⟩ := shadow_diamond.outs_into hQ houts hinto
      exact ⟨base', w, hR', hw, hd⟩
    · -- the server fails in COPY BOTH, once nothing is on its way to it
      simp only [Commuting, not_or, not_not] at hQ
      obtain ⟨rfl, herror⟩ := hQ
      have hboth : c.right = .simpleCopyBoth := by
        revert hR
        generalize c.right = s
        cases s <;> decide
      have hempty : c.toRight = [] := hok.2 hboth herror
      rw [hempty] at houts ⊢
      cases houts
      exact ⟨base', base', hR', rfl, hinto⟩

theorem Inv.rightTakes {rest : List FrontendMessage} {t : Backend.RuntimeState} (hinv : Inv c)
    (hc : c.toRight = m :: rest) (ht : server.stepExternal c.right m = some t) :
    Inv { c with right := t, toRight := rest } := by
  obtain ⟨v, hv, hphase, hlag⟩ := hinv
  rw [hc] at hlag
  obtain ⟨base, base', hR, hout, hnext⟩ := hlag.rightTakes (t := t)
  refine ⟨v, hv, hphase, hnext ?_⟩
  rcases server_takes_message hR hout with ⟨hnone, -⟩ | ⟨t', hstep, hR'⟩
  · rw [ht] at hnone
    cases hnone
  · rw [ht] at hstep
    cases hstep
    exact hR'

theorem Inv.move {c' : Configuration} {a : Action FrontendMessage BackendMessage} (hinv : Inv c)
    (hmove : OrderlyMove c a c') : Inv c' := by
  obtain ⟨hstep, hok⟩ := hmove
  cases hstep with
  | leftSends he hs hm => exact hinv.leftSends he hs hm hok
  | leftMoves he hs hg => exact hinv.leftMoves he hs hg
  | leftTakes hc ht => exact hinv.leftTakes hc ht
  | rightSends he hs hn => exact hinv.rightSends he hs hn hok
  | rightMoves he hs hg =>
    obtain ⟨e₀, he₀, -, -, -, hguard⟩ := Table.mem_comap.mp he
    rw [← hguard, Guard.isSilent_comap, server_never_moves e₀ he₀] at hg
    cases hg
  | rightTakes hc ht => exact hinv.rightTakes hc ht

/-! ## Receptions -/

theorem Inv.client_receives (hinv : Inv c) : ¬ Rejects client c.left c.toLeft := by
  rintro ⟨hwaits, n, rest, hc, hnone⟩
  obtain ⟨v, hv, hphase, hlag⟩ := hinv
  rw [hc] at hlag
  obtain ⟨v', hinto, -⟩ := hlag.leftTakes
  rw [← hphase] at hwaits hnone
  rcases client_takes_message hv hinto with ⟨-, hbusy⟩ | ⟨hstep, -⟩
  · exact hbusy hwaits
  · have hsome := Table.stepExternal_isSome (T := client) (s := v.phase) (m := n)
    rw [hstep, hnone] at hsome
    cases hsome

theorem Inv.server_receives (hinv : Inv c) : ¬ Rejects server c.right c.toRight := by
  rintro ⟨hwaits, m, rest, hc, hnone⟩
  obtain ⟨v, hv, hphase, hlag⟩ := hinv
  rw [hc] at hlag
  obtain ⟨base, base', hR, hout, -⟩ := hlag.rightTakes (t := c.right)
  rcases server_takes_message hR hout with ⟨-, hbusy⟩ | ⟨t, hstep, -⟩
  · exact hbusy hwaits
  · have hsome := Table.stepExternal_isSome (T := server) (s := c.right) (m := m)
    rw [hstep, hnone] at hsome
    cases hsome

theorem no_unspecified_reception {actions : List (Action FrontendMessage BackendMessage)}
    {c : Configuration} (hrun : Path OrderlyMove initial actions c) :
    ¬ UnspecifiedReception client server c := by
  have hinv : Inv c := hrun.invariant (fun hinv hmove => hinv.move hmove) inv_initial
  rintro (hclient | hserver)
  · exact hinv.client_receives hclient
  · exact hinv.server_receives hserver

theorem no_unspecified_reception_parse :
    ∃ actions c, Path OrderlyMove initial actions c ∧ c.left = .awaitingReady ∧
      c.toRight = [.sync] ∧ c.toLeft = [.parseComplete] ∧
      ¬ UnspecifiedReception client server c := by
  let parse : FrontendMessage := .parse ⟨[], [], []⟩
  have hrun : Path OrderlyMove initial
      [.leftMoves, .leftSends parse, .leftSends .sync, .rightTakes parse,
        .rightSends .parseComplete]
      ⟨.awaitingReady, .building, [.sync], [.parseComplete]⟩ :=
    path_of_performAll rfl
  exact ⟨_, _, hrun, rfl, rfl, rfl, no_unspecified_reception hrun⟩

/-! ## Unspecified receptions -/

theorem reachable_of_performAll (actions : List (Action FrontendMessage BackendMessage))
    (h : performAll client server (fun _ _ => True) initial actions = some c) :
    ∃ actions, Path (Composed client server) initial actions c :=
  ⟨actions, (path_of_performAll h).mono And.left⟩

/-- Each disorderly move leads to a configuration in which a role waits in front of a message it
cannot project. -/
theorem unspecified_receptions :
    -- a `Sync` right after `BeginExtended`
    (∃ actions c, Path (Composed client server) initial actions c ∧
      c = ⟨.awaitingReady, .ready, [.sync], []⟩ ∧ UnspecifiedReception client server c) ∧
    -- an `Execute` which the server answers by `CopyInResponse`
    (∃ actions c, Path (Composed client server) initial actions c ∧
      c = ⟨.awaitingReady, .extendedCopyIn, [.sync], [.copyInResponse ⟨0, []⟩]⟩ ∧
      UnspecifiedReception client server c) ∧
    -- an error of the server in COPY BOTH, while copy data is on its way to it
    (∃ actions c, Path (Composed client server) initial actions c ∧
      c = ⟨.copyBoth, .ready, [.copyData []], [.errorResponse ⟨[]⟩, .readyForQuery .idle]⟩ ∧
      UnspecifiedReception client server c) := by
  refine ⟨?_, ?_, ?_⟩
  · obtain ⟨actions, hrun⟩ := reachable_of_performAll
      [.leftMoves, .leftSends .sync]
      (c := ⟨.awaitingReady, .ready, [.sync], []⟩) rfl
    exact ⟨actions, _, hrun, rfl, .inr ⟨waits_comap.mpr (by decide), _, _, rfl, rfl⟩⟩
  · let bind : FrontendMessage := .bind ⟨[], [], [], [], []⟩
    let execute : FrontendMessage := .execute ⟨[], 0⟩
    obtain ⟨actions, hrun⟩ := reachable_of_performAll
      [.leftMoves, .leftSends bind, .leftSends execute, .leftSends .sync,
        .rightTakes bind, .rightSends .bindComplete, .rightTakes execute,
        .rightSends (.copyInResponse ⟨0, []⟩), .leftTakes .bindComplete]
      (c := ⟨.awaitingReady, .extendedCopyIn, [.sync], [.copyInResponse ⟨0, []⟩]⟩) rfl
    exact ⟨actions, _, hrun, rfl, .inl ⟨waits_comap.mpr (by decide), _, _, rfl, rfl⟩⟩
  · let query : FrontendMessage := .query []
    obtain ⟨actions, hrun⟩ := reachable_of_performAll
      [.leftSends query, .rightTakes query, .rightSends (.copyBothResponse ⟨0, []⟩),
        .leftTakes (.copyBothResponse ⟨0, []⟩), .leftSends (.copyData []),
        .rightSends (.errorResponse ⟨[]⟩), .rightSends (.readyForQuery .idle)]
      (c := ⟨.copyBoth, .ready, [.copyData []], [.errorResponse ⟨[]⟩, .readyForQuery .idle]⟩) rfl
    exact ⟨actions, _, hrun, rfl, .inr ⟨waits_comap.mpr (by decide), _, _, rfl, rfl⟩⟩

end Compatibility
end PgProto
