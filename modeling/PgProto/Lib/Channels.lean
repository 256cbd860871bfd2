import PgProto.Lib.Table
import PgProto.Lib.Interleave

/-!
# Channels — two tables joined by two queues

Two roles whose tables run asynchronously: a message which one role sends is appended to a queue,
and the other role takes it from the front once its projection accepts it.  A reception is
unspecified if a role which waits for its peer cannot project the message in front of it.

The state space is infinite, since nothing bounds the queues.  To reason about it the left role is
replaced by a *shadow*, a deterministic machine of which every message in flight is either already
received or not yet sent.  If sends and receptions of the shadow commute, it does not matter in
which order the two happen:

* `Composed` — one move of the composition;
* `UnspecifiedReception` — the failure to be excluded;
* `Shadow.Diamond` — the local diamond, closed under queues by `outs_into` and `out_intos`;
* `Lagging` — the shape of a configuration, with one lemma for each move.
-/

namespace Lib

section Composition

variable {S S' E E' M N : Type} [DecidableEq S] [DecidableEq S'] [DecidableEq E] [DecidableEq E']

/-- The phases of two roles and the messages in flight between them. -/
structure Config (S S' M N : Type) where
  left : S
  right : S'
  toRight : List M
  toLeft : List N

inductive Action (M N : Type)
  | leftSends (message : M)
  | leftMoves
  | leftTakes (message : N)
  | rightSends (message : N)
  | rightMoves
  | rightTakes (message : M)

/-- One move.  A role may follow any edge it selects, with any message the edge accepts, and takes
the front of its queue when its projection accepts it. -/
inductive Composed (T : Table S E M N) (U : Table S' E' N M) :
    Config S S' M N → Action M N → Config S S' M N → Prop where
  | leftSends {c : Config S S' M N} {e : Edge S E M N} {m : M} (he : e ∈ T)
      (hs : e.source = c.left) (hm : e.guard.acceptsInternal m = true) :
      Composed T U c (.leftSends m) { c with left := e.target, toRight := c.toRight ++ [m] }
  | leftMoves {c : Config S S' M N} {e : Edge S E M N} (he : e ∈ T) (hs : e.source = c.left)
      (hg : e.guard.isSilent = true) :
      Composed T U c .leftMoves { c with left := e.target }
  | leftTakes {c : Config S S' M N} {n : N} {rest : List N} {t : S} (hc : c.toLeft = n :: rest)
      (ht : T.stepExternal c.left n = some t) :
      Composed T U c (.leftTakes n) { c with left := t, toLeft := rest }
  | rightSends {c : Config S S' M N} {e : Edge S' E' N M} {n : N} (he : e ∈ U)
      (hs : e.source = c.right) (hn : e.guard.acceptsInternal n = true) :
      Composed T U c (.rightSends n) { c with right := e.target, toLeft := c.toLeft ++ [n] }
  | rightMoves {c : Config S S' M N} {e : Edge S' E' N M} (he : e ∈ U) (hs : e.source = c.right)
      (hg : e.guard.isSilent = true) :
      Composed T U c .rightMoves { c with right := e.target }
  | rightTakes {c : Config S S' M N} {m : M} {rest : List M} {t : S'} (hc : c.toRight = m :: rest)
      (ht : U.stepExternal c.right m = some t) :
      Composed T U c (.rightTakes m) { c with right := t, toRight := rest }

omit [DecidableEq S] [DecidableEq E] in
/-- The phase offers choices of the peer only. -/
def Waits (T : Table S E M N) (s : S) : Prop :=
  ∀ e ∈ T, e.source = s → e.guard.choice = .external

instance (T : Table S E M N) (s : S) : Decidable (Waits T s) :=
  inferInstanceAs (Decidable (∀ e ∈ T, e.source = s → e.guard.choice = .external))

omit [DecidableEq S] [DecidableEq E] in
theorem waits_comap {M' N' : Type} {T : Table S E M N} {f : M' → M} {g : N' → N} {s : S} :
    Waits (T.comap f g) s ↔ Waits T s := by
  constructor
  · intro h e he hs
    have hmem : _ ∈ T.comap f g := List.mem_map_of_mem he
    simpa using h _ hmem hs
  · intro h e he hs
    obtain ⟨e₀, he₀, hs₀, -, -, hg⟩ := Table.mem_comap.mp he
    rw [← hg, Guard.choice_comap]
    exact h e₀ he₀ (hs₀.trans hs)

/-- A role which waits, in front of a message it cannot project. -/
def Rejects (T : Table S E M N) (s : S) (queue : List N) : Prop :=
  Waits T s ∧ ∃ n rest, queue = n :: rest ∧ T.projectExternal s n = none

def UnspecifiedReception (T : Table S E M N) (U : Table S' E' N M) (c : Config S S' M N) : Prop :=
  Rejects T c.left c.toLeft ∨ Rejects U c.right c.toRight

/-! ### Execution -/

/-- Performs an action with the first edge that fits it. -/
def perform [DecidableEq M] [DecidableEq N] (T : Table S E M N) (U : Table S' E' N M)
    (c : Config S S' M N) : Action M N → Option (Config S S' M N)
  | .leftSends m =>
    (T.internalEdge c.left m).map fun e =>
      { c with left := e.target, toRight := c.toRight ++ [m] }
  | .leftMoves =>
    (T.find? fun e => decide (e.source = c.left) && e.guard.isSilent).map fun e =>
      { c with left := e.target }
  | .leftTakes n =>
    if c.toLeft.head? = some n then
      (T.stepExternal c.left n).map fun t => { c with left := t, toLeft := c.toLeft.tail }
    else
      none
  | .rightSends n =>
    (U.internalEdge c.right n).map fun e =>
      { c with right := e.target, toLeft := c.toLeft ++ [n] }
  | .rightMoves =>
    (U.find? fun e => decide (e.source = c.right) && e.guard.isSilent).map fun e =>
      { c with right := e.target }
  | .rightTakes m =>
    if c.toRight.head? = some m then
      (U.stepExternal c.right m).map fun t => { c with right := t, toRight := c.toRight.tail }
    else
      none

theorem composed_of_perform [DecidableEq M] [DecidableEq N] {T : Table S E M N}
    {U : Table S' E' N M} {c c' : Config S S' M N} {a : Action M N}
    (h : perform T U c a = some c') : Composed T U c a c' := by
  cases a with
  | leftSends m | leftMoves | rightSends n | rightMoves =>
    obtain ⟨e, he, rfl⟩ := Option.map_eq_some_iff.mp h
    obtain ⟨hmem, hsource, haccepts⟩ := Table.edge_of_find? he
    constructor <;> assumption
  | leftTakes n | rightTakes m =>
    simp only [perform] at h
    split at h
    case isTrue hhead =>
      obtain ⟨t, ht, rfl⟩ := Option.map_eq_some_iff.mp h
      have hqueue := List.eq_cons_of_mem_head? hhead
      constructor <;> assumption
    case isFalse => cases h

/-- Performs actions one after another, each of which must be allowed where it is taken. -/
def performAll [DecidableEq M] [DecidableEq N] (T : Table S E M N) (U : Table S' E' N M)
    (allowed : Config S S' M N → Action M N → Prop) [∀ c a, Decidable (allowed c a)]
    (c : Config S S' M N) (actions : List (Action M N)) : Option (Config S S' M N) :=
  actions.foldlM (fun c a => if allowed c a then perform T U c a else none) c

theorem path_of_performAll [DecidableEq M] [DecidableEq N] {T : Table S E M N}
    {U : Table S' E' N M} {allowed : Config S S' M N → Action M N → Prop}
    [∀ c a, Decidable (allowed c a)] {c c' : Config S S' M N} {actions : List (Action M N)}
    (h : performAll T U allowed c actions = some c') :
    Path (fun c a c' => Composed T U c a c' ∧ allowed c a) c actions c' := by
  refine Path.of_foldlM ?_ h
  intro s a t hstep
  split at hstep
  case isTrue hallowed => exact ⟨composed_of_perform hstep, hallowed⟩
  case isFalse => cases hstep

end Composition

/-! ## Shadows -/

/-- A deterministic machine which sends and receives. -/
structure Shadow (V M N : Type) where
  out : V → M → Option V
  into : V → N → Option V

namespace Shadow

variable {V M N : Type} (W : Shadow V M N)

def outs (v : V) (ms : List M) : Option V := ms.foldlM W.out v

def intos (v : V) (ns : List N) : Option V := ns.foldlM W.into v

/-- Where `Q` holds, a send and a reception from one state can be exchanged, and the reception
stays possible. -/
structure Diamond (Q : V → N → Prop) : Prop where
  meet : ∀ {v m n v₁ v₂}, Q v n → W.out v m = some v₁ → W.into v n = some v₂ →
    ∃ w, W.into v₁ n = some w ∧ W.out v₂ m = some w
  keep : ∀ {v m n v₁ v₂}, Q v n → W.out v m = some v₁ → W.into v n = some v₂ → Q v₁ n

variable {W} {Q : V → N → Prop}

/-- One reception against a queue of sends. -/
theorem Diamond.outs_into (h : W.Diamond Q) {v v₂ d : V} {n : N} {ms : List M} (hQ : Q v n)
    (houts : W.outs v ms = some d) (hinto : W.into v n = some v₂) :
    ∃ w, W.into d n = some w ∧ W.outs v₂ ms = some w := by
  induction ms generalizing v v₂ with
  | nil =>
    cases houts
    exact ⟨v₂, hinto, rfl⟩
  | cons m ms ih =>
    simp only [outs, List.foldlM_cons, Option.bind_eq_bind, Option.bind_eq_some_iff] at houts ⊢
    obtain ⟨v₁, hout, houts⟩ := houts
    obtain ⟨w₁, hinto₁, hout₂⟩ := h.meet hQ hout hinto
    obtain ⟨w, hd, hw⟩ := ih (h.keep hQ hout hinto) houts hinto₁
    exact ⟨w, hd, w₁, hout₂, hw⟩

/-- One send against a queue of receptions, as long as they stay in a part `P` of the states on
which the diamond holds. -/
theorem Diamond.out_intos (h : W.Diamond Q) {P : V → Prop} {v v₁ d : V} {m : M} {ns : List N}
    (hP : P v) (hclosed : ∀ {v v' n}, P v → n ∈ ns → W.into v n = some v' → P v')
    (hQ : ∀ {v n}, P v → n ∈ ns → Q v n) (hintos : W.intos v ns = some d)
    (hout : W.out v m = some v₁) :
    ∃ w, W.intos v₁ ns = some w ∧ W.out d m = some w := by
  induction ns generalizing v v₁ with
  | nil =>
    cases hintos
    exact ⟨v₁, rfl, hout⟩
  | cons n ns ih =>
    simp only [intos, List.foldlM_cons, Option.bind_eq_bind, Option.bind_eq_some_iff] at hintos ⊢
    obtain ⟨v₂, hinto, hintos⟩ := hintos
    obtain ⟨w₁, hinto₁, hout₂⟩ := h.meet (hQ hP List.mem_cons_self) hout hinto
    obtain ⟨w, hw, hd⟩ := ih (hclosed hP List.mem_cons_self hinto)
      (fun hP' hn => hclosed hP' (List.mem_cons_of_mem _ hn))
      (fun hP' hn => hQ hP' (List.mem_cons_of_mem _ hn)) hintos hout₂
    exact ⟨w, ⟨w₁, hinto₁, hw⟩, hd⟩

end Shadow

/-! ## Lagging configurations -/

section Lagging

variable {V S' M N : Type} {W : Shadow V M N} {R : V → S' → Prop}

/-- The left role stands in `v`, the right one in `s`.  There is a state `base` in which the left
role has received everything that is in flight to it and has sent nothing of what is in flight from
it, and which is related to `s`; sending from `base` and receiving in `v` meet. -/
def Lagging (W : Shadow V M N) (R : V → S' → Prop) (v : V) (s : S') (toRight : List M)
    (toLeft : List N) : Prop :=
  ∃ base meet, R base s ∧ W.outs base toRight = some meet ∧ W.intos v toLeft = some meet

namespace Lagging

variable {v v' : V} {s t : S'} {ms : List M} {ns : List N} {m : M} {n : N}

theorem of_related (h : R v s) : Lagging W R v s [] [] :=
  ⟨v, v, h, rfl, rfl⟩

/-- A state which receives nothing and which no send reaches has nothing in flight. -/
theorem of_isolated (h : Lagging W R v s ms ns) (hinto : ∀ n, W.into v n = none)
    (hout : ∀ u m, W.out u m ≠ some v) : R v s ∧ ms = [] ∧ ns = [] := by
  obtain ⟨base, d, hR, houts, hintos⟩ := h
  obtain rfl : ns = [] := by
    cases ns with
    | nil => rfl
    | cons n ns => simp [Shadow.intos, hinto] at hintos
  cases hintos
  -- the last message sent would have reached `v`
  obtain rfl | ⟨ms, m, rfl⟩ := ms.eq_nil_or_concat'
  · cases houts
    exact ⟨hR, rfl, rfl⟩
  · simp only [Shadow.outs, List.foldlM_append, Option.bind_eq_bind, Option.bind_eq_some_iff,
      List.foldlM_cons, List.foldlM_nil] at houts
    obtain ⟨u, -, w, hw, hv⟩ := houts
    cases hv
    exact absurd hw (hout u m)

theorem leftSends (h : Lagging W R v s ms ns)
    (hdiamond : ∀ d, W.intos v ns = some d → ∃ w, W.intos v' ns = some w ∧ W.out d m = some w) :
    Lagging W R v' s (ms ++ [m]) ns := by
  obtain ⟨base, d, hR, houts, hintos⟩ := h
  obtain ⟨w, hw, hout⟩ := hdiamond d hintos
  refine ⟨base, w, hR, ?_, hw⟩
  simp only [Shadow.outs] at houts
  simp [Shadow.outs, List.foldlM_append, houts, hout]

theorem leftTakes (h : Lagging W R v s ms (n :: ns)) :
    ∃ v', W.into v n = some v' ∧ Lagging W R v' s ms ns := by
  obtain ⟨base, d, hR, houts, hintos⟩ := h
  simp only [Shadow.intos, List.foldlM_cons, Option.bind_eq_bind, Option.bind_eq_some_iff] at hintos
  obtain ⟨v', hinto, hintos⟩ := hintos
  exact ⟨v', hinto, base, d, hR, houts, hintos⟩

theorem rightSends (h : Lagging W R v s ms ns)
    (hrelated : ∀ base d, R base s → W.outs base ms = some d → W.intos v ns = some d →
      ∃ base' w, R base' t ∧ W.outs base' ms = some w ∧ W.into d n = some w) :
    Lagging W R v t ms (ns ++ [n]) := by
  obtain ⟨base, d, hR, houts, hintos⟩ := h
  obtain ⟨base', w, hR', houts', hinto⟩ := hrelated base d hR houts hintos
  refine ⟨base', w, hR', houts', ?_⟩
  simp only [Shadow.intos] at hintos
  simp [Shadow.intos, List.foldlM_append, hintos, hinto]

theorem rightMoves (h : Lagging W R v s ms ns) (hrelated : ∀ base, R base s → R base t) :
    Lagging W R v t ms ns := by
  obtain ⟨base, d, hR, houts, hintos⟩ := h
  exact ⟨base, d, hrelated base hR, houts, hintos⟩

theorem rightTakes (h : Lagging W R v s (m :: ms) ns) :
    ∃ base base', R base s ∧ W.out base m = some base' ∧
      (R base' t → Lagging W R v t ms ns) := by
  obtain ⟨base, d, hR, houts, hintos⟩ := h
  simp only [Shadow.outs, List.foldlM_cons, Option.bind_eq_bind, Option.bind_eq_some_iff] at houts
  obtain ⟨base', hout, houts⟩ := houts
  exact ⟨base, base', hR, hout, fun hR' => ⟨base', d, hR', houts, hintos⟩⟩

end Lagging

end Lagging

end Lib
