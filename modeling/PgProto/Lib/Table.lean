import Mathlib.Data.List.Pairwise

/-!
# Table — protocol grammars as transition tables

A protocol role is described by a finite table of edges.  Each edge leaves one phase, names an
event, says who selects it and, when the event is carried by a wire message, which messages denote
it.  This file defines:

* `Table.projectInternal` / `Table.projectExternal` — the first edge of the phase whose pattern
  matches, in table order;
* `Table.transition` — the first edge of the phase with a given event;
* `Table.exists_edge_of_stepInternal` / `Table.exists_edge_of_stepExternal` — facts about single
  messages of a deterministic table follow from a check of its edges;
* `Table.step`, `Table.walk`, `Table.feed` — one message, a whole word, and a word whose
  unmatched messages leave the phase unchanged.

Nothing here depends on a concrete grammar.
-/

namespace Lib

/-- Who selects an edge: the role itself or its peer. -/
inductive Choice
  | internal
  | external
  deriving DecidableEq, Repr

/-- How an edge is selected on the wire.  A `silent` edge has no wire message. -/
inductive Guard (I X : Type)
  | internal (accepts : I → Bool)
  | external (accepts : X → Bool)
  | silent (choice : Choice)

namespace Guard

variable {I X : Type}

def choice : Guard I X → Choice
  | .internal _ => .internal
  | .external _ => .external
  | .silent c => c

def acceptsInternal : Guard I X → I → Bool
  | .internal p, m => p m
  | _, _ => false

def acceptsExternal : Guard I X → X → Bool
  | .external p, m => p m
  | _, _ => false

/-- The role selects the edge without a message. -/
def isSilent : Guard I X → Bool
  | .silent .internal => true
  | _ => false

/-- The guard read over messages which denote the ones it is written for. -/
def comap {I' X' : Type} (f : I' → I) (g : X' → X) : Guard I X → Guard I' X'
  | .internal p => .internal fun m => p (f m)
  | .external p => .external fun m => p (g m)
  | .silent c => .silent c

section Comap

variable {I' X' : Type} {f : I' → I} {g : X' → X} {γ : Guard I X}

@[simp] theorem choice_comap : (γ.comap f g).choice = γ.choice := by
  cases γ <;> rfl

@[simp] theorem acceptsInternal_comap {m : I'} :
    (γ.comap f g).acceptsInternal m = γ.acceptsInternal (f m) := by
  cases γ <;> rfl

@[simp] theorem acceptsExternal_comap {m : X'} :
    (γ.comap f g).acceptsExternal m = γ.acceptsExternal (g m) := by
  cases γ <;> rfl

@[simp] theorem isSilent_comap : (γ.comap f g).isSilent = γ.isSilent := by
  obtain p | p | _ | _ := γ <;> rfl

end Comap

end Guard

/-- One edge of a protocol table. -/
structure Edge (S E I X : Type) where
  source : S
  event : E
  target : S
  guard : Guard I X

/-- A wire message together with the side that sends it. -/
inductive Signal (I X : Type)
  | internal (message : I)
  | external (message : X)
  deriving DecidableEq, Repr

abbrev Table (S E I X : Type) := List (Edge S E I X)

namespace Table

variable {S E I X : Type} [DecidableEq S] [DecidableEq E]

/-! ## Projection and lookup -/

/-- First edge out of `s` which the role selects by sending `m`. -/
def internalEdge (T : Table S E I X) (s : S) (m : I) : Option (Edge S E I X) :=
  T.find? fun e => decide (e.source = s) && e.guard.acceptsInternal m

/-- First edge out of `s` which the peer selects by sending `m`. -/
def externalEdge (T : Table S E I X) (s : S) (m : X) : Option (Edge S E I X) :=
  T.find? fun e => decide (e.source = s) && e.guard.acceptsExternal m

def projectInternal (T : Table S E I X) (s : S) (m : I) : Option E :=
  (T.internalEdge s m).map Edge.event

def projectExternal (T : Table S E I X) (s : S) (m : X) : Option E :=
  (T.externalEdge s m).map Edge.event

def transition (T : Table S E I X) (s : S) (e : E) : Option (Edge S E I X) :=
  T.find? fun t => decide (t.source = s) && decide (t.event = e)

variable {T : Table S E I X} {s : S}

omit [DecidableEq E] in
/-- What is known of an edge found among those out of `s`. -/
theorem edge_of_find? {accepts : Edge S E I X → Bool} {e : Edge S E I X}
    (h : (T.find? fun e => decide (e.source = s) && accepts e) = some e) :
    e ∈ T ∧ e.source = s ∧ accepts e = true := by
  have hsat := List.find?_some h
  simp only [Bool.and_eq_true, decide_eq_true_eq] at hsat
  exact ⟨List.mem_of_find?_eq_some h, hsat⟩

/-- Every projected event has an edge in the table: the edge that projected it. -/
theorem transition_isSome_of_projectInternal {m : I} {e : E}
    (h : T.projectInternal s m = some e) : (T.transition s e).isSome := by
  rcases Option.map_eq_some_iff.1 h with ⟨edge, hfind, rfl⟩
  obtain ⟨hmem, hsource, -⟩ := edge_of_find? hfind
  refine List.find?_isSome.2 ⟨edge, hmem, ?_⟩
  simp [hsource]

theorem transition_isSome_of_projectExternal {m : X} {e : E}
    (h : T.projectExternal s m = some e) : (T.transition s e).isSome := by
  rcases Option.map_eq_some_iff.1 h with ⟨edge, hfind, rfl⟩
  obtain ⟨hmem, hsource, -⟩ := edge_of_find? hfind
  refine List.find?_isSome.2 ⟨edge, hmem, ?_⟩
  simp [hsource]

/-! ## Steps and words -/

/-- Target reached by projecting one message and following its event. -/
def stepInternal (T : Table S E I X) (s : S) (m : I) : Option S :=
  (T.projectInternal s m).bind fun e => (T.transition s e).map Edge.target

def stepExternal (T : Table S E I X) (s : S) (m : X) : Option S :=
  (T.projectExternal s m).bind fun e => (T.transition s e).map Edge.target

def step (T : Table S E I X) (s : S) : Signal I X → Option S
  | .internal m => T.stepInternal s m
  | .external m => T.stepExternal s m

theorem stepInternal_isSome {m : I} :
    (T.stepInternal s m).isSome = (T.projectInternal s m).isSome := by
  cases h : T.projectInternal s m with
  | none =>
    simp [stepInternal, h]
  | some e =>
    have := transition_isSome_of_projectInternal h
    simp [stepInternal, h, this]

theorem stepExternal_isSome {m : X} :
    (T.stepExternal s m).isSome = (T.projectExternal s m).isSome := by
  cases h : T.projectExternal s m with
  | none =>
    simp [stepExternal, h]
  | some e =>
    have := transition_isSome_of_projectExternal h
    simp [stepExternal, h, this]

/-- A phase without edges of the peer takes no message. -/
theorem stepExternal_eq_none (h : ∀ e ∈ T, e.source = s → e.guard.choice = .internal) (m : X) :
    T.stepExternal s m = none := by
  rw [← Option.not_isSome_iff_eq_none, stepExternal_isSome, Option.not_isSome_iff_eq_none,
    projectExternal, Option.map_eq_none_iff]
  refine List.find?_eq_none.2 ?_
  intro e he hsat
  simp only [Bool.and_eq_true, decide_eq_true_eq] at hsat
  have hchoice := h e he hsat.1
  obtain ⟨_, _, _, guard⟩ := e
  cases guard with
  | external accepts => cases hchoice
  | internal accepts | silent choice => exact absurd hsat.2 Bool.false_ne_true

/-- No phase has two edges with the same event. -/
def Deterministic (T : Table S E I X) : Prop :=
  T.Pairwise fun a b => a.source = b.source → a.event ≠ b.event

instance (T : Table S E I X) : Decidable T.Deterministic :=
  inferInstanceAs (Decidable (List.Pairwise _ _))

omit [DecidableEq S] [DecidableEq E] in
/-- In a deterministic table an edge is fixed by its phase and its event. -/
theorem Deterministic.eq (hT : T.Deterministic) {a b : Edge S E I X} (ha : a ∈ T) (hb : b ∈ T)
    (hs : a.source = b.source) (he : a.event = b.event) : a = b := by
  by_contra hne
  have hsymm : Std.Symm fun a b : Edge S E I X => a.source = b.source → a.event ≠ b.event :=
    ⟨fun x y hxy hyx => (hxy hyx.symm).symm⟩
  exact List.Pairwise.forall hT ha hb hne hs he

theorem transition_eq_some (hT : T.Deterministic) {e : Edge S E I X} (he : e ∈ T) :
    T.transition e.source e.event = some e := by
  have hsome : (T.transition e.source e.event).isSome :=
    List.find?_isSome.2 ⟨e, he, by simp⟩
  rcases Option.isSome_iff_exists.1 hsome with ⟨found, hfound⟩
  obtain ⟨hmem, hsource, hevent⟩ := edge_of_find? hfound
  have heq : found = e := hT.eq hmem he hsource (of_decide_eq_true hevent)
  rw [hfound, heq]

/-- The edge behind a sent message: a fact about single messages follows from a check of the
edges. -/
theorem exists_edge_of_stepInternal (hT : T.Deterministic) {m : I} {t : S}
    (h : T.stepInternal s m = some t) :
    ∃ e ∈ T, e.source = s ∧ e.guard.acceptsInternal m = true ∧ e.target = t := by
  rcases Option.bind_eq_some_iff.1 h with ⟨event, hevent, htarget⟩
  rcases Option.map_eq_some_iff.1 hevent with ⟨e, hfind, rfl⟩
  obtain ⟨hmem, rfl, haccepts⟩ := edge_of_find? hfind
  rw [transition_eq_some hT hmem] at htarget
  cases htarget
  exact ⟨e, hmem, rfl, haccepts, rfl⟩

theorem exists_edge_of_stepExternal (hT : T.Deterministic) {m : X} {t : S}
    (h : T.stepExternal s m = some t) :
    ∃ e ∈ T, e.source = s ∧ e.guard.acceptsExternal m = true ∧ e.target = t := by
  rcases Option.bind_eq_some_iff.1 h with ⟨event, hevent, htarget⟩
  rcases Option.map_eq_some_iff.1 hevent with ⟨e, hfind, rfl⟩
  obtain ⟨hmem, rfl, haccepts⟩ := edge_of_find? hfind
  rw [transition_eq_some hT hmem] at htarget
  cases htarget
  exact ⟨e, hmem, rfl, haccepts, rfl⟩

/-- Phase reached by a whole word; `none` as soon as one message has no edge. -/
def walk (T : Table S E I X) : S → List (Signal I X) → Option S
  | s, [] => some s
  | s, w :: ws => (T.step s w).bind fun t => walk T t ws

@[simp] theorem walk_nil : T.walk s [] = some s := rfl

@[simp] theorem walk_cons {w : Signal I X} {ws : List (Signal I X)} :
    T.walk s (w :: ws) = (T.step s w).bind fun t => T.walk t ws := rfl

theorem walk_append {ws vs : List (Signal I X)} :
    T.walk s (ws ++ vs) = (T.walk s ws).bind fun t => T.walk t vs := by
  induction ws generalizing s with
  | nil =>
    simp
  | cons w ws ih =>
    cases h : T.step s w with
    | none =>
      simp [h]
    | some t =>
      simp [h, ih]

/-- Phase after one message when an unmatched message is rejected without effect. -/
def feed (T : Table S E I X) (s : S) (w : Signal I X) : S :=
  (T.step s w).getD s

theorem feed_of_step {w : Signal I X} {t : S} (h : T.step s w = some t) : T.feed s w = t := by
  simp [feed, h]

theorem feed_of_step_none {w : Signal I X} (h : T.step s w = none) : T.feed s w = s := by
  simp [feed, h]

/-- Phase after a whole word, unmatched messages having no effect. -/
def feedAll (T : Table S E I X) (s : S) (ws : List (Signal I X)) : S :=
  ws.foldl T.feed s

@[simp] theorem feedAll_nil : T.feedAll s [] = s := rfl

theorem feedAll_append {ws vs : List (Signal I X)} :
    T.feedAll s (ws ++ vs) = T.feedAll (T.feedAll s ws) vs := by
  simp [feedAll]

/-! ## Tables over other messages -/

/-- The table read over messages which denote the ones it is written for. -/
def comap {I' X' : Type} (T : Table S E I X) (f : I' → I) (g : X' → X) : Table S E I' X' :=
  T.map fun e =>
    { source := e.source
      event := e.event
      target := e.target
      guard := e.guard.comap f g }

section Comap

variable {I' X' : Type} {f : I' → I} {g : X' → X}

omit [DecidableEq S] [DecidableEq E] in
theorem mem_comap {e : Edge S E I' X'} :
    e ∈ T.comap f g ↔ ∃ e₀ ∈ T, e₀.source = e.source ∧ e₀.event = e.event ∧
      e₀.target = e.target ∧ e₀.guard.comap f g = e.guard := by
  simp only [comap, List.mem_map]
  constructor
  · rintro ⟨e₀, he₀, rfl⟩
    exact ⟨e₀, he₀, rfl, rfl, rfl, rfl⟩
  · rintro ⟨e₀, he₀, hs, hv, ht, hg⟩
    exact ⟨e₀, he₀, by cases e; simp_all⟩

omit [DecidableEq E] in
@[simp] theorem projectExternal_comap {m : X'} :
    (T.comap f g).projectExternal s m = T.projectExternal s (g m) := by
  simp only [projectExternal, externalEdge, comap, List.find?_map, Option.map_map,
    Function.comp_def, Guard.acceptsExternal_comap]

@[simp] theorem transition_comap {e : E} :
    ((T.comap f g).transition s e).map Edge.target = (T.transition s e).map Edge.target := by
  simp only [transition, comap, List.find?_map, Option.map_map]
  rfl

@[simp] theorem stepExternal_comap {m : X'} :
    (T.comap f g).stepExternal s m = T.stepExternal s (g m) := by
  simp only [stepExternal, projectExternal_comap, transition_comap]

end Comap

end Table
end Lib
