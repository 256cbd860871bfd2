import Mathlib.Data.List.Basic

/-!
# Interleave — runs of two commuting relations

Two labelled step relations on one state type.  If every two steps that start in the same state can
be exchanged, then two runs from a state can be interleaved in any way, and all interleavings end in
the same state.  A word over `A ⊕ B` is an interleaving of its left and of its right letters.

* `Path` — runs of a labelled relation;
* `Commute` — the local diamond, under an invariant;
* `Commute.interleave` — the diamond closed under every interleaving of two runs.
-/

namespace Lib

section Words

variable {A B : Type}

/-- The left letters of a word, in order. -/
def lefts (w : List (A ⊕ B)) : List A :=
  w.filterMap Sum.getLeft?

/-- The right letters of a word, in order. -/
def rights (w : List (A ⊕ B)) : List B :=
  w.filterMap Sum.getRight?

@[simp] theorem rights_nil : rights ([] : List (A ⊕ B)) = [] := rfl

@[simp] theorem lefts_inl (a : A) (w : List (A ⊕ B)) : lefts (.inl a :: w) = a :: lefts w := rfl

@[simp] theorem lefts_inr (b : B) (w : List (A ⊕ B)) : lefts (.inr b :: w) = lefts w := rfl

@[simp] theorem rights_inl (a : A) (w : List (A ⊕ B)) : rights (.inl a :: w) = rights w := rfl

@[simp] theorem rights_inr (b : B) (w : List (A ⊕ B)) : rights (.inr b :: w) = b :: rights w := rfl

theorem lefts_map {A' B' : Type} (f : A → A') (g : B → B') (w : List (A ⊕ B)) :
    lefts (w.map (Sum.map f g)) = (lefts w).map f := by
  induction w with
  | nil => rfl
  | cons letter w ih => cases letter <;> simp [ih]

theorem rights_map {A' B' : Type} (f : A → A') (g : B → B') (w : List (A ⊕ B)) :
    rights (w.map (Sum.map f g)) = (rights w).map g := by
  induction w with
  | nil => rfl
  | cons letter w ih => cases letter <;> simp [ih]

/-- The right letters of a word can be given labels without touching the left ones. -/
theorem exists_relabel {C : Type} (label : C → B) {w : List (A ⊕ B)} {cs : List C}
    (hw : rights w = cs.map label) :
    ∃ w' : List (A ⊕ C), w'.map (Sum.map id label) = w ∧ lefts w' = lefts w ∧ rights w' = cs := by
  induction w generalizing cs with
  | nil =>
    have hcs : cs = [] := by simpa using hw.symm
    exact ⟨[], rfl, rfl, hcs.symm⟩
  | cons letter w ih =>
    cases letter with
    | inl a =>
      rcases ih hw with ⟨w', hmap, hleft, hright⟩
      exact ⟨.inl a :: w', by simp [hmap], by simp [hleft], by simp [hright]⟩
    | inr b =>
      cases cs with
      | nil => simp at hw
      | cons c cs =>
        simp only [rights_inr, List.map_cons, List.cons.injEq] at hw
        rcases ih hw.2 with ⟨w', hmap, hleft, hright⟩
        exact ⟨.inr c :: w', by simp [hmap, hw.1], by simp [hleft], by simp [hright]⟩

end Words

/-- Runs of a labelled relation. -/
inductive Path {S A : Type} (step : S → A → S → Prop) : S → List A → S → Prop where
  | nil (s : S) : Path step s [] s
  | cons {s t u : S} {a : A} {as : List A} :
      step s a t → Path step t as u → Path step s (a :: as) u

theorem Path.unique {S A : Type} {step : S → A → S → Prop}
    (hstep : ∀ {s a t u}, step s a t → step s a u → t = u) {s t u : S} {as : List A}
    (hp : Path step s as t) (hq : Path step s as u) : t = u := by
  induction hp with
  | nil s =>
    cases hq
    rfl
  | cons hfirst _ ih =>
    cases hq with
    | cons hfirst' hrest' =>
      cases hstep hfirst hfirst'
      exact ih hrest'

theorem Path.mono {S A : Type} {step step' : S → A → S → Prop}
    (h : ∀ {s a t}, step s a t → step' s a t) {s t : S} {as : List A} (hp : Path step s as t) :
    Path step' s as t := by
  induction hp with
  | nil s => exact Path.nil s
  | cons hfirst _ ih => exact Path.cons (h hfirst) ih

theorem Path.invariant {S A : Type} {step : S → A → S → Prop} {Inv : S → Prop}
    (hstep : ∀ {s a t}, Inv s → step s a t → Inv t) {s t : S} {as : List A} (hs : Inv s)
    (hp : Path step s as t) : Inv t := by
  induction hp with
  | nil s => exact hs
  | cons hfirst _ ih => exact ih (hstep hs hfirst)

/-- A run of a partial function which takes only steps of the relation. -/
theorem Path.of_foldlM {S A : Type} {step : S → A → S → Prop} {f : S → A → Option S}
    (h : ∀ {s a t}, f s a = some t → step s a t) {s t : S} {as : List A}
    (hf : as.foldlM f s = some t) : Path step s as t := by
  induction as generalizing s with
  | nil =>
    cases hf
    exact Path.nil _
  | cons a as ih =>
    simp only [List.foldlM_cons, Option.bind_eq_bind, Option.bind_eq_some_iff] at hf
    obtain ⟨u, hu, hrest⟩ := hf
    exact Path.cons (h hu) (ih hrest)

/-- One step of either relation. -/
def Either {S A B : Type} (left : S → A → S → Prop) (right : S → B → S → Prop) :
    S → A ⊕ B → S → Prop
  | s, .inl a, t => left s a t
  | s, .inr b, t => right s b t

/-- A word without left letters is a run of the right relation. -/
theorem Path.of_rights {S A B : Type} {left : S → A → S → Prop} {right : S → B → S → Prop} {s t : S}
    {w : List (A ⊕ B)} (hleft : lefts w = []) (hright : Path right s (rights w) t) :
    Path (Either left right) s w t := by
  induction w generalizing s with
  | nil =>
    cases hright
    exact Path.nil _
  | cons letter w ih =>
    cases letter with
    | inl a => simp at hleft
    | inr b =>
      rw [rights_inr] at hright
      cases hright with
      | cons hstep hrest => exact Path.cons hstep (ih hleft hrest)

/-- Under the invariant, steps of the two relations from one state can be exchanged. -/
structure Commute {S A B : Type} (Inv : S → Prop) (left : S → A → S → Prop)
    (right : S → B → S → Prop) : Prop where
  left_inv : ∀ {s a t}, Inv s → left s a t → Inv t
  right_inv : ∀ {s b t}, Inv s → right s b t → Inv t
  right_unique : ∀ {s b t u}, right s b t → right s b u → t = u
  diamond : ∀ {s a b t u}, Inv s → left s a t → right s b u → ∃ v, right t b v ∧ left u a v

namespace Commute

variable {S A B : Type} {Inv : S → Prop} {left : S → A → S → Prop} {right : S → B → S → Prop}

/-- A step of the left relation is exchanged with a run of the right one. -/
theorem strip (hc : Commute Inv left right) {s t u : S} {a : A} {bs : List B} (hs : Inv s)
    (hleft : left s a t) (hright : Path right s bs u) :
    ∃ v, Path right t bs v ∧ left u a v := by
  induction hright generalizing t with
  | nil s => exact ⟨t, Path.nil t, hleft⟩
  | cons hstep _ ih =>
    rcases hc.diamond hs hleft hstep with ⟨m, hright', hleft'⟩
    rcases ih (hc.right_inv hs hstep) hleft' with ⟨v, hpath, hlast⟩
    exact ⟨v, Path.cons hright' hpath, hlast⟩

/-- A run of the left relation is exchanged with a step of the right one. -/
theorem lift (hc : Commute Inv left right) {s t u : S} {as : List A} {b : B} (hs : Inv s)
    (hleft : Path left s as t) (hright : right s b u) :
    ∃ v, right t b v ∧ Path left u as v := by
  induction hleft generalizing u with
  | nil s => exact ⟨u, hright, Path.nil u⟩
  | cons hstep _ ih =>
    rcases hc.diamond hs hstep hright with ⟨m, hright', hleft'⟩
    rcases ih (hc.left_inv hs hstep) hright' with ⟨v, hlast, hpath⟩
    exact ⟨v, hlast, Path.cons hleft' hpath⟩

/-- Every interleaving ends where the left run followed by the right run does. -/
theorem interleave_of_path (hc : Commute Inv left right) {w : List (A ⊕ B)} :
    ∀ {s t u v : S}, Inv s → Path left s (lefts w) t → Path right s (rights w) u →
      Path right t (rights w) v → Path (Either left right) s w v := by
  induction w with
  | nil =>
    intro s t u v _ hleft _ hlast
    cases hleft
    cases hlast
    exact Path.nil s
  | cons letter w ih =>
    intro s t u v hs hleft hright hlast
    cases letter with
    | inl a =>
      rw [lefts_inl] at hleft
      cases hleft with
      | @cons _ m _ _ _ hstep hrest =>
        -- The right run is moved past the first left step.
        rcases hc.strip hs hstep hright with ⟨u', hright', -⟩
        exact Path.cons hstep (ih (hc.left_inv hs hstep) hrest hright' hlast)
    | inr b =>
      rw [rights_inr] at hright hlast
      cases hright with
      | @cons _ m _ _ _ hstep hrest =>
        -- The left run is moved past the first right step; the step behind it is unique.
        rcases hc.lift hs hleft hstep with ⟨t', hstep', hleft'⟩
        cases hlast with
        | @cons _ t'' _ _ _ hfirst hlast' =>
          have heq : t'' = t' := hc.right_unique hfirst hstep'
          subst heq
          exact Path.cons hstep (ih (hc.right_inv hs hstep) hleft' hrest hlast')

/-- Two runs from one state can be interleaved in any way, always with the same end. -/
theorem interleave (hc : Commute Inv left right) {s t u : S} {as : List A} {bs : List B}
    (hs : Inv s) (hleft : Path left s as t) (hright : Path right s bs u) :
    ∃ v, ∀ w, lefts w = as → rights w = bs → Path (Either left right) s w v := by
  have hsquare : ∃ v, Path right t bs v := by
    induction hleft generalizing u with
    | nil s => exact ⟨_, hright⟩
    | cons hstep _ ih =>
      rcases hc.strip hs hstep hright with ⟨u', hright', -⟩
      exact ih (hc.left_inv hs hstep) hright'
  rcases hsquare with ⟨v, hlast⟩
  refine ⟨v, fun w has hbs => ?_⟩
  subst has hbs
  exact hc.interleave_of_path hs hleft hright hlast

end Commute
end Lib
