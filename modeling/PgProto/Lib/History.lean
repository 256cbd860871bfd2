import Mathlib.Data.List.Induction

/-!
# History — runs of a reactive component

A reactive component is given by a relation `step s i o s'`: in state `s` the call `i` answers `o`
and leaves `s'`.  A `History` is a finite run together with the list of its entries, each entry
with the states before and after it, so that a property of a run can speak about what happened
earlier and not only about the last state.

* `History.invariant` — what holds initially and survives every step holds at the end;
* `History.append`, `History.append_inv` — a run splits at any point into a run and a run that
  continues it;
* `History.split`, `History.mem_split` — the entry of a run, with the run that leads to it and the
  run after it;
* `History.origin` — what holds at some point was brought about by an entry;
* `History.transfer_iff` — when the run of one component is a run of another;
* `exec` — the run of a function on a list of inputs, with `History.of_exec`.
-/

namespace Lib

/-- One step of a run. -/
structure Entry (S I O : Type) where
  before : S
  input : I
  output : O
  after : S
  deriving DecidableEq, Repr

/-- Finite runs of `step` from `init`, newest entry last. -/
inductive History {S I O : Type} (step : S → I → O → S → Prop) (init : S) :
    List (Entry S I O) → S → Prop where
  | nil : History step init [] init
  | snoc {h : List (Entry S I O)} {s s' : S} {i : I} {o : O} :
      History step init h s → step s i o s' →
        History step init (h ++ [⟨s, i, o, s'⟩]) s'

namespace History

variable {S I O : Type} {step : S → I → O → S → Prop} {init s : S} {h : List (Entry S I O)}

theorem eq_of_nil (hr : History step init [] s) : s = init := by
  generalize hl : ([] : List (Entry S I O)) = l at hr
  cases hr with
  | nil => rfl
  | snoc _ _ => simp at hl

variable {e : Entry S I O} {h₂ : List (Entry S I O)} {t : S}

/-- The last entry of a run, taken apart. -/
theorem snoc_inv (hr : History step init (h ++ [e]) s) :
    History step init h e.before ∧ step e.before e.input e.output e.after ∧ s = e.after := by
  generalize hl : h ++ [e] = l at hr
  cases hr with
  | nil => simp at hl
  | snoc hr hs =>
    rcases List.append_inj' hl rfl with ⟨rfl, he⟩
    cases he
    exact ⟨hr, hs, rfl⟩

theorem single {i : I} {o : O} {s' : S} (hs : step s i o s') :
    History step s [⟨s, i, o, s'⟩] s' := by
  have hnil : History step s [] s := History.nil
  simpa using History.snoc hnil hs

theorem append (hr : History step init h s) (hr₂ : History step s h₂ t) :
    History step init (h ++ h₂) t := by
  induction hr₂ with
  | nil => simpa using hr
  | snoc _ hs ih =>
    rw [← List.append_assoc]
    exact History.snoc ih hs

/-- A run over a concatenation is a run followed by a run. -/
theorem append_inv (hr : History step init (h ++ h₂) t) :
    ∃ m, History step init h m ∧ History step m h₂ t := by
  induction h₂ using List.reverseRecOn generalizing t with
  | nil => exact ⟨t, by simpa using hr, History.nil⟩
  | append_singleton h₂ e ih =>
    rw [← List.append_assoc] at hr
    obtain ⟨hb, hs, rfl⟩ := snoc_inv hr
    obtain ⟨m, hm, hm₂⟩ := ih hb
    exact ⟨m, hm, History.snoc hm₂ hs⟩

/-- The entries of a run determine where it ends. -/
theorem final_eq (hr : History step init h s) (hr' : History step init h t) : s = t := by
  induction h using List.reverseRecOn with
  | nil => rw [eq_of_nil hr, eq_of_nil hr']
  | append_singleton h e _ => rw [(snoc_inv hr).2.2, (snoc_inv hr').2.2]

/-- A run split at one of its entries. -/
theorem split (hr : History step init (h ++ e :: h₂) s) :
    History step init h e.before ∧ step e.before e.input e.output e.after ∧
      History step e.after h₂ s := by
  have hr' : History step init ((h ++ [e]) ++ h₂) s := by simpa using hr
  obtain ⟨m, hm, hm₂⟩ := append_inv hr'
  obtain ⟨hb, hs, rfl⟩ := snoc_inv hm
  exact ⟨hb, hs, hm₂⟩

/-- Any entry of a run, with the run before it and the run after it. -/
theorem mem_split (hr : History step init h s) (he : e ∈ h) :
    ∃ h₁ h₂, h = h₁ ++ e :: h₂ ∧ History step init h₁ e.before ∧
      step e.before e.input e.output e.after ∧ History step e.after h₂ s := by
  obtain ⟨h₁, h₂, rfl⟩ := List.append_of_mem he
  exact ⟨h₁, h₂, rfl, split hr⟩

/-- A run of one relation is a run of another exactly when each of its entries is a step of the
other. -/
theorem transfer_iff {step' : S → I → O → S → Prop} (hr : History step init h s) :
    History step' init h s ↔ ∀ e ∈ h, step' e.before e.input e.output e.after := by
  induction hr with
  | nil =>
    constructor
    · intro _ e he
      cases he
    · intro _
      exact History.nil
  | @snoc h s s' i o _ _ ih =>
    constructor
    · intro hr' e he
      obtain ⟨hb, hs', -⟩ := snoc_inv hr'
      rcases List.mem_append.1 he with he | he
      · exact ih.1 hb e he
      · rw [List.mem_singleton.1 he]
        exact hs'
    · intro hall
      have hb := ih.2 fun e he => hall e (List.mem_append_left _ he)
      exact History.snoc hb (hall ⟨s, i, o, s'⟩ (by simp))

/-- What holds initially and is preserved by every step holds at the end of every run. -/
theorem invariant {Inv : S → Prop} (h₀ : Inv init)
    (hstep : ∀ s i o s', Inv s → step s i o s' → Inv s') (hr : History step init h s) : Inv s := by
  induction hr with
  | nil => exact h₀
  | snoc _ hs ih => exact hstep _ _ _ _ ih hs

/-- Every state a run passes through. -/
def States (init : S) (h : List (Entry S I O)) : List S :=
  init :: h.map Entry.after

theorem mem_states_snoc : t ∈ States init (h ++ [e]) ↔ t ∈ States init h ∨ t = e.after := by
  simp [States, or_assoc]

theorem final_mem_states (hr : History step init h s) : s ∈ States init h := by
  cases hr with
  | nil => exact List.mem_cons_self
  | snoc _ _ => exact mem_states_snoc.2 (Or.inr rfl)

/-- What holds in some state of a run and not initially was brought about by one of its entries. -/
theorem origin {P : S → Prop} {Q : Entry S I O → Prop} (h₀ : ¬ P init)
    (hstep : ∀ {s i o s'}, step s i o s' → P s' → Q ⟨s, i, o, s'⟩ ∨ P s)
    (hr : History step init h s) (ht : t ∈ States init h) (hP : P t) : ∃ e ∈ h, Q e := by
  induction hr generalizing t with
  | nil =>
    rw [List.mem_singleton.1 ht] at hP
    exact absurd hP h₀
  | @snoc h s s' i o hr hs ih =>
    rcases mem_states_snoc.1 ht with ht | rfl
    · obtain ⟨e, he, hQ⟩ := ih ht hP
      exact ⟨e, List.mem_append_left _ he, hQ⟩
    · rcases hstep hs hP with hQ | hP
      · exact ⟨_, List.mem_append_right _ (List.mem_singleton_self _), hQ⟩
      · obtain ⟨e, he, hQ⟩ := ih (final_mem_states hr) hP
        exact ⟨e, List.mem_append_left _ he, hQ⟩

/-- When a condition on single steps says exactly whether they keep a property, the property holds
in every state of a run exactly when every step meets the condition. -/
theorem states_iff {Inv : S → Prop} {C : Entry S I O → Prop} (h₀ : Inv init)
    (hr : History step init h s)
    (hstep : ∀ e ∈ h, Inv e.before → (Inv e.after ↔ C e)) :
    (∀ t ∈ States init h, Inv t) ↔ ∀ e ∈ h, C e := by
  induction hr with
  | nil =>
    constructor
    · intro _ e he
      cases he
    · intro _ t ht
      rw [List.mem_singleton.1 ht]
      exact h₀
  | @snoc h s s' i o hr hs ih =>
    have hlast : (⟨s, i, o, s'⟩ : Entry S I O) ∈ h ++ [⟨s, i, o, s'⟩] := by simp
    have ih' := ih fun e he => hstep e (List.mem_append_left _ he)
    constructor
    · intro hall e he
      have hearlier : ∀ t ∈ States init h, Inv t := by
        intro t ht
        exact hall t (mem_states_snoc.2 (Or.inl ht))
      rcases List.mem_append.1 he with he | he
      · exact ih'.1 hearlier e he
      · rw [List.mem_singleton.1 he]
        have hbefore : Inv s := hearlier s (final_mem_states hr)
        exact (hstep _ hlast hbefore).1 (hall s' (mem_states_snoc.2 (Or.inr rfl)))
    · intro hall t ht
      have hearlier := ih'.2 fun e he => hall e (List.mem_append_left _ he)
      rcases mem_states_snoc.1 ht with ht | rfl
      · exact hearlier t ht
      · have hbefore : Inv s := hearlier s (final_mem_states hr)
        exact (hstep _ hlast hbefore).2 (hall _ hlast)

end History

/-! ## Runs of a function -/

/-- The run of `call` on `inputs`, or the first failure. -/
def exec {S I O E : Type} (call : S → I → Except E (O × S)) :
    S → List I → Except E (List (Entry S I O) × S)
  | s, [] => .ok ([], s)
  | s, i :: is =>
    match call s i with
    | .error failure => .error failure
    | .ok (o, t) =>
      match exec call t is with
      | .error failure => .error failure
      | .ok (h, u) => .ok (⟨s, i, o, t⟩ :: h, u)

/-- The step relation of a function that may fail. -/
def Calls {S I O E : Type} (call : S → I → Except E (O × S)) (s : S) (i : I) (o : O) (s' : S) :
    Prop :=
  call s i = .ok (o, s')

section Exec

variable {S I O E : Type} {call : S → I → Except E (O × S)}

variable {h : List (Entry S I O)}

/-- A run of the function, taken apart at its first call. -/
theorem exec_cons_iff {i : I} {is : List I} {s u : S} :
    exec call s (i :: is) = .ok (h, u) ↔
      ∃ o t h', call s i = .ok (o, t) ∧ exec call t is = .ok (h', u) ∧ h = ⟨s, i, o, t⟩ :: h' := by
  constructor
  · intro hx
    cases hc : call s i with
    | error failure =>
      simp [exec, hc] at hx
    | ok r =>
      rcases r with ⟨o, t⟩
      cases hrest : exec call t is with
      | error failure =>
        simp [exec, hc, hrest] at hx
      | ok r =>
        rcases r with ⟨h', u'⟩
        simp only [exec, hc, hrest, Except.ok.injEq, Prod.mk.injEq] at hx
        rcases hx with ⟨rfl, rfl⟩
        exact ⟨o, t, h', rfl, hrest, rfl⟩
  · rintro ⟨o, t, h', hc, hrest, rfl⟩
    simp [exec, hc, hrest]

theorem History.of_exec (inputs : List I) {s t : S} (hx : exec call s inputs = .ok (h, t)) :
    History (Calls call) s h t := by
  induction inputs generalizing s h with
  | nil =>
    cases hx
    exact History.nil
  | cons i is ih =>
    rcases exec_cons_iff.1 hx with ⟨o, m, h', hc, hrest, rfl⟩
    have hfirst : History (Calls call) s [⟨s, i, o, m⟩] m := History.single hc
    exact hfirst.append (ih hrest)

/-- The entries of a run carry its inputs in order. -/
theorem exec_inputs {inputs : List I} {s t : S} (hx : exec call s inputs = .ok (h, t)) :
    h.map Entry.input = inputs := by
  induction inputs generalizing s h with
  | nil =>
    cases hx
    rfl
  | cons i is ih =>
    rcases exec_cons_iff.1 hx with ⟨o, m, h', -, hrest, rfl⟩
    rw [List.map_cons, ih hrest]

end Exec

/-! ## Lists that grow -/

section AllAfter

variable {A : Type} {P : List A → A → Prop} {l more : List A}

/-- Every element of a list satisfies `P` with those before it. -/
def AllAfter (P : List A → A → Prop) (l : List A) : Prop :=
  ∀ l₁ a l₂, l = l₁ ++ a :: l₂ → P l₁ a

theorem allAfter_nil : AllAfter P [] := by
  intro l₁ a l₂ hsplit
  simp at hsplit

theorem allAfter_cons {a : A} :
    AllAfter P (a :: l) ↔ P [] a ∧ AllAfter (fun l₁ b => P (a :: l₁) b) l := by
  constructor
  · intro h
    refine ⟨h [] a l rfl, ?_⟩
    intro l₁ b l₂ hsplit
    exact h (a :: l₁) b l₂ (by simp [hsplit])
  · rintro ⟨ha, hl⟩ l₁ b l₂ hsplit
    cases l₁ with
    | nil =>
      cases hsplit
      exact ha
    | cons c l₁ =>
      cases hsplit
      exact hl l₁ b l₂ rfl

instance decidableAllAfter (P : List A → A → Prop) [∀ l a, Decidable (P l a)] :
    (l : List A) → Decidable (AllAfter P l)
  | [] => isTrue allAfter_nil
  | a :: l =>
    have : Decidable (AllAfter (fun l₁ b => P (a :: l₁) b) l) := decidableAllAfter _ l
    decidable_of_iff _ allAfter_cons.symm

theorem AllAfter.append (h : AllAfter P l)
    (hmore : ∀ l₁ a l₂, more = l₁ ++ a :: l₂ → P (l ++ l₁) a) : AllAfter P (l ++ more) := by
  intro l₁ a l₂ hsplit
  -- The element is either among the new ones or among the old ones.
  rcases List.append_eq_append_iff.1 hsplit with ⟨l₃, rfl, hold⟩ | ⟨l₃, rfl, hnew⟩
  · exact hmore l₃ a l₂ hold
  · cases l₃ with
    | nil =>
      have hfirst := hmore [] a l₂ (by simpa using hnew.symm)
      simpa using hfirst
    | cons b l₃ =>
      cases hnew
      exact h l₁ a l₃ rfl

theorem AllAfter.left (h : AllAfter P (l ++ more)) : AllAfter P l := by
  intro l₁ a l₂ hsplit
  exact h l₁ a (l₂ ++ more) (by simp [hsplit])

theorem AllAfter.snoc {a : A} (h : AllAfter P l) (ha : P l a) : AllAfter P (l ++ [a]) := by
  apply h.append
  intro l₁ b l₂ hsplit
  rcases List.singleton_eq_append_iff.1 hsplit with ⟨rfl, hb⟩ | ⟨-, hb⟩
  · cases hb
    simpa using ha
  · cases hb

/-- `P` of every element gives `Q` of every element, where `Q` of those before it may be used. -/
theorem AllAfter.strengthen {Q : List A → A → Prop} (h : AllAfter P l)
    (hstep : ∀ l₁ a, AllAfter Q l₁ → P l₁ a → Q l₁ a) : AllAfter Q l := by
  induction l using List.reverseRecOn with
  | nil => exact allAfter_nil
  | append_singleton l a ih =>
    have hl : AllAfter Q l := ih h.left
    exact hl.snoc (hstep l a hl (h l a [] rfl))

end AllAfter

section Since

variable {A : Type} {P : A → Prop} {Q : List A → A → Prop} {l : List A} {a : A}

/-- `Q` held once, of an element and those before it, and `P` of every element after it. -/
def Since (P : A → Prop) (Q : List A → A → Prop) (l : List A) : Prop :=
  ∃ l₁ a l₂, l = l₁ ++ a :: l₂ ∧ Q l₁ a ∧ ∀ b ∈ l₂, P b

/-- `P` has held since `Q` did, or of every element. -/
def BackTo (P : A → Prop) (Q : List A → A → Prop) (l : List A) : Prop :=
  (∀ b ∈ l, P b) ∨ Since P Q l

theorem Since.now (h : Q l a) : Since P Q (l ++ [a]) :=
  ⟨l, a, [], rfl, h, List.forall_mem_nil _⟩

theorem Since.snoc (h : Since P Q l) (ha : P a) : Since P Q (l ++ [a]) := by
  obtain ⟨l₁, b, l₂, rfl, hb, hl₂⟩ := h
  refine ⟨l₁, b, l₂ ++ [a], by simp, hb, ?_⟩
  intro c hc
  rcases List.mem_append.1 hc with hc | hc
  · exact hl₂ c hc
  · rw [List.mem_singleton.1 hc]
    exact ha

theorem BackTo.snoc (h : BackTo P Q l) (ha : P a) : BackTo P Q (l ++ [a]) := by
  rcases h with hall | hsince
  · left
    intro b hb
    rcases List.mem_append.1 hb with hb | hb
    · exact hall b hb
    · rw [List.mem_singleton.1 hb]
      exact ha
  · exact Or.inr (hsince.snoc ha)

/-- Where `P` fails, `Q` holds later. -/
theorem BackTo.followed (h : BackTo P Q l) (hQ : ∀ l₁ a, Q l₁ a → P a) {l₁ l₂ : List A}
    (hsplit : l = l₁ ++ a :: l₂) (ha : ¬ P a) :
    ∃ m₁ b m₂, l₂ = m₁ ++ b :: m₂ ∧ Q (l₁ ++ a :: m₁) b := by
  rcases h with hall | ⟨k₁, b, k₂, hl, hb, hafter⟩
  · exact absurd (hall a (by simp [hsplit])) ha
  · -- The element stands before, at or after the one of which `Q` held.
    rcases List.append_eq_append_iff.1 (hl.symm.trans hsplit) with ⟨m, rfl, hm⟩ | ⟨m, rfl, hm⟩
    · cases m with
      | nil =>
        cases hm
        exact absurd (hQ _ _ hb) ha
      | cons c m =>
        cases hm
        exact absurd (hafter a (by simp)) ha
    · cases m with
      | nil =>
        cases hm
        exact absurd (hQ _ _ hb) ha
      | cons c m =>
        cases hm
        exact ⟨m, b, k₂, rfl, hb⟩

end Since
end Lib
