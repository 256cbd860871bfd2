import PgProto.Lib.History
import Mathlib.Logic.Function.Basic

/-!
# Stamps — tables whose entries carry a stamp

A component keeps a table from keys to stamps and hands out the pair of a key and its stamp as a
token.  A token is good as long as the table still has its stamp under its key.  Stamps come from a
counter which only grows, so that a token whose entry is gone never becomes good again.

* `PartialMap` — tables, with `insert`, `remove` and `retain`;
* `Change` — what a step may do to the table;
* `Stamped` — the steps of a component, seen through the table and the counter;
* `Stamped.issued_good_iff` — a token is good exactly when no step since its issue ended it;
* `Resolves` — a second table of aliases, each for a key and its present stamp.
-/

namespace Lib

/-! ## Tables -/

abbrev PartialMap (K V : Type) := K → Option V

namespace PartialMap

variable {K V : Type}

def empty : PartialMap K V := fun _ => none

/-- The entries which satisfy `p`. -/
def retain (m : PartialMap K V) (p : K → V → Bool) : PartialMap K V :=
  fun k => (m k).filter (p k)

@[simp] theorem empty_apply (k : K) : (empty : PartialMap K V) k = none := rfl

variable {m : PartialMap K V}

theorem of_retain {p : K → V → Bool} {k : K} {v : V} (h : m.retain p k = some v) : m k = some v :=
  (Option.filter_eq_some_iff.1 h).1

variable [DecidableEq K]

def insert (m : PartialMap K V) (key : K) (value : V) : PartialMap K V :=
  Function.update m key (some value)

def remove (m : PartialMap K V) (key : K) : PartialMap K V :=
  Function.update m key none

theorem insert_eq_some {k key : K} {v value : V} :
    m.insert key value k = some v ↔ k = key ∧ v = value ∨ k ≠ key ∧ m k = some v := by
  by_cases hk : k = key
  · subst hk
    simp [insert, eq_comm]
  · simp [insert, hk]

theorem remove_eq_some {k key : K} {v : V} : m.remove key k = some v ↔ k ≠ key ∧ m k = some v := by
  by_cases hk : k = key
  · subst hk
    simp [remove]
  · simp [remove, hk]

end PartialMap

/-! ## Changes of a stamped table -/

section Stamped

variable {K : Type} [DecidableEq K]

inductive Change (K : Type)
  | keep
  /-- A new stamp under the key, in place of any other. -/
  | issue (key : K) (stamp : Nat)
  /-- The key is freed by the token with its stamp. -/
  | withdraw (key : K) (stamp : Nat)
  /-- The key is freed, whatever its stamp. -/
  | clear (key : K)
  deriving DecidableEq, Repr

namespace Change

def apply (table : PartialMap K Nat) : Change K → PartialMap K Nat
  | .keep => table
  | .issue key stamp => table.insert key stamp
  | .withdraw key _ => table.remove key
  | .clear key => table.remove key

omit [DecidableEq K] in
/-- The changes after which the token of this key and stamp should not be good. -/
def Ends (key : K) (stamp : Nat) : Change K → Prop
  | .keep => False
  | .issue other _ => other = key
  | .withdraw _ other => other = stamp
  | .clear other => other = key

end Change

variable {S I O : Type} {step : S → I → O → S → Prop}

/-- The steps of a component with a table of stamps and a counter.  An issued stamp is the value of
the counter, which only grows, and a key is withdrawn by its own stamp only. -/
structure Stamped (table : S → PartialMap K Nat) (next : S → Nat) (change : Entry S I O → Change K)
    (e : Entry S I O) : Prop where
  table_eq : table e.after = (change e).apply (table e.before)
  next_le : next e.before ≤ next e.after
  issued : ∀ {key stamp}, change e = .issue key stamp →
    stamp = next e.before ∧ next e.before < next e.after
  withdrawn : ∀ {key stamp}, change e = .withdraw key stamp → table e.before key = some stamp

/-- The stamps of a table are below the counter, and no two keys share one. -/
structure WellStamped (table : PartialMap K Nat) (next : Nat) : Prop where
  below : ∀ {key stamp}, table key = some stamp → stamp < next
  unique : ∀ {key key' stamp}, table key = some stamp → table key' = some stamp → key = key'

omit [DecidableEq K] in
theorem wellStamped_empty : WellStamped (PartialMap.empty : PartialMap K Nat) 0 where
  below := by
    intro key stamp h
    cases h
  unique := by
    intro key key' stamp h
    cases h

namespace Stamped

variable {table : S → PartialMap K Nat} {next : S → Nat} {change : Entry S I O → Change K}
  {e : Entry S I O} {h : List (Entry S I O)} {s t : S} {key : K} {stamp : Nat}

/-- Where an entry of the table after a step comes from. -/
theorem entry_cases (hs : Stamped table next change e) (hentry : table e.after key = some stamp) :
    change e = .issue key stamp ∨ table e.before key = some stamp := by
  rw [hs.table_eq] at hentry
  cases hc : change e with
  | keep =>
    rw [hc] at hentry
    exact .inr hentry
  | issue other new =>
    rw [hc] at hentry
    rcases PartialMap.insert_eq_some.1 hentry with ⟨rfl, rfl⟩ | ⟨-, hold⟩
    · exact .inl rfl
    · exact .inr hold
  | withdraw other old | clear other =>
    rw [hc] at hentry
    exact .inr (PartialMap.remove_eq_some.1 hentry).2

theorem wellStamped (hs : Stamped table next change e)
    (hw : WellStamped (table e.before) (next e.before)) :
    WellStamped (table e.after) (next e.after) where
  below := by
    intro key stamp hentry
    rcases hs.entry_cases hentry with hissue | hold
    · obtain ⟨rfl, hlt⟩ := hs.issued hissue
      exact hlt
    · exact Nat.lt_of_lt_of_le (hw.below hold) hs.next_le
  unique := by
    intro key key' stamp hentry hentry'
    rcases hs.entry_cases hentry with hissue | hold
    · rcases hs.entry_cases hentry' with hissue' | hold'
      · rw [hissue] at hissue'
        cases hissue'
        rfl
      · -- an old entry does not have the stamp issued now
        obtain ⟨rfl, -⟩ := hs.issued hissue
        exact absurd (hw.below hold') (Nat.lt_irrefl _)
    · rcases hs.entry_cases hentry' with hissue' | hold'
      · obtain ⟨rfl, -⟩ := hs.issued hissue'
        exact absurd (hw.below hold) (Nat.lt_irrefl _)
      · exact hw.unique hold hold'

theorem run_wellStamped (hr : History step s h t) (hall : ∀ e ∈ h, Stamped table next change e)
    (hw : WellStamped (table s) (next s)) :
    WellStamped (table t) (next t) := by
  induction hr with
  | nil => exact hw
  | snoc _ _ ih =>
    have hlast := hall _ (List.mem_append_right _ (List.mem_singleton_self _))
    exact hlast.wellStamped (ih fun e he => hall e (List.mem_append_left _ he))

theorem run_next_le (hr : History step s h t) (hall : ∀ e ∈ h, Stamped table next change e) :
    next s ≤ next t := by
  induction hr with
  | nil => exact Nat.le_refl _
  | snoc _ _ ih =>
    have hlast := hall _ (List.mem_append_right _ (List.mem_singleton_self _))
    have hbefore := ih fun e he => hall e (List.mem_append_left _ he)
    exact Nat.le_trans hbefore hlast.next_le

/-- A good token stays good unless the step ends it. -/
theorem good_step (hs : Stamped table next change e)
    (hw : WellStamped (table e.before) (next e.before)) (hgood : table e.before key = some stamp) :
    table e.after key = some stamp ↔ ¬ (change e).Ends key stamp := by
  rw [hs.table_eq]
  cases hc : change e with
  | keep => simpa [Change.apply, Change.Ends] using hgood
  | issue other new =>
    obtain ⟨rfl, -⟩ := hs.issued hc
    have hnew : stamp ≠ next e.before := Nat.ne_of_lt (hw.below hgood)
    simp only [Change.apply, Change.Ends, PartialMap.insert_eq_some]
    constructor
    · rintro (⟨-, heq⟩ | ⟨hne, -⟩) hother
      · exact hnew heq
      · exact hne hother.symm
    · intro hne
      exact .inr ⟨fun heq => hne heq.symm, hgood⟩
  | withdraw other old =>
    have hold := hs.withdrawn hc
    simp only [Change.apply, Change.Ends, PartialMap.remove_eq_some]
    constructor
    · rintro ⟨hne, -⟩ rfl
      exact hne (hw.unique hgood hold)
    · intro hne
      refine ⟨?_, hgood⟩
      rintro rfl
      rw [hgood] at hold
      exact hne (Option.some.inj hold).symm
  | clear other =>
    simp only [Change.apply, Change.Ends, PartialMap.remove_eq_some]
    constructor
    · rintro ⟨hne, -⟩ rfl
      exact hne rfl
    · intro hne
      exact ⟨fun heq => hne heq.symm, hgood⟩

/-- The stamp of a token which is not good is not issued again. -/
theorem stale_step (hs : Stamped table next change e) (hlt : stamp < next e.before)
    (hstale : table e.before key ≠ some stamp) : table e.after key ≠ some stamp := by
  intro hentry
  rcases hs.entry_cases hentry with hissue | hold
  · obtain ⟨rfl, -⟩ := hs.issued hissue
    exact Nat.lt_irrefl _ hlt
  · exact hstale hold

/-- After any run a token which was good at its start is good exactly when no step of the run
ended it. -/
theorem good_iff (hr : History step s h t) (hall : ∀ e ∈ h, Stamped table next change e)
    (hw : WellStamped (table s) (next s)) (hgood : table s key = some stamp) :
    table t key = some stamp ↔ ∀ e ∈ h, ¬ (change e).Ends key stamp := by
  induction hr with
  | nil =>
    constructor
    · intro _ e he
      cases he
    · intro _
      exact hgood
  | @snoc h u t i o hr _ ih =>
    have hbefore : ∀ e ∈ h, Stamped table next change e :=
      fun e he => hall e (List.mem_append_left _ he)
    have hlast : Stamped table next change ⟨u, i, o, t⟩ :=
      hall _ (List.mem_append_right _ (List.mem_singleton_self _))
    have hwu : WellStamped (table u) (next u) := run_wellStamped hr hbefore hw
    by_cases hu : table u key = some stamp
    · have hstep := hlast.good_step hwu hu
      constructor
      · intro ht e he
        rcases List.mem_append.1 he with he | he
        · exact (ih hbefore).1 hu e he
        · rw [List.mem_singleton.1 he]
          exact hstep.1 ht
      · intro hnone
        exact hstep.2 (hnone _ (by simp))
    · -- the token was ended earlier and stays so
      have hlt : stamp < next u :=
        Nat.lt_of_lt_of_le (hw.below hgood) (run_next_le hr hbefore)
      constructor
      · intro ht
        exact absurd ht (hlast.stale_step hlt hu)
      · intro hnone
        have hearlier : table u key = some stamp :=
          (ih hbefore).2 fun e he => hnone e (List.mem_append_left _ he)
        exact absurd hearlier hu

/-- `good_iff` from the issue of the token on. -/
theorem issued_good_iff {h₁ h₂ : List (Entry S I O)} (hr : History step s (h₁ ++ e :: h₂) t)
    (hall : ∀ f ∈ h₁ ++ e :: h₂, Stamped table next change f)
    (hw : WellStamped (table s) (next s)) (hissue : change e = .issue key stamp) :
    table t key = some stamp ↔ ∀ f ∈ h₂, ¬ (change f).Ends key stamp := by
  obtain ⟨hbefore, -, hafter⟩ := hr.split
  have hlast : Stamped table next change e := hall e (by simp)
  have hwbefore : WellStamped (table e.before) (next e.before) :=
    run_wellStamped hbefore (fun f hf => hall f (List.mem_append_left _ hf)) hw
  have hgood : table e.after key = some stamp := by
    rw [hlast.table_eq, hissue]
    exact PartialMap.insert_eq_some.2 (.inl ⟨rfl, rfl⟩)
  exact good_iff hafter (fun f hf => hall f (by simp [hf])) (hlast.wellStamped hwbefore) hgood

end Stamped

end Stamped

/-! ## Aliases -/

section Aliases

variable {A K : Type}

/-- Every alias stands for a key and the stamp which the key has now. -/
def Resolves (table : PartialMap K Nat) (aliases : PartialMap A (K × Nat)) : Prop :=
  ∀ a key stamp, aliases a = some (key, stamp) → table key = some stamp

theorem resolves_empty : Resolves (PartialMap.empty : PartialMap K Nat)
    (PartialMap.empty : PartialMap A (K × Nat)) := by
  intro a key stamp h
  cases h

variable [DecidableEq K] {table : PartialMap K Nat} {aliases : PartialMap A (K × Nat)}

/-- A key gets a new stamp and one alias; it must have had no other one. -/
theorem Resolves.insert [DecidableEq A] (h : Resolves table aliases) {a : A} {key : K} {stamp : Nat}
    (hown : ∀ a' stamp', aliases a' = some (key, stamp') → a' = a) :
    Resolves (table.insert key stamp) (aliases.insert a (key, stamp)) := by
  intro a' key' stamp' halias
  rcases PartialMap.insert_eq_some.1 halias with ⟨rfl, heq⟩ | ⟨hne, hold⟩
  · cases heq
    exact PartialMap.insert_eq_some.2 (.inl ⟨rfl, rfl⟩)
  · refine PartialMap.insert_eq_some.2 (.inr ⟨?_, h a' key' stamp' hold⟩)
    rintro rfl
    exact hne (hown a' stamp' hold)

/-- A key is freed with all aliases that pass no test `keep`, and those for the key do not. -/
theorem Resolves.remove (h : Resolves table aliases) {key : K} {keep : A → K × Nat → Bool}
    (hkeep : ∀ a stamp, table key = some stamp → keep a (key, stamp) = false) :
    Resolves (table.remove key) (aliases.retain keep) := by
  intro a key' stamp halias
  obtain ⟨hold, hkept⟩ := Option.filter_eq_some_iff.1 halias
  have hlive := h a key' stamp hold
  refine PartialMap.remove_eq_some.2 ⟨?_, hlive⟩
  rintro rfl
  rw [hkeep a stamp hlive] at hkept
  cases hkept

end Aliases

end Lib
