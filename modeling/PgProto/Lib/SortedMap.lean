import Mathlib.Data.List.Basic

/-!
# SortedMap — finite maps listed in the order of their keys

A map is the list of its entries with strictly increasing keys.  `insertNew` adds an entry under a
key which is not there yet; a fold of `insertNew` over the entries of a map rebuilds the map.
`insert` also replaces the value of a key which is there.
-/

namespace Lib

/-- Entries with strictly increasing keys. -/
structure SortedMap (K V : Type) [LT K] where
  entries : List (K × V)
  sorted : entries.Pairwise fun a b => a.1 < b.1

namespace SortedMap

section Equality

variable {K V : Type} [LT K]

theorem entries_injective {m m' : SortedMap K V} (h : m.entries = m'.entries) : m = m' := by
  obtain ⟨entries, _⟩ := m
  cases h
  rfl

instance [DecidableEq K] [DecidableEq V] : DecidableEq (SortedMap K V) := fun m m' =>
  decidable_of_iff (m.entries = m'.entries) ⟨entries_injective, congrArg entries⟩

def empty : SortedMap K V :=
  { entries := []
    sorted := .nil }

end Equality

variable {K V : Type} [LT K] [DecidableLT K] [DecidableEq K]

/-- The entries with one more key, unless the key is there already. -/
def insertEntry (key : K) (value : V) : List (K × V) → Option (List (K × V))
  | [] => some [(key, value)]
  | entry :: entries =>
    if key < entry.1 then
      some ((key, value) :: entry :: entries)
    else if key = entry.1 then
      none
    else
      (insertEntry key value entries).map (entry :: ·)

variable {key : K} {value : V} {l l' : List (K × V)} {m m' : SortedMap K V}

theorem mem_of_insertEntry (h : insertEntry key value l = some l') :
    ∀ e ∈ l', e = (key, value) ∨ e ∈ l := by
  induction l generalizing l' with
  | nil =>
    cases h
    intro e he
    exact .inl (List.mem_singleton.mp he)
  | cons entry entries ih =>
    rw [insertEntry] at h
    split_ifs at h with hlt
    · cases h
      intro e he
      exact List.mem_cons.mp he
    · obtain ⟨tail, htail, rfl⟩ := Option.map_eq_some_iff.mp h
      intro e he
      rcases List.mem_cons.mp he with rfl | he
      · exact .inr (List.mem_cons_self ..)
      · exact (ih htail e he).imp_right (List.mem_cons_of_mem _)

theorem insertEntry_perm (h : insertEntry key value l = some l') : l'.Perm ((key, value) :: l) := by
  induction l generalizing l' with
  | nil =>
    cases h
    exact List.Perm.refl _
  | cons entry entries ih =>
    rw [insertEntry] at h
    split_ifs at h with hlt
    · cases h
      exact List.Perm.refl _
    · obtain ⟨tail, htail, rfl⟩ := Option.map_eq_some_iff.mp h
      exact ((ih htail).cons entry).trans (List.Perm.swap _ _ _)

variable [LE K] [Std.IsLinearOrder K] [Std.LawfulOrderLT K]

theorem insertEntry_sorted (h : insertEntry key value l = some l')
    (hl : l.Pairwise fun a b => a.1 < b.1) : l'.Pairwise fun a b => a.1 < b.1 := by
  induction l generalizing l' with
  | nil =>
    cases h
    exact List.pairwise_singleton _ _
  | cons entry entries ih =>
    obtain ⟨hentry, hentries⟩ := List.pairwise_cons.mp hl
    rw [insertEntry] at h
    split_ifs at h with hlt hne
    · cases h
      refine List.pairwise_cons.mpr ⟨?_, hl⟩
      intro e he
      rcases List.mem_cons.mp he with rfl | he
      · exact hlt
      · exact Std.lt_trans hlt (hentry e he)
    · obtain ⟨tail, htail, rfl⟩ := Option.map_eq_some_iff.mp h
      refine List.pairwise_cons.mpr ⟨?_, ih htail hentries⟩
      intro e he
      rcases mem_of_insertEntry htail e he with rfl | he
      · exact Std.lt_of_le_of_ne (Std.not_lt.mp hlt) (Ne.symm hne)
      · exact hentry e he

/-- A key behind all others goes to the end. -/
theorem insertEntry_last (h : ∀ e ∈ l, e.1 < key) :
    insertEntry key value l = some (l ++ [(key, value)]) := by
  induction l with
  | nil => rfl
  | cons entry entries ih =>
    obtain ⟨hentry, hentries⟩ := List.forall_mem_cons.mp h
    have hne : key ≠ entry.1 := by
      intro heq
      exact Std.lt_irrefl (heq ▸ hentry)
    rw [insertEntry, if_neg (Std.not_lt.mpr (Std.le_of_lt hentry)), if_neg hne, ih hentries]
    rfl

/-- Adds an entry, unless its key is there already. -/
def insertNew (m : SortedMap K V) (entry : K × V) : Option (SortedMap K V) :=
  match h : insertEntry entry.1 entry.2 m.entries with
  | none => none
  | some entries => some { entries := entries, sorted := insertEntry_sorted h m.sorted }

theorem insertNew_eq {entry : K × V} (h : insertEntry entry.1 entry.2 m.entries = some m'.entries) :
    m.insertNew entry = some m' := by
  rw [insertNew]
  split
  case h_1 hnone => rw [h] at hnone; cases hnone
  case h_2 entries hsome =>
    rw [h] at hsome
    cases hsome
    rfl

theorem insertNew_perm {entry : K × V} (h : m.insertNew entry = some m') :
    m'.entries.Perm (entry :: m.entries) := by
  rw [insertNew] at h
  split at h
  case h_1 => cases h
  case h_2 entries hsome =>
    cases h
    exact insertEntry_perm hsome

/-- A map has the entries that were put into it, whatever their order was. -/
theorem foldlM_insertNew_perm {entries : List (K × V)} (h : entries.foldlM insertNew m = some m') :
    m'.entries.Perm (m.entries ++ entries) := by
  induction entries generalizing m with
  | nil =>
    cases h
    rw [List.append_nil]
  | cons entry entries ih =>
    rw [List.foldlM_cons] at h
    obtain ⟨next, hnext, hrest⟩ := Option.bind_eq_some_iff.mp h
    calc m'.entries.Perm (next.entries ++ entries) := ih hrest
      List.Perm _ (entry :: m.entries ++ entries) := (insertNew_perm hnext).append_right _
      List.Perm _ (m.entries ++ entry :: entries) := List.perm_middle.symm

/-- The induction is on the entries which are still to come: each has a key behind those which are
there, so the fold appends it. -/
theorem foldlM_insertNew_append (front : SortedMap K V) (back : List (K × V)) (m : SortedMap K V)
    (hm : m.entries = front.entries ++ back) : back.foldlM insertNew front = some m := by
  induction back generalizing front with
  | nil =>
    rw [List.append_nil] at hm
    exact congrArg some (entries_injective hm.symm)
  | cons entry back ih =>
    have hsorted := hm ▸ m.sorted
    have hlast : ∀ e ∈ front.entries, e.1 < entry.1 := by
      intro e he
      exact (List.pairwise_append.mp hsorted).2.2 e he entry (List.mem_cons_self ..)
    have hshift : front.entries ++ entry :: back = (front.entries ++ [entry]) ++ back := by simp
    let next : SortedMap K V :=
      { entries := front.entries ++ [entry]
        sorted := (List.pairwise_append.mp (hshift ▸ hsorted)).1 }
    have hnext : front.insertNew entry = some next := insertNew_eq (insertEntry_last hlast)
    rw [List.foldlM_cons, hnext]
    exact ih next (hm.trans hshift)

/-- The entries with a value under the key, in place of the one it has. -/
def replaceEntry (key : K) (value : V) : List (K × V) → List (K × V)
  | [] => [(key, value)]
  | entry :: entries =>
    if key < entry.1 then
      (key, value) :: entry :: entries
    else if key = entry.1 then
      (key, value) :: entries
    else
      entry :: replaceEntry key value entries

omit [LE K] [Std.IsLinearOrder K] [Std.LawfulOrderLT K] in
theorem mem_of_replaceEntry : ∀ e ∈ replaceEntry key value l, e = (key, value) ∨ e ∈ l := by
  induction l with
  | nil =>
    intro e he
    exact .inl (List.mem_singleton.mp he)
  | cons entry entries ih =>
    intro e he
    rw [replaceEntry] at he
    split_ifs at he with hlt heq
    · exact List.mem_cons.mp he
    · exact (List.mem_cons.mp he).imp_right (List.mem_cons_of_mem _)
    · rcases List.mem_cons.mp he with rfl | he
      · exact .inr (List.mem_cons_self ..)
      · exact (ih e he).imp_right (List.mem_cons_of_mem _)

theorem replaceEntry_sorted (hl : l.Pairwise fun a b => a.1 < b.1) :
    (replaceEntry key value l).Pairwise fun a b => a.1 < b.1 := by
  induction l with
  | nil => exact List.pairwise_singleton _ _
  | cons entry entries ih =>
    obtain ⟨hentry, hentries⟩ := List.pairwise_cons.mp hl
    rw [replaceEntry]
    split_ifs with hlt heq
    · refine List.pairwise_cons.mpr ⟨?_, hl⟩
      intro e he
      rcases List.mem_cons.mp he with rfl | he
      · exact hlt
      · exact Std.lt_trans hlt (hentry e he)
    · refine List.pairwise_cons.mpr ⟨?_, hentries⟩
      intro e he
      rw [heq]
      exact hentry e he
    · refine List.pairwise_cons.mpr ⟨?_, ih hentries⟩
      intro e he
      rcases mem_of_replaceEntry e he with rfl | he
      · exact Std.lt_of_le_of_ne (Std.not_lt.mp hlt) (Ne.symm heq)
      · exact hentry e he

/-- Puts a value under a key. -/
def insert (m : SortedMap K V) (key : K) (value : V) : SortedMap K V :=
  { entries := replaceEntry key value m.entries
    sorted := replaceEntry_sorted m.sorted }

/-- A map is rebuilt from its entries. -/
theorem foldlM_insertNew (m : SortedMap K V) : m.entries.foldlM insertNew empty = some m :=
  foldlM_insertNew_append empty m.entries m rfl

end SortedMap

end Lib
