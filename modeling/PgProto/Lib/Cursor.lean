import PgProto.Lib.Fallible
import PgProto.Lib.Wire

/-!
# Cursor — buffers whose methods panic

A `Reader` is total: it takes what there is of a word it is asked for.  The methods of a real buffer
are not.  Asking for more than is left is a panic, and so is an index or a sum out of range.  A
`Cursor` computes with such methods, and records the collections it reserves room for.

* `Cursor.Bounded` — the cursor never panics, and every reservation is covered by the letters that
  are left, with one rule for each primitive;
* `Cursor.Simulates` — the cursor returns what a reader returns and fails as the reader fails;
* `Cursor.simulates_loopUntil` — loops.  A loop that goes on for ever would run out of fuel, which is
  a panic here;
* `Cursor.Computes` — the cursor computes a function of the whole buffer.
-/

namespace Lib

/-! ## Buffers -/

inductive Fault (ε : Type)
  | error (e : ε)
  | panic
  deriving DecidableEq, Repr

/-- Room for `capacity` items, while this many letters are left to read. -/
structure Reservation (K : Type) where
  item : K
  capacity : Nat
  remaining : Nat
  deriving DecidableEq, Repr

/-- The letters which are left suffice for the items, at `size` letters each. -/
def Reservation.Fits {K : Type} (size : K → Nat) (r : Reservation K) : Prop :=
  r.capacity * size r.item ≤ r.remaining

structure Buffered (K B : Type) where
  unread : List B
  reserved : List (Reservation K)

/-- What is reserved on the way from `s` to `s'` fits. -/
def Buffered.Grows {K B : Type} (size : K → Nat) (s s' : Buffered K B) : Prop :=
  ∃ more, s'.reserved = s.reserved ++ more ∧ ∀ r ∈ more, r.Fits size

namespace Buffered

variable {K B : Type} {size : K → Nat}

theorem grows_of_eq {s s' : Buffered K B} (h : s'.reserved = s.reserved) : s.Grows size s' :=
  ⟨[], by rw [h, List.append_nil], by simp⟩

theorem Grows.trans {s s' s'' : Buffered K B} (h : s.Grows size s') (h' : s'.Grows size s'') :
    s.Grows size s'' := by
  obtain ⟨more, hmore, hfits⟩ := h
  obtain ⟨more', hmore', hfits'⟩ := h'
  refine ⟨more ++ more', by rw [hmore', hmore, List.append_assoc], ?_⟩
  intro r hr
  rcases List.mem_append.1 hr with hr | hr
  · exact hfits r hr
  · exact hfits' r hr

end Buffered

abbrev Cursor (K B ε α : Type) := EStateM (Fault ε) (Buffered K B) α

namespace Cursor

variable {K B ε α β : Type}

def fail (e : ε) : Cursor K B ε α := throw (.error e)

def abort : Cursor K B ε α := throw .panic

def length : Cursor K B ε Nat := do
  return (← get).unread.length

/-- Takes letters off the front. -/
def splitTo (n : Nat) : Cursor K B ε (List B) := do
  let s ← get
  if s.unread.length < n then
    abort
  else do
    modify fun s => { s with unread := s.unread.drop n }
    return s.unread.take n

def advance (n : Nat) : Cursor K B ε Unit := do
  let _ ← splitTo n

/-- The letter of a slice at a position. -/
def index (letters : List B) (i : Nat) : Cursor K B ε B :=
  match letters[i]? with
  | some letter => return letter
  | none => abort

/-- The letter at a position of what is left. -/
def peek (i : Nat) : Cursor K B ε B := do
  index (← get).unread i

def withCapacity (item : K) (capacity : Nat) : Cursor K B ε Unit :=
  modify fun s => { s with reserved := s.reserved ++ [⟨item, capacity, s.unread.length⟩] }

/-- A sum of machine integers. -/
def checkedAdd (max a b : Nat) : Cursor K B ε Nat :=
  if max < a + b then abort else return a + b

/-- A difference of unsigned machine integers. -/
def checkedSub (a b : Nat) : Cursor K B ε Nat :=
  if a < b then abort else return a - b

/-- Reads another buffer. -/
def within (letters : List B) (c : Cursor K B ε α) : Cursor K B ε α := fun s =>
  match c { s with unread := letters } with
  | .ok a t => .ok a { t with unread := s.unread }
  | .error fault t => .error fault { t with unread := s.unread }

/-- Reads so many items onto the end of a collection. -/
def pushMany (take : Cursor K B ε α) : Nat → List α → Cursor K B ε (List α)
  | 0, items => return items
  | count + 1, items => do
    let item ← take
    pushMany take count (items ++ [item])

/-- A round for every item, until the next letter is `stop`. -/
def loopUntil [DecidableEq B] {σ : Type} (stop : B) (short : ε) (round : σ → Cursor K B ε σ) :
    Nat → σ → Cursor K B ε σ
  | 0, _ => abort
  | fuel + 1, acc => do
    if (← length) = 0 then
      fail short
    else do
      let letter ← peek 0
      if letter = stop then do
        advance 1
        return acc
      else do
        let acc ← round acc
        loopUntil stop short round fuel acc

/-- The loop with a round for every letter, and one to find that none is left. -/
def readUntil [DecidableEq B] {σ : Type} (stop : B) (short : ε) (round : σ → Cursor K B ε σ)
    (init : σ) : Cursor K B ε σ := do
  loopUntil stop short round ((← length) + 1) init

/-- The round which reads one item and appends it. -/
def push (take : Cursor K B ε α) (items : List α) : Cursor K B ε (List α) := do
  let item ← take
  return items ++ [item]

/-- The arm of a match on a tag, or what stands behind the last one. -/
def select {T : Type} [DecidableEq T] (otherwise : Cursor K B ε α) :
    List (T × Cursor K B ε α) → T → Cursor K B ε α
  | [], _ => otherwise
  | (label, arm) :: arms, tag => if tag = label then arm else select otherwise arms tag

/-! ## Rules -/

/-- The cursor does not panic and what it reserves fits.  It fails with `E` or returns with `Q`. -/
def Bounded (size : K → Nat) (c : Cursor K B ε α) (E : ε → Prop) (Q : α → Buffered K B → Prop)
    (s : Buffered K B) : Prop :=
  Fallible.wp c (fun fault s' => s.Grows size s' ∧ ∃ e, fault = .error e ∧ E e)
    (fun a s' => s.Grows size s' ∧ Q a s') s

variable {size : K → Nat} {E : ε → Prop} {s : Buffered K B} {n : Nat}

section Rules

variable {c : Cursor K B ε α} {Q : α → Buffered K B → Prop} {f : α → Cursor K B ε β}
  {R : β → Buffered K B → Prop}

theorem Bounded.mono {E' : ε → Prop} {Q' : α → Buffered K B → Prop} (h : Bounded size c E Q s)
    (hE : ∀ e, E e → E' e) (hQ : ∀ a s', Q a s' → Q' a s') : Bounded size c E' Q' s := by
  refine Fallible.wp_mono h ?_ ?_
  · rintro fault s' ⟨hgrows, e, rfl, he⟩
    exact ⟨hgrows, e, rfl, hE e he⟩
  · rintro a s' ⟨hgrows, ha⟩
    exact ⟨hgrows, hQ a s' ha⟩

theorem Bounded.bind (h : Bounded size c E Q s)
    (hf : ∀ a s', Q a s' → Bounded size (f a) E R s') : Bounded size (c >>= f) E R s := by
  unfold Bounded
  rw [Fallible.wp_bind]
  refine Fallible.wp_mono h (fun _ _ hfault => hfault) ?_
  rintro a s' ⟨hgrows, ha⟩
  refine Fallible.wp_mono (hf a s' ha) ?_ ?_
  · rintro fault s'' ⟨hgrows', hfault⟩
    exact ⟨hgrows.trans hgrows', hfault⟩
  · rintro b s'' ⟨hgrows', hb⟩
    exact ⟨hgrows.trans hgrows', hb⟩

theorem bounded_pure {a : α} (h : Q a s) : Bounded size (pure a : Cursor K B ε α) E Q s :=
  ⟨Buffered.grows_of_eq rfl, h⟩

theorem Bounded.map {f : α → β} (h : Bounded size c E (fun a => R (f a)) s) :
    Bounded size (f <$> c) E R s :=
  h.bind fun _ _ => bounded_pure

theorem bounded_fail {e : ε} (h : E e) : Bounded size (fail e : Cursor K B ε α) E Q s :=
  ⟨Buffered.grows_of_eq rfl, e, rfl, h⟩

theorem bounded_ite {p : Prop} [Decidable p] {c' : Cursor K B ε α}
    (h : p → Bounded size c E Q s) (h' : ¬ p → Bounded size c' E Q s) :
    Bounded size (if p then c else c') E Q s := by
  split
  case isTrue hp => exact h hp
  case isFalse hp => exact h' hp

/-- The number of letters which are left. -/
theorem bounded_get_bind {f : Buffered K B → Cursor K B ε β} (h : Bounded size (f s) E R s) :
    Bounded size (get >>= f) E R s := h

variable {f : Nat → Cursor K B ε β}

theorem bounded_length (h : Bounded size (f s.unread.length) E R s) :
    Bounded size (length >>= f) E R s := h

theorem bounded_splitTo {Q : List B → Buffered K B → Prop} (hn : n ≤ s.unread.length)
    (h : Q (s.unread.take n) { s with unread := s.unread.drop n }) :
    Bounded size (splitTo n : Cursor K B ε (List B)) E Q s := by
  unfold Bounded splitTo
  rw [Fallible.wp_bind, Fallible.wp_get, if_neg (Nat.not_lt.2 hn)]
  exact ⟨Buffered.grows_of_eq rfl, h⟩

theorem bounded_splitTo_bind {f : List B → Cursor K B ε β} (hn : n ≤ s.unread.length)
    (h : Bounded size (f (s.unread.take n)) E R { s with unread := s.unread.drop n }) :
    Bounded size (splitTo n >>= f) E R s :=
  Bounded.bind (bounded_splitTo hn h) fun _ _ hrest => hrest

theorem bounded_advance_bind {f : Unit → Cursor K B ε β} (hn : n ≤ s.unread.length)
    (h : Bounded size (f ()) E R { s with unread := s.unread.drop n }) :
    Bounded size (advance n >>= f) E R s :=
  Bounded.bind (bounded_splitTo_bind hn (bounded_pure h)) fun _ _ hrest => hrest

theorem bounded_index_bind {letters : List B} {i : Nat} {letter : B} {f : B → Cursor K B ε β}
    (hi : letters[i]? = some letter) (h : Bounded size (f letter) E R s) :
    Bounded size (index letters i >>= f) E R s := by
  unfold index
  rw [hi]
  exact h

theorem bounded_peek_bind {i : Nat} {letter : B} {f : B → Cursor K B ε β}
    (hi : s.unread[i]? = some letter) (h : Bounded size (f letter) E R s) :
    Bounded size (peek i >>= f) E R s :=
  show Bounded size (index s.unread i >>= f) E R s from bounded_index_bind hi h

theorem bounded_withCapacity_bind {item : K} {capacity : Nat} {f : Unit → Cursor K B ε β}
    (hfits : capacity * size item ≤ s.unread.length)
    (h : ∀ reserved, Bounded size (f ()) E R { s with reserved }) :
    Bounded size (withCapacity item capacity >>= f) E R s := by
  have hreserve : Bounded size (withCapacity item capacity) E
      (fun _ s' => s'.unread = s.unread) s :=
    ⟨⟨_, rfl, fun _ hr => List.mem_singleton.1 hr ▸ hfits⟩, rfl⟩
  refine hreserve.bind ?_
  rintro _ ⟨_, reserved⟩ rfl
  exact h reserved

theorem bounded_checkedAdd_bind {max a b : Nat} (hle : a + b ≤ max)
    (h : Bounded size (f (a + b)) E R s) : Bounded size (checkedAdd max a b >>= f) E R s := by
  unfold checkedAdd
  rw [if_neg (Nat.not_lt.2 hle)]
  exact h

theorem bounded_checkedSub_bind {a b : Nat} (hle : b ≤ a) (h : Bounded size (f (a - b)) E R s) :
    Bounded size (checkedSub a b >>= f) E R s := by
  unfold checkedSub
  rw [if_neg (Nat.not_lt.2 hle)]
  exact h

theorem bounded_within {letters : List B} {P : α → Prop}
    (h : Bounded size c E (fun a _ => P a) { s with unread := letters }) :
    Bounded size (within letters c) E (fun a _ => P a) s := by
  unfold Bounded Fallible.wp within at *
  dsimp only
  cases hc : c { s with unread := letters } <;> rw [hc] at h <;> exact h

end Rules

/-! ## Simulation -/

/-- What becomes of the cursor is what becomes of the reader. -/
def SimulatesAt (size : K → Nat) (c : Cursor K B ε α) (r : Reader B ε α) (s : Buffered K B) :
    Prop :=
  Bounded size c (fun e => r.run s.unread = .error e)
    (fun a s' => r.run s.unread = .ok (a, s'.unread)) s

def Simulates (size : K → Nat) (c : Cursor K B ε α) (r : Reader B ε α) : Prop :=
  ∀ s, SimulatesAt size c r s

section Simulation

variable {c c' : Cursor K B ε α} {r r' : Reader B ε α} {f : α → Cursor K B ε β}
  {g : α → Reader B ε β}

theorem simulates_pure (a : α) : Simulates size (pure a : Cursor K B ε α) (pure a) :=
  fun _ => bounded_pure rfl

theorem simulates_fail (e : ε) : Simulates size (fail e : Cursor K B ε α) (throw e) :=
  fun _ => bounded_fail rfl

/-- The rest of a computation, in the state which its first part leaves. -/
theorem SimulatesAt.bind (h : SimulatesAt size c r s)
    (hf : ∀ a s', r.run s.unread = .ok (a, s'.unread) → SimulatesAt size (f a) (g a) s') :
    SimulatesAt size (c >>= f) (r >>= g) s := by
  refine Bounded.bind (Bounded.mono h ?_ fun _ _ hrun => hrun) ?_
  · intro e hrun
    rw [StateT.run_bind, hrun]
    rfl
  · intro a s' hrun
    have hbind : (r >>= g).run s.unread = (g a).run s'.unread := by
      rw [StateT.run_bind, hrun]
      rfl
    exact Bounded.mono (hf a s' hrun) (fun _ => hbind.trans) fun _ _ => hbind.trans

theorem Simulates.bind (h : Simulates size c r) (hf : ∀ a, Simulates size (f a) (g a)) :
    Simulates size (c >>= f) (r >>= g) :=
  fun s => (h s).bind fun a s' _ => hf a s'

theorem Simulates.map (f : α → β) (h : Simulates size c r) :
    Simulates size (f <$> c) (f <$> r) :=
  h.bind fun a => simulates_pure (f a)

theorem simulates_ite {p : Prop} [Decidable p] (h : Simulates size c r)
    (h' : Simulates size c' r') :
    Simulates size (if p then c else c') (if p then r else r') := by
  split
  · exact h
  · exact h'

/-- The letters which are left, as the cursor measures them and as the reader sees them. -/
theorem simulates_length_bind {f : Nat → Cursor K B ε α} {g : List B → Reader B ε α}
    (h : ∀ s, SimulatesAt size (f s.unread.length) (g s.unread) s) :
    Simulates size (length >>= f) (get >>= g) := h

theorem Simulates.push (h : Simulates size c r) (items : List α) :
    Simulates size (push c items) (Reader.push r items) :=
  h.bind fun _ => simulates_pure _

theorem Simulates.pushMany (h : Simulates size c r) (count : Nat) (items : List α) :
    Simulates size (pushMany c count items) ((items ++ ·) <$> Reader.many r count) := by
  induction count generalizing items with
  | zero =>
    have hmany : ((items ++ ·) <$> Reader.many r 0) = (pure items : Reader B ε (List α)) := by
      simp [Reader.many]
    rw [hmany]
    exact simulates_pure items
  | succ count ih =>
    have hmany : ((items ++ ·) <$> Reader.many r (count + 1)) =
        r >>= fun item => ((items ++ [item]) ++ ·) <$> Reader.many r count := by
      simp [Reader.many, map_bind, List.append_assoc]
    rw [hmany]
    exact h.bind fun item => ih (items ++ [item])

end Simulation

section Loops

variable [DecidableEq B] {σ : Type} {stop : B} {short : ε} {round : σ → Cursor K B ε σ}
  {read : σ → Reader B ε σ}

/-- Every round of a reader takes letters away. -/
def Consumes (read : σ → Reader B ε σ) : Prop :=
  ∀ acc input acc' rest, (read acc).run input = .ok (acc', rest) → rest.length < input.length

/-- The induction is on the fuel.  It lasts, as every round shortens the buffer. -/
theorem simulates_loopUntil (h : ∀ acc, Simulates size (round acc) (read acc))
    (hread : Consumes read) {fuel : Nat} (acc : σ) {s : Buffered K B}
    (hfuel : s.unread.length < fuel) :
    SimulatesAt size (loopUntil stop short round fuel acc)
      (Reader.loopUntil stop short read fuel acc) s := by
  induction fuel generalizing acc s with
  | zero => omega
  | succ fuel ih =>
    obtain ⟨unread, reserved⟩ := s
    unfold SimulatesAt loopUntil
    rw [Reader.loopUntil, Reader.run_get_bind]
    refine bounded_length ?_
    cases unread with
    | nil => exact bounded_fail rfl
    | cons letter rest =>
      refine bounded_ite (by simp) fun _ => bounded_peek_bind rfl ?_
      dsimp only
      by_cases hstop : letter = stop
      · rw [if_pos hstop, if_pos hstop]
        exact bounded_advance_bind (by simp) (bounded_pure rfl)
      · rw [if_neg hstop, if_neg hstop]
        refine SimulatesAt.bind (h acc _) ?_
        intro acc' s' hrun
        have hshort : s'.unread.length < (letter :: rest).length := hread _ _ _ _ hrun
        exact ih acc' (by dsimp only at hfuel; omega)

theorem simulates_readUntil (h : ∀ acc, Simulates size (round acc) (read acc))
    (hread : Consumes read) (init : σ) :
    Simulates size (readUntil stop short round init) (Reader.readUntil stop short read init) :=
  simulates_length_bind fun _ => simulates_loopUntil h hread init (Nat.lt_succ_self _)

end Loops

/-- The rounds of a format whose words are not empty. -/
theorem consumes_of_rounds {σ δ : Type} {read : σ → Reader B ε σ} {put : α → Except δ (List B)}
    {next : σ → α → Option σ} (h : Rounds read put next) (hpos : ∀ a w, put a = .ok w → w ≠ []) :
    Consumes read := by
  intro acc input acc' rest hrun
  obtain ⟨a, w, hput, rfl, _⟩ := (h acc input acc' rest).1 hrun
  have hw : 0 < w.length := List.length_pos_iff.2 (hpos a w hput)
  rw [List.length_append]
  omega

/-! ## Functions of the whole buffer -/

/-- The cursor computes a function of the letters which are left. -/
def ComputesAt (size : K → Nat) (c : Cursor K B ε α) (f : List B → Except ε α)
    (s : Buffered K B) : Prop :=
  Bounded size c (fun e => f s.unread = .error e) (fun a _ => f s.unread = .ok a) s

def Computes (size : K → Nat) (c : Cursor K B ε α) (f : List B → Except ε α) : Prop :=
  ∀ s, ComputesAt size c f s

section Functions

variable {c : Cursor K B ε α} {f : List B → Except ε α}

theorem SimulatesAt.run' {r : Reader B ε α} (h : SimulatesAt size c r s) :
    ComputesAt size c r.run' s :=
  Bounded.mono h (fun _ => congrArg (Prod.fst <$> ·)) fun _ _ => congrArg (Prod.fst <$> ·)

theorem Simulates.run' {r : Reader B ε α} (h : Simulates size c r) : Computes size c r.run' :=
  fun s => (h s).run'

theorem ComputesAt.map (g : α → β) (h : ComputesAt size c f s) :
    ComputesAt size (g <$> c) (fun letters => g <$> f letters) s :=
  (Bounded.mono h (fun _ => congrArg (g <$> ·)) fun _ _ => congrArg (g <$> ·)).map

theorem Computes.map (g : α → β) (h : Computes size c f) :
    Computes size (g <$> c) (fun letters => g <$> f letters) :=
  fun s => (h s).map g

end Functions

/-- Matches whose arms have the same labels and are related. -/
theorem select_dispatch {T β : Type} [DecidableEq T] {otherwise : T → Except ε β}
    {P : Cursor K B ε α → (List B → Except ε β) → Prop} {last : Cursor K B ε α} {tag : T}
    (hlast : P last fun _ => otherwise tag) {arms : List (T × Cursor K B ε α)}
    {arms' : List (T × (List B → Except ε β))}
    (h : List.Forall₂ (fun arm arm' => arm.1 = arm'.1 ∧ P arm.2 arm'.2) arms arms') :
    P (select last arms tag) (dispatch otherwise arms' tag) := by
  induction h with
  | nil => exact hlast
  | @cons arm arm' arms arms' harm _ ih =>
    obtain ⟨label, c⟩ := arm
    obtain ⟨label', f⟩ := arm'
    obtain ⟨rfl, hc⟩ := harm
    have harms : dispatch otherwise ((label, f) :: arms') tag =
        if tag = label then f else dispatch otherwise arms' tag := by
      funext letters
      rw [dispatch]
      split <;> rfl
    rw [select, harms]
    split
    · exact hc
    · exact ih

end Cursor
end Lib
