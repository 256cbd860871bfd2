import Mathlib.Data.List.Basic

/-!
# Wire — readers that invert writers

A writer turns a value into a word or refuses it.  A reader consumes the front of its input and
returns a value, or fails.  `Inverts take put` is the law which ties the two: the reader returns a
value exactly when the input starts with a word of that value, and consumes exactly this word.  It
says in one equivalence that reading recovers what was written and that nothing else is accepted.

* `except_bind_eq_ok`, `Reader.run_bind_eq_ok` — a successful computation taken apart, step by step;
* `Inverts.map` — the law under a change of representation;
* `Inverts.run_many` — the law for a reader repeated a given number of times;
* `Rounds.run_readUntil` — the law for a loop which reads items up to a terminator;
* `Decodes.bind`, `Decodes.finish` — the law of a record from the laws of its fields;
* `dispatch_sound` — a decoder which selects by a tag, from the laws of its arms.
-/

namespace Lib

section Successes

variable {ε α β : Type}

theorem except_bind_eq_ok {x : Except ε α} {f : α → Except ε β} {b : β} :
    (x >>= f) = .ok b ↔ ∃ a, x = .ok a ∧ f a = .ok b := by
  cases x with
  | error e | ok a => simp [bind, Except.bind]

theorem except_map_eq_ok {x : Except ε α} {f : α → β} {b : β} :
    f <$> x = .ok b ↔ ∃ a, x = .ok a ∧ f a = b := by
  cases x with
  | error e | ok a => simp [Functor.map, Except.map]

theorem except_pure_eq_ok {a b : α} : (pure a : Except ε α) = .ok b ↔ a = b := by
  simp [pure, Except.pure]

theorem mapM_cons_eq_ok {f : α → Except ε β} {a : α} {as : List α} {bs : List β} :
    (a :: as).mapM f = .ok bs ↔ ∃ b, f a = .ok b ∧ ∃ bs', as.mapM f = .ok bs' ∧ b :: bs' = bs := by
  simp only [List.mapM_cons, except_bind_eq_ok, except_pure_eq_ok]

end Successes

/-- The position of the first letter with a property, as a split of the word. -/
theorem findIdx?_eq_some_iff_append {B : Type} {p : B → Bool} {xs : List B} {i : Nat} :
    xs.findIdx? p = some i ↔
      ∃ front b back, xs = front ++ b :: back ∧ front.length = i ∧ p b = true ∧
        ∀ x ∈ front, p x = false := by
  constructor
  · intro h
    obtain ⟨hlt, hp, hfront⟩ := List.findIdx?_eq_some_iff_getElem.mp h
    refine ⟨xs.take i, xs[i], xs.drop (i + 1), ?_, List.length_take_of_le (Nat.le_of_lt hlt), hp, ?_⟩
    · rw [List.getElem_cons_drop, List.take_append_drop]
    · intro x hx
      obtain ⟨j, hj, rfl⟩ := List.mem_take_iff_getElem.mp hx
      simpa using hfront j (by omega)
  · rintro ⟨front, b, back, rfl, rfl, hp, hfront⟩
    rw [List.findIdx?_append, List.findIdx?_eq_none_iff.mpr hfront]
    simp [List.findIdx?_cons, hp]

/-! ## Readers -/

/-- A reader of values from the front of a word over `B`. -/
abbrev Reader (B ε α : Type) := StateT (List B) (Except ε) α

namespace Reader

variable {B ε α β : Type} {s t : List B}

variable {x : Reader B ε α}

theorem run_bind_eq_ok {f : α → Reader B ε β} {b : β} :
    (x >>= f).run s = .ok (b, t) ↔ ∃ a u, x.run s = .ok (a, u) ∧ (f a).run u = .ok (b, t) := by
  simp only [StateT.run_bind, except_bind_eq_ok, Prod.exists]

theorem run_map_eq_ok {f : α → β} {b : β} :
    (f <$> x).run s = .ok (b, t) ↔ ∃ a, x.run s = .ok (a, t) ∧ f a = b := by
  simp only [StateT.run_map, except_map_eq_ok, Prod.exists, Prod.mk.injEq]
  constructor
  · rintro ⟨a, u, hrun, hb, rfl⟩
    exact ⟨a, hrun, hb⟩
  · rintro ⟨a, hrun, hb⟩
    exact ⟨a, t, hrun, hb, rfl⟩

theorem run_pure_eq_ok {a b : α} :
    (pure a : Reader B ε α).run s = .ok (b, t) ↔ a = b ∧ s = t := by
  simp only [StateT.run_pure, except_pure_eq_ok, Prod.mk.injEq]

theorem run_throw_eq_ok {e : ε} {a : α} :
    (throw e : Reader B ε α).run s = .ok (a, t) ↔ False :=
  ⟨nofun, False.elim⟩

theorem run_get_bind {f : List B → Reader B ε β} : (get >>= f).run s = (f s).run s := rfl

/-- A reader run on a whole word, whose rest is dropped. -/
theorem run'_eq_ok {a : α} : x.run' s = .ok a ↔ ∃ t, x.run s = .ok (a, t) := by
  simp only [StateT.run'_eq, except_map_eq_ok, Prod.exists]
  constructor
  · rintro ⟨b, t, hrun, rfl⟩
    exact ⟨t, hrun⟩
  · rintro ⟨t, hrun⟩
    exact ⟨a, t, hrun, rfl⟩

/-- Repeats a reader and collects what it returns. -/
def many (take : Reader B ε α) : Nat → Reader B ε (List α)
  | 0 => return []
  | count + 1 => do
    let item ← take
    let items ← many take count
    return item :: items

section Loops

variable [DecidableEq B] {σ : Type} (stop : B) (short : ε) (round : σ → Reader B ε σ)

/-- Repeats a round until the next letter is `stop`, and skips this letter. -/
def loopUntil : Nat → σ → Reader B ε σ
  | 0, _ => throw short
  | fuel + 1, acc => do
    match ← get with
    | [] => throw short
    | letter :: rest =>
      if letter = stop then
        set rest
        return acc
      else
        let acc ← round acc
        loopUntil fuel acc

/-- The loop with the rounds its input can feed: a round which reads nothing would not be one. -/
def readUntil (init : σ) : Reader B ε σ := do
  loopUntil stop short round ((← get).length + 1) init

/-- The round which reads one item and appends it. -/
def push (take : Reader B ε α) (items : List α) : Reader B ε (List α) := do
  let item ← take
  return items ++ [item]

end Loops

end Reader

/-! ## The inversion law -/

section Inversion

variable {B ε δ α β : Type}

/-- The reader returns a value exactly on the inputs which start with a word of that value. -/
def Inverts (take : Reader B ε α) (put : α → Except δ (List B)) : Prop :=
  ∀ input a rest, take.run input = .ok (a, rest) ↔ ∃ w, put a = .ok w ∧ input = w ++ rest

namespace Inverts

variable {take : Reader B ε α} {put : α → Except δ (List B)}

theorem run_iff (h : Inverts take put) {input rest : List B} {a : α} :
    take.run input = .ok (a, rest) ↔ ∃ w, put a = .ok w ∧ input = w ++ rest :=
  h input a rest

theorem map (h : Inverts take put) (f : α → β) (g : β → α) (hfg : ∀ b, f (g b) = b)
    (hgf : ∀ a, g (f a) = a) : Inverts (f <$> take) (fun b => put (g b)) := by
  intro input b rest
  rw [Reader.run_map_eq_ok]
  constructor
  · rintro ⟨a, hrun, rfl⟩
    simpa only [hgf] using h.run_iff.mp hrun
  · intro hb
    exact ⟨g b, h.run_iff.mpr hb, hfg b⟩

/-- The induction is on the number of items: the law for one item splits the word of the first one
off, and the rest of the input is read by the remaining rounds. -/
theorem run_many (h : Inverts take put) {count : Nat} {input rest : List B} {items : List α} :
    (Reader.many take count).run input = .ok (items, rest) ↔
      items.length = count ∧ ∃ ws, items.mapM put = .ok ws ∧ input = ws.flatten ++ rest := by
  induction count generalizing input rest items with
  | zero =>
    simp only [Reader.many, Reader.run_pure_eq_ok, List.length_eq_zero_iff]
    constructor
    · rintro ⟨rfl, rfl⟩
      exact ⟨rfl, [], rfl, rfl⟩
    · rintro ⟨rfl, ws, hws, rfl⟩
      cases hws
      exact ⟨rfl, rfl⟩
  | succ count ih =>
    simp only [Reader.many, Reader.run_bind_eq_ok, Reader.run_pure_eq_ok, h.run_iff, ih]
    constructor
    · rintro ⟨a, _, ⟨w, hw, rfl⟩, as, _, ⟨hlen, ws, hws, rfl⟩, rfl, rfl⟩
      refine ⟨by simp [hlen], w :: ws, ?_, by simp⟩
      exact mapM_cons_eq_ok.mpr ⟨w, hw, ws, hws, rfl⟩
    · rintro ⟨hlen, ws, hws, rfl⟩
      obtain _ | ⟨a, as⟩ := items
      · simp at hlen
      · obtain ⟨w, hw, vs, hvs, rfl⟩ := mapM_cons_eq_ok.mp hws
        refine ⟨a, vs.flatten ++ rest, ⟨w, hw, by simp⟩, as, rest, ⟨?_, vs, hvs, rfl⟩, rfl, rfl⟩
        simpa using hlen

end Inverts

/-! ## Records

A record is read field by field.  The property collects the fields which the readers in front have
fixed already. -/

/-- The inversion law of a reader for the values with a property. -/
def Reads (P : α → Prop) (take : Reader B ε α) (put : α → Except δ (List B)) : Prop :=
  ∀ input a rest, take.run input = .ok (a, rest) ↔ P a ∧ ∃ w, put a = .ok w ∧ input = w ++ rest

variable {take : Reader B ε α}

namespace Reads

variable {P : α → Prop}

/-- The law of a whole record, whose writer may be grouped in another way. -/
theorem inverts {put put' : α → Except δ (List B)} (h : Reads (fun _ => True) take put')
    (heq : ∀ a w, put a = .ok w ↔ put' a = .ok w) : Inverts take put := by
  intro input a rest
  simp only [h input a rest, heq, true_and]

theorem bind {take : Reader B ε β} {put : β → Except δ (List B)} {next : β → Reader B ε α}
    {last : α → Except δ (List B)} (field : α → β) (h : Inverts take put)
    (hnext : ∀ b, Reads (fun a => P a ∧ field a = b) (next b) last) :
    Reads P (take >>= next) (fun a => do
      let w ← put (field a)
      let ws ← last a
      return w ++ ws) := by
  intro input a rest
  simp only [Reader.run_bind_eq_ok, h.run_iff, hnext _ _ a rest, except_bind_eq_ok,
    except_pure_eq_ok]
  constructor
  · rintro ⟨b, _, ⟨w, hw, rfl⟩, ⟨hP, rfl⟩, ws, hws, rfl⟩
    exact ⟨hP, w ++ ws, ⟨w, hw, ws, hws, rfl⟩, by simp⟩
  · rintro ⟨hP, _, ⟨w, hw, ws, hws, rfl⟩, rfl⟩
    exact ⟨field a, ws ++ rest, ⟨w, hw, by simp⟩, ⟨hP, rfl⟩, ws, hws, rfl⟩

theorem pure {a₀ : α} (hP : ∀ a, P a ↔ a = a₀) :
    Reads P (Pure.pure a₀ : Reader B ε α) (fun _ => (.ok [] : Except δ (List B))) := by
  intro input a rest
  simp only [Reader.run_pure_eq_ok, hP, Except.ok.injEq, exists_eq_left', List.nil_append,
    eq_comm (a := a₀)]

end Reads

/-! ## Terminated lists -/

/-- What one round of a loop does: it reads the word of an item and takes the item in, unless the
accumulator refuses it. -/
def Rounds {σ : Type} (round : σ → Reader B ε σ) (put : α → Except δ (List B))
    (next : σ → α → Option σ) : Prop :=
  ∀ acc input acc' rest, (round acc).run input = .ok (acc', rest) ↔
    ∃ a w, put a = .ok w ∧ input = w ++ rest ∧ next acc a = some acc'

variable {put : α → Except δ (List B)} {items : List α} {ws : List (List B)}

theorem Inverts.rounds (h : Inverts take put) :
    Rounds (Reader.push take) put (fun items item => some (items ++ [item])) := by
  intro acc input acc' rest
  simp only [Reader.push, Reader.run_bind_eq_ok, Reader.run_pure_eq_ok, h.run_iff,
    Option.some.injEq]
  constructor
  · rintro ⟨a, _, ⟨w, hw, rfl⟩, rfl, rfl⟩
    exact ⟨a, w, hw, rfl, rfl⟩
  · rintro ⟨a, w, hw, rfl, rfl⟩
    exact ⟨a, rest, ⟨w, hw, rfl⟩, rfl, rfl⟩

theorem foldlM_push (items acc : List α) :
    items.foldlM (fun items item => some (items ++ [item])) acc = some (acc ++ items) := by
  induction items generalizing acc with
  | nil => simp
  | cons a as ih => simp [ih]

namespace Rounds

variable [DecidableEq B] {σ : Type} {stop : B} {short : ε} {round : σ → Reader B ε σ}
  {put : α → Except δ (List B)} {next : σ → α → Option σ}

/-- The words of a list of items, none of which starts like the terminator, and the terminator. -/
def Terminated (stop : B) (put : α → Except δ (List B)) (next : σ → α → Option σ) (acc : σ)
    (input : List B) (acc' : σ) (rest : List B) : Prop :=
  ∃ (items : List α) (ws : List (List B)), items.mapM put = .ok ws ∧
    (∀ w ∈ ws, w.head? ≠ some stop) ∧ input = ws.flatten ++ stop :: rest ∧
    items.foldlM next acc = some acc'

/-- The induction is on the rounds which are left.  Each round shortens the input, since a word is
not empty, so the rounds last as long as the input does. -/
theorem run_loopUntil (h : Rounds round put next) (hpos : ∀ a w, put a = .ok w → w ≠ [])
    {fuel : Nat} {input rest : List B} {acc acc' : σ} (hfuel : input.length < fuel) :
    (Reader.loopUntil stop short round fuel acc).run input = .ok (acc', rest) ↔
      Terminated stop put next acc input acc' rest := by
  induction fuel generalizing input acc with
  | zero => omega
  | succ fuel ih =>
    rw [Reader.loopUntil, Reader.run_get_bind]
    constructor
    · intro hrun
      split at hrun
      case h_1 => exact (Reader.run_throw_eq_ok.mp hrun).elim
      case h_2 letter tail =>
        split_ifs at hrun with hstop
        · cases hrun
          exact ⟨[], [], rfl, by simp, by simp [hstop], rfl⟩
        · obtain ⟨acc₁, mid, hround, hloop⟩ := Reader.run_bind_eq_ok.mp hrun
          obtain ⟨a, w, hw, hinput, hnext⟩ := (h _ _ _ _).mp hround
          -- The word starts with the letter that was compared with the terminator.
          obtain ⟨b, w', rfl⟩ := List.exists_cons_of_ne_nil (hpos a w hw)
          rw [List.cons_append] at hinput
          obtain ⟨rfl, rfl⟩ := List.cons_eq_cons.mp hinput
          have hshort : mid.length < fuel := by
            simp only [List.length_cons, List.length_append] at hfuel
            omega
          obtain ⟨items, ws, hws, hheads, rfl, hfold⟩ := (ih hshort).mp hloop
          refine ⟨a :: items, (letter :: w') :: ws, ?_, ?_, by simp, ?_⟩
          · exact mapM_cons_eq_ok.mpr ⟨_, hw, ws, hws, rfl⟩
          · simpa using ⟨hstop, hheads⟩
          · simpa [hnext] using hfold
    · rintro ⟨items, ws, hws, hheads, rfl, hfold⟩
      cases items with
      | nil =>
        obtain rfl : [] = ws := by simpa [except_pure_eq_ok] using hws
        cases hfold
        simp only [List.flatten_nil, List.nil_append, if_true]
        rfl
      | cons a items =>
        obtain ⟨w, hw, ws, htail, rfl⟩ := mapM_cons_eq_ok.mp hws
        obtain ⟨b, w', rfl⟩ := List.exists_cons_of_ne_nil (hpos a w hw)
        have hb : b ≠ stop := by simpa using hheads (b :: w') (by simp)
        simp only [List.foldlM_cons, Option.bind_eq_bind, Option.bind_eq_some_iff] at hfold
        obtain ⟨acc₁, hnext, hfold⟩ := hfold
        simp only [List.flatten_cons, List.cons_append, if_neg hb]
        refine Reader.run_bind_eq_ok.mpr ⟨acc₁, ws.flatten ++ stop :: rest, ?_, ?_⟩
        · exact (h _ _ _ _).mpr ⟨a, b :: w', hw, by simp, hnext⟩
        · refine (ih ?_).mpr ⟨items, ws, htail, fun w hmem => hheads w (by simp [hmem]), rfl, hfold⟩
          simp only [List.flatten_cons, List.length_append, List.length_cons] at hfuel ⊢
          omega

theorem run_readUntil (h : Rounds round put next) (hpos : ∀ a w, put a = .ok w → w ≠ [])
    {input rest : List B} {init acc : σ} :
    (Reader.readUntil stop short round init).run input = .ok (acc, rest) ↔
      Terminated stop put next init input acc rest := by
  rw [Reader.readUntil, Reader.run_get_bind]
  exact run_loopUntil h hpos (Nat.lt_succ_self _)

end Rounds

/-- A list of items which is ended by a letter. -/
theorem Inverts.run_readUntil_push [DecidableEq B] {stop : B} {short : ε} (h : Inverts take put)
    (hpos : ∀ a w, put a = .ok w → w ≠ []) {input rest : List B} :
    (Reader.readUntil stop short (Reader.push take) []).run input = .ok (items, rest) ↔
      ∃ ws, items.mapM put = .ok ws ∧ (∀ w ∈ ws, w.head? ≠ some stop) ∧
        input = ws.flatten ++ stop :: rest := by
  rw [h.rounds.run_readUntil hpos, Rounds.Terminated]
  simp only [foldlM_push, List.nil_append, Option.some.injEq]
  constructor
  · rintro ⟨_, ws, hws, hheads, hinput, rfl⟩
    exact ⟨ws, hws, hheads, hinput⟩
  · rintro ⟨ws, hws, hheads, hinput⟩
    exact ⟨items, ws, hws, hheads, hinput, rfl⟩

/-! ## Whole words -/

/-- A reader of whole words, for the values with a property. -/
def Decodes (P : α → Prop) (read : Reader B ε α) (put : α → Except δ (List B)) : Prop :=
  ∀ word a, read.run' word = .ok a ↔ P a ∧ put a = .ok word

namespace Decodes

variable {P : α → Prop}

theorem run'_iff {read : Reader B ε α} {put : α → Except δ (List B)}
    (h : Decodes (fun _ => True) read put) {word : List B} {a : α} :
    read.run' word = .ok a ↔ put a = .ok word :=
  (h word a).trans ⟨And.right, fun hput => ⟨trivial, hput⟩⟩

/-- A field at the front of a record: what follows is read for the records with this field. -/
theorem bind {take : Reader B ε β} {put : β → Except δ (List B)} {next : β → Reader B ε α}
    {rest : α → Except δ (List B)} (field : α → β) (h : Inverts take put)
    (hnext : ∀ b, Decodes (fun a => P a ∧ field a = b) (next b) rest) :
    Decodes P (take >>= next) (fun a => do
      let w ← put (field a)
      let ws ← rest a
      return w ++ ws) := by
  intro word a
  simp only [Reader.run'_eq_ok, Reader.run_bind_eq_ok, h.run_iff, except_bind_eq_ok,
    except_pure_eq_ok]
  constructor
  · rintro ⟨t, b, ws, ⟨w, hw, rfl⟩, hrun⟩
    obtain ⟨⟨hP, rfl⟩, hws⟩ := (hnext b ws a).mp (Reader.run'_eq_ok.mpr ⟨t, hrun⟩)
    exact ⟨hP, w, hw, ws, hws, rfl⟩
  · rintro ⟨hP, w, hw, ws, hws, rfl⟩
    obtain ⟨t, hrun⟩ := Reader.run'_eq_ok.mp ((hnext (field a) ws a).mpr ⟨⟨hP, rfl⟩, hws⟩)
    exact ⟨t, field a, ws, ⟨w, hw, rfl⟩, hrun⟩

/-- The end of a record: nothing may be left, and all fields are fixed. -/
theorem finish {stop : Reader B ε Unit} {a₀ : α}
    (hstop : ∀ {s t : List B} {u : Unit}, stop.run s = .ok (u, t) ↔ s = [] ∧ t = [])
    (hP : ∀ a, P a ↔ a = a₀) :
    Decodes P (stop >>= fun _ => pure a₀) (fun _ => (.ok [] : Except δ (List B))) := by
  intro word a
  simp only [Reader.run'_eq_ok, Reader.run_bind_eq_ok, hstop, Reader.run_pure_eq_ok, hP,
    Except.ok.injEq]
  constructor
  · rintro ⟨_, _, _, ⟨rfl, _⟩, rfl, _⟩
    exact ⟨rfl, rfl⟩
  · rintro ⟨rfl, rfl⟩
    exact ⟨[], (), [], ⟨rfl, rfl⟩, rfl, rfl⟩

end Decodes

/-! ## Tags -/

section Tags

variable {T W : Type} [DecidableEq T]

/-- The arms of a match on a tag, tried in order. -/
def dispatch (otherwise : T → Except ε α) : List (T × (W → Except ε α)) → T → W → Except ε α
  | [], tag, _ => otherwise tag
  | (label, read) :: arms, tag, word =>
    if tag = label then read word else dispatch otherwise arms tag word

/-- What every arm guarantees of its own tag holds of the whole match. -/
theorem dispatch_sound {otherwise : T → Except ε α} {arms : List (T × (W → Except ε α))}
    (Q : T → W → α → Prop) (hother : ∀ tag a, otherwise tag ≠ .ok a)
    (harms : ∀ arm ∈ arms, ∀ word a, arm.2 word = .ok a → Q arm.1 word a)
    {tag : T} {word : W} {a : α} (h : dispatch otherwise arms tag word = .ok a) :
    Q tag word a := by
  induction arms with
  | nil => exact absurd h (hother tag a)
  | cons arm arms ih =>
    obtain ⟨label, read⟩ := arm
    rw [dispatch] at h
    split_ifs at h with htag
    · rw [htag]
      exact harms _ (List.mem_cons_self ..) word a h
    · exact ih (fun arm hmem => harms arm (List.mem_cons_of_mem _ hmem)) h

end Tags

/-! ## Lists of words -/

/-- A property of the words of a list which every item decides for its own word. -/
theorem forall_mem_words_iff {P : List B → Prop} {C : α → Prop}
    (h : ∀ a w, put a = .ok w → (P w ↔ C a)) (hws : items.mapM put = .ok ws) :
    (∀ w ∈ ws, P w) ↔ ∀ a ∈ items, C a := by
  induction items generalizing ws with
  | nil =>
    obtain rfl : [] = ws := by simpa [except_pure_eq_ok] using hws
    simp
  | cons a as ih =>
    obtain ⟨w, hw, vs, hvs, rfl⟩ := mapM_cons_eq_ok.mp hws
    simp only [List.forall_mem_cons, h a w hw, ih hvs]

/-- A writer which refuses some items and otherwise writes like another one. -/
theorem mapM_guarded_iff {put' : α → Except δ (List B)} {C : α → Prop}
    (h : ∀ a w, put a = .ok w ↔ C a ∧ put' a = .ok w) :
    items.mapM put = .ok ws ↔ (∀ a ∈ items, C a) ∧ items.mapM put' = .ok ws := by
  induction items generalizing ws with
  | nil => simp
  | cons a as ih =>
    simp only [mapM_cons_eq_ok, h, ih, List.forall_mem_cons]
    constructor
    · rintro ⟨w, ⟨ha, hw⟩, vs, ⟨has, hvs⟩, rfl⟩
      exact ⟨⟨ha, has⟩, w, hw, vs, hvs, rfl⟩
    · rintro ⟨⟨ha, has⟩, w, hw, vs, hvs, rfl⟩
      exact ⟨w, ⟨ha, hw⟩, vs, ⟨has, hvs⟩, rfl⟩

/-- The words of the same items in another order. -/
theorem mapM_perm {items' : List α} (h : items.Perm items') :
    ∀ {ws : List (List B)}, items.mapM put = .ok ws →
      ∃ ws', items'.mapM put = .ok ws' ∧ ws.Perm ws' := by
  induction h with
  | nil =>
    intro ws hws
    exact ⟨ws, hws, List.Perm.refl _⟩
  | cons a _ ih =>
    intro ws hws
    simp only [mapM_cons_eq_ok] at hws ⊢
    obtain ⟨w, hw, vs, hvs, rfl⟩ := hws
    obtain ⟨vs', hvs', hperm⟩ := ih hvs
    exact ⟨w :: vs', ⟨w, hw, vs', hvs', rfl⟩, hperm.cons w⟩
  | swap a b items =>
    intro ws hws
    simp only [mapM_cons_eq_ok] at hws ⊢
    obtain ⟨v, hv, _, ⟨w, hw, vs, hvs, rfl⟩, rfl⟩ := hws
    exact ⟨w :: v :: vs, ⟨w, hw, v :: vs, ⟨v, hv, vs, hvs, rfl⟩, rfl⟩, List.Perm.swap _ _ _⟩
  | trans _ _ ih₁ ih₂ =>
    intro ws hws
    obtain ⟨vs, hvs, hperm₁⟩ := ih₁ hws
    obtain ⟨us, hus, hperm₂⟩ := ih₂ hvs
    exact ⟨us, hus, hperm₁.trans hperm₂⟩

/-- Items which take at least `minimum` letters each. -/
theorem length_mul_le_of_mapM {minimum : Nat} (hmin : ∀ a w, put a = .ok w → minimum ≤ w.length)
    (h : items.mapM put = .ok ws) : items.length * minimum ≤ ws.flatten.length := by
  induction items generalizing ws with
  | nil => simp
  | cons a as ih =>
    obtain ⟨w, hw, vs, hvs, rfl⟩ := mapM_cons_eq_ok.mp h
    calc (a :: as).length * minimum
        = minimum + as.length * minimum := by simp [Nat.succ_mul, Nat.add_comm]
      _ ≤ w.length + vs.flatten.length := Nat.add_le_add (hmin a w hw) (ih hvs)
      _ = (w :: vs).flatten.length := by simp

end Inversion

end Lib
