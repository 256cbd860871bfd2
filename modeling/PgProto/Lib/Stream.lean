import Mathlib.Data.List.Forall2

/-!
# Stream — decoders which work on a growing buffer

A decoder looks at the buffer of unread letters and takes an item off its front, asks for more
letters, or fails.  A reader of a connection appends each chunk which arrives to the buffer and
calls the decoder until it asks for more.

`Incremental` carries the three properties by which the cuts between chunks cannot matter: asking
leaves the buffer alone, an item takes at least one letter, and what was decided is not revised when
more letters arrive.

* `Incremental.drain_append` — letters which arrive later are decoded from what is left;
* `Incremental.feed_eq_drain` — any chunks decode like their concatenation;
* `Incremental.feed_words` — the words of a list of items decode to exactly these items.
-/

namespace Lib

/-- What a reader has after some letters: the items, and the failure which ended it or the letters
which are left. -/
structure Decoded (B ε α : Type) where
  items : List α
  rest : Except ε (List B)

namespace Decoded

variable {B ε α : Type}

/-- Goes on with the letters which are left. -/
def resume (r : Decoded B ε α) (next : List B → Decoded B ε α) : Decoded B ε α :=
  match r.rest with
  | .error _ => r
  | .ok rest =>
    { items := r.items ++ (next rest).items
      rest := (next rest).rest }

/-- An item in front. -/
def push (a : α) (r : Decoded B ε α) : Decoded B ε α :=
  { r with items := a :: r.items }

theorem push_resume (a : α) (r : Decoded B ε α) (next : List B → Decoded B ε α) :
    (r.push a).resume next = (r.resume next).push a := by
  obtain ⟨items, _ | rest⟩ := r <;> rfl

theorem resume_congr {r : Decoded B ε α} {next next' : List B → Decoded B ε α}
    (h : ∀ rest, r.rest = .ok rest → next rest = next' rest) : r.resume next = r.resume next' := by
  obtain ⟨items, _ | rest⟩ := r
  · rfl
  · simp only [resume, h rest rfl]

end Decoded

structure Incremental (B ε α : Type) where
  decode : List B → Except ε (Option α) × List B
  waits : ∀ s, (decode s).1 = .ok none → (decode s).2 = s
  progress : ∀ s a, (decode s).1 = .ok (some a) → (decode s).2.length < s.length
  stable : ∀ s t, (decode s).1 ≠ .ok none → decode (s ++ t) = ((decode s).1, (decode s).2 ++ t)

namespace Incremental

variable {B ε α : Type} (d : Incremental B ε α)

/-- Calls the decoder until it asks for more letters or fails. -/
def drain (s : List B) : Decoded B ε α :=
  match _h : (d.decode s).1 with
  | .error e => { items := [], rest := .error e }
  | .ok none => { items := [], rest := .ok (d.decode s).2 }
  | .ok (some a) => (drain (d.decode s).2).push a
termination_by s.length
decreasing_by exact d.progress s a _h

/-- A connection: each chunk is appended to the buffer, which is then drained. -/
def feed (buffer : List B) : List (List B) → Decoded B ε α
  | [] => { items := [], rest := .ok buffer }
  | chunk :: chunks => (d.drain (buffer ++ chunk)).resume fun rest => feed rest chunks

variable {d}

theorem drain_of_wait {s : List B} (h : (d.decode s).1 = .ok none) :
    d.drain s = { items := [], rest := .ok s } := by
  rw [drain]
  split
  case h_1 e he => rw [h] at he; cases he
  case h_2 => rw [d.waits s h]
  case h_3 a ha => rw [h] at ha; cases ha

theorem drain_of_error {s : List B} {e : ε} (h : (d.decode s).1 = .error e) :
    d.drain s = { items := [], rest := .error e } := by
  rw [drain]
  split
  case h_1 e' he => rw [h] at he; cases he; rfl
  case h_2 he => rw [h] at he; cases he
  case h_3 a ha => rw [h] at ha; cases ha

theorem drain_of_item {s : List B} {a : α} (h : (d.decode s).1 = .ok (some a)) :
    d.drain s = (d.drain (d.decode s).2).push a := by
  rw [drain]
  split
  case h_1 e he => rw [h] at he; cases he
  case h_2 he => rw [h] at he; cases he
  case h_3 a' ha => rw [h] at ha; cases ha; rfl

/-- A reader which did not fail stops where the decoder asks for more. -/
theorem waits_of_drain {s rest : List B} (h : (d.drain s).rest = .ok rest) :
    (d.decode rest).1 = .ok none := by
  induction s using drain.induct d with
  | case1 s e hs =>
    rw [drain_of_error hs] at h
    cases h
  | case2 s hs =>
    rw [drain_of_wait hs] at h
    cases h
    exact hs
  | case3 s a hs ih =>
    rw [drain_of_item hs] at h
    exact ih h

/-- Whatever the decoder decides on the letters which are there it decides in front of `t` as well;
only where it would ask for more does `t` come in. -/
theorem drain_append (s t : List B) :
    d.drain (s ++ t) = (d.drain s).resume fun rest => d.drain (rest ++ t) := by
  induction s using drain.induct d with
  | case1 s e hs =>
    have happend : (d.decode (s ++ t)).1 = .error e := by
      rw [d.stable s t (by simp [hs])]
      exact hs
    rw [drain_of_error hs, drain_of_error happend]
    rfl
  | case2 s hs =>
    rw [drain_of_wait hs]
    rfl
  | case3 s a hs ih =>
    have hdecode := d.stable s t (by simp [hs])
    have happend : (d.decode (s ++ t)).1 = .ok (some a) := by
      rw [hdecode]
      exact hs
    calc d.drain (s ++ t)
        = (d.drain ((d.decode s).2 ++ t)).push a := by rw [drain_of_item happend, hdecode]
      _ = ((d.drain (d.decode s).2).resume fun rest => d.drain (rest ++ t)).push a := by rw [ih]
      _ = (d.drain s).resume fun rest => d.drain (rest ++ t) := by
          rw [← Decoded.push_resume, ← drain_of_item hs]

/-- The cuts between chunks do not matter: a connection whose buffer asks for more decodes what
arrives like one chunk. -/
theorem feed_eq_drain {buffer : List B} (h : (d.decode buffer).1 = .ok none)
    (chunks : List (List B)) : d.feed buffer chunks = d.drain (buffer ++ chunks.flatten) := by
  induction chunks generalizing buffer with
  | nil =>
    rw [List.flatten_nil, List.append_nil, drain_of_wait h]
    rfl
  | cons chunk chunks ih =>
    calc d.feed buffer (chunk :: chunks)
        = (d.drain (buffer ++ chunk)).resume fun rest => d.feed rest chunks := rfl
      _ = (d.drain (buffer ++ chunk)).resume fun rest => d.drain (rest ++ chunks.flatten) :=
          Decoded.resume_congr fun rest hrest => ih (waits_of_drain hrest)
      _ = d.drain (buffer ++ (chunk :: chunks).flatten) := by
          rw [← drain_append, List.flatten_cons, List.append_assoc]

variable (d) in
/-- A word of an item: the decoder takes exactly this word off the buffer, whatever follows. -/
def Word (w : List B) (a : α) : Prop :=
  ∀ t, d.decode (w ++ t) = (.ok (some a), t)

theorem drain_words {ws : List (List B)} {items : List α} (hwords : List.Forall₂ d.Word ws items)
    {t : List B} (ht : (d.decode t).1 = .ok none) :
    d.drain (ws.flatten ++ t) = { items := items, rest := .ok t } := by
  induction hwords with
  | nil => exact drain_of_wait ht
  | @cons w a ws items hw _ ih =>
    have hdecode := hw (ws.flatten ++ t)
    rw [List.flatten_cons, List.append_assoc, drain_of_item (a := a) (by rw [hdecode]), hdecode,
      ih]
    rfl

theorem feed_words {ws : List (List B)} {items : List α} (hwords : List.Forall₂ d.Word ws items)
    (hnil : (d.decode []).1 = .ok none) {chunks : List (List B)}
    (hchunks : chunks.flatten = ws.flatten) :
    d.feed [] chunks = { items := items, rest := .ok [] } := by
  rw [feed_eq_drain hnil, List.nil_append, hchunks, ← List.append_nil ws.flatten]
  exact drain_words hwords hnil

end Incremental

end Lib
