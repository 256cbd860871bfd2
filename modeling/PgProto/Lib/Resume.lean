import Mathlib.Order.Defs.Unbundled

/-!
# Resume — computations that suspend

An asynchronous function runs up to a suspension point, hands a request to its environment and goes
on with the answer.  Whoever polls it may also drop it there, and what is left is the state it had
reached.  A `Resume` is the tree of all those behaviours; `Async` is the state and failure monad
over it.  This file defines:

* `Resume.Leads` — what one execution of a tree can lead to: a result, or a drop at a request;
* `Resume.Holds` — an assertion for every suspension point and one for every return;
* `Async.wp` — the program logic, with one rule for each primitive;
* `Async.Keeps` — frames: what a computation leaves as it was, with one rule for each primitive;
* `Resume.LeadsWith` — the executions whose answers fit the state in which they are given, and
  `Async.Preserves`: what those executions never lose;
* `Resume.drive` — the execution against a script of answers;
* `Async.under` — a computation whose environment only gives allowed answers.
-/

namespace Lib

/-- A computation over a state: it has returned, or it is suspended on a request in a state. -/
inductive Resume (Req : Type) (Ans : Req → Type) (S A : Type)
  | done (s : S) (a : A)
  | wait (s : S) (r : Req) (k : Ans r → Resume Req Ans S A)

/-- How an execution ends. -/
inductive Outcome (Req A : Type)
  | returned (a : A)
  | dropped (r : Req)

/-- `Q` for a result, `I` for a drop. -/
def Outcome.Meets {Req S A : Type} (I : Req → S → Prop) (Q : A → S → Prop) :
    Outcome Req A → S → Prop
  | .returned a => Q a
  | .dropped r => I r

namespace Resume

variable {Req : Type} {Ans : Req → Type} {S A B : Type}

def andThen (m : Resume Req Ans S A) (f : S → A → Resume Req Ans S B) : Resume Req Ans S B :=
  match m with
  | .done s a => f s a
  | .wait s r k => .wait s r fun answer => (k answer).andThen f

/-! ## Executions -/

/-- The environment answers each request or the computation is dropped at it. -/
inductive Leads : Resume Req Ans S A → Outcome Req A → S → Prop
  | returned {s : S} {a : A} : Leads (.done s a) (.returned a) s
  | dropped {s : S} {r : Req} {k : Ans r → Resume Req Ans S A} :
      Leads (.wait s r k) (.dropped r) s
  | answered {s t : S} {r : Req} {k : Ans r → Resume Req Ans S A} {outcome : Outcome Req A}
      (answer : Ans r) : Leads (k answer) outcome t → Leads (.wait s r k) outcome t

/-- The execution whose requests are answered by a script; it is dropped where the script ends. -/
def drive : Resume Req Ans S A → List ((r : Req) → Option (Ans r)) → Outcome Req A × S
  | .done s a, _ => (.returned a, s)
  | .wait s r _, [] => (.dropped r, s)
  | .wait s r k, reply :: script =>
    match reply r with
    | none => (.dropped r, s)
    | some answer => (k answer).drive script

theorem drive_leads (m : Resume Req Ans S A) (script : List ((r : Req) → Option (Ans r))) :
    m.Leads (m.drive script).1 (m.drive script).2 := by
  induction m generalizing script with
  | done s a => exact Leads.returned
  | wait s r k ih =>
    cases script with
    | nil => exact Leads.dropped
    | cons reply script =>
      cases hreply : reply r with
      | none =>
        simp only [drive, hreply]
        exact Leads.dropped
      | some answer =>
        simp only [drive, hreply]
        exact Leads.answered answer (ih answer script)

/-- Whatever is asked has an answer, so some execution returns. -/
theorem exists_returned [∀ r, Nonempty (Ans r)] (m : Resume Req Ans S A) :
    ∃ a t, m.Leads (.returned a) t := by
  induction m with
  | done s a => exact ⟨a, s, Leads.returned⟩
  | wait s r k ih =>
    obtain ⟨answer⟩ : Nonempty (Ans r) := inferInstance
    obtain ⟨a, t, hleads⟩ := ih answer
    exact ⟨a, t, Leads.answered answer hleads⟩

/-- The executions in which every answer fits the state at the request. -/
inductive LeadsWith (fits : S → (r : Req) → Ans r → Prop) :
    Resume Req Ans S A → Outcome Req A → S → Prop
  | returned {s : S} {a : A} : LeadsWith fits (.done s a) (.returned a) s
  | dropped {s : S} {r : Req} {k : Ans r → Resume Req Ans S A} :
      LeadsWith fits (.wait s r k) (.dropped r) s
  | answered {s t : S} {r : Req} {k : Ans r → Resume Req Ans S A} {outcome : Outcome Req A}
      {answer : Ans r} : fits s r answer → LeadsWith fits (k answer) outcome t →
      LeadsWith fits (.wait s r k) outcome t

variable {fits : S → (r : Req) → Ans r → Prop} {m : Resume Req Ans S A}
  {f : S → A → Resume Req Ans S B}

/-- An execution of a sequence stops in the first part or goes through it. -/
theorem leadsWith_andThen {outcome : Outcome Req B} {t : S}
    (h : (m.andThen f).LeadsWith fits outcome t) :
    (∃ r, m.LeadsWith fits (.dropped r) t) ∨
      ∃ a u, m.LeadsWith fits (.returned a) u ∧ (f u a).LeadsWith fits outcome t := by
  induction m with
  | done s a => exact Or.inr ⟨a, s, LeadsWith.returned, h⟩
  | wait s r k ih =>
    cases h with
    | dropped => exact Or.inl ⟨r, LeadsWith.dropped⟩
    | answered hfits hrest =>
      obtain ⟨r', hfirst⟩ | ⟨a, u, hfirst, hsecond⟩ := ih _ hrest
      · exact Or.inl ⟨r', LeadsWith.answered hfits hfirst⟩
      · exact Or.inr ⟨a, u, LeadsWith.answered hfits hfirst, hsecond⟩

/-- The tree in which the environment only gives allowed answers. -/
def under (allowed : (r : Req) → Ans r → Prop) :
    Resume Req Ans S A → Resume Req (fun r => { answer : Ans r // allowed r answer }) S A
  | .done s a => .done s a
  | .wait s r k => .wait s r fun answer => (k answer.1).under allowed

theorem under_andThen {allowed : (r : Req) → Ans r → Prop} (m : Resume Req Ans S A)
    (f : S → A → Resume Req Ans S B) :
    (m.andThen f).under allowed =
      (m.under allowed).andThen fun s a => (f s a).under allowed := by
  induction m with
  | done s a => rfl
  | wait s r k ih =>
    simp only [andThen, under, Resume.wait.injEq, heq_eq_eq, true_and]
    funext answer
    exact ih answer.1

/-! ## Assertions -/

/-- `I` holds at every suspension point and `Q` at every return. -/
def Holds (I : Req → S → Prop) (Q : A → S → Prop) : Resume Req Ans S A → Prop
  | .done s a => Q a s
  | .wait s r k => I r s ∧ ∀ answer, (k answer).Holds I Q

variable {I I' : Req → S → Prop} {Q Q' : A → S → Prop}

theorem Holds.mono (h : m.Holds I Q) (hI : ∀ r s, I r s → I' r s) (hQ : ∀ a s, Q a s → Q' a s) :
    m.Holds I' Q' := by
  induction m with
  | done s a => exact hQ a s h
  | wait s r k ih => exact ⟨hI r s h.1, fun answer => ih answer (h.2 answer)⟩

theorem holds_andThen {Q : B → S → Prop} :
    (m.andThen f).Holds I Q ↔ m.Holds I fun a s => (f s a).Holds I Q := by
  induction m with
  | done s a => exact Iff.rfl
  | wait s r k ih => exact and_congr Iff.rfl (forall_congr' ih)

/-- What is asserted of a computation holds of everything its executions lead to. -/
theorem Holds.sound {outcome : Outcome Req A} {t : S} (h : m.Holds I Q) (hl : m.Leads outcome t) :
    outcome.Meets I Q t := by
  induction hl with
  | returned => exact h
  | dropped => exact h.1
  | answered answer _ ih => exact ih (h.2 answer)

end Resume

/-! ## The monad -/

/-- Computations that read and write a state, suspend, and may fail. -/
def Async (Req : Type) (Ans : Req → Type) (S E A : Type) : Type :=
  S → Resume Req Ans S (Except E A)

namespace Async

variable {Req : Type} {Ans : Req → Type} {S E A B : Type}

/-- The continuation of a computation that may have failed. -/
def next (f : A → Async Req Ans S E B) (s : S) : Except E A → Resume Req Ans S (Except E B)
  | .ok a => f a s
  | .error failure => .done s (.error failure)

instance : Monad (Async Req Ans S E) where
  pure a := fun s => .done s (.ok a)
  bind m f := fun s => (m s).andThen (next f)

def get : Async Req Ans S E S := fun s => .done s (.ok s)

def modify (f : S → S) : Async Req Ans S E Unit := fun s => .done (f s) (.ok ())

def fail (failure : E) : Async Req Ans S E A := fun s => .done s (.error failure)

/-- Suspends until the environment answers. -/
def ask (r : Req) : Async Req Ans S E (Ans r) := fun s => .wait s r fun answer => .done s (.ok answer)

/-- Runs a computation and hands its failure over as a value. -/
def attempt (m : Async Req Ans S E A) : Async Req Ans S E (Except E A) :=
  fun s => (m s).andThen fun t result => .done t (.ok result)

/-! ## Program logic -/

/-- From `s`, every suspension point satisfies `I`, every result `Q` and every failure `F`. -/
def wp (m : Async Req Ans S E A) (I : Req → S → Prop) (F : E → S → Prop) (Q : A → S → Prop)
    (s : S) : Prop :=
  (m s).Holds I fun
    | .ok a => Q a
    | .error failure => F failure

variable {I : Req → S → Prop} {F : E → S → Prop} {s : S}

variable {m m : Async Req Ans S E A} {Q : A → S → Prop} {f : A → Async Req Ans S E B}

theorem wp_conseq {I' : Req → S → Prop} {F' : E → S → Prop} {Q' : A → S → Prop} (h : m.wp I F Q s)
    (hI : ∀ r t, I r t → I' r t) (hF : ∀ failure t, F failure t → F' failure t)
    (hQ : ∀ a t, Q a t → Q' a t) : m.wp I' F' Q' s := by
  refine Resume.Holds.mono h hI ?_
  intro result t hresult
  cases result with
  | ok a => exact hQ a t hresult
  | error failure => exact hF failure t hresult

theorem wp_mono {F' : E → S → Prop} {Q' : A → S → Prop} (h : m.wp I F Q s)
    (hF : ∀ failure t, F failure t → F' failure t) (hQ : ∀ a t, Q a t → Q' a t) : m.wp I F' Q' s :=
  wp_conseq h (fun _ _ hI => hI) hF hQ

@[simp] theorem wp_pure {a : A} :
    wp (pure a : Async Req Ans S E A) I F Q s ↔ Q a s := Iff.rfl

@[simp] theorem wp_bind {Q : B → S → Prop} :
    wp (m >>= f) I F Q s ↔ m.wp I F (fun a => (f a).wp I F Q) s := by
  have hnext : ∀ (t : S) (result : Except E A),
      ((next f t result).Holds I fun
        | .ok b => Q b
        | .error failure => F failure) ↔
      (match result with
        | .ok a => (f a).wp I F Q
        | .error failure => F failure) t := by
    intro t result
    cases result with
    | ok a | error failure => exact Iff.rfl
  refine Iff.trans Resume.holds_andThen ?_
  constructor
  · intro h
    exact Resume.Holds.mono h (fun _ _ hI => hI) fun result t => (hnext t result).1
  · intro h
    exact Resume.Holds.mono h (fun _ _ hI => hI) fun result t => (hnext t result).2

@[simp] theorem wp_get {Q : S → S → Prop} :
    wp (get : Async Req Ans S E S) I F Q s ↔ Q s s := Iff.rfl

@[simp] theorem wp_modify {f : S → S} {Q : Unit → S → Prop} :
    wp (modify f : Async Req Ans S E Unit) I F Q s ↔ Q () (f s) := Iff.rfl

@[simp] theorem wp_ask {r : Req} {Q : Ans r → S → Prop} :
    wp (ask r : Async Req Ans S E (Ans r)) I F Q s ↔ I r s ∧ ∀ answer, Q answer s := Iff.rfl

theorem wp_attempt {Q : Except E A → S → Prop} :
    wp m.attempt I F Q s ↔
      m.wp I (fun failure => Q (.error failure)) (fun a => Q (.ok a)) s := by
  refine Iff.trans Resume.holds_andThen ?_
  constructor <;>
  · intro h
    refine Resume.Holds.mono h (fun _ _ hI => hI) ?_
    intro result t hresult
    cases result with
    | ok a | error failure => exact hresult

/-- What holds wherever a computation stops holds of everything its executions lead to. -/
theorem wp_sound {P : S → Prop} {outcome : Outcome Req (Except E A)} {t : S}
    (h : m.wp (fun _ => P) (fun _ => P) (fun _ => P) s) (hl : (m s).Leads outcome t) : P t := by
  have hmeets := Resume.Holds.sound h hl
  rcases outcome with (failure | a) | r
  · exact hmeets
  · exact hmeets
  · exact hmeets

/-! ## Allowed answers -/

section Under

variable (allowed : (r : Req) → Ans r → Prop)

/-- The computation, asked only with allowed answers. -/
def under (m : Async Req Ans S E A) :
    Async Req (fun r => { answer : Ans r // allowed r answer }) S E A :=
  fun s => (m s).under allowed

@[simp] theorem wp_under_bind {Q : B → S → Prop} :
    ((m >>= f).under allowed).wp I F Q s ↔
      (m.under allowed).wp I F (fun a => ((f a).under allowed).wp I F Q) s := by
  have hbind : (m >>= f).under allowed = m.under allowed >>= fun a => (f a).under allowed := by
    funext t
    refine (Resume.under_andThen _ _).trans (congrArg _ ?_)
    funext u result
    cases result with
    | ok a | error failure => rfl
  rw [hbind, wp_bind]

@[simp] theorem wp_under_ask {r : Req} {Q : Ans r → S → Prop} :
    ((ask r : Async Req Ans S E (Ans r)).under allowed).wp I F Q s ↔
      I r s ∧ ∀ answer, allowed r answer → Q answer s := by
  refine and_congr_right fun _ => ?_
  constructor
  · intro h answer hallowed
    exact h ⟨answer, hallowed⟩
  · intro h answer
    exact h answer.1 answer.2

end Under

/-! ## Frames -/

/-- The states of a computation stay related to the one it starts in, and its failures satisfy
`G`. -/
def Keeps (R : S → S → Prop) (G : E → Prop) (m : Async Req Ans S E A) : Prop :=
  ∀ s, m.wp (fun _ => R s) (fun failure t => G failure ∧ R s t) (fun _ => R s) s

section Keeps

variable {R : S → S → Prop} {G : E → Prop} {m : Async Req Ans S E A}

/-- A frame as a step of the program logic. -/
theorem Keeps.wp {Q : A → S → Prop} (h : m.Keeps R G) (hI : ∀ r t, R s t → I r t)
    (hF : ∀ failure t, G failure → R s t → F failure t) (hQ : ∀ a t, R s t → Q a t) :
    m.wp I F Q s :=
  wp_conseq (h s) hI (fun failure t hfailure => hF failure t hfailure.1 hfailure.2) hQ

theorem keeps_pure [Std.Refl R] (a : A) : (pure a : Async Req Ans S E A).Keeps R G :=
  fun s => refl s

theorem keeps_get [Std.Refl R] : (get : Async Req Ans S E S).Keeps R G :=
  fun s => refl s

theorem keeps_modify {f : S → S} (h : ∀ s, R s (f s)) :
    (modify f : Async Req Ans S E Unit).Keeps R G :=
  h

theorem keeps_fail [Std.Refl R] {failure : E} (h : G failure) :
    (fail failure : Async Req Ans S E A).Keeps R G :=
  fun s => ⟨h, refl s⟩

theorem keeps_ask [Std.Refl R] (r : Req) : (ask r : Async Req Ans S E (Ans r)).Keeps R G :=
  fun s => ⟨refl s, fun _ => refl s⟩

theorem Keeps.bind [IsTrans S R] (hm : m.Keeps R G) (hf : ∀ a, (f a).Keeps R G) :
    (m >>= f).Keeps R G := by
  intro s
  rw [wp_bind]
  apply hm.wp
  · intro _ t ht
    exact ht
  · intro failure t hfailure ht
    exact ⟨hfailure, ht⟩
  · intro a t ht
    apply (hf a).wp
    · intro _ u hu
      exact trans_of R ht hu
    · intro failure u hfailure hu
      exact ⟨hfailure, trans_of R ht hu⟩
    · intro _ u hu
      exact trans_of R ht hu

end Keeps

/-! ## Invariants under fitting answers -/

/-- Every execution with fitting answers that starts in `P` stops in `P`. -/
def Preserves (fits : S → (r : Req) → Ans r → Prop) (P : S → Prop) (m : Async Req Ans S E A) :
    Prop :=
  ∀ s, P s → ∀ outcome t, (m s).LeadsWith fits outcome t → P t

section Preserves

variable {fits : S → (r : Req) → Ans r → Prop} {P : S → Prop}

theorem preserves_modify {f : S → S} (h : ∀ s, P s → P (f s)) :
    (modify f : Async Req Ans S E Unit).Preserves fits P := by
  intro s hs outcome t hleads
  cases hleads
  exact h s hs

theorem preserves_pure (a : A) : (pure a : Async Req Ans S E A).Preserves fits P := by
  intro s hs outcome t hleads
  cases hleads
  exact hs

theorem preserves_get : (get : Async Req Ans S E S).Preserves fits P := by
  intro s hs outcome t hleads
  cases hleads
  exact hs

theorem preserves_fail (failure : E) : (fail failure : Async Req Ans S E A).Preserves fits P := by
  intro s hs outcome t hleads
  cases hleads
  exact hs

/-- The answer fits the state, and nothing happens between the request and what follows it. -/
theorem preserves_ask_bind {r : Req} {f : Ans r → Async Req Ans S E A}
    (hf : ∀ s answer, P s → fits s r answer →
      ∀ outcome t, (f answer s).LeadsWith fits outcome t → P t) :
    (ask r >>= f : Async Req Ans S E A).Preserves fits P := by
  intro s hs outcome t hleads
  cases hleads with
  | dropped => exact hs
  | answered hfits hrest => exact hf s _ hs hfits outcome t hrest

theorem preserves_ask (r : Req) : (ask r : Async Req Ans S E (Ans r)).Preserves fits P := by
  intro s hs outcome t hleads
  cases hleads with
  | dropped => exact hs
  | answered hfits hrest =>
    cases hrest
    exact hs

theorem Preserves.bind (hm : m.Preserves fits P) (hf : ∀ a, (f a).Preserves fits P) :
    (m >>= f).Preserves fits P := by
  intro s hs outcome t hleads
  obtain ⟨r, hfirst⟩ | ⟨result, u, hfirst, hsecond⟩ := Resume.leadsWith_andThen hleads
  · exact hm s hs _ t hfirst
  · have hu : P u := hm s hs _ u hfirst
    cases result with
    | ok a => exact hf a u hu outcome t hsecond
    | error failure =>
      cases hsecond
      exact hu

theorem Preserves.attempt (hm : m.Preserves fits P) : m.attempt.Preserves fits P := by
  intro s hs outcome t hleads
  obtain ⟨r, hfirst⟩ | ⟨result, u, hfirst, hsecond⟩ := Resume.leadsWith_andThen hleads
  · exact hm s hs _ t hfirst
  · cases hsecond
    exact hm s hs _ _ hfirst

end Preserves

end Async
end Lib
