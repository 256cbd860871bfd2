import PgProto.Typestate.Resources

/-!
# ResourceNames — the client's names for statements and portals

A lookup in `ResourceScope` goes through the client's name, while resources end under the name that
was sent to the server.  A client name must therefore not outlive what it stands for.

* `Resolves` at both tables — every client name stands for a live resource;
* `Displaces` — the calls that break it: the unnamed statement or portal is replaced while it has
  another client name;
* `Step.displaced` — what is left behind by such a call.
-/

namespace PgProto
namespace ResourceScope

open Lib

/-! ## Guards -/

variable {s s' : ResourceScope} {c u : Bytes} {resources : PartialMap Bytes Nat}
  {clientResources : PartialMap Bytes (Bytes × Nat)} {h : List ResourceEntry}

theorem Step.prepared_free {q : Bytes} {types : List UInt32} {prepared : PreparedStatement × Parse}
    (hstep : s.Step (.prepare c u q types) (.prepared (.ok prepared)) s') :
    collides s.statements s.clientStatements c u = false := by
  rcases s.prepare_cases c u q types with ⟨-, heq⟩ | ⟨hfree, -⟩
  · simp only [Step, call, heq] at hstep
    cases hstep
  · exact hfree

theorem Step.bound_free {token : PreparedStatement} {formats : List Int16}
    {parameters : List (Option Bytes)} {results : List Int16} {bound : Portal × Bind}
    (hstep : s.Step (.bind token c u formats parameters results) (.bound (.ok bound)) s') :
    s.statements token.upstreamName = some token.generation ∧
      collides s.portals s.clientPortals c u = false := by
  rcases s.bind_cases token c u formats parameters results with
    ⟨-, heq⟩ | ⟨-, -, heq⟩ | ⟨hlive, hfree, -⟩
  · simp only [Step, call, heq] at hstep
    cases hstep
  · simp only [Step, call, heq] at hstep
    cases hstep
  · exact ⟨hlive, hfree⟩

theorem free_of_not_collides (h : collides resources clientResources c u = false) (hu : u ≠ []) :
    resources u = none := by
  have hfirst := (Bool.or_eq_false_iff.1 h).1
  cases u with
  | nil => exact absurd rfl hu
  | cons byte u => simpa using hfirst

/-! ## Displaced names -/

/-- Another client name than `c` stands for the unnamed resource. -/
def OtherUnnamed (clientResources : PartialMap Bytes (Bytes × Nat)) (c : Bytes) : Prop :=
  ∃ c' g, c' ≠ c ∧ clientResources c' = some ([], g)

/-- The call replaces the unnamed resource under the name `c`, and another client name stands for
it. -/
def Displaces (s : ResourceScope) : ResourceCall → Prop
  | .prepare c u _ _ =>
    u = [] ∧ collides s.statements s.clientStatements c u = false ∧
      OtherUnnamed s.clientStatements c
  | .bind token c u _ _ _ =>
    u = [] ∧ s.statements token.upstreamName = some token.generation ∧
      collides s.portals s.clientPortals c u = false ∧ OtherUnnamed s.clientPortals c
  | _ => False

/-- Every client name stands for a live resource. -/
structure AllResolve (s : ResourceScope) : Prop where
  statements : Resolves s.statements s.clientStatements
  portals : Resolves s.portals s.clientPortals

/-- The new name is the only one of its resource, unless the call displaces one. -/
theorem own_name (hresolves : Resolves resources clientResources)
    (hfree : collides resources clientResources c u = false)
    (hother : u = [] → ¬ OtherUnnamed clientResources c) :
    ∀ c' g, clientResources c' = some (u, g) → c' = c := by
  intro c' g hentry
  by_contra hne
  by_cases hu : u = []
  · subst hu
    exact hother rfl ⟨c', g, hne, hentry⟩
  · have hlive := hresolves c' u g hentry
    rw [free_of_not_collides hfree hu] at hlive
    cases hlive

theorem AllResolve.step {i : ResourceCall} {o : ResourceReply} (h : s.AllResolve)
    (hstep : s.Step i o s') (hkeeps : ¬ s.Displaces i) : s'.AllResolve := by
  have hclosed : ∀ {resources : PartialMap Bytes Nat} {u : Bytes} {g : Nat},
      resources u = some g → ∀ (_ : Bytes) (g' : Nat), resources u = some g' →
        ((u != u || g' != g) : Bool) = false := by
    intro resources u g hlive _ g' hlive'
    rw [hlive] at hlive'
    cases hlive'
    simp
  cases hstep.effect with
  | prepared =>
    have hfree := hstep.prepared_free
    refine ⟨h.statements.insert (own_name h.statements hfree ?_), h.portals⟩
    rintro rfl hother
    exact hkeeps ⟨rfl, hfree, hother⟩
  | bound =>
    obtain ⟨hlive, hfree⟩ := hstep.bound_free
    refine ⟨h.statements, h.portals.insert (own_name h.portals hfree ?_)⟩
    rintro rfl hother
    exact hkeeps ⟨rfl, hlive, hfree, hother⟩
  | closedStatement hlive => exact ⟨h.statements.remove (hclosed hlive), h.portals⟩
  | closedPortal hlive => exact ⟨h.statements, h.portals.remove (hclosed hlive)⟩
  | simpleQueryBoundary => exact ⟨h.statements.remove fun _ _ _ => rfl, h.portals⟩
  | transactionEnded => exact ⟨h.statements, h.portals.remove fun _ _ _ => rfl⟩
  | _ => exact h

theorem allResolve_run (hrun : Run h s) (hkeeps : ∀ e ∈ h, ¬ e.before.Displaces e.input) :
    s.AllResolve := by
  induction hrun with
  | nil => exact ⟨resolves_empty, resolves_empty⟩
  | snoc _ hstep ih =>
    refine (ih fun e he => hkeeps e (List.mem_append_left _ he)).step hstep ?_
    exact hkeeps _ (List.mem_append_right _ (List.mem_singleton_self _))

theorem not_resolves_displaced {next : Nat} (hresolves : Resolves resources clientResources)
    (hbelow : ∀ g, resources [] = some g → g < next) (hother : OtherUnnamed clientResources c) :
    ¬ Resolves (resources.insert [] next) (clientResources.insert c ([], next)) := by
  obtain ⟨c', g, hne, hentry⟩ := hother
  intro hafter
  have hold : clientResources.insert c ([], next) c' = some ([], g) :=
    PartialMap.insert_eq_some.2 (.inr ⟨hne, hentry⟩)
  have hlt : g < next := hbelow g (hresolves c' [] g hentry)
  rcases PartialMap.insert_eq_some.1 (hafter c' [] g hold) with ⟨-, rfl⟩ | ⟨hne', -⟩
  · exact Nat.lt_irrefl _ hlt
  · exact hne' rfl

theorem Step.displaced {i : ResourceCall} {o : ResourceReply} (hstep : s.Step i o s')
    (h : s.AllResolve) (hstatements : WellStamped s.statements s.nextGeneration)
    (hportals : WellStamped s.portals s.nextGeneration) (hdisplaces : s.Displaces i) :
    ¬ s'.AllResolve := by
  intro hafter
  cases i with
  | prepare c u q types =>
    obtain ⟨rfl, hfree, hother⟩ := hdisplaces
    rcases s.prepare_cases c [] q types with ⟨htaken, -⟩ | ⟨-, heq⟩
    · rw [hfree] at htaken
      cases htaken
    · simp only [Step, call, heq] at hstep
      cases hstep
      exact not_resolves_displaced h.statements (fun g => hstatements.below) hother
        hafter.statements
  | bind token c u formats parameters results =>
    obtain ⟨rfl, hlive, hfree, hother⟩ := hdisplaces
    rcases s.bind_cases token c [] formats parameters results with
      ⟨hdead, -⟩ | ⟨-, htaken, -⟩ | ⟨-, -, heq⟩
    · exact hdead hlive
    · rw [hfree] at htaken
      cases htaken
    · simp only [Step, call, heq] at hstep
      cases hstep
      exact not_resolves_displaced h.portals (fun g => hportals.below) hother hafter.portals
  | _ => exact hdisplaces

theorem statements_wellStamped (hrun : Run h s) (hroom : ∀ e ∈ h, HasRoom e) :
    WellStamped s.statements s.nextGeneration :=
  Stamped.run_wellStamped hrun (stamped_of_run hrun hroom Step.statement_stamped) wellStamped_empty

theorem portals_wellStamped (hrun : Run h s) (hroom : ∀ e ∈ h, HasRoom e) :
    WellStamped s.portals s.nextGeneration :=
  Stamped.run_wellStamped hrun (stamped_of_run hrun hroom Step.portal_stamped) wellStamped_empty

/-! ## Names of live resources -/

/-- A client name that resolves is accepted by every operation, and one that does not can be used
for a new resource. -/
structure NamesLive (s : ResourceScope) : Prop where
  statement : ∀ c token, s.statement c = some token → s.AcceptsStatement token True
  portal : ∀ c token, s.portal c = some token → s.AcceptsPortal token True
  prepare : ∀ c u q types, s.statement c = none → u = [] ∨ s.statements u = none →
    ∃ prepared, (s.prepare c u q types).1 = .ok prepared
  bind : ∀ token c u formats parameters results,
    s.statements token.upstreamName = some token.generation → s.portal c = none →
    u = [] ∨ s.portals u = none →
      ∃ bound, (s.bind token c u formats parameters results).1 = .ok bound

theorem not_collides_of_free (hc : clientResources c = none) (hu : u = [] ∨ resources u = none) :
    collides resources clientResources c u = false := by
  rcases hu with rfl | hu
  · simp [collides, hc]
  · simp [collides, hc, hu]

theorem namesLive_iff (s : ResourceScope) : s.NamesLive ↔ s.AllResolve := by
  constructor
  · intro h
    refine ⟨?_, ?_⟩
    · intro c u g hentry
      have htoken : s.statement c = some ⟨c, u, g⟩ := by simp [ResourceScope.statement, hentry]
      exact (s.acceptsStatement_live ⟨c, u, g⟩).describe.1
        ((h.statement c _ htoken).describe.2 trivial)
    · intro c u g hentry
      have htoken : s.portal c = some ⟨c, u, g⟩ := by simp [ResourceScope.portal, hentry]
      exact (s.acceptsPortal_live ⟨c, u, g⟩).describe.1
        ((h.portal c _ htoken).describe.2 trivial)
  · intro h
    refine ⟨?_, ?_, ?_, ?_⟩
    · intro c token htoken
      obtain ⟨⟨u, g⟩, hentry, rfl⟩ := Option.map_eq_some_iff.1 htoken
      rw [← eq_true (h.statements c u g hentry)]
      exact s.acceptsStatement_live ⟨c, u, g⟩
    · intro c token htoken
      obtain ⟨⟨u, g⟩, hentry, rfl⟩ := Option.map_eq_some_iff.1 htoken
      rw [← eq_true (h.portals c u g hentry)]
      exact s.acceptsPortal_live ⟨c, u, g⟩
    · intro c u q types hnone hu
      have hfree : collides s.statements s.clientStatements c u = false :=
        not_collides_of_free (Option.map_eq_none_iff.1 hnone) hu
      rcases s.prepare_cases c u q types with ⟨htaken, -⟩ | ⟨-, heq⟩
      · rw [hfree] at htaken
        cases htaken
      · rw [heq]
        exact ⟨_, rfl⟩
    · intro token c u formats parameters results hlive hnone hu
      have hfree : collides s.portals s.clientPortals c u = false :=
        not_collides_of_free (Option.map_eq_none_iff.1 hnone) hu
      exact ((s.acceptsStatement_live token).bind c u formats parameters results).2 ⟨hlive, hfree⟩

/-- In every run that displaces no client name of the unnamed statement or portal, client names only
resolve to live resources; and as long as the counter has room, only in those. -/
theorem client_names_live {h : List ResourceEntry} {s : ResourceScope} (hrun : Run h s) :
    ((∀ e ∈ h, ¬ e.before.Displaces e.input) → s.NamesLive) ∧
      (allocations h ≤ u64Max →
        ((∀ t ∈ History.States new h, t.NamesLive) ↔ ∀ e ∈ h, ¬ e.before.Displaces e.input)) := by
  refine ⟨?_, ?_⟩
  · intro hkeeps
    exact s.namesLive_iff.2 (allResolve_run hrun hkeeps)
  · intro hcount
    have hroom := hasRoom_of_run hrun hcount
    simp only [namesLive_iff]
    refine hrun.states_iff ⟨resolves_empty, resolves_empty⟩ ?_
    intro e he hbefore
    obtain ⟨h₁, h₂, rfl, hrun₁, hstep, -⟩ := hrun.mem_split he
    have hroom₁ : ∀ f ∈ h₁, HasRoom f := fun f hf => hroom f (List.mem_append_left _ hf)
    have hstatements := statements_wellStamped hrun₁ hroom₁
    have hportals := portals_wellStamped hrun₁ hroom₁
    constructor
    · intro hafter hdisplaces
      exact Step.displaced hstep hbefore hstatements hportals hdisplaces hafter
    · intro hkeeps
      exact hbefore.step hstep hkeeps

/-- Two client names for two named statements, one of them closed again. -/
theorem client_names_live_closed :
    ∃ h s, Run h s ∧ h.length = 3 ∧ allocations h ≤ u64Max ∧
      (∀ e ∈ h, ¬ e.before.Displaces e.input) ∧ s.NamesLive ∧
      s.statement [98] = some ⟨[98], [116], 1⟩ ∧ s.statement [97] = none ∧
      ∀ t ∈ History.States new h, t.NamesLive := by
  obtain ⟨h, s, hrun, hlength, hcount, hkeeps, hlive, hdead⟩ :
      ∃ h s, Run h s ∧ h.length = 3 ∧ allocations h ≤ u64Max ∧
        (∀ e ∈ h, ¬ e.before.Displaces e.input) ∧ s.statement [98] = some ⟨[98], [116], 1⟩ ∧
        s.statement [97] = none :=
    ⟨_, _, .snoc (i := .closeStatement ⟨[97], [115], 0⟩)
      (.snoc (i := .prepare [98] [116] [] []) (.snoc (i := .prepare [97] [115] [] []) .nil rfl)
        rfl) rfl, rfl, by decide, by simp [Displaces], rfl, rfl⟩
  obtain ⟨hnames, hiff⟩ := client_names_live hrun
  exact ⟨h, s, hrun, hlength, hcount, hkeeps, hnames hkeeps, hlive, hdead, (hiff hcount).2 hkeeps⟩

/-- Two client names of the unnamed statement.  The first one resolves to a token which every
operation refuses, and cannot be prepared again. -/
theorem replaced_name_resolves :
    ∃ h s token, Run h s ∧ h.length = 2 ∧ s.statement [97] = some token ∧
      s.describeStatement token = .error .unknownStatement ∧
      (s.bind token [] [] [] [] []).1 = .error .unknownStatement ∧
      (s.closeStatement token).1 = .error .unknownStatement ∧
      (s.prepare [97] [] [] []).1 = .error .statementNameCollision :=
  ⟨_, _, ⟨[97], [], 0⟩, .snoc (i := .prepare [98] [] [] [])
    (.snoc (i := .prepare [97] [] [] []) .nil rfl) rfl, rfl, rfl, rfl, rfl, rfl, rfl⟩

end ResourceScope
end PgProto
