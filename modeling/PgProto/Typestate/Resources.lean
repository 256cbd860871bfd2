import PgProto.Codec.Frames
import PgProto.Lib.Stamps

/-!
# Resources — prepared statements and portals of a connection

`ResourceScope` of `src/resources.rs`: the names of the prepared statements and portals which are
live on a connection, and the tokens which its user holds for them.  A token carries the name sent
to the server and the generation of its allocation; the scope accepts it as long as the name still
belongs to that generation.

The four hash maps are only read by key, so a map is a partial function.  Operations return the
scope also when they fail.  A token is an argument like any other: the theorems hold for tokens that
the scope never handed out as well.

`tokens_never_alias` says when a token is accepted: exactly as long as nothing has ended its
resource.  It is `Stamped.issued_good_iff` at the table of the statements and at the table of the
portals, which share one counter.
-/

namespace PgProto

open Lib

/-! ## Tokens and errors -/

structure PreparedStatement where
  clientName : Bytes
  upstreamName : Bytes
  generation : Nat
  deriving DecidableEq, Repr

structure Portal where
  clientName : Bytes
  upstreamName : Bytes
  generation : Nat
  deriving DecidableEq, Repr

inductive ResourceError
  | statementNameCollision
  | portalNameCollision
  | unknownStatement
  | unknownPortal
  deriving DecidableEq, Repr

def PreparedStatement.describe (statement : PreparedStatement) : Describe :=
  { target := .statement
    name := statement.upstreamName }

def Portal.describe (portal : Portal) : Describe :=
  { target := .portal
    name := portal.upstreamName }

def Portal.execute (portal : Portal) (maxRows : Int32) : Execute :=
  { portal := portal.upstreamName
    maxRows := maxRows }

/-! ## The scope -/

structure ResourceScope where
  statements : PartialMap Bytes Nat
  clientStatements : PartialMap Bytes (Bytes × Nat)
  portals : PartialMap Bytes Nat
  clientPortals : PartialMap Bytes (Bytes × Nat)
  nextGeneration : Nat

namespace ResourceScope

def new : ResourceScope :=
  { statements := .empty
    clientStatements := .empty
    portals := .empty
    clientPortals := .empty
    nextGeneration := 0 }

def simpleQueryBoundary (scope : ResourceScope) : ResourceScope :=
  { scope with
    statements := scope.statements.remove []
    clientStatements := scope.clientStatements.retain fun _ entry => !entry.1.isEmpty }

def transactionEnded (scope : ResourceScope) : ResourceScope :=
  { scope with
    portals := scope.portals.remove []
    clientPortals := scope.clientPortals.retain fun _ entry => !entry.1.isEmpty }

/-- The test of `allocate`: a name that is not empty is in use. -/
def collides (resources : PartialMap Bytes Nat) (clientResources : PartialMap Bytes (Bytes × Nat))
    (clientName upstreamName : Bytes) : Bool :=
  (!upstreamName.isEmpty && (resources upstreamName).isSome) ||
    (!clientName.isEmpty && (clientResources clientName).isSome)

/-- A fresh generation for a statement or, else, for a portal. -/
def allocate (scope : ResourceScope) (clientName upstreamName : Bytes) (statement : Bool) :
    Except ResourceError Nat × ResourceScope :=
  let taken :=
    if statement then
      collides scope.statements scope.clientStatements clientName upstreamName
    else
      collides scope.portals scope.clientPortals clientName upstreamName
  if taken then
    (.error (if statement then .statementNameCollision else .portalNameCollision), scope)
  else
    (.ok scope.nextGeneration,
      { scope with nextGeneration := saturatingSucc scope.nextGeneration })

def prepare (scope : ResourceScope) (clientName upstreamName query : Bytes)
    (parameterTypes : List UInt32) :
    Except ResourceError (PreparedStatement × Parse) × ResourceScope :=
  match scope.allocate clientName upstreamName true with
  | (.error error, scope) => (.error error, scope)
  | (.ok generation, scope) =>
    let replaced := scope.statements upstreamName
    let scope := { scope with statements := scope.statements.insert upstreamName generation }
    if replaced.isSome && !upstreamName.isEmpty then
      (.error .statementNameCollision, scope)
    else
      let statement := { clientName, upstreamName, generation }
      let message := { statement := upstreamName, query, parameterTypes }
      (.ok (statement, message),
        { scope with
          clientStatements :=
            scope.clientStatements.insert clientName (upstreamName, generation) })

def bind (scope : ResourceScope) (statement : PreparedStatement) (clientName upstreamName : Bytes)
    (parameterFormats : List Int16) (parameters : List (Option Bytes))
    (resultFormats : List Int16) : Except ResourceError (Portal × Bind) × ResourceScope :=
  if scope.statements statement.upstreamName ≠ some statement.generation then
    (.error .unknownStatement, scope)
  else
    match scope.allocate clientName upstreamName false with
    | (.error error, scope) => (.error error, scope)
    | (.ok generation, scope) =>
      let replaced := scope.portals upstreamName
      let scope := { scope with portals := scope.portals.insert upstreamName generation }
      if replaced.isSome && !upstreamName.isEmpty then
        (.error .portalNameCollision, scope)
      else
        let portal := { clientName, upstreamName, generation }
        let message :=
          { portal := upstreamName
            statement := statement.upstreamName
            parameterFormats, parameters, resultFormats }
        (.ok (portal, message),
          { scope with
            clientPortals := scope.clientPortals.insert clientName (upstreamName, generation) })

def closeStatement (scope : ResourceScope) (statement : PreparedStatement) :
    Except ResourceError Close × ResourceScope :=
  if scope.statements statement.upstreamName ≠ some statement.generation then
    (.error .unknownStatement, scope)
  else
    (.ok { target := .statement, name := statement.upstreamName },
      { scope with
        statements := scope.statements.remove statement.upstreamName
        clientStatements := scope.clientStatements.retain fun _ entry =>
          entry.1 != statement.upstreamName || entry.2 != statement.generation })

def closePortal (scope : ResourceScope) (portal : Portal) :
    Except ResourceError Close × ResourceScope :=
  if scope.portals portal.upstreamName ≠ some portal.generation then
    (.error .unknownPortal, scope)
  else
    (.ok { target := .portal, name := portal.upstreamName },
      { scope with
        portals := scope.portals.remove portal.upstreamName
        clientPortals := scope.clientPortals.retain fun _ entry =>
          entry.1 != portal.upstreamName || entry.2 != portal.generation })

def execute (scope : ResourceScope) (portal : Portal) (maxRows : Int32) :
    Except ResourceError Execute :=
  if scope.portals portal.upstreamName ≠ some portal.generation then
    .error .unknownPortal
  else
    .ok (portal.execute maxRows)

def describePortal (scope : ResourceScope) (portal : Portal) : Except ResourceError Describe :=
  if scope.portals portal.upstreamName ≠ some portal.generation then
    .error .unknownPortal
  else
    .ok portal.describe

def describeStatement (scope : ResourceScope) (statement : PreparedStatement) :
    Except ResourceError Describe :=
  if scope.statements statement.upstreamName ≠ some statement.generation then
    .error .unknownStatement
  else
    .ok statement.describe

/-- The statement a client name stands for. -/
def statement (scope : ResourceScope) (clientName : Bytes) : Option PreparedStatement :=
  (scope.clientStatements clientName).map fun entry =>
    { clientName, upstreamName := entry.1, generation := entry.2 }

/-- The portal a client name stands for. -/
def portal (scope : ResourceScope) (clientName : Bytes) : Option Portal :=
  (scope.clientPortals clientName).map fun entry =>
    { clientName, upstreamName := entry.1, generation := entry.2 }

/-! ## Allocation -/

/-- `prepare`, once the generation is allocated. -/
theorem prepare_cases (scope : ResourceScope) (clientName upstreamName query : Bytes)
    (parameterTypes : List UInt32) :
    (collides scope.statements scope.clientStatements clientName upstreamName = true ∧
      scope.prepare clientName upstreamName query parameterTypes =
        (.error .statementNameCollision, scope)) ∨
    (collides scope.statements scope.clientStatements clientName upstreamName = false ∧
      scope.prepare clientName upstreamName query parameterTypes =
        (.ok (⟨clientName, upstreamName, scope.nextGeneration⟩,
            ⟨upstreamName, query, parameterTypes⟩),
          { scope with
            statements := scope.statements.insert upstreamName scope.nextGeneration
            clientStatements :=
              scope.clientStatements.insert clientName (upstreamName, scope.nextGeneration)
            nextGeneration := saturatingSucc scope.nextGeneration })) := by
  cases hc : collides scope.statements scope.clientStatements clientName upstreamName with
  | true =>
    left
    simp [prepare, allocate, hc]
  | false =>
    right
    have hfree : ((scope.statements upstreamName).isSome && !upstreamName.isEmpty) = false := by
      rw [Bool.and_comm]
      exact (Bool.or_eq_false_iff.1 hc).1
    simp [prepare, allocate, hc, hfree]

theorem bind_cases (scope : ResourceScope) (statement : PreparedStatement)
    (clientName upstreamName : Bytes) (parameterFormats : List Int16)
    (parameters : List (Option Bytes)) (resultFormats : List Int16) :
    (scope.statements statement.upstreamName ≠ some statement.generation ∧
      scope.bind statement clientName upstreamName parameterFormats parameters resultFormats =
        (.error .unknownStatement, scope)) ∨
    (scope.statements statement.upstreamName = some statement.generation ∧
      collides scope.portals scope.clientPortals clientName upstreamName = true ∧
      scope.bind statement clientName upstreamName parameterFormats parameters resultFormats =
        (.error .portalNameCollision, scope)) ∨
    (scope.statements statement.upstreamName = some statement.generation ∧
      collides scope.portals scope.clientPortals clientName upstreamName = false ∧
      scope.bind statement clientName upstreamName parameterFormats parameters resultFormats =
        (.ok (⟨clientName, upstreamName, scope.nextGeneration⟩,
            ⟨upstreamName, statement.upstreamName, parameterFormats, parameters, resultFormats⟩),
          { scope with
            portals := scope.portals.insert upstreamName scope.nextGeneration
            clientPortals :=
              scope.clientPortals.insert clientName (upstreamName, scope.nextGeneration)
            nextGeneration := saturatingSucc scope.nextGeneration })) := by
  by_cases hlive : scope.statements statement.upstreamName = some statement.generation
  · right
    cases hc : collides scope.portals scope.clientPortals clientName upstreamName with
    | true =>
      left
      simp [bind, allocate, hlive, hc]
    | false =>
      right
      have hfree : ((scope.portals upstreamName).isSome && !upstreamName.isEmpty) = false := by
        rw [Bool.and_comm]
        exact (Bool.or_eq_false_iff.1 hc).1
      simp [bind, allocate, hlive, hc, hfree]
  · left
    simp [bind, hlive]

/-! ## Calls -/

inductive ResourceCall
  | prepare (clientName upstreamName query : Bytes) (parameterTypes : List UInt32)
  | bind (statement : PreparedStatement) (clientName upstreamName : Bytes)
      (parameterFormats : List Int16) (parameters : List (Option Bytes))
      (resultFormats : List Int16)
  | closeStatement (statement : PreparedStatement)
  | closePortal (portal : Portal)
  | simpleQueryBoundary
  | transactionEnded

inductive ResourceReply
  | prepared (result : Except ResourceError (PreparedStatement × Parse))
  | bound (result : Except ResourceError (Portal × Bind))
  | closed (result : Except ResourceError Close)
  | done

def call (scope : ResourceScope) : ResourceCall → ResourceReply × ResourceScope
  | .prepare clientName upstreamName query parameterTypes =>
    let (result, scope) := scope.prepare clientName upstreamName query parameterTypes
    (.prepared result, scope)
  | .bind statement clientName upstreamName parameterFormats parameters resultFormats =>
    let (result, scope) :=
      scope.bind statement clientName upstreamName parameterFormats parameters resultFormats
    (.bound result, scope)
  | .closeStatement statement =>
    let (result, scope) := scope.closeStatement statement
    (.closed result, scope)
  | .closePortal portal =>
    let (result, scope) := scope.closePortal portal
    (.closed result, scope)
  | .simpleQueryBoundary => (.done, scope.simpleQueryBoundary)
  | .transactionEnded => (.done, scope.transactionEnded)

abbrev ResourceEntry := Entry ResourceScope ResourceCall ResourceReply

def Step (scope : ResourceScope) (input : ResourceCall) (output : ResourceReply)
    (scope' : ResourceScope) : Prop :=
  scope.call input = (output, scope')

/-- Any sequence of calls on a new scope. -/
abbrev Run := History Step new

/-- The generation which a call allocated. -/
def allocated (e : ResourceEntry) : Option Nat :=
  match e.output with
  | .prepared (.ok (statement, _)) => some statement.generation
  | .bound (.ok (portal, _)) => some portal.generation
  | _ => none

def allocations (h : List ResourceEntry) : Nat :=
  h.countP fun e => (allocated e).isSome

/-- A call which ends the resource of a statement token. -/
def EndsStatement (token : PreparedStatement) (e : ResourceEntry) : Prop :=
  match e.input, e.output with
  | .prepare _ upstreamName _ _, .prepared (.ok _) => upstreamName = token.upstreamName
  | .closeStatement other, .closed (.ok _) => other.generation = token.generation
  | .simpleQueryBoundary, _ => token.upstreamName = []
  | _, _ => False

/-- A call which ends the resource of a portal token. -/
def EndsPortal (token : Portal) (e : ResourceEntry) : Prop :=
  match e.input, e.output with
  | .bind _ _ upstreamName _ _ _, .bound (.ok _) => upstreamName = token.upstreamName
  | .closePortal other, .closed (.ok _) => other.generation = token.generation
  | .transactionEnded, _ => token.upstreamName = []
  | _, _ => False

/-! ## The two tables -/

/-- What a call does to the table of the statements. -/
def statementChange (e : ResourceEntry) : Change Bytes :=
  match e.input, e.output with
  | .prepare _ _ _ _, .prepared (.ok (token, _)) => .issue token.upstreamName token.generation
  | .closeStatement token, .closed (.ok _) => .withdraw token.upstreamName token.generation
  | .simpleQueryBoundary, _ => .clear []
  | _, _ => .keep

/-- What a call does to the table of the portals. -/
def portalChange (e : ResourceEntry) : Change Bytes :=
  match e.input, e.output with
  | .bind _ _ _ _ _ _, .bound (.ok (token, _)) => .issue token.upstreamName token.generation
  | .closePortal token, .closed (.ok _) => .withdraw token.upstreamName token.generation
  | .transactionEnded, _ => .clear []
  | _, _ => .keep

/-! ## What a call does -/

/-- The outcomes of the calls.  A call that fails changes nothing. -/
inductive Effect (s : ResourceScope) : ResourceCall → ResourceReply → ResourceScope → Prop
  | prepareRefused {c u q : Bytes} {types : List UInt32} :
      Effect s (.prepare c u q types) (.prepared (.error .statementNameCollision)) s
  | prepared {c u q : Bytes} {types : List UInt32} :
      Effect s (.prepare c u q types) (.prepared (.ok (⟨c, u, s.nextGeneration⟩, ⟨u, q, types⟩)))
        { s with
          statements := s.statements.insert u s.nextGeneration
          clientStatements := s.clientStatements.insert c (u, s.nextGeneration)
          nextGeneration := saturatingSucc s.nextGeneration }
  | bindRefused {token : PreparedStatement} {c u : Bytes} {formats : List Int16}
      {parameters : List (Option Bytes)} {results : List Int16} {error : ResourceError} :
      Effect s (.bind token c u formats parameters results) (.bound (.error error)) s
  | bound {token : PreparedStatement} {c u : Bytes} {formats : List Int16}
      {parameters : List (Option Bytes)} {results : List Int16} :
      Effect s (.bind token c u formats parameters results)
        (.bound (.ok (⟨c, u, s.nextGeneration⟩,
          ⟨u, token.upstreamName, formats, parameters, results⟩)))
        { s with
          portals := s.portals.insert u s.nextGeneration
          clientPortals := s.clientPortals.insert c (u, s.nextGeneration)
          nextGeneration := saturatingSucc s.nextGeneration }
  | closeStatementRefused {token : PreparedStatement} :
      Effect s (.closeStatement token) (.closed (.error .unknownStatement)) s
  | closedStatement {token : PreparedStatement}
      (hlive : s.statements token.upstreamName = some token.generation) :
      Effect s (.closeStatement token) (.closed (.ok ⟨.statement, token.upstreamName⟩))
        { s with
          statements := s.statements.remove token.upstreamName
          clientStatements := s.clientStatements.retain fun _ entry =>
            entry.1 != token.upstreamName || entry.2 != token.generation }
  | closePortalRefused {token : Portal} :
      Effect s (.closePortal token) (.closed (.error .unknownPortal)) s
  | closedPortal {token : Portal} (hlive : s.portals token.upstreamName = some token.generation) :
      Effect s (.closePortal token) (.closed (.ok ⟨.portal, token.upstreamName⟩))
        { s with
          portals := s.portals.remove token.upstreamName
          clientPortals := s.clientPortals.retain fun _ entry =>
            entry.1 != token.upstreamName || entry.2 != token.generation }
  | simpleQueryBoundary : Effect s .simpleQueryBoundary .done s.simpleQueryBoundary
  | transactionEnded : Effect s .transactionEnded .done s.transactionEnded

variable {s s' : ResourceScope} {i : ResourceCall} {o : ResourceReply}
  {h h₁ h₂ : List ResourceEntry} {g : Nat} {e : ResourceEntry} {token : PreparedStatement}

theorem Step.effect (hstep : s.Step i o s') : s.Effect i o s' := by
  cases i with
  | prepare c u q types =>
    rcases s.prepare_cases c u q types with ⟨-, heq⟩ | ⟨-, heq⟩ <;>
      simp only [Step, call, heq] at hstep <;> cases hstep
    · exact .prepareRefused
    · exact .prepared
  | bind token c u formats parameters results =>
    rcases s.bind_cases token c u formats parameters results with
      ⟨-, heq⟩ | ⟨-, -, heq⟩ | ⟨-, -, heq⟩ <;>
      simp only [Step, call, heq] at hstep <;> cases hstep
    · exact .bindRefused
    · exact .bindRefused
    · exact .bound
  | closeStatement token =>
    by_cases hlive : s.statements token.upstreamName = some token.generation
    · simp only [Step, call, closeStatement, if_neg (not_not_intro hlive)] at hstep
      cases hstep
      exact .closedStatement hlive
    · simp only [Step, call, closeStatement, if_pos hlive] at hstep
      cases hstep
      exact .closeStatementRefused
  | closePortal token =>
    by_cases hlive : s.portals token.upstreamName = some token.generation
    · simp only [Step, call, closePortal, if_neg (not_not_intro hlive)] at hstep
      cases hstep
      exact .closedPortal hlive
    · simp only [Step, call, closePortal, if_pos hlive] at hstep
      cases hstep
      exact .closePortalRefused
  | simpleQueryBoundary =>
    cases hstep
    exact .simpleQueryBoundary
  | transactionEnded =>
    cases hstep
    exact .transactionEnded

/-! ## The counter -/

theorem nextGeneration_eq (hrun : Run h s) (hcount : allocations h ≤ u64Max) :
    s.nextGeneration = allocations h := by
  induction hrun with
  | nil => rfl
  | @snoc h s s' i o _ hstep ih =>
    have hsplit : allocations (h ++ [⟨s, i, o, s'⟩]) =
        allocations h + allocations [⟨s, i, o, s'⟩] := List.countP_append
    rw [hsplit] at hcount ⊢
    have hs : s.nextGeneration = allocations h := ih (Nat.le_of_add_right_le hcount)
    cases hstep.effect with
    | prepared | bound =>
      have hroom : s.nextGeneration < u64Max := by
        rw [hs]
        exact hcount
      show saturatingSucc s.nextGeneration = allocations h + 1
      rw [saturatingSucc_of_lt hroom, hs]
    | _ => exact hs

/-- A call has room for the generation it allocates. -/
def HasRoom (e : ResourceEntry) : Prop :=
  (allocated e).isSome → e.before.nextGeneration < u64Max

theorem hasRoom_of_run (hrun : Run h s) (hcount : allocations h ≤ u64Max) : ∀ e ∈ h, HasRoom e := by
  intro e he halloc
  obtain ⟨h₁, h₂, rfl, hbefore, -, -⟩ := hrun.mem_split he
  have hlt : allocations h₁ < allocations (h₁ ++ e :: h₂) := by
    simp only [allocations, List.countP_append, List.countP_cons, halloc, if_true]
    omega
  have hroom : allocations h₁ < u64Max := Nat.lt_of_lt_of_le hlt hcount
  rw [nextGeneration_eq hbefore (Nat.le_of_lt hroom)]
  exact hroom

theorem Step.allocated_eq (hstep : s.Step i o s') (halloc : allocated ⟨s, i, o, s'⟩ = some g) :
    g = s.nextGeneration := by
  cases hstep.effect with
  | prepared | bound =>
    cases halloc
    rfl
  | _ => cases halloc

theorem split_unique {h₁' h₂' : List ResourceEntry} {e' : ResourceEntry}
    (hsplit : h₁ ++ e :: h₂ = h₁' ++ e' :: h₂') (he : (allocated e).isSome)
    (he' : (allocated e').isSome) (hcount : allocations h₁ = allocations h₁') :
    e = e' ∧ h₂ = h₂' := by
  rcases List.append_eq_append_iff.1 hsplit with ⟨l, rfl, hl⟩ | ⟨l, rfl, hl⟩
  · cases l with
    | nil =>
      cases hl
      exact ⟨rfl, rfl⟩
    | cons f l =>
      -- the first allocation would be counted before the second
      cases hl
      simp only [allocations, List.countP_append, List.countP_cons, he, if_true] at hcount
      omega
  · cases l with
    | nil =>
      cases hl
      exact ⟨rfl, rfl⟩
    | cons f l =>
      cases hl
      simp only [allocations, List.countP_append, List.countP_cons, he', if_true] at hcount
      omega

theorem allocation_unique {h₁' h₂' : List ResourceEntry} {e' : ResourceEntry} (hrun : Run h s)
    (hcount : allocations h ≤ u64Max) (hsplit : h = h₁ ++ e :: h₂) (hsplit' : h = h₁' ++ e' :: h₂')
    (he : allocated e = some g) (he' : allocated e' = some g) : e = e' ∧ h₂ = h₂' := by
  have hgeneration : ∀ {h₁ h₂ e}, h = h₁ ++ e :: h₂ → allocated e = some g →
      g = allocations h₁ := by
    intro h₁ h₂ e hsplit he
    subst hsplit
    obtain ⟨hbefore, hstep, -⟩ := hrun.split
    have hle : allocations h₁ ≤ u64Max := by
      simp only [allocations, List.countP_append] at hcount ⊢
      omega
    rw [← nextGeneration_eq hbefore hle]
    exact Step.allocated_eq hstep he
  have hsame : allocations h₁ = allocations h₁' :=
    (hgeneration hsplit he).symm.trans (hgeneration hsplit' he')
  exact split_unique (hsplit.symm.trans hsplit') (by simp [he]) (by simp [he']) hsame

/-! ## Both tables are stamped -/

theorem Step.nextGeneration_le (hstep : s.Step i o s') (hroom : HasRoom ⟨s, i, o, s'⟩) :
    s.nextGeneration ≤ s'.nextGeneration ∧
      ((allocated ⟨s, i, o, s'⟩).isSome → s.nextGeneration < s'.nextGeneration) := by
  cases hstep.effect with
  | prepared | bound =>
    have hsucc : saturatingSucc s.nextGeneration = s.nextGeneration + 1 :=
      saturatingSucc_of_lt (hroom rfl)
    simp only [hsucc]
    omega
  | _ =>
    refine ⟨Nat.le_refl _, ?_⟩
    rintro ⟨⟩

theorem Step.statement_stamped (hstep : s.Step i o s') (hroom : HasRoom ⟨s, i, o, s'⟩) :
    Stamped statements nextGeneration statementChange ⟨s, i, o, s'⟩ where
  table_eq := by cases hstep.effect <;> rfl
  next_le := (hstep.nextGeneration_le hroom).1
  issued := by
    intro key stamp hissue
    have hnext := (hstep.nextGeneration_le hroom).2
    cases hstep.effect with
    | prepared =>
      cases hissue
      exact ⟨rfl, hnext rfl⟩
    | _ => cases hissue
  withdrawn := by
    intro key stamp hwithdraw
    cases hstep.effect with
    | closedStatement hlive =>
      cases hwithdraw
      exact hlive
    | _ => cases hwithdraw

theorem Step.portal_stamped (hstep : s.Step i o s') (hroom : HasRoom ⟨s, i, o, s'⟩) :
    Stamped portals nextGeneration portalChange ⟨s, i, o, s'⟩ where
  table_eq := by cases hstep.effect <;> rfl
  next_le := (hstep.nextGeneration_le hroom).1
  issued := by
    intro key stamp hissue
    have hnext := (hstep.nextGeneration_le hroom).2
    cases hstep.effect with
    | bound =>
      cases hissue
      exact ⟨rfl, hnext rfl⟩
    | _ => cases hissue
  withdrawn := by
    intro key stamp hwithdraw
    cases hstep.effect with
    | closedPortal hlive =>
      cases hwithdraw
      exact hlive
    | _ => cases hwithdraw

theorem Step.endsStatement_iff (hstep : s.Step i o s') (token : PreparedStatement) :
    EndsStatement token ⟨s, i, o, s'⟩ ↔
      (statementChange ⟨s, i, o, s'⟩).Ends token.upstreamName token.generation := by
  cases hstep.effect with
  | simpleQueryBoundary => exact eq_comm
  | _ => exact Iff.rfl

theorem Step.endsPortal_iff (hstep : s.Step i o s') (token : Portal) :
    EndsPortal token ⟨s, i, o, s'⟩ ↔
      (portalChange ⟨s, i, o, s'⟩).Ends token.upstreamName token.generation := by
  cases hstep.effect with
  | transactionEnded => exact eq_comm
  | _ => exact Iff.rfl

/-! ## Live tokens -/

theorem statement_issued {message : Parse} (hrun : Run h s) (he : e ∈ h)
    (hout : e.output = .prepared (.ok (token, message))) :
    statementChange e = .issue token.upstreamName token.generation ∧
      allocated e = some token.generation := by
  obtain ⟨-, -, -, -, hstep, -⟩ := hrun.mem_split he
  obtain ⟨s₀, i, o, s₁⟩ := e
  have heffect : s₀.Effect i o s₁ := Step.effect hstep
  cases hout
  cases heffect
  exact ⟨rfl, rfl⟩

theorem portal_issued {token : Portal} {message : Bind} (hrun : Run h s) (he : e ∈ h)
    (hout : e.output = .bound (.ok (token, message))) :
    portalChange e = .issue token.upstreamName token.generation ∧
      allocated e = some token.generation := by
  obtain ⟨-, -, -, -, hstep, -⟩ := hrun.mem_split he
  obtain ⟨s₀, i, o, s₁⟩ := e
  have heffect : s₀.Effect i o s₁ := Step.effect hstep
  cases hout
  cases heffect
  exact ⟨rfl, rfl⟩

theorem stamped_of_run {table : ResourceScope → PartialMap Bytes Nat}
    {change : ResourceEntry → Change Bytes} (hrun : Run h s) (hroom : ∀ e ∈ h, HasRoom e)
    (hstamped : ∀ {s i o s'}, s.Step i o s' → HasRoom ⟨s, i, o, s'⟩ →
      Stamped table nextGeneration change ⟨s, i, o, s'⟩) :
    ∀ f ∈ h, Stamped table nextGeneration change f := by
  intro f hf
  obtain ⟨-, -, -, -, hstep, -⟩ := hrun.mem_split hf
  exact hstamped hstep (hroom f hf)

/-- After its allocation a token is live exactly as long as nothing ends it. -/
theorem live_iff {table : ResourceScope → PartialMap Bytes Nat}
    {change : ResourceEntry → Change Bytes} {Ends : ResourceEntry → Prop} {name : Bytes}
    (hrun : Run (h₁ ++ e :: h₂) s)
    (hstamped : ∀ f ∈ h₁ ++ e :: h₂, Stamped table nextGeneration change f)
    (hempty : table new = .empty) (hissue : change e = .issue name g)
    (hends : ∀ {s i o s'}, s.Step i o s' →
      (Ends ⟨s, i, o, s'⟩ ↔ (change ⟨s, i, o, s'⟩).Ends name g)) :
    table s name = some g ↔ ∀ f ∈ h₂, ¬ Ends f := by
  rw [Stamped.issued_good_iff hrun hstamped (hempty ▸ wellStamped_empty) hissue]
  refine forall₂_congr fun f hf => not_congr ?_
  obtain ⟨-, -, -, -, hstep, -⟩ := hrun.split.2.2.mem_split hf
  exact (hends hstep).symm

/-! ## Tokens of a run -/

/-- A statement token which the scope returned from `prepare`, or from a lookup between any two
calls. -/
def StatementToken (h : List ResourceEntry) (token : PreparedStatement) : Prop :=
  (∃ e ∈ h, ∃ message, e.output = .prepared (.ok (token, message))) ∨
    ∃ s ∈ History.States new h, ∃ clientName, s.statement clientName = some token

/-- A portal token which the scope returned from `bind`, or from a lookup between any two calls. -/
def PortalToken (h : List ResourceEntry) (token : Portal) : Prop :=
  (∃ e ∈ h, ∃ message, e.output = .bound (.ok (token, message))) ∨
    ∃ s ∈ History.States new h, ∃ clientName, s.portal clientName = some token

theorem Step.clientStatements_cases {c u : Bytes} (hstep : s.Step i o s')
    (hentry : s'.clientStatements c = some (u, g)) :
    (∃ message, o = .prepared (.ok (⟨c, u, g⟩, message))) ∨
      s.clientStatements c = some (u, g) := by
  cases hstep.effect with
  | prepared =>
    rcases PartialMap.insert_eq_some.1 hentry with ⟨rfl, heq⟩ | ⟨-, hold⟩
    · cases heq
      exact .inl ⟨_, rfl⟩
    · exact .inr hold
  | closedStatement _ =>
    dsimp only at hentry
    exact .inr (PartialMap.of_retain hentry)
  | simpleQueryBoundary =>
    dsimp only [ResourceScope.simpleQueryBoundary] at hentry
    exact .inr (PartialMap.of_retain hentry)
  | _ => exact .inr hentry

theorem Step.clientPortals_cases {c u : Bytes} (hstep : s.Step i o s')
    (hentry : s'.clientPortals c = some (u, g)) :
    (∃ message, o = .bound (.ok (⟨c, u, g⟩, message))) ∨ s.clientPortals c = some (u, g) := by
  cases hstep.effect with
  | bound =>
    rcases PartialMap.insert_eq_some.1 hentry with ⟨rfl, heq⟩ | ⟨-, hold⟩
    · cases heq
      exact .inl ⟨_, rfl⟩
    · exact .inr hold
  | closedPortal _ =>
    dsimp only at hentry
    exact .inr (PartialMap.of_retain hentry)
  | transactionEnded =>
    dsimp only [ResourceScope.transactionEnded] at hentry
    exact .inr (PartialMap.of_retain hentry)
  | _ => exact .inr hentry

/-- A looked-up statement token is one that `prepare` returned. -/
theorem StatementToken.prepared (hrun : Run h s) (htoken : StatementToken h token) :
    ∃ e ∈ h, ∃ message, e.output = .prepared (.ok (token, message)) := by
  rcases htoken with hprepared | ⟨t, ht, c, hlookup⟩
  · exact hprepared
  · obtain ⟨⟨u, g⟩, hentry, rfl⟩ := Option.map_eq_some_iff.1 hlookup
    exact hrun.origin (P := fun s => s.clientStatements c = some (u, g)) (by rintro ⟨⟩)
      Step.clientStatements_cases ht hentry

/-- A looked-up portal token is one that `bind` returned. -/
theorem PortalToken.bound {token : Portal} (hrun : Run h s) (htoken : PortalToken h token) :
    ∃ e ∈ h, ∃ message, e.output = .bound (.ok (token, message)) := by
  rcases htoken with hbound | ⟨t, ht, c, hlookup⟩
  · exact hbound
  · obtain ⟨⟨u, g⟩, hentry, rfl⟩ := Option.map_eq_some_iff.1 hlookup
    exact hrun.origin (P := fun s => s.clientPortals c = some (u, g)) (by rintro ⟨⟩)
      Step.clientPortals_cases ht hentry

/-! ## Acceptance -/

/-- The operations accept the token exactly when `alive` holds.  For `bind` that is so whenever the
names of the new portal are free; otherwise the token is not what it complains about. -/
structure AcceptsStatement (s : ResourceScope) (token : PreparedStatement) (alive : Prop) :
    Prop where
  unknown : ∀ c u formats parameters results,
    (s.bind token c u formats parameters results).1 = .error .unknownStatement ↔ ¬ alive
  bind : ∀ c u formats parameters results,
    (∃ bound, (s.bind token c u formats parameters results).1 = .ok bound) ↔
      alive ∧ collides s.portals s.clientPortals c u = false
  describe : (∃ message, s.describeStatement token = .ok message) ↔ alive
  close : (∃ message, (s.closeStatement token).1 = .ok message) ↔ alive

structure AcceptsPortal (s : ResourceScope) (token : Portal) (alive : Prop) : Prop where
  execute : ∀ maxRows, (∃ message, s.execute token maxRows = .ok message) ↔ alive
  describe : (∃ message, s.describePortal token = .ok message) ↔ alive
  close : (∃ message, (s.closePortal token).1 = .ok message) ↔ alive

theorem acceptsStatement_live (s : ResourceScope) (token : PreparedStatement) :
    s.AcceptsStatement token (s.statements token.upstreamName = some token.generation) := by
  refine ⟨?_, ?_, ?_, ?_⟩
  · intro c u formats parameters results
    rcases s.bind_cases token c u formats parameters results with
      ⟨hlive, heq⟩ | ⟨hlive, -, heq⟩ | ⟨hlive, -, heq⟩ <;> simp [heq, hlive]
  · intro c u formats parameters results
    rcases s.bind_cases token c u formats parameters results with
      ⟨hlive, heq⟩ | ⟨hlive, hc, heq⟩ | ⟨hlive, hc, heq⟩
    · simp [heq, hlive]
    · simp [heq, hc]
    · simp [heq, hlive, hc]
  · by_cases hlive : s.statements token.upstreamName = some token.generation <;>
      simp [describeStatement, hlive]
  · by_cases hlive : s.statements token.upstreamName = some token.generation <;>
      simp [closeStatement, hlive]

theorem acceptsPortal_live (s : ResourceScope) (token : Portal) :
    s.AcceptsPortal token (s.portals token.upstreamName = some token.generation) := by
  by_cases hlive : s.portals token.upstreamName = some token.generation <;>
    refine ⟨?_, ?_, ?_⟩ <;> simp [execute, describePortal, closePortal, hlive]

/-- A failed `prepare` or `bind` leaves the scope as it was. -/
theorem error_unchanged (s : ResourceScope) :
    (∀ c u q types error, (s.prepare c u q types).1 = .error error →
      (s.prepare c u q types).2 = s) ∧
    ∀ token c u formats parameters results error,
      (s.bind token c u formats parameters results).1 = .error error →
        (s.bind token c u formats parameters results).2 = s := by
  constructor
  · intro c u q types error herror
    rcases s.prepare_cases c u q types with ⟨-, heq⟩ | ⟨-, heq⟩
    · rw [heq]
    · rw [heq] at herror
      cases herror
  · intro token c u formats parameters results error herror
    rcases s.bind_cases token c u formats parameters results with
      ⟨-, heq⟩ | ⟨-, -, heq⟩ | ⟨-, -, heq⟩
    · rw [heq]
    · rw [heq]
    · rw [heq] at herror
      cases herror

/-- The check which `prepare` and `bind` make of the entry they have replaced is never met. -/
theorem insert_never_collides {c u : Bytes} {statement : Bool}
    (halloc : s.allocate c u statement = (.ok g, s')) :
    ((if statement then s'.statements u else s'.portals u).isSome && !u.isEmpty) = false := by
  rw [Bool.and_comm]
  cases statement with
  | true =>
    cases hc : collides s.statements s.clientStatements c u with
    | true => simp [allocate, hc] at halloc
    | false =>
      simp only [allocate, if_true, hc] at halloc
      cases halloc
      exact (Bool.or_eq_false_iff.1 hc).1
  | false =>
    cases hc : collides s.portals s.clientPortals c u with
    | true => simp [allocate, hc] at halloc
    | false =>
      simp only [allocate, hc] at halloc
      cases halloc
      exact (Bool.or_eq_false_iff.1 hc).1

/-! ## Tokens never alias -/

theorem tokens_never_alias {h : List ResourceEntry} {s : ResourceScope} (hrun : Run h s)
    (hcount : allocations h ≤ u64Max) :
    (∀ token, StatementToken h token →
      (∃ e ∈ h, allocated e = some token.generation) ∧
      ∀ h₁ e h₂, h = h₁ ++ e :: h₂ → allocated e = some token.generation →
        s.AcceptsStatement token (∀ f ∈ h₂, ¬ EndsStatement token f)) ∧
    (∀ token, PortalToken h token →
      (∃ e ∈ h, allocated e = some token.generation) ∧
      ∀ h₁ e h₂, h = h₁ ++ e :: h₂ → allocated e = some token.generation →
        s.AcceptsPortal token (∀ f ∈ h₂, ¬ EndsPortal token f)) ∧
    -- a failed call changes nothing
    ((∀ c u q types error, (s.prepare c u q types).1 = .error error →
        (s.prepare c u q types).2 = s) ∧
      ∀ token c u formats parameters results error,
        (s.bind token c u formats parameters results).1 = .error error →
          (s.bind token c u formats parameters results).2 = s) ∧
    -- and no call fails after its insertion
    ∀ c u g s' statement, s.allocate c u statement = (.ok g, s') →
      ((if statement then s'.statements u else s'.portals u).isSome && !u.isEmpty) = false := by
  have hroom := hasRoom_of_run hrun hcount
  refine ⟨?_, ?_, s.error_unchanged, fun _ _ _ _ _ => insert_never_collides⟩
  · intro token htoken
    obtain ⟨e₀, he₀, message, hout⟩ := htoken.prepared hrun
    obtain ⟨hissue, halloc₀⟩ := statement_issued hrun he₀ hout
    refine ⟨⟨e₀, he₀, halloc₀⟩, ?_⟩
    intro h₁ e h₂ hsplit halloc
    -- the call which allocated the generation is the one which returned the token
    obtain ⟨k₁, k₂, hk⟩ := List.append_of_mem he₀
    obtain ⟨rfl, rfl⟩ := allocation_unique hrun hcount hsplit hk halloc halloc₀
    subst hsplit
    rw [← live_iff hrun (stamped_of_run hrun hroom Step.statement_stamped) rfl hissue
      fun hstep => hstep.endsStatement_iff token]
    exact s.acceptsStatement_live token
  · intro token htoken
    obtain ⟨e₀, he₀, message, hout⟩ := htoken.bound hrun
    obtain ⟨hissue, halloc₀⟩ := portal_issued hrun he₀ hout
    refine ⟨⟨e₀, he₀, halloc₀⟩, ?_⟩
    intro h₁ e h₂ hsplit halloc
    obtain ⟨k₁, k₂, hk⟩ := List.append_of_mem he₀
    obtain ⟨rfl, rfl⟩ := allocation_unique hrun hcount hsplit hk halloc halloc₀
    subst hsplit
    rw [← live_iff hrun (stamped_of_run hrun hroom Step.portal_stamped) rfl hissue
      fun hstep => hstep.endsPortal_iff token]
    exact s.acceptsPortal_live token

/-- The unnamed statement is prepared twice: the first token is refused, the second one is bound. -/
theorem tokens_never_alias_unnamed :
    ∃ h s, Run h s ∧ allocations h ≤ u64Max ∧ h.length = 3 ∧
      s.AcceptsStatement ⟨[], [], 0⟩ False ∧ s.AcceptsStatement ⟨[], [], 1⟩ True ∧
      s.AcceptsPortal ⟨[], [], 2⟩ True := by
  let s₁ := (new.prepare [] [] [] []).2
  let s₂ := (s₁.prepare [] [] [] []).2
  let s₃ := (s₂.bind ⟨[], [], 1⟩ [] [] [] [] []).2
  let e₁ : ResourceEntry :=
    ⟨new, .prepare [] [] [] [], .prepared (.ok (⟨[], [], 0⟩, ⟨[], [], []⟩)), s₁⟩
  let e₂ : ResourceEntry :=
    ⟨s₁, .prepare [] [] [] [], .prepared (.ok (⟨[], [], 1⟩, ⟨[], [], []⟩)), s₂⟩
  let e₃ : ResourceEntry :=
    ⟨s₂, .bind ⟨[], [], 1⟩ [] [] [] [] [],
      .bound (.ok (⟨[], [], 2⟩, ⟨[], [], [], [], []⟩)), s₃⟩
  have hrun : Run [e₁, e₂, e₃] s₃ :=
    .snoc (h := [e₁, e₂]) (.snoc (h := [e₁]) (.snoc (h := []) .nil rfl) rfl) rfl
  have hcount : allocations [e₁, e₂, e₃] ≤ u64Max := by decide
  obtain ⟨hstatement, hportal, -⟩ := tokens_never_alias hrun hcount
  refine ⟨_, _, hrun, hcount, rfl, ?_, ?_, ?_⟩
  · have hends : (∀ f ∈ [e₂, e₃], ¬ EndsStatement ⟨[], [], 0⟩ f) ↔ False := by
      simp [e₂, EndsStatement]
    rw [← hends]
    exact (hstatement ⟨[], [], 0⟩ (.inl ⟨e₁, by simp, _, rfl⟩)).2 [] e₁ [e₂, e₃] rfl rfl
  · have hends : (∀ f ∈ [e₃], ¬ EndsStatement ⟨[], [], 1⟩ f) ↔ True := by
      simp [e₃, EndsStatement]
    rw [← hends]
    exact (hstatement ⟨[], [], 1⟩ (.inl ⟨e₂, by simp, _, rfl⟩)).2 [e₁] e₂ [e₃] rfl rfl
  · have hends : (∀ f ∈ ([] : List ResourceEntry), ¬ EndsPortal ⟨[], [], 2⟩ f) ↔ True := by
      simp
    rw [← hends]
    exact (hportal ⟨[], [], 2⟩ (.inl ⟨e₃, by simp, _, rfl⟩)).2 [e₁, e₂] e₃ [] rfl rfl

end ResourceScope
end PgProto
