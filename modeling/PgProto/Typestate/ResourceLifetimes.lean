import PgProto.Typestate.Client
import PgProto.Typestate.ResourceNames

/-!
# ResourceLifetimes — portals of a connection and of its server

`ResourceConnection` of `src/resources.rs` puts the names of a connection under its typestate: an
operation first asks the `ResourceScope` and then sends its message.

The server has portals of its own, which end for reasons the scope does not look at.  `served` gives
their documented lifetimes, and a `ServedConnection` is the connection beside them.

* `PortalEffect` — what a step does to the portals on both sides;
* `Backed` — what the server has is in the scope, in every run;
* `Agrees` — what the scope has is on the server, until a step `Outlives`;
* `accepted_portals_alive` — the runs in which accepted tokens are alive.
-/

namespace PgProto

open Lib
open PartialMap (insert_eq_some remove_eq_some)
open ResourceScope (allocate clientPortals closePortal closeStatement collides portals)

/-! ## The resource-aware connection -/

inductive ResourceProtocolError
  | resource (error : ResourceError)
  | wire (error : IoError)
  deriving DecidableEq, Repr

structure ResourceConnection where
  conn : Client.Conn
  resources : ResourceScope

inductive ResourceOp
  | prepare (clientName upstreamName query : Bytes) (parameterTypes : List UInt32)
  | bind (statement : PreparedStatement) (clientName upstreamName : Bytes)
      (parameterFormats : List Int16) (parameters : List (Option Bytes))
      (resultFormats : List Int16)
  | describeStatement (statement : PreparedStatement)
  | describePortal (portal : Portal)
  | execute (portal : Portal) (maxRows : Int32)
  | closeStatement (statement : PreparedStatement)
  | closePortal (portal : Portal)
  | flush
  | sync
  | beginExtended
  | query (query : Bytes)
  | offer (item : SessionItem)

/-- What a call returns besides the connection. -/
inductive Returned
  | frame (frame : Option Frame)
  | statement (statement : PreparedStatement) (frame : Option Frame)
  | portal (portal : Portal) (frame : Option Frame)
  | branch (branch : Client.Branch)

namespace ResourceConnection

/-- The methods of the phases. -/
def provides : Client.Phase → ResourceOp → Bool
  | .building, .prepare _ _ _ _ | .building, .bind _ _ _ _ _ _ | .building, .describeStatement _
  | .building, .closeStatement _ | .building, .closePortal _ | .building, .flush
  | .building, .sync => true
  | .boundBuilding, .prepare _ _ _ _ | .boundBuilding, .bind _ _ _ _ _ _
  | .boundBuilding, .describeStatement _ | .boundBuilding, .describePortal _
  | .boundBuilding, .execute _ _ | .boundBuilding, .closeStatement _
  | .boundBuilding, .closePortal _ | .boundBuilding, .flush | .boundBuilding, .sync => true
  | .ready, .beginExtended | .ready, .query _ => true
  | .awaitingReady, .offer _ | .draining, .offer _ => true
  | _, _ => false

abbrev CallResult := Option (Except ResourceProtocolError (Returned × ResourceConnection))

/-- Sends the message of an operation.  The connection is lost when it cannot be encoded. -/
def push (conn : Client.Conn) (resources : ResourceScope) (op : Client.Op)
    (returned : Option Frame → Returned) : CallResult :=
  (conn.call op).map fun
    | .error error => .error (.wire error)
    | .ok (conn, frame) => .ok (returned frame, { conn, resources })

/-- The connection is also lost when the scope refuses the operation. -/
def pushResource {M : Type} (conn : Client.Conn) (resources : ResourceScope)
    (op : M → Client.Op) : Except ResourceError M → CallResult
  | .error error => some (.error (.resource error))
  | .ok message => push conn resources (op message) .frame

def resourceReady (resources : ResourceScope) : Client.Branch → ResourceScope
  | .ready => resources.transactionEnded
  | .readyDirty status _ => if status = .idle then resources.transactionEnded else resources
  | _ => resources

def offer (connection : ResourceConnection) (item : SessionItem) : CallResult :=
  match connection.conn.offer item with
  | some (.accepted conn branch) =>
    some (.ok (.branch branch,
      { conn, resources := resourceReady connection.resources branch }))
  | _ => none

/-- A call of an operation, `none` when the type does not have it. -/
def call (connection : ResourceConnection) (op : ResourceOp) : CallResult :=
  if provides connection.conn.phase op then
    let { conn, resources } := connection
    match op with
    | .prepare clientName upstreamName query parameterTypes =>
      match resources.prepare clientName upstreamName query parameterTypes with
      | (.error error, _) => some (.error (.resource error))
      | (.ok (statement, message), resources) =>
        push conn resources (.pushParse message) (.statement statement)
    | .bind statement clientName upstreamName parameterFormats parameters resultFormats =>
      match resources.bind statement clientName upstreamName parameterFormats parameters
        resultFormats with
      | (.error error, _) => some (.error (.resource error))
      | (.ok (portal, message), resources) =>
        push conn resources (.pushBind message) (.portal portal)
    | .describeStatement statement =>
      pushResource conn resources .pushDescribe (resources.describeStatement statement)
    | .describePortal portal =>
      pushResource conn resources .pushDescribe (resources.describePortal portal)
    | .execute portal maxRows =>
      pushResource conn resources .pushExecute (resources.execute portal maxRows)
    | .closeStatement statement =>
      pushResource conn (resources.closeStatement statement).2 .pushClose
        (resources.closeStatement statement).1
    | .closePortal portal =>
      pushResource conn (resources.closePortal portal).2 .pushClose
        (resources.closePortal portal).1
    | .flush => push conn resources .pushFlush .frame
    | .sync => push conn resources .pushSync .frame
    | .beginExtended => push conn resources .beginExtended .frame
    | .query query => push conn resources.simpleQueryBoundary (.pushQuery query) .frame
    | .offer item => offer { conn, resources } item
  else
    none

variable {connection : ResourceConnection}

theorem push_eq_ok {conn : Client.Conn} {resources : ResourceScope} {op : Client.Op}
    {returned : Option Frame → Returned} {r : Returned}
    (h : push conn resources op returned = some (.ok (r, connection))) :
    connection.resources = resources ∧ ∃ frame, r = returned frame := by
  obtain ⟨result, -, hresult⟩ := Option.map_eq_some_iff.1 h
  cases result with
  | error e => cases hresult
  | ok value =>
    cases hresult
    exact ⟨rfl, _, rfl⟩

theorem pushResource_eq_ok {M : Type} {conn : Client.Conn} {resources : ResourceScope}
    {op : M → Client.Op} {result : Except ResourceError M} {r : Returned}
    (h : pushResource conn resources op result = some (.ok (r, connection))) :
    connection.resources = resources ∧ ∃ message, result = .ok message := by
  cases result with
  | error e => cases h
  | ok message => exact ⟨(push_eq_ok h).1, message, rfl⟩

end ResourceConnection

/-! ## Portals of the server -/

/-- A portal of the server, with the statement it was bound from. -/
structure ServerPortal where
  portal : Portal
  source : PreparedStatement
  deriving DecidableEq, Repr

abbrev ServerPortals := PartialMap Bytes ServerPortal

/-- The portal was bound from the statement of the token. -/
def ServerPortal.boundFrom (p : ServerPortal) (statement : PreparedStatement) : Bool :=
  p.source.upstreamName == statement.upstreamName && p.source.generation == statement.generation

/-- The lifetimes of the server's portals. -/
def served (server : ServerPortals) : ResourceOp → Returned → ServerPortals
  -- a Bind to the unnamed portal ends the one before
  | .bind statement _ _ _ _ _, .portal portal _ =>
    server.insert portal.upstreamName { portal, source := statement }
  | .closePortal portal, _ => server.remove portal.upstreamName
  -- with a statement the portals bound from it are closed
  | .closeStatement statement, _ => server.retain fun _ p => !p.boundFrom statement
  -- outside a transaction there are no portals
  | .offer (.readyForQuery .idle _), _ => .empty
  | _, _ => server

/-- A connection beside the portals of its server. -/
structure ServedConnection where
  connection : ResourceConnection
  server : ServerPortals

namespace ServedConnection

abbrev resources (s : ServedConnection) : ResourceScope := s.connection.resources

/-- What the demultiplexer makes of a message of the server which is not an error. -/
def Response (item : SessionItem) : Prop :=
  ∃ (demux : Demux) (message : BackendMessage),
    (demux.route message).1 = some item ∧ ∀ error, message ≠ .errorResponse error

/-- A call which returns a connection. -/
structure Step (s : ServedConnection) (op : ResourceOp) (returned : Returned)
    (s' : ServedConnection) : Prop where
  call : s.connection.call op = some (.ok (returned, s'.connection))
  response : ∀ item, op = .offer item → Response item
  served : s'.server = served s.server op returned

abbrev ServedEntry := Entry ServedConnection ResourceOp Returned

def new (conn : Client.Conn) : ServedConnection :=
  { connection := { conn, resources := .new }
    server := .empty }

/-- The calls on a connection which begins in any phase, without errors. -/
abbrev Run (conn : Client.Conn) := History Step (new conn)

/-- The server still has the portal of the token. -/
def Alive (s : ServedConnection) (portal : Portal) : Prop :=
  ∃ p, s.server portal.upstreamName = some p ∧ p.portal.generation = portal.generation

/-! ## What a step does to portals -/

/-- The step leaves a portal or a name of a portal in the scope that the server no longer has. -/
def Outlives (s : ServedConnection) : ResourceOp → Prop
  | .bind _ c u _ _ _ =>
    u = [] ∧ ∃ c' g, c' ≠ [] ∧ c' ≠ c ∧ s.resources.clientPortals c' = some ([], g)
  | .closeStatement statement => ∃ u p, s.server u = some p ∧ p.boundFrom statement = true
  | .offer (.readyForQuery .idle _) => ∃ u g, u ≠ [] ∧ s.resources.portals u = some g
  | _ => False

inductive PortalEffect (s : ServedConnection) : ResourceOp → ServedConnection → Prop
  | kept {op : ResourceOp} {s' : ServedConnection} (hop : ¬ s.Outlives op)
      (hportals : s'.resources.portals = s.resources.portals)
      (hclient : s'.resources.clientPortals = s.resources.clientPortals)
      (hserver : s'.server = s.server) : PortalEffect s op s'
  | bound {statement : PreparedStatement} {c u : Bytes} {formats : List Int16}
      {parameters : List (Option Bytes)} {results : List Int16} {s' : ServedConnection} (g : Nat)
      (hfree : ResourceScope.collides s.resources.portals s.resources.clientPortals c u = false)
      (hportals : s'.resources.portals = s.resources.portals.insert u g)
      (hclient : s'.resources.clientPortals = s.resources.clientPortals.insert c (u, g))
      (hserver : s'.server = s.server.insert u ⟨⟨c, u, g⟩, statement⟩) :
      PortalEffect s (.bind statement c u formats parameters results) s'
  | closedPortal {portal : Portal} {s' : ServedConnection}
      (hlive : s.resources.portals portal.upstreamName = some portal.generation)
      (hportals : s'.resources.portals = s.resources.portals.remove portal.upstreamName)
      (hclient : s'.resources.clientPortals = s.resources.clientPortals.retain fun _ entry =>
        entry.1 != portal.upstreamName || entry.2 != portal.generation)
      (hserver : s'.server = s.server.remove portal.upstreamName) :
      PortalEffect s (.closePortal portal) s'
  | closedStatement {statement : PreparedStatement} {s' : ServedConnection}
      (hportals : s'.resources.portals = s.resources.portals)
      (hclient : s'.resources.clientPortals = s.resources.clientPortals)
      (hserver : s'.server = s.server.retain fun _ p => !p.boundFrom statement) :
      PortalEffect s (.closeStatement statement) s'
  | idle {parametersChanged : Bool} {s' : ServedConnection}
      (hportals : s'.resources.portals = s.resources.portals.remove [])
      (hclient : s'.resources.clientPortals = s.resources.clientPortals.retain fun _ entry =>
        !entry.1.isEmpty)
      (hserver : s'.server = .empty) :
      PortalEffect s (.offer (.readyForQuery .idle parametersChanged)) s'

variable {conn : Client.Conn} {s s' : ServedConnection} {op : ResourceOp} {returned : Returned}
  {h : List ServedEntry} {connection : ResourceConnection}

/-- The scope after an item of the server: readiness outside a transaction ends its portals. -/
def afterItem (resources : ResourceScope) : SessionItem → ResourceScope
  | .readyForQuery .idle _ => resources.transactionEnded
  | _ => resources

theorem resourceReady_offer {conn' : Client.Conn} {item : SessionItem} {branch : Client.Branch}
    (resources : ResourceScope) (hphase : conn.phase = .awaitingReady ∨ conn.phase = .draining)
    (hoffer : conn.offer item = some (.accepted conn' branch)) :
    ResourceConnection.resourceReady resources branch = afterItem resources item := by
  obtain ⟨phase, c⟩ := conn
  have hready : ∀ status parametersChanged,
      Client.readyState c status parametersChanged = .accepted conn' branch →
        ResourceConnection.resourceReady resources branch =
          afterItem resources (.readyForQuery status parametersChanged) := by
    intro status parametersChanged heq
    unfold Client.readyState at heq
    split at heq
    · obtain ⟨rfl, rfl⟩ := ‹_ ∧ _›
      cases heq
      rfl
    · cases heq
      cases status <;> rfl
  rcases hphase with hphase | hphase <;> cases hphase <;>
  · cases item with
    | readyForQuery status parametersChanged =>
      exact hready status parametersChanged (Option.some.inj hoffer)
    | message message | commandComplete tag command notices =>
      -- no other item is taken for the end of the response
      simp only [Client.Conn.offer, Client.AwaitingReady.offer, Client.Draining.offer,
        Option.some.injEq] at hoffer
      split at hoffer <;> first | (cases hoffer; rfl) | contradiction

theorem offer_resources {resources : ResourceScope} {item : SessionItem}
    (hprovides : ResourceConnection.provides conn.phase (.offer item) = true)
    (hcall : ResourceConnection.offer ⟨conn, resources⟩ item = some (.ok (returned, connection))) :
    connection.resources = afterItem resources item := by
  have hphase : conn.phase = .awaitingReady ∨ conn.phase = .draining := by
    cases hp : conn.phase <;> simp [ResourceConnection.provides, hp] at hprovides ⊢
  simp only [ResourceConnection.offer] at hcall
  split at hcall
  case h_2 => cases hcall
  case h_1 conn' branch hoffer =>
    cases hcall
    exact resourceReady_offer resources hphase hoffer

theorem Step.effect (hstep : s.Step op returned s') : s.PortalEffect op s' := by
  have hcall := hstep.call
  have hserver := hstep.served
  obtain ⟨⟨conn, resources⟩, server⟩ := s
  unfold ResourceConnection.call at hcall
  split at hcall
  case isFalse => cases hcall
  case isTrue hprovides =>
  -- a message that leaves the scope as it is
  have hkept : ∀ scope : ResourceScope, s'.connection.resources = scope →
      scope.portals = resources.portals → scope.clientPortals = resources.clientPortals →
      s'.server = server → ¬ Outlives ⟨⟨conn, resources⟩, server⟩ op →
        PortalEffect ⟨⟨conn, resources⟩, server⟩ op s' := by
    intro scope hscope hportals hclient hserver hop
    exact .kept hop ((congrArg portals hscope).trans hportals)
      ((congrArg clientPortals hscope).trans hclient) hserver
  cases op with
  | prepare c u q types =>
    rcases resources.prepare_cases c u q types with ⟨-, heq⟩ | ⟨-, heq⟩ <;>
      simp only [heq] at hcall
    · cases hcall
    · exact hkept _ (ResourceConnection.push_eq_ok hcall).1 rfl rfl hserver id
  | bind statement c u formats parameters results =>
    rcases resources.bind_cases statement c u formats parameters results with
      ⟨-, heq⟩ | ⟨-, -, heq⟩ | ⟨-, hfree, heq⟩ <;> simp only [heq] at hcall
    · cases hcall
    · cases hcall
    · obtain ⟨hscope, frame, rfl⟩ := ResourceConnection.push_eq_ok hcall
      exact .bound resources.nextGeneration hfree (congrArg portals hscope)
        (congrArg clientPortals hscope) hserver
  | describeStatement statement | describePortal portal | execute portal maxRows =>
    exact hkept _ (ResourceConnection.pushResource_eq_ok hcall).1 rfl rfl hserver id
  | closeStatement statement =>
    obtain ⟨hscope, -⟩ := ResourceConnection.pushResource_eq_ok hcall
    have hportals : (resources.closeStatement statement).2.portals = resources.portals := by
      unfold closeStatement
      split <;> rfl
    have hclient :
        (resources.closeStatement statement).2.clientPortals = resources.clientPortals := by
      unfold closeStatement
      split <;> rfl
    exact .closedStatement ((congrArg portals hscope).trans hportals)
      ((congrArg clientPortals hscope).trans hclient) hserver
  | closePortal portal =>
    obtain ⟨hscope, message, hclosed⟩ := ResourceConnection.pushResource_eq_ok hcall
    have hlive : resources.portals portal.upstreamName = some portal.generation :=
      (resources.acceptsPortal_live portal).close.1 ⟨message, hclosed⟩
    simp only [closePortal, if_neg (not_not_intro hlive)] at hscope
    exact .closedPortal hlive (congrArg portals hscope)
      (congrArg clientPortals hscope) hserver
  | flush | sync | beginExtended | query query =>
    exact hkept _ (ResourceConnection.push_eq_ok hcall).1 rfl rfl hserver id
  | offer item =>
    have hscope := offer_resources hprovides hcall
    cases item with
    | message message | commandComplete tag command notices =>
      exact hkept _ hscope rfl rfl hserver id
    | readyForQuery status parametersChanged =>
      cases status with
      | idle =>
        exact .idle (congrArg portals hscope)
          (congrArg clientPortals hscope) hserver
      | inTransaction | failedTransaction => exact hkept _ hscope rfl rfl hserver id

/-! ## Both sides -/

/-- The scope knows every portal of the server, and by its client name. -/
structure Backed (s : ServedConnection) : Prop where
  portal : ∀ u p, s.server u = some p → s.resources.portals u = some p.portal.generation
  name : ∀ u p, s.server u = some p → p.portal.clientName ≠ [] →
    s.resources.clientPortals p.portal.clientName = some (u, p.portal.generation)

/-- The server has every portal of the scope, and one for every client name. -/
structure Agrees (s : ServedConnection) : Prop where
  portal : ∀ u g, s.resources.portals u = some g →
    ∃ p, s.server u = some p ∧ p.portal.generation = g
  name : ∀ c u g, c ≠ [] → s.resources.clientPortals c = some (u, g) →
    ∃ u' p, s.server u' = some p ∧ p.portal.clientName = c

theorem backed_new (conn : Client.Conn) : Backed (new conn) := by
  constructor
  · intro u p hp
    cases hp
  · intro u p hp
    cases hp

theorem agrees_new (conn : Client.Conn) : Agrees (new conn) := by
  constructor
  · intro u g hg
    cases hg
  · intro c u g _ hg
    cases hg

/-- The portal of a client name is the one that the scope has under it. -/
theorem Backed.of_name (h : s.Backed) {c u u' : Bytes} {g : Nat} {p : ServerPortal} (hc : c ≠ [])
    (hentry : s.resources.clientPortals c = some (u, g)) (hp : s.server u' = some p)
    (hname : p.portal.clientName = c) : u' = u ∧ p.portal.generation = g := by
  have hentry' := h.name u' p hp (hname ▸ hc)
  rw [hname, hentry] at hentry'
  cases hentry'
  exact ⟨rfl, rfl⟩

theorem Backed.step (h : s.Backed) (heffect : s.PortalEffect op s') : s'.Backed := by
  cases heffect with
  | kept _ hportals hclient hserver =>
    refine ⟨?_, ?_⟩
    · rw [hserver, hportals]
      exact h.portal
    · rw [hserver, hclient]
      exact h.name
  | @bound statement c u _ _ _ _ g hfree hportals hclient hserver =>
    refine ⟨?_, ?_⟩
    · intro u' p hp
      rw [hserver] at hp
      rw [hportals]
      rcases insert_eq_some.1 hp with ⟨rfl, rfl⟩ | ⟨hne, hp⟩
      · exact insert_eq_some.2 (.inl ⟨rfl, rfl⟩)
      · exact insert_eq_some.2 (.inr ⟨hne, h.portal u' p hp⟩)
    · intro u' p hp hname
      rw [hserver] at hp
      rw [hclient]
      rcases insert_eq_some.1 hp with ⟨rfl, rfl⟩ | ⟨hne, hp⟩
      · exact insert_eq_some.2 (.inl ⟨rfl, rfl⟩)
      · have hold := h.name u' p hp hname
        -- a name that is not empty is not taken twice
        have hother : p.portal.clientName ≠ c := by
          rintro rfl
          have htaken := (Bool.or_eq_false_iff.1 hfree).2
          simp [hold, hname] at htaken
        exact insert_eq_some.2 (.inr ⟨hother, hold⟩)
  | @closedPortal portal _ hlive hportals hclient hserver =>
    refine ⟨?_, ?_⟩
    · intro u p hp
      rw [hserver] at hp
      rw [hportals]
      obtain ⟨hne, hp⟩ := remove_eq_some.1 hp
      exact remove_eq_some.2 ⟨hne, h.portal u p hp⟩
    · intro u p hp hname
      rw [hserver] at hp
      rw [hclient]
      obtain ⟨hne, hp⟩ := remove_eq_some.1 hp
      exact Option.filter_eq_some_iff.2 ⟨h.name u p hp hname, by simp [hne]⟩
  | closedStatement hportals hclient hserver =>
    refine ⟨?_, ?_⟩
    · intro u p hp
      rw [hserver] at hp
      rw [hportals]
      exact h.portal u p (PartialMap.of_retain hp)
    · intro u p hp
      rw [hserver] at hp
      rw [hclient]
      exact h.name u p (PartialMap.of_retain hp)
  | idle hportals hclient hserver =>
    refine ⟨?_, ?_⟩
    · intro u p hp
      rw [hserver] at hp
      cases hp
    · intro u p hp
      rw [hserver] at hp
      cases hp

theorem backed_run (hrun : Run conn h s) : s.Backed :=
  hrun.invariant (backed_new conn) fun _ _ _ _ hbacked hstep => hbacked.step hstep.effect

/-! ## Steps after which the scope has more -/

/-- A new portal leaves no name behind unless it takes the place of another unnamed one. -/
theorem Agrees.bound {statement : PreparedStatement} {c u : Bytes} {g : Nat} (h : s.Agrees)
    (hbacked : s.Backed)
    (hfree : collides s.resources.portals s.resources.clientPortals c u = false)
    (hportals : s'.resources.portals = s.resources.portals.insert u g)
    (hclient : s'.resources.clientPortals = s.resources.clientPortals.insert c (u, g))
    (hserver : s'.server = s.server.insert u ⟨⟨c, u, g⟩, statement⟩)
    (hkeeps : ¬ (u = [] ∧ ∃ c' g, c' ≠ [] ∧ c' ≠ c ∧
      s.resources.clientPortals c' = some ([], g))) : s'.Agrees := by
  refine ⟨?_, ?_⟩
  · intro u' g' hg'
    rw [hportals] at hg'
    rw [hserver]
    rcases insert_eq_some.1 hg' with ⟨rfl, rfl⟩ | ⟨hne, hg'⟩
    · exact ⟨_, insert_eq_some.2 (.inl ⟨rfl, rfl⟩), rfl⟩
    · obtain ⟨p, hp, hgen⟩ := h.portal u' g' hg'
      exact ⟨p, insert_eq_some.2 (.inr ⟨hne, hp⟩), hgen⟩
  · intro c' u' g' hc' hentry
    rw [hclient] at hentry
    rw [hserver]
    rcases insert_eq_some.1 hentry with ⟨rfl, -⟩ | ⟨hne, holder⟩
    · exact ⟨u, _, insert_eq_some.2 (.inl ⟨rfl, rfl⟩), rfl⟩
    · obtain ⟨u'', p, hp, hname⟩ := h.name c' u' g' hc' holder
      obtain ⟨rfl, rfl⟩ := hbacked.of_name hc' holder hp hname
      -- the portal of another name is in the way only if both are unnamed
      have hu : u'' ≠ u := by
        rintro rfl
        by_cases hempty : u'' = []
        · subst hempty
          exact hkeeps ⟨rfl, c', _, hc', hne, holder⟩
        · have hold := hbacked.portal u'' p hp
          rw [ResourceScope.free_of_not_collides hfree hempty] at hold
          cases hold
      exact ⟨u'', p, insert_eq_some.2 (.inr ⟨hu, hp⟩), hname⟩

theorem Agrees.closedPortal {portal : Portal} (h : s.Agrees) (hbacked : s.Backed)
    (hlive : s.resources.portals portal.upstreamName = some portal.generation)
    (hportals : s'.resources.portals = s.resources.portals.remove portal.upstreamName)
    (hclient : s'.resources.clientPortals = s.resources.clientPortals.retain fun _ entry =>
      entry.1 != portal.upstreamName || entry.2 != portal.generation)
    (hserver : s'.server = s.server.remove portal.upstreamName) : s'.Agrees := by
  refine ⟨?_, ?_⟩
  · intro u g hg
    rw [hportals] at hg
    rw [hserver]
    obtain ⟨hne, hg⟩ := remove_eq_some.1 hg
    obtain ⟨p, hp, hgen⟩ := h.portal u g hg
    exact ⟨p, remove_eq_some.2 ⟨hne, hp⟩, hgen⟩
  · intro c u g hc hentry
    rw [hclient] at hentry
    rw [hserver]
    obtain ⟨hentry, hretained⟩ := Option.filter_eq_some_iff.1 hentry
    obtain ⟨u', p, hp, hname⟩ := h.name c u g hc hentry
    obtain ⟨rfl, rfl⟩ := hbacked.of_name hc hentry hp hname
    have hne : u' ≠ portal.upstreamName := by
      rintro rfl
      have hgen := hbacked.portal _ p hp
      rw [hlive] at hgen
      simp [Option.some.inj hgen] at hretained
    exact ⟨u', p, remove_eq_some.2 ⟨hne, hp⟩, hname⟩

theorem Agrees.step_iff (h : s.Agrees) (hbacked : s.Backed) (heffect : s.PortalEffect op s') :
    s'.Agrees ↔ ¬ s.Outlives op := by
  cases heffect with
  | kept hop hportals hclient hserver =>
    refine iff_of_true ⟨?_, ?_⟩ hop
    · rw [hserver, hportals]
      exact h.portal
    · rw [hserver, hclient]
      exact h.name
  | @bound statement c u _ _ _ _ g hfree hportals hclient hserver =>
    refine ⟨?_, h.bound hbacked hfree hportals hclient hserver⟩
    rintro hafter ⟨rfl, c', g', hc', hne, hentry⟩
    have hkept : s'.resources.clientPortals c' = some ([], g') := by
      rw [hclient]
      exact insert_eq_some.2 (.inr ⟨hne, hentry⟩)
    obtain ⟨u, p, hp, hname⟩ := hafter.name c' [] g' hc' hkept
    rw [hserver] at hp
    -- the server has the unnamed portal under the new name, and no other under the old one
    rcases insert_eq_some.1 hp with ⟨rfl, rfl⟩ | ⟨hu, hp⟩
    · exact hne hname.symm
    · exact hu (hbacked.of_name hc' hentry hp hname).1
  | closedPortal hlive hportals hclient hserver =>
    exact iff_of_true (h.closedPortal hbacked hlive hportals hclient hserver) id
  | @closedStatement statement _ hportals hclient hserver =>
    constructor
    · rintro hafter ⟨u, p, hp, hsource⟩
      have hlive : s'.resources.portals u = some p.portal.generation := by
        rw [hportals]
        exact hbacked.portal u p hp
      obtain ⟨p', hp', -⟩ := hafter.portal u _ hlive
      rw [hserver] at hp'
      obtain ⟨hold, hretained⟩ := Option.filter_eq_some_iff.1 hp'
      rw [hp] at hold
      cases hold
      simp [hsource] at hretained
    · intro hkeeps
      have hsame : s'.server = s.server := by
        rw [hserver]
        funext u
        cases hp : s.server u with
        | none => simp [PartialMap.retain, hp]
        | some p =>
          have hsource : p.boundFrom statement = false :=
            Bool.eq_false_iff.2 fun hsource => hkeeps ⟨u, p, hp, hsource⟩
          simp [PartialMap.retain, hp, hsource]
      refine ⟨?_, ?_⟩
      · rw [hsame, hportals]
        exact h.portal
      · rw [hsame, hclient]
        exact h.name
  | idle hportals hclient hserver =>
    constructor
    · rintro hafter ⟨u, g, hu, hg⟩
      have hlive : s'.resources.portals u = some g := by
        rw [hportals]
        exact remove_eq_some.2 ⟨hu, hg⟩
      obtain ⟨p, hp, -⟩ := hafter.portal u g hlive
      rw [hserver] at hp
      cases hp
    · intro hkeeps
      refine ⟨?_, ?_⟩
      · intro u g hg
        rw [hportals] at hg
        obtain ⟨hu, hg⟩ := remove_eq_some.1 hg
        exact absurd ⟨u, g, hu, hg⟩ hkeeps
      · intro c u g hc hentry
        rw [hclient] at hentry
        obtain ⟨hentry, hretained⟩ := Option.filter_eq_some_iff.1 hentry
        obtain ⟨u', p, hp, hname⟩ := h.name c u g hc hentry
        obtain ⟨rfl, -⟩ := hbacked.of_name hc hentry hp hname
        have hu : u' ≠ [] := by
          rintro rfl
          simp at hretained
        exact absurd ⟨u', _, hu, hbacked.portal u' p hp⟩ hkeeps

/-! ## Accepted tokens -/

/-- Accepted portal tokens are alive, and the names of dead portals are free. -/
structure PortalsAlive (s : ServedConnection) : Prop where
  execute : ∀ portal maxRows message,
    s.resources.execute portal maxRows = .ok message → s.Alive portal
  describe : ∀ portal message, s.resources.describePortal portal = .ok message → s.Alive portal
  allocate : ∀ c u, u = [] ∨ s.server u = none →
    (c = [] ∨ ∀ u' p, s.server u' = some p → p.portal.clientName ≠ c) →
      ∃ generation, (s.resources.allocate c u false).1 = .ok generation
  bind : ∀ statement c u formats parameters results,
    s.resources.statements statement.upstreamName = some statement.generation →
    u = [] ∨ s.server u = none →
    (c = [] ∨ ∀ u' p, s.server u' = some p → p.portal.clientName ≠ c) →
      ∃ bound, (s.resources.bind statement c u formats parameters results).1 = .ok bound

theorem portalsAlive_iff (s : ServedConnection) : s.PortalsAlive ↔ s.Agrees := by
  have hlive := s.resources.acceptsPortal_live
  constructor
  · intro h
    refine ⟨?_, ?_⟩
    · intro u g hg
      obtain ⟨message, hmessage⟩ := (hlive ⟨[], u, g⟩).describe.2 hg
      exact h.describe ⟨[], u, g⟩ message hmessage
    · intro c u g hc hentry
      by_contra hnone
      simp only [not_exists, not_and] at hnone
      obtain ⟨generation, hok⟩ := h.allocate c [] (.inl rfl) (.inr hnone)
      cases c with
      | nil => exact hc rfl
      | cons byte c => simp [allocate, collides, hentry] at hok
  · intro h
    -- A name that the server does not have is free in the scope as well.
    have hfree : ∀ c u, u = [] ∨ s.server u = none →
        (c = [] ∨ ∀ u' p, s.server u' = some p → p.portal.clientName ≠ c) →
          collides s.resources.portals s.resources.clientPortals c u = false := by
      intro c u hu hc
      refine Bool.or_eq_false_iff.2 ⟨?_, ?_⟩
      · rcases hu with rfl | hu
        · rfl
        · cases hg : s.resources.portals u with
          | none => simp
          | some g =>
            obtain ⟨p, hp, -⟩ := h.portal u g hg
            rw [hu] at hp
            cases hp
      · rcases hc with rfl | hc
        · rfl
        · by_cases hempty : c = []
          · rw [hempty]
            rfl
          · cases hentry : s.resources.clientPortals c with
            | none => simp
            | some entry =>
              obtain ⟨u', p, hp, hname⟩ := h.name c entry.1 entry.2 hempty hentry
              exact absurd hname (hc u' p hp)
    refine ⟨?_, ?_, ?_, ?_⟩
    · intro portal maxRows message hmessage
      exact h.portal _ _ (((hlive portal).execute maxRows).1 ⟨message, hmessage⟩)
    · intro portal message hmessage
      exact h.portal _ _ ((hlive portal).describe.1 ⟨message, hmessage⟩)
    · intro c u hu hc
      refine ⟨s.resources.nextGeneration, ?_⟩
      simp [allocate, hfree c u hu hc]
    · intro statement c u formats parameters results hstatement hu hc
      exact ((s.resources.acceptsStatement_live statement).bind c u formats parameters results).2
        ⟨hstatement, hfree c u hu hc⟩

theorem states_portalsAlive_iff (hrun : Run conn h s) :
    (∀ t ∈ History.States (new conn) h, t.PortalsAlive) ↔
      ∀ e ∈ h, ¬ e.before.Outlives e.input := by
  simp only [portalsAlive_iff]
  refine hrun.states_iff (agrees_new conn) ?_
  intro e he hbefore
  obtain ⟨h₁, h₂, rfl, hrun₁, hstep, -⟩ := hrun.mem_split he
  exact hbefore.step_iff (backed_run hrun₁) hstep.effect

theorem Step.sent_alive {portal : Portal} (hstep : s.Step op returned s') (halive : s.PortalsAlive)
    (hop : op = .describePortal portal ∨ ∃ maxRows, op = .execute portal maxRows) :
    s.Alive portal := by
  have hcall := hstep.call
  unfold ResourceConnection.call at hcall
  split at hcall
  case isFalse => cases hcall
  case isTrue =>
  rcases hop with rfl | ⟨maxRows, rfl⟩
  · obtain ⟨-, message, hmessage⟩ := ResourceConnection.pushResource_eq_ok hcall
    exact halive.describe portal message hmessage
  · obtain ⟨-, message, hmessage⟩ := ResourceConnection.pushResource_eq_ok hcall
    exact halive.execute portal maxRows message hmessage

/-- Accepted portal tokens are alive and the names of dead portals are free, in exactly the runs
in which nothing in the scope outlives its portal; in these runs only portals that are alive are
executed or described. -/
theorem accepted_portals_alive {conn : Client.Conn} {h : List ServedEntry} {s : ServedConnection}
    (hrun : Run conn h s) :
    ((∀ t ∈ History.States (new conn) h, t.PortalsAlive) ↔
      ∀ e ∈ h, ¬ e.before.Outlives e.input) ∧
    ((∀ e ∈ h, ¬ e.before.Outlives e.input) →
      ∀ e ∈ h, ∀ portal,
        (e.input = .describePortal portal ∨ ∃ maxRows, e.input = .execute portal maxRows) →
          e.before.Alive portal) := by
  refine ⟨states_portalsAlive_iff hrun, ?_⟩
  intro hkeeps e he portal hop
  obtain ⟨h₁, h₂, rfl, hrun₁, hstep, -⟩ := hrun.mem_split he
  have hkeeps₁ : ∀ f ∈ h₁, ¬ f.before.Outlives f.input := fun f hf =>
    hkeeps f (List.mem_append_left _ hf)
  have halive := (states_portalsAlive_iff hrun₁).2 hkeeps₁ e.before hrun₁.final_mem_states
  exact hstep.sent_alive halive hop

theorem Run.call (hrun : Run conn h s) (op : ResourceOp)
    (hcall : s.connection.call op = some (.ok (returned, connection)))
    (hop : ∀ item, op = .offer item → Response item) :
    Run conn (h ++ [⟨s, op, returned, ⟨connection, served s.server op returned⟩⟩])
      ⟨connection, served s.server op returned⟩ :=
  History.snoc hrun ⟨hcall, hop, rfl⟩

/-- The unnamed statement is prepared and bound to the unnamed portal, which is executed. -/
theorem accepted_portals_alive_unnamed :
    ∃ h s, Run ⟨.building, .pristine⟩ h s ∧ h.length = 4 ∧
      (∀ e ∈ h, ¬ e.before.Outlives e.input) ∧
      (∃ e ∈ h, e.input = .execute ⟨[], [], 1⟩ 0 ∧ e.before.Alive ⟨[], [], 1⟩) ∧
      ∀ t ∈ History.States (new ⟨.building, .pristine⟩) h, t.PortalsAlive := by
  obtain ⟨h, s, e, hrun, hlength, hkeeps, he, hexecute⟩ :
      ∃ h s e, Run ⟨.building, .pristine⟩ h s ∧ h.length = 4 ∧
        (∀ e ∈ h, ¬ e.before.Outlives e.input) ∧ h[2]? = some e ∧
        e.input = .execute ⟨[], [], 1⟩ 0 := by
    have hrun : Run ⟨.building, .pristine⟩ [] _ := .nil
    refine ⟨_, _, _, (((hrun.call (.prepare [] [] [] []) rfl (by simp)).call
      (.bind ⟨[], [], 0⟩ [] [] [] [] []) rfl (by simp)).call
      (.execute ⟨[], [], 1⟩ 0) rfl (by simp)).call
      .sync rfl (by simp), rfl, ?_, rfl, rfl⟩
    simp only [List.nil_append, List.cons_append, List.forall_mem_cons, List.not_mem_nil,
      false_implies, implies_true, and_true]
    refine ⟨id, ?_, id, id⟩
    rintro ⟨-, c, g, -, -, hentry⟩
    cases hentry
  obtain ⟨hstates, hsent⟩ := accepted_portals_alive hrun
  have hmem : e ∈ h := List.mem_of_getElem? he
  exact ⟨h, s, hrun, hlength, hkeeps,
    ⟨e, hmem, hexecute, hsent hkeeps e hmem _ (.inr ⟨0, hexecute⟩)⟩, hstates.2 hkeeps⟩

/-- A named portal is bound, and the server ends the transaction.  In the next cycle its token is
executed although the server has no portal, and its name cannot be bound again. -/
theorem named_portal_outlives_transaction :
    ∃ h s, Run ⟨.building, .pristine⟩ h s ∧
      h.map Entry.input =
        [.prepare [] [] [] [], .bind ⟨[], [], 0⟩ [112] [112] [] [] [], .sync,
          .offer (.readyForQuery .idle false), .beginExtended, .bind ⟨[], [], 0⟩ [] [] [] [] []] ∧
      (∃ returned connection,
        s.connection.call (.execute ⟨[112], [112], 1⟩ 0) = some (.ok (returned, connection))) ∧
      ¬ s.Alive ⟨[112], [112], 1⟩ ∧ s.server [112] = none ∧
      s.connection.call (.bind ⟨[], [], 0⟩ [112] [112] [] [] []) =
        some (.error (.resource .portalNameCollision)) := by
  have hrun : Run ⟨.building, .pristine⟩ [] _ := .nil
  have hready : ∀ item, ResourceOp.offer (.readyForQuery .idle false) = .offer item →
      Response item := by
    rintro _ ⟨⟩
    exact ⟨.new, .readyForQuery .idle, rfl, by simp⟩
  refine ⟨_, _, (((((hrun.call (.prepare [] [] [] []) rfl (by simp)).call
    (.bind ⟨[], [], 0⟩ [112] [112] [] [] []) rfl (by simp)).call .sync rfl (by simp)).call
    (.offer (.readyForQuery .idle false)) rfl hready).call .beginExtended rfl (by simp)).call
    (.bind ⟨[], [], 0⟩ [] [] [] [] []) rfl (by simp), rfl, ⟨_, _, rfl⟩, ?_, rfl, rfl⟩
  rintro ⟨p, hp, -⟩
  cases hp

end ServedConnection
end PgProto
