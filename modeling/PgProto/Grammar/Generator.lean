import Mathlib.Data.List.Nodup
import Mathlib.Tactic.SplitIfs
import PgProto.Lib.Table
import PgProto.Lib.Wire

/-!
# Generator — what the `protocol!` macro makes of a grammar

`validate` and `expand` of `pg-proto-fsm/src/lib.rs`, for any description.  The macro emits every
transition three times: as a row of the runtime table, which is searched by state and event; as a
method of the typestates, which is found by state and name; and as a variant of the messages of its
phase.

* `Protocol.expand` — the runtime table, with the patterns of its rows;
* `Protocol.Mirrors` — the three agree: a step of the runtime machine ends in the phase that the
  method and the message lead to;
* `runtime_mirrors_iff` — `validate` refuses a method that a state declares twice, but not an event.
  The runtime machine takes the first row for an event, so it mirrors the typestates exactly if the
  rows for one event agree.

Names are the identifiers of the description.  The railroad diagram is left out.
-/

namespace PgProto
namespace Generator

open Lib

/-! ## Descriptions -/

abbrev Ident := String

/-- The tokens of a type, and how many bare `internal` and `external` are among them. -/
structure TypeTokens where
  text : String
  placeholders : Nat
  deriving DecidableEq, Repr

inductive ChoiceKind
  | internal
  | external
  | mixed
  deriving DecidableEq, Repr

/-- A pattern, by the messages it matches.  Which of the two types it is for depends on the direction
of its transition. -/
structure Pattern (I X : Type) where
  internal : I → Bool
  external : X → Bool

structure Transition (I X : Type) where
  /-- The direction, if one is written: the parser knows `internal` and `external`. -/
  choice : Option Choice
  event : Ident
  method : Ident
  payload : Option TypeTokens
  target : Ident
  cleanliness : Option Ident
  projection : Option (Pattern I X)

structure StateAssociations where
  inbound : List TypeTokens
  outbound : List TypeTokens

structure State (I X : Type) where
  name : Ident
  choice : ChoiceKind
  transitions : List (Transition I X)
  associations : Option StateAssociations

structure AssociationLane where
  direction : TypeTokens
  role : TypeTokens
  wire : TypeTokens
  message : TypeTokens

structure Associations where
  interface : TypeTokens
  inbound : AssociationLane
  outbound : AssociationLane

structure Protocol (I X : Type) where
  module : Ident
  initial : Ident
  /-- There is a `messages` block; its types are `I` and `X`. -/
  messages : Bool
  associations : Option Associations
  states : List (State I X)

/-- A compile error, at the tokens it points to. -/
structure SynError where
  span : String
  message : String
  deriving DecidableEq, Repr

variable {I X : Type}

/-! ## Validation -/

/-- Inserts every item into a set, and refuses one that is there. -/
def insertAll {α : Type} (key : α → String × String) (message : String) (span : α → String) :
    List (String × String) → List α → Except SynError (List (String × String))
  | seen, [] => .ok seen
  | seen, item :: items =>
    if key item ∈ seen then
      .error ⟨span item, message⟩
    else
      insertAll key message span (key item :: seen) items

def validateAssociationTypes (types : List TypeTokens) : Except SynError Unit := do
  let _ ← insertAll (fun type => ("", type.text))
    "duplicate connection type in association lane" TypeTokens.text [] types

def validateMessageTemplate (message : TypeTokens) : Except SynError Unit :=
  match message.placeholders with
  | 1 => .ok ()
  | 0 => .error ⟨message.text,
      "association message type requires exactly one bare `internal` or `external` placeholder"⟩
  | _ => .error ⟨message.text,
      "association message type contains more than one message placeholder"⟩

def insertLane (lane : AssociationLane) (seen : List (String × String))
    (connections : List TypeTokens) : Except SynError (List (String × String)) :=
  let laneKey := lane.direction.text ++ " , " ++ lane.role.text ++ " , " ++ lane.wire.text
  insertAll (fun connection => (laneKey, connection.text))
    "connection type has a duplicate association for this direction, role, and wire type"
    TypeTokens.text seen connections

def validateStateAssociations (associations : Associations) (seen : List (String × String))
    (state : State I X) : Except SynError (List (String × String)) :=
  match state.associations with
  | none => .error ⟨state.name, "state requires an `associate` block"⟩
  | some lanes => do
    validateAssociationTypes lanes.inbound
    validateAssociationTypes lanes.outbound
    let seen ← insertLane associations.inbound seen lanes.inbound
    insertLane associations.outbound seen lanes.outbound

def validateAssociations (protocol : Protocol I X) : Except SynError Unit :=
  match protocol.associations with
  | some associations =>
    if protocol.messages = false then
      .error ⟨associations.interface.text, "associations require a `messages` declaration"⟩
    else do
      validateMessageTemplate associations.inbound.message
      validateMessageTemplate associations.outbound.message
      let _ ← protocol.states.foldlM (validateStateAssociations associations) []
  | none =>
    match protocol.states.find? fun state => state.associations.isSome with
    | some state =>
      .error ⟨state.name, "state association requires an `associations` declaration"⟩
    | none => .ok ()

/-- The transitions with a direction are those of a mixed state. -/
def validateDirections (state : State I X) : Except SynError Unit :=
  match state.choice with
  | .mixed =>
    if state.transitions.any fun t => t.choice.isNone then
      .error ⟨state.name, "every transition in a mixed state needs `internal` or `external`"⟩
    else
      .ok ()
  | .internal | .external =>
    if state.transitions.any fun t => t.choice.isSome then
      .error ⟨state.name, "transition directions are only valid in a mixed state"⟩
    else
      .ok ()

/-- The loop over the transitions of a state, with the methods it has seen. -/
def validateTransitions (states : List Ident) :
    List Ident → List (Transition I X) → Except SynError Unit
  | _, [] => .ok ()
  | methods, t :: ts =>
    if t.target ∉ states then
      .error ⟨t.target, "transition target is not declared"⟩
    else if t.method ∈ methods then
      .error ⟨t.method, "duplicate transition method in state"⟩
    else
      validateTransitions states (t.method :: methods) ts

def validateState (states : List Ident) (state : State I X) : Except SynError Unit := do
  validateDirections state
  validateTransitions states [] state.transitions

def validateStates (states : List Ident) : List (State I X) → Except SynError Unit
  | [] => .ok ()
  | state :: rest => do
    validateState states state
    validateStates states rest

/-- A pattern without a `messages` block. -/
def strayProjection (protocol : Protocol I X) : Option (Transition I X) :=
  if protocol.messages then
    none
  else
    (protocol.states.flatMap State.transitions).find? fun t => t.projection.isSome

def validate (protocol : Protocol I X) : Except SynError Unit := do
  validateAssociations protocol
  match strayProjection protocol with
  | some t => .error ⟨t.event, "transition projection requires a `messages` declaration"⟩
  | none =>
    if protocol.initial ∉ protocol.states.map State.name then
      .error ⟨protocol.initial, "initial state is not declared"⟩
    else
      validateStates (protocol.states.map State.name) protocol.states

/-! ## The runtime machine -/

/-- `transition.choice.unwrap_or(state.choice)`; `none` stands for the arm which is unreachable. -/
def State.direction? (state : State I X) (t : Transition I X) : Option Choice :=
  match t.choice, state.choice with
  | some choice, _ => some choice
  | none, .internal => some .internal
  | none, .external => some .external
  | none, .mixed => none

/-- The arm of a projection function. -/
def arm (choice : Choice) : Option (Pattern I X) → Guard I X
  | none => .silent choice
  | some pattern =>
    match choice with
    | .internal => .internal pattern.internal
    | .external => .external pattern.external

def row (state : State I X) (t : Transition I X) (choice : Choice) : Edge Ident Ident I X :=
  { source := state.name
    event := t.event
    target := t.target
    guard := arm choice t.projection }

namespace Protocol

/-- The transitions with their states, in the order of the description. -/
def declared (protocol : Protocol I X) : List (State I X × Transition I X) :=
  protocol.states.flatMap fun state => state.transitions.map fun t => (state, t)

/-- `TRANSITIONS` and the arms of `project_internal` and `project_external`. -/
def expand (protocol : Protocol I X) : Option (Table Ident Ident I X) :=
  protocol.declared.mapM fun d => (d.1.direction? d.2).map (row d.1 d.2)

end Protocol

structure RuntimeTransition where
  id : String
  source : Ident
  event : Ident
  target : Ident
  choice : Choice
  deriving DecidableEq, Repr

def descriptor (module : Ident) (edge : Edge Ident Ident I X) : RuntimeTransition :=
  { id := module ++ "." ++ edge.source ++ "." ++ edge.event
    source := edge.source
    event := edge.event
    target := edge.target
    choice := edge.guard.choice }

def transition (module : Ident) (table : Table Ident Ident I X) (state event : Ident) :
    Option RuntimeTransition :=
  (table.transition state event).map (descriptor module)

structure RuntimeFsm where
  state : Ident
  deriving DecidableEq, Repr

structure TransitionError where
  state : Ident
  event : Ident
  deriving DecidableEq, Repr

structure ProjectionError where
  state : Ident
  deriving DecidableEq, Repr

namespace RuntimeFsm

variable (module : Ident) (table : Table Ident Ident I X)

def step (fsm : RuntimeFsm) (event : Ident) : Except TransitionError Unit × RuntimeFsm :=
  match transition module table fsm.state event with
  | some t => (.ok (), ⟨t.target⟩)
  | none => (.error ⟨fsm.state, event⟩, fsm)

def stepProjected {Message : Type} (fsm : RuntimeFsm) (message : Message)
    (project : Ident → Message → Option Ident) : Except ProjectionError Ident × RuntimeFsm :=
  match project fsm.state message with
  | none => (.error ⟨fsm.state⟩, fsm)
  | some event =>
    match step module table fsm event with
    | (.ok (), next) => (.ok event, next)
    | (.error _, next) => (.error ⟨fsm.state⟩, next)

end RuntimeFsm

/-! ## Typestates -/

/-- A generated method: the phase it is called in, and the phase of the session it returns.  With a
payload that its handler refuses it returns the session it was called on. -/
structure Method where
  phase : Ident
  name : Ident
  target : Ident
  payload : Option TypeTokens
  cleanliness : Option Ident
  deriving DecidableEq, Repr

namespace Protocol

variable (protocol : Protocol I X)

/-- The methods of `Session`. -/
def sessionMethods : List Method :=
  protocol.declared.map fun d => ⟨d.1.name, d.2.method, d.2.target, none, none⟩

/-- The methods of `DualSession`. -/
def dualSessionMethods : List Method :=
  protocol.declared.map fun d => ⟨d.1.name, d.2.method, d.2.target, none, none⟩

/-- The methods of `TypedSession`, which carry a transport. -/
def typedSessionMethods : List Method :=
  protocol.declared.map fun d =>
    ⟨d.1.name, d.2.method, d.2.target, d.2.payload, d.2.cleanliness⟩

def methods : List Method :=
  protocol.sessionMethods ++ protocol.dualSessionMethods ++ protocol.typedSessionMethods

end Protocol

/-! ## Messages of a phase -/

/-- `project_internal` or `project_external`, by the sender. -/
def project (table : Table Ident Ident I X) (state : Ident) : Signal I X → Option Ident
  | .internal message => table.projectInternal state message
  | .external message => table.projectExternal state message

/-- The row whose pattern projects a message. -/
def matched (table : Table Ident Ident I X) (state : Ident) :
    Signal I X → Option (Edge Ident Ident I X)
  | .internal message => table.internalEdge state message
  | .external message => table.externalEdge state message

def sender : Signal I X → Choice
  | .internal _ => .internal
  | .external _ => .external

namespace State

variable (state : State I X)

/-- The variants of `<State>InternalMessage` or `<State>ExternalMessage`. -/
def variants (choice : Choice) : List (Transition I X) :=
  state.transitions.filter fun t => t.projection.isSome && (state.direction? t == some choice)

/-- `try_from`, which names a variant by its event. -/
def tryFrom (table : Table Ident Ident I X) (signal : Signal I X) : Option Ident :=
  (project table state.name signal).filter fun event =>
    (state.variants (sender signal)).any fun t => t.event == event

/-- `project_internal_message` or `project_external_message`: the phase of the next connection. -/
def projectMessage (choice : Choice) (variant : Ident) : Option Ident :=
  ((state.variants choice).find? fun t => t.event == variant).map Transition.target

end State

/-! ## Agreement -/

/-- One transition: its row, its methods and the messages its pattern projects. -/
structure Mirrored (protocol : Protocol I X) (table : Table Ident Ident I X) (state : State I X)
    (t : Transition I X) (choice : Choice) : Prop where
  entry : transition protocol.module table state.name t.event =
    some (descriptor protocol.module (row state t choice))
  methods : ∀ m ∈ protocol.methods, m.phase = state.name → m.name = t.method →
    RuntimeFsm.step protocol.module table ⟨state.name⟩ t.event = (.ok (), ⟨m.target⟩)
  messages : ∀ signal, matched table state.name signal = some (row state t choice) →
    RuntimeFsm.stepProjected protocol.module table ⟨state.name⟩ signal (project table) =
      (.ok t.event, ⟨t.target⟩) ∧
    (state.tryFrom table signal).bind (state.projectMessage (sender signal)) = some t.target

variable {protocol : Protocol I X} {state : State I X} {t : Transition I X} {signal : Signal I X}

namespace Protocol

def Mirrors (protocol : Protocol I X) (table : Table Ident Ident I X) : Prop :=
  ∀ d ∈ protocol.declared, ∀ choice, d.1.direction? d.2 = some choice →
    Mirrored protocol table d.1 d.2 choice

/-- Transitions for one event of a state lead to one phase, in one direction. -/
def EventsAgree (protocol : Protocol I X) : Prop :=
  ∀ d ∈ protocol.declared, ∀ d' ∈ protocol.declared, d.1.name = d'.1.name →
    d.2.event = d'.2.event →
    d.2.target = d'.2.target ∧ d.1.direction? d.2 = d'.1.direction? d'.2

/-- Methods of one name of a state lead to one phase. -/
def MethodsAgree (protocol : Protocol I X) : Prop :=
  ∀ d ∈ protocol.declared, ∀ d' ∈ protocol.declared, d.1.name = d'.1.name →
    d.2.method = d'.2.method → d.2.target = d'.2.target

theorem mem_declared :
    (state, t) ∈ protocol.declared ↔ state ∈ protocol.states ∧ t ∈ state.transitions := by
  simp only [declared, List.mem_flatMap, List.mem_map, Prod.mk.injEq]
  constructor
  · rintro ⟨_, hstate, _, ht, rfl, rfl⟩
    exact ⟨hstate, ht⟩
  · rintro ⟨hstate, ht⟩
    exact ⟨state, hstate, t, ht, rfl, rfl⟩

end Protocol

/-! ## What validation guarantees -/

theorem validateState_of_validateStates {states : List Ident} {rest : List (State I X)}
    (h : validateStates states rest = .ok ()) (hmem : state ∈ rest) :
    validateState states state = .ok () := by
  induction rest with
  | nil => cases hmem
  | cons x rest ih =>
    obtain ⟨_, hx, hrest⟩ := except_bind_eq_ok.1 h
    rcases List.mem_cons.1 hmem with rfl | hmem
    · exact hx
    · exact ih hrest hmem

theorem validateState_of_validate (h : validate protocol = .ok ())
    (hmem : state ∈ protocol.states) :
    validateState (protocol.states.map State.name) state = .ok () := by
  obtain ⟨_, -, hrest⟩ := except_bind_eq_ok.1 h
  cases hstray : strayProjection protocol with
  | some t =>
    rw [hstray] at hrest
    cases hrest
  | none =>
    rw [hstray] at hrest
    dsimp only at hrest
    split_ifs at hrest
    exact validateState_of_validateStates hrest hmem

/-- The direction of a transition is known: no expansion reaches the arm for mixed states. -/
theorem direction?_isSome {states : List Ident} (h : validateState states state = .ok ())
    (ht : t ∈ state.transitions) : (state.direction? t).isSome = true := by
  unfold State.direction?
  cases hchoice : t.choice with
  | some choice => rfl
  | none =>
    cases hstate : state.choice with
    | internal | external => rfl
    | mixed =>
      have hany : (state.transitions.any fun t => t.choice.isNone) = true :=
        List.any_eq_true.2 ⟨t, ht, by rw [hchoice]; rfl⟩
      simp only [validateState, validateDirections, hstate, if_pos hany] at h
      cases h

theorem methods_nodup {states methods : List Ident} {ts : List (Transition I X)}
    (h : validateTransitions states methods ts = .ok ()) :
    (ts.map Transition.method).Nodup ∧ ∀ t ∈ ts, t.method ∉ methods := by
  induction ts generalizing methods with
  | nil => simp
  | cons t ts ih =>
    unfold validateTransitions at h
    split_ifs at h with htarget hmethod
    obtain ⟨hnodup, hfresh⟩ := ih h
    refine ⟨List.nodup_cons.2 ⟨?_, hnodup⟩, ?_⟩
    · intro hmem
      obtain ⟨x, hx, hxt⟩ := List.mem_map.1 hmem
      exact hfresh x hx (by simp [hxt])
    · intro x hx
      rcases List.mem_cons.1 hx with rfl | hx
      · exact hmethod
      · exact fun hmem => hfresh x hx (List.mem_cons_of_mem _ hmem)

/-- With states of different names, what `validate` asks of methods suffices. -/
theorem methodsAgree_of_nodup (h : validate protocol = .ok ())
    (hnames : (protocol.states.map State.name).Nodup) : protocol.MethodsAgree := by
  rintro ⟨state, t⟩ hd ⟨state', t'⟩ hd' hname hmethod
  obtain ⟨hstate, ht⟩ := Protocol.mem_declared.1 hd
  obtain ⟨hstate', ht'⟩ := Protocol.mem_declared.1 hd'
  obtain rfl : state = state' := List.inj_on_of_nodup_map hnames hstate hstate' hname
  obtain ⟨_, -, hvalid⟩ := except_bind_eq_ok.1 (validateState_of_validate h hstate)
  have heq : t = t' := List.inj_on_of_nodup_map (methods_nodup hvalid).1 ht ht' hmethod
  exact congrArg Transition.target heq

/-! ## The table -/

theorem mapM_option {α β : Type} {f : α → Option β} {items : List α}
    (h : ∀ a ∈ items, (f a).isSome = true) :
    ∃ results, items.mapM f = some results ∧ ∀ b, b ∈ results ↔ ∃ a ∈ items, f a = some b := by
  induction items with
  | nil => exact ⟨[], rfl, by simp⟩
  | cons a items ih =>
    obtain ⟨b, hb⟩ := Option.isSome_iff_exists.1 (h a (by simp))
    obtain ⟨results, hresults, hmem⟩ := ih fun x hx => h x (List.mem_cons_of_mem _ hx)
    refine ⟨b :: results, by simp [List.mapM_cons, hb, hresults], ?_⟩
    intro c
    simp only [List.mem_cons, hmem, or_and_right, exists_or, exists_eq_left, hb, Option.some.injEq,
      @eq_comm _ c]

namespace Protocol

/-- The rows of a table are those of the description. -/
def Rows (protocol : Protocol I X) (table : Table Ident Ident I X) : Prop :=
  ∀ edge, edge ∈ table ↔
    ∃ d ∈ protocol.declared, ∃ choice, d.1.direction? d.2 = some choice ∧
      row d.1 d.2 choice = edge

theorem directed (h : validate protocol = .ok ()) :
    ∀ d ∈ protocol.declared, (d.1.direction? d.2).isSome = true := by
  rintro ⟨state, t⟩ hd
  obtain ⟨hstate, ht⟩ := mem_declared.1 hd
  exact direction?_isSome (validateState_of_validate h hstate) ht

theorem expand_rows (h : validate protocol = .ok ()) :
    ∃ table, protocol.expand = some table ∧ protocol.Rows table := by
  have hsome : ∀ d ∈ protocol.declared,
      ((d.1.direction? d.2).map (row d.1 d.2)).isSome = true := by
    intro d hd
    rw [Option.isSome_map]
    exact directed h d hd
  obtain ⟨table, hexpand, hmem⟩ := mapM_option hsome
  refine ⟨table, hexpand, fun edge => (hmem edge).trans ?_⟩
  simp only [Option.map_eq_some_iff]

end Protocol

@[simp] theorem arm_choice {choice : Choice} {projection : Option (Pattern I X)} :
    (arm choice projection).choice = choice := by
  cases projection with
  | none => rfl
  | some pattern => cases choice <;> rfl

theorem arm_matched {table : Table Ident Ident I X} {choice : Choice}
    (h : matched table state.name signal = some (row state t choice)) :
    t.projection.isSome = true ∧ choice = sender signal := by
  obtain ⟨_, _, _, _, _, _, projection⟩ := t
  -- in the three other cases the arm accepts no message
  cases signal <;> obtain ⟨-, -, haccepts⟩ := Table.edge_of_find? h <;>
    cases projection <;> cases choice <;> first | exact ⟨rfl, rfl⟩ | cases haccepts

theorem project_of_matched {table : Table Ident Ident I X} {state : Ident}
    {edge : Edge Ident Ident I X} (h : matched table state signal = some edge) :
    project table state signal = some edge.event := by
  cases signal <;> exact congrArg (Option.map Edge.event) h

/-! ## The runtime machine against the typestates -/

section Agreement

variable {protocol : Protocol I X} {table : Table Ident Ident I X} {state : State I X}
  {t : Transition I X} {choice : Choice}

/-- The row that the lookup finds stands for a transition with the same event, so it has the same
target and the same direction. -/
theorem transition_of_eventsAgree (hrows : protocol.Rows table) (hagree : protocol.EventsAgree)
    (hd : (state, t) ∈ protocol.declared) (hchoice : state.direction? t = some choice) :
    transition protocol.module table state.name t.event =
      some (descriptor protocol.module (row state t choice)) := by
  have hrow : row state t choice ∈ table := (hrows _).2 ⟨_, hd, choice, hchoice, rfl⟩
  have hsome : (table.transition state.name t.event).isSome = true :=
    List.find?_isSome.2 ⟨_, hrow, by simp [row]⟩
  obtain ⟨edge, hedge⟩ := Option.isSome_iff_exists.1 hsome
  obtain ⟨hmem, hsource, hevent⟩ := Table.edge_of_find? hedge
  obtain ⟨d, hd', choice', hchoice', rfl⟩ := (hrows edge).1 hmem
  obtain ⟨htarget, hdirection⟩ := hagree d hd' _ hd hsource (of_decide_eq_true hevent)
  have hsame : choice' = choice :=
    Option.some.inj (hchoice'.symm.trans (hdirection.trans hchoice))
  have hsource' : d.1.name = state.name := hsource
  have hevent' : d.2.event = t.event := of_decide_eq_true hevent
  have htarget' : d.2.target = t.target := htarget
  simp only [transition, hedge, Option.map_some, descriptor, row, arm_choice, hsource', hevent',
    htarget', hsame]

theorem step_of_transition
    (h : transition protocol.module table state.name t.event =
      some (descriptor protocol.module (row state t choice))) :
    RuntimeFsm.step protocol.module table ⟨state.name⟩ t.event = (.ok (), ⟨t.target⟩) := by
  simp only [RuntimeFsm.step, h]
  rfl

theorem mem_methods {m : Method} :
    m ∈ protocol.methods → ∃ d ∈ protocol.declared,
      m.phase = d.1.name ∧ m.name = d.2.method ∧ m.target = d.2.target := by
  simp only [Protocol.methods, Protocol.sessionMethods, Protocol.dualSessionMethods,
    Protocol.typedSessionMethods, List.mem_append, List.mem_map]
  rintro ((⟨d, hd, rfl⟩ | ⟨d, hd, rfl⟩) | ⟨d, hd, rfl⟩) <;> exact ⟨d, hd, rfl, rfl, rfl⟩

theorem message_selects (hagree : protocol.EventsAgree) (hd : (state, t) ∈ protocol.declared)
    (hchoice : state.direction? t = some choice)
    (h : matched table state.name signal = some (row state t choice)) :
    (state.tryFrom table signal).bind (state.projectMessage (sender signal)) = some t.target := by
  obtain ⟨hprojection, rfl⟩ := arm_matched h
  have hvariant : t ∈ state.variants (sender signal) := by
    refine List.mem_filter.2 ⟨(Protocol.mem_declared.1 hd).2, ?_⟩
    simp [hprojection, hchoice]
  have hany : ((state.variants (sender signal)).any fun x => x.event == t.event) = true :=
    List.any_eq_true.2 ⟨t, hvariant, by simp⟩
  have htry : state.tryFrom table signal = some t.event := by
    have hproject : project table state.name signal = some t.event := project_of_matched h
    rw [State.tryFrom, hproject, Option.filter_some, if_pos hany]
  -- the variant of an event is the first one, but all of them have the target of `t`
  obtain ⟨x, hx⟩ := Option.isSome_iff_exists.1 (List.find?_isSome.2 ⟨t, hvariant, by simp⟩ :
    ((state.variants (sender signal)).find? fun x => x.event == t.event).isSome = true)
  have hmem : x ∈ state.transitions := (List.mem_filter.1 (List.mem_of_find?_eq_some hx)).1
  have hevent : x.event = t.event := by simpa using List.find?_some hx
  have hdeclared : (state, x) ∈ protocol.declared :=
    Protocol.mem_declared.2 ⟨(Protocol.mem_declared.1 hd).1, hmem⟩
  rw [htry, Option.bind_some, State.projectMessage, hx, Option.map_some]
  exact congrArg some (hagree (state, x) hdeclared (state, t) hd rfl hevent).1

theorem mirrors_of_agree (hrows : protocol.Rows table) (hevents : protocol.EventsAgree)
    (hmethods : protocol.MethodsAgree) : protocol.Mirrors table := by
  rintro ⟨state, t⟩ hd choice hchoice
  have hentry := transition_of_eventsAgree hrows hevents hd hchoice
  have hstep := step_of_transition hentry
  refine ⟨hentry, ?_, ?_⟩
  · intro m hm hphase hname
    obtain ⟨d, hd', hphase', hname', htarget⟩ := mem_methods hm
    have hsame : d.2.target = t.target :=
      hmethods d hd' (state, t) hd (hphase'.symm.trans hphase) (hname'.symm.trans hname)
    rw [htarget, hsame]
    exact hstep
  · intro signal hmatched
    refine ⟨?_, message_selects hevents hd hchoice hmatched⟩
    have hproject : project table state.name signal = some t.event := project_of_matched hmatched
    simp only [RuntimeFsm.stepProjected, hproject, hstep]

theorem eventsAgree_of_mirrors (hvalid : validate protocol = .ok ())
    (h : protocol.Mirrors table) : protocol.EventsAgree := by
  intro d hd d' hd' hname hevent
  obtain ⟨choice, hchoice⟩ := Option.isSome_iff_exists.1 (Protocol.directed hvalid d hd)
  obtain ⟨choice', hchoice'⟩ := Option.isSome_iff_exists.1 (Protocol.directed hvalid d' hd')
  have hentry := (h d hd choice hchoice).entry
  have hentry' := (h d' hd' choice' hchoice').entry
  rw [← hname, ← hevent, hentry] at hentry'
  have hrow := Option.some.inj hentry'
  refine ⟨congrArg RuntimeTransition.target hrow, ?_⟩
  have hsame : choice = choice' := by
    simpa [descriptor, row] using congrArg RuntimeTransition.choice hrow
  rw [hchoice, hchoice', hsame]

theorem methodsAgree_of_mirrors (hvalid : validate protocol = .ok ())
    (h : protocol.Mirrors table) : protocol.MethodsAgree := by
  intro d hd d' hd' hname hmethod
  obtain ⟨choice, hchoice⟩ := Option.isSome_iff_exists.1 (Protocol.directed hvalid d hd)
  have hmirrored := h d hd choice hchoice
  have hmem : (⟨d'.1.name, d'.2.method, d'.2.target, none, none⟩ : Method) ∈ protocol.methods := by
    simp only [Protocol.methods, List.mem_append]
    exact Or.inl (Or.inl (List.mem_map.2 ⟨d', hd', rfl⟩))
  have hstep := hmirrored.methods _ hmem hname.symm hmethod.symm
  rw [step_of_transition hmirrored.entry] at hstep
  exact congrArg RuntimeFsm.state (congrArg Prod.snd hstep)

end Agreement

/-- Every accepted description.  The condition on methods is void when no state is declared
twice. -/
theorem runtime_mirrors_iff (protocol : Protocol I X) (h : validate protocol = .ok ()) :
    ∃ table, protocol.expand = some table ∧
      (protocol.Mirrors table ↔ protocol.EventsAgree ∧ protocol.MethodsAgree) ∧
      ((protocol.states.map State.name).Nodup → protocol.MethodsAgree) := by
  obtain ⟨table, hexpand, hrows⟩ := Protocol.expand_rows h
  refine ⟨table, hexpand, ⟨?_, ?_⟩, methodsAgree_of_nodup h⟩
  · intro hmirrors
    exact ⟨eventsAgree_of_mirrors h hmirrors, methodsAgree_of_mirrors h hmirrors⟩
  · rintro ⟨hevents, hmethods⟩
    exact mirrors_of_agree hrows hevents hmethods

/-- A transition for any message. -/
def onAny (choice : Option Choice) (event method target : Ident) : Transition Unit Unit :=
  { choice := choice
    event := event
    method := method
    payload := none
    target := target
    cleanliness := none
    projection := some ⟨fun _ => true, fun _ => true⟩ }

/-- A mixed state which either side can leave, and the phases they leave it for. -/
def turns (event : Ident) : Protocol Unit Unit :=
  { module := "turns"
    initial := "Open"
    messages := true
    associations := none
    states :=
      [⟨"Open", .mixed,
        [onAny (some .internal) "Close" "close" "Closing",
         onAny (some .external) event "closed" "Closed"], none⟩,
       ⟨"Closing", .internal, [], none⟩,
       ⟨"Closed", .internal, [], none⟩] }

/-- With an event of its own for either side the runtime machine mirrors the typestates. -/
theorem runtime_mirrors_turns :
    ∃ table, (turns "PeerClose").expand = some table ∧ (turns "PeerClose").Mirrors table := by
  obtain ⟨table, hexpand, hiff, hmethods⟩ := runtime_mirrors_iff (turns "PeerClose") rfl
  refine ⟨table, hexpand, hiff.2 ⟨?_, hmethods (by decide)⟩⟩
  unfold Protocol.EventsAgree
  decide

/-- With one event for both sides the description is accepted.  A message of the peer leads the
typestate to `Closed` and the runtime machine to `Closing`. -/
theorem one_event_for_both_sides :
    validate (turns "Close") = .ok () ∧ ((turns "Close").states.map State.name).Nodup ∧
    ∃ table, (turns "Close").expand = some table ∧ ¬ (turns "Close").Mirrors table ∧
      RuntimeFsm.stepProjected "turns" table ⟨"Open"⟩ (.external ()) (project table) =
        (.ok "Close", ⟨"Closing"⟩) ∧
      (turns "Close").states.head?.bind (fun state =>
        (state.tryFrom table (.external ())).bind (state.projectMessage .external)) =
        some "Closed" := by
  have hvalid : validate (turns "Close") = .ok () := rfl
  refine ⟨hvalid, by decide, _, rfl, ?_, rfl, rfl⟩
  intro hmirrors
  have hagree := eventsAgree_of_mirrors hvalid hmirrors
  unfold Protocol.EventsAgree at hagree
  revert hagree
  decide

end Generator
end PgProto
