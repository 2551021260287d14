import Statechart.Action
import Statechart.Description.Written

/-!
# State graphs

Graphs whose names are checked and whose expressions are parsed.

- `Transition`    : on an event, or always
- `State`         : actions, timers, variables and transitions
- `Graph`         : states, one of them initial, and nested graphs
- `Collaboration` : graphs that share persistent variables
-/

namespace Statechart

/-! ## Transitions -/

structure Transition where
  /-- `none` for transitions that wait for no event. -/
  event : Option String
  /-- The state entered; without one the transition stays inside its state. -/
  target : Option String
  /-- The state entered, without actions, when the guards do not hold. -/
  otherwise : Option String
  guards : List Expression
  actions : List Action

namespace Transition

/-- Whether all guards hold, up to the first that does not. -/
def guardsHold (find : Lookup) : List Expression → Except ModelFault Bool
  | [] => .ok true
  | guard :: rest => do
      if ← guard.evaluateBool find then guardsHold find rest else .ok false

def passes (t : Transition) (find : Lookup) : Except ModelFault Bool := guardsHold find t.guards

def targetFor (t : Transition) (isElse : Bool) : Option String :=
  if isElse then t.otherwise else t.target

def hasElse (t : Transition) : Bool := t.otherwise.isSome

end Transition

/-! ## States -/

structure State where
  name : String
  isInitial : Bool
  isTerminal : Bool
  entry : List Action
  exit : List Action
  /-- Actions on entry whose invocations end with the state. -/
  during : List Action
  /-- Timers that run while the state is active. -/
  after : List Timeout
  locals : List Variable
  /-- The transitions on events, in the order of declaration. -/
  on : List Transition
  always : List Transition

namespace State

def onEvent (s : State) (event : String) : List Transition :=
  s.on.filter fun t => t.event == some event

def events (s : State) : List String := s.on.filterMap (·.event)

end State

/-! ## Graphs -/

structure Graph where
  name : String
  isAbstract : Bool
  locals : List Variable
  nested : List Graph
  /-- In the order of declaration. -/
  states : List State
  initial : State
  description : Description.Graph

namespace Graph

def state? (g : Graph) (name : String) : Option State := g.states.find? fun s => s.name == name

def onTransitions (g : Graph) (state event : String) : List Transition :=
  match g.state? state with
  | some s => s.onEvent event
  | none => []

def alwaysTransitions (g : Graph) (state : String) : List Transition :=
  match g.state? state with
  | some s => s.always
  | none => []

/-- The events that any state reacts to, sorted, each once. -/
def events (g : Graph) : List String :=
  (Table.ofList (g.states.flatMap fun s => s.events.map fun event => (event, ()))).entries.map
    (·.1)

def checksum (g : Graph) : String := g.description.checksum

end Graph

mutual

/-- The first graph of a name, outer graphs before those nested in them. -/
def Graph.search (name : String) : Graph → Option Graph
  | ⟨own, isAbstract, locals, nested, states, initial, description⟩ =>
      if own = name then some ⟨own, isAbstract, locals, nested, states, initial, description⟩
      else searchAll name nested

def searchAll (name : String) : List Graph → Option Graph
  | [] => none
  | graph :: rest =>
      match graph.search name with
      | some found => some found
      | none => searchAll name rest

end

structure Collaboration where
  name : String
  persistent : List Variable
  machines : List Graph
  checksum : String

namespace Collaboration

def find? (c : Collaboration) (name : String) : Option Graph := searchAll name c.machines

end Collaboration

end Statechart
