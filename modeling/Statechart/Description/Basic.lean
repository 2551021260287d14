import Statechart.Event

/-!
# Descriptions

What is written down about a collaboration of state machines, before anything is checked beyond
its shape.

- `Description.Variable`, `Description.Event`, `Description.Action`
- `Description.Transition`, `Description.Trigger`, `Description.State`
- `Description.Graph`         : one state machine with those nested in it
- `Description.Collaboration` : machines that share persistent variables
-/

namespace Statechart
namespace Description

/-! ## Actions -/

structure Variable where
  name : String
  value : Value

structure Event where
  name : String
  channel : Channel
  data : List Variable

inductive Action where
  | assign (declared : Variable)
  | create (declared : Variable) (persistent : Bool)
  | invoke (service : String) (isLocal : Bool) (input : List Variable) (output : List String)
      (done : List Event)
  | choose (value : Value) (cases : List (Value × Action))
  | raise (event : Event)
  | timeout (name : String) (delay : Value) (action : Action)
  | resetTimeout (timeout : String)

/-! ## Graphs -/

structure Transition where
  target : Option String
  guards : List String
  actions : List Action
  otherwise : Option String

/-- A transition on an event. -/
structure Trigger where
  event : String
  transition : Transition

structure State where
  name : String
  isInitial : Bool
  isTerminal : Bool
  entry : List Action
  exit : List Action
  during : List Action
  after : List Action
  on : List Trigger
  always : List Transition
  locals : List Variable

structure Graph where
  name : String
  isAbstract : Bool
  locals : List Variable
  states : List State
  /-- The graphs instantiated under every instance of this one. -/
  nested : List Graph

structure Collaboration where
  name : String
  persistent : List Variable
  machines : List Graph

end Description
end Statechart
