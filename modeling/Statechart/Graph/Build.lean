import Statechart.Description.Reading
import Statechart.Graph.Basic

/-!
# Building graphs

From descriptions to graphs. The first thing found wrong is reported.

- `firstRepeated?`      : the first item that occurred before
- `Transition.build`, `State.build`, `Graph.build`, `Collaboration.build`
- `Graph.ofValue`, `Collaboration.ofValue` : from values of any shape

In strict mode a state has at most one transition on an event.
-/

namespace Statechart

/-- The first item that is already among those before it. -/
def firstRepeated? [BEq α] : List α → List α → Option α
  | _, [] => none
  | seen, a :: rest => if seen.contains a then some a else firstRepeated? (a :: seen) rest

/-! ## Transitions and states -/

/-- Both targets must be among the states. -/
def Transition.build (states : List String) (event : Option String) (d : Description.Transition) :
    Except ModelFault Transition := do
  match (d.target.toList ++ d.otherwise.toList).find? fun name => !states.contains name with
  | some name => refuse (.unknownTarget name)
  | none =>
      let guards ← d.guards.mapM fun guard => Expression.ofValue (.text guard)
      let actions ← d.actions.mapM Action.build
      .ok { event, target := d.target, otherwise := d.otherwise, guards, actions }

namespace State

/-- The timers of a state, given those before them. -/
def buildAfter (state : String) : List Timeout → List Description.Action →
    Except ModelFault (List Timeout)
  | timers, [] => .ok timers
  | timers, d :: rest => do
      match ← Action.build d with
      | .timeout timer =>
          if timers.any fun t => t.name == timer.name then
            refuse (.duplicateTimeout timer.name state)
          else buildAfter state (timers ++ [timer]) rest
      | action => refuse (.afterWithoutTimeout state action.kind)

/-- The transitions on events, given those before them. -/
def buildOn (strict : Bool) (states : List String) (state : String) :
    List Transition → List Description.Trigger → Except ModelFault (List Transition)
  | transitions, [] => .ok transitions
  | transitions, d :: rest =>
      if d.event = "" then refuse (.unnamedTrigger state)
      else do
        let transition ← Transition.build states (some d.event) d.transition
        -- a transition that is invalid by itself is reported before a repeated one
        if strict && transitions.any fun t => t.event == some d.event then
          refuse (.duplicateTransition state d.event)
        else buildOn strict states state (transitions ++ [transition]) rest

def build (strict : Bool) (states : List String) (d : Description.State) :
    Except ModelFault State := do
  let after ← buildAfter d.name [] d.after
  let on ← buildOn strict states d.name [] d.on
  let always ← d.always.mapM (Transition.build states none)
  let entry ← d.entry.mapM Action.build
  let exit ← d.exit.mapM Action.build
  let during ← d.during.mapM Action.build
  let locals ← d.locals.mapM Variable.build
  .ok { name := d.name, isInitial := d.isInitial, isTerminal := d.isTerminal
        entry, exit, during, after, locals, on, always }

end State

/-! ## Graphs -/

namespace Graph

/-- What is checked of the states before any of them is built. -/
def checkStates (graph : String) (states : List Description.State) : Except ModelFault Unit :=
  if graph = "" then refuse .unnamedGraph
  else if states.isEmpty then refuse (.noStates graph)
  else
    match firstRepeated? [] (states.map (·.name)) with
    | some state => refuse (.duplicateState state graph)
    | none =>
        match (states.filter (·.isInitial)).length with
        | 1 => .ok ()
        | 0 => refuse (.noInitialState graph)
        | count => refuse (.severalInitialStates graph count)

end Graph

mutual

def Graph.build (strict : Bool) : Description.Graph → Except ModelFault Graph
  | ⟨name, isAbstract, locals, states, nested⟩ => do
      Graph.checkStates name states
      -- the description is kept as it is, for its checksum and its written form
      let description := ⟨name, isAbstract, locals, states, nested⟩
      let states ← states.mapM (State.build strict (states.map (·.name)))
      let locals ← locals.mapM Variable.build
      let nested ← buildGraphs strict nested
      match states.find? (·.isInitial) with
      | some initial =>
          .ok { name, isAbstract, locals, nested, states, initial, description }
      | none => refuse (.noInitialState name)

def buildGraphs (strict : Bool) : List Description.Graph → Except ModelFault (List Graph)
  | [] => .ok []
  | d :: rest => do
      let graph ← Graph.build strict d
      let graphs ← buildGraphs strict rest
      .ok (graph :: graphs)

end

/-! ## Collaborations -/

mutual

/-- The names of a graph and of those nested in it, siblings from last to first. -/
def Graph.backwardNames : Graph → List String
  | ⟨name, _, _, nested, _, _, _⟩ => name :: allBackwardNames nested

def allBackwardNames : List Graph → List String
  | [] => []
  | graph :: rest => allBackwardNames rest ++ graph.backwardNames

end

def Collaboration.build (strict : Bool) (d : Description.Collaboration) :
    Except ModelFault Collaboration :=
  if d.name = "" then refuse .unnamedCollaboration
  else do
    let persistent ← d.persistent.mapM Variable.build
    let machines ← buildGraphs strict d.machines
    match firstRepeated? [] (allBackwardNames machines) with
    | some name => refuse (.duplicateGraph name)
    | none => .ok ⟨d.name, persistent, machines, d.checksum⟩

/-! ## From values -/

/-- A value of the wrong shape is refused before anything else is looked at. -/
def Graph.ofValue (strict : Bool) (v : Value) : Except ModelFault Graph :=
  match Description.Graph.read? v with
  | some d => Graph.build strict d
  | none => .error .shape

def Collaboration.ofValue (strict : Bool) (v : Value) : Except ModelFault Collaboration :=
  match Description.Collaboration.read? v with
  | some d => Collaboration.build strict d
  | none => .error .shape

end Statechart
