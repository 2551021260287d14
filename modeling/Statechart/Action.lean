import Statechart.Description.Basic

/-!
# Actions

Actions whose expressions are parsed and whose names are checked.

- `Timeout`      : a named recurring timer that raises an event
- `Invocation`   : a call of a service
- `Action`       : what states and transitions do
- `Action.build` : the action that a description stands for
-/

namespace Statechart

/-- A timer that raises its event again and again, first after one delay. -/
structure Timeout where
  name : String
  /-- In milliseconds. -/
  delay : Expression
  event : EventTemplate

structure Invocation where
  service : String
  /-- Whether only services of this process count. -/
  isLocal : Bool
  input : List Variable
  /-- The variables assigned from the response. -/
  output : List String
  /-- The events raised on completion, carrying the whole response. -/
  done : List EventTemplate

inductive Action where
  | assign (declared : Variable)
  | create (declared : Variable) (persistent : Bool)
  | invoke (call : Invocation)
  /-- Does the actions of every case equal to the value. -/
  | choose (value : Expression) (cases : List (Expression × Action))
  | raise (event : EventTemplate)
  | timeout (timer : Timeout)
  | resetTimeout (timeout : String)

namespace Action

/-- The word for the kind of action in descriptions. -/
def kind : Action → String
  | .assign _ => "assign"
  | .create _ _ => "create"
  | .invoke _ => "invoke"
  | .choose _ _ => "match"
  | .raise _ => "raise"
  | .timeout _ => "timeout"
  | .resetTimeout _ => "timeout_reset"

def timeout? : Action → Option Timeout
  | .timeout timer => some timer
  | _ => none

end Action

/-! ## Building -/

def refuse (fault : DefinitionFault) : Except ModelFault α := .error (.definition fault)

def Variable.build (d : Description.Variable) : Except ModelFault Variable :=
  if d.name = "" then refuse .unnamedVariable
  else do
    let value ← Expression.ofValue d.value
    .ok ⟨d.name, value⟩

def EventTemplate.build (d : Description.Event) : Except ModelFault EventTemplate :=
  if d.name = "" then refuse .unnamedEvent
  else do
    let data ← d.data.mapM Variable.build
    .ok ⟨d.name, d.channel, data⟩

mutual

def Action.build : Description.Action → Except ModelFault Action
  | .assign declared => do
      let declared ← Variable.build declared
      .ok (.assign declared)
  | .create declared persistent => do
      let declared ← Variable.build declared
      .ok (.create declared persistent)
  | .invoke service isLocal input output done => do
      let input ← input.mapM Variable.build
      let done ← done.mapM EventTemplate.build
      .ok (.invoke ⟨service, isLocal, input, output, done⟩)
  | .choose value cases => do
      let value ← Expression.ofValue value
      let cases ← buildCases cases
      .ok (.choose value cases)
  | .raise event => do
      let event ← EventTemplate.build event
      .ok (.raise event)
  | .timeout name delay action =>
      if name = "" then refuse .unnamedTimeout
      else do
        match ← Action.build action with
        | .raise event =>
            let delay ← Expression.ofValue delay
            .ok (.timeout ⟨name, delay, event⟩)
        | action => refuse (.timeoutWithoutRaise name action.kind)
  | .resetTimeout timeout => .ok (.resetTimeout timeout)

def buildCases : List (Value × Description.Action) →
    Except ModelFault (List (Expression × Action))
  | [] => .ok []
  | (value, action) :: rest => do
      let value ← Expression.ofValue value
      let action ← Action.build action
      let rest ← buildCases rest
      .ok ((value, action) :: rest)

end

end Statechart
