import Statechart.Checksum
import Statechart.Description.Basic

/-!
# Written descriptions

The values that stand for descriptions. Fields are in a fixed order; most optional fields are left
out when they are empty, so that a description has one written form and one checksum.

- `Action.toValue`, `Graph.toValue`, `Collaboration.toValue`
- `Graph.checksum`, `Collaboration.checksum` : the checksum of the written form
-/

namespace Statechart
namespace Description

/-- A field that is left out when its list is empty. -/
def unlessEmpty (name : String) (items : List Value) : List (String × Value) :=
  if items.isEmpty then [] else [(name, .list items)]

/-- A field that is left out when its text is absent. -/
def unlessAbsent (name : String) : Option String → List (String × Value)
  | none => []
  | some s => [(name, .text s)]

/-! ## Actions -/

def Variable.toValue (v : Variable) : Value :=
  .record [("name", .text v.name), ("value", v.value)]

def Event.toValue (e : Event) : Value :=
  .record ([("name", .text e.name), ("channel", .text e.channel.name)] ++
    unlessEmpty "data" (e.data.map Variable.toValue))

mutual

def Action.toValue : Action → Value
  | .assign declared => .record [("type", .text "assign"), ("variable", declared.toValue)]
  | .create declared persistent =>
      .record [("type", .text "create"), ("variable", declared.toValue),
        ("persistent", .bool persistent)]
  | .invoke service isLocal input output done =>
      .record [("type", .text "invoke"), ("service_type", .text service),
        ("is_local", .bool isLocal), ("input", .list (input.map Variable.toValue)),
        ("output", .list (output.map Value.text)), ("done", .list (done.map Event.toValue))]
  | .choose value cases =>
      .record [("type", .text "match"), ("value", value), ("cases", .list (casesToValues cases))]
  | .raise event => .record [("type", .text "raise"), ("event", event.toValue)]
  | .timeout name delay action =>
      .record [("type", .text "timeout"), ("name", .text name), ("delay", delay),
        ("action", action.toValue)]
  | .resetTimeout timeout =>
      .record [("type", .text "timeout_reset"), ("action", .text timeout)]

def casesToValues : List (Value × Action) → List Value
  | [] => []
  | (value, action) :: rest =>
      .record [("case", value), ("action", action.toValue)] :: casesToValues rest

end

/-! ## Graphs -/

def Transition.toFields (t : Transition) : List (String × Value) :=
  unlessAbsent "target" t.target ++ unlessEmpty "guards" (t.guards.map Value.text) ++
    unlessEmpty "actions" (t.actions.map Action.toValue) ++ unlessAbsent "else" t.otherwise

def Transition.toValue (t : Transition) : Value := .record t.toFields

def Trigger.toValue (t : Trigger) : Value :=
  .record (("event", .text t.event) :: t.transition.toFields)

def State.toValue (s : State) : Value :=
  .record ([("name", .text s.name), ("initial", .bool s.isInitial),
      ("terminal", .bool s.isTerminal)] ++
    unlessEmpty "entry" (s.entry.map Action.toValue) ++
    unlessEmpty "exit" (s.exit.map Action.toValue) ++
    unlessEmpty "while" (s.during.map Action.toValue) ++
    unlessEmpty "after" (s.after.map Action.toValue) ++
    unlessEmpty "on" (s.on.map Trigger.toValue) ++
    unlessEmpty "always" (s.always.map Transition.toValue) ++
    unlessEmpty "local" (s.locals.map Variable.toValue))

mutual

def Graph.toValue : Graph → Value
  | ⟨name, isAbstract, locals, states, nested⟩ =>
      .record ([("name", .text name), ("abstract", .bool isAbstract)] ++
        unlessEmpty "local" (locals.map Variable.toValue) ++
        [("states", .list (states.map State.toValue))] ++
        unlessEmpty "nested" (graphsToValues nested))

def graphsToValues : List Graph → List Value
  | [] => []
  | graph :: rest => graph.toValue :: graphsToValues rest

end

def Collaboration.toValue (c : Collaboration) : Value :=
  .record ([("name", .text c.name)] ++
    unlessEmpty "persistent" (c.persistent.map Variable.toValue) ++
    [("machines", .list (graphsToValues c.machines))])

/-! ## Checksums -/

def Graph.checksum (g : Graph) : String := Checksum.text g.toValue.compact

def Collaboration.checksum (c : Collaboration) : String := Checksum.text c.toValue.compact

end Description
end Statechart
