import Statechart.Expression.Evaluation

/-!
# Events and declarations

- `Channel`       : how far an event travels
- `Event`         : an event with its data
- `Variable`      : a declared variable, its value not yet computed
- `EventTemplate` : a declared event, its data not yet computed
-/

namespace Statechart

/-! ## Events -/

inductive Channel where
  /-- To the raising instance and those nested in it. -/
  | internal
  /-- To the other instances of the same machines. -/
  | external
  | global
  | peripheral
  deriving DecidableEq, Repr

namespace Channel

def name : Channel → String
  | .internal => "internal"
  | .external => "external"
  | .global => "global"
  | .peripheral => "peripheral"

def ofName? (s : String) : Option Channel :=
  [internal, external, global, peripheral].find? fun c => c.name == s

end Channel

structure Event where
  name : String
  channel : Channel
  data : List (String × Value)

namespace Event

def withData (e : Event) (data : List (String × Value)) : Event := { e with data }

def dataValue? (e : Event) (name : String) : Option Value := valueOf? name e.data

end Event

/-! ## Declarations -/

structure Variable where
  name : String
  value : Expression

namespace Variable

def evaluate (v : Variable) (find : Lookup) : Except ModelFault (String × Value) := do
  let value ← v.value.evaluate find
  .ok (v.name, value)

end Variable

structure EventTemplate where
  name : String
  channel : Channel
  data : List Variable

namespace EventTemplate

def evaluate (t : EventTemplate) (find : Lookup) : Except ModelFault Event := do
  let data ← t.data.mapM fun v => v.evaluate find
  .ok ⟨t.name, t.channel, data⟩

/-- The event with the given data in place of its own. -/
def toEvent (t : EventTemplate) (data : List (String × Value)) : Event :=
  ⟨t.name, t.channel, data⟩

end EventTemplate

end Statechart
