import Statechart.Description.Basic
import Statechart.Value.Shape

/-!
# Reading descriptions

Descriptions from values. A value of the wrong shape is no description; unknown fields are passed
over, and a known field may be written once.

- `Action.ofKind?`         : an action of a kind, given a reader of the actions within it
- `Action.ofValue?`        : an action, on a budget for the nesting of actions
- `Graph.ofFields?`        : a graph, given a reader of those nested in it
- `Graph.ofValue?`         : a graph, on a budget for the nesting of graphs
- `Action.read?`, `Graph.read?`, `Collaboration.read?` : the same with a budget that suffices
-/

namespace Statechart
namespace Description

open Shape

/-! ## Actions -/

def Variable.read? (v : Value) : Option Variable := do
  let fields ← readFields? v
  let name ← required? "name" readText? fields
  let value ← required? "value" readAny? fields
  some ⟨name, value⟩

def Event.read? (v : Value) : Option Event := do
  let fields ← readFields? v
  let name ← required? "name" readText? fields
  let channel ←
    optional? "channel" .internal (fun v => readWord? isVoid v >>= Channel.ofName?) fields
  let data ← optional? "data" [] (readList? Variable.read?) fields
  some ⟨name, channel, data⟩

/-- The words for the kinds of action. -/
def Action.kinds : List String :=
  ["assign", "create", "invoke", "match", "raise", "timeout", "timeout_reset"]

/-- The kind of an action by its word or, where that is allowed, by its place among the kinds. -/
def readKind? (byPlace : Bool) : Value → Option String
  | .text s => some s
  | .number (.whole n _) => if byPlace && decide (0 ≤ n) then Action.kinds[n.toNat]? else none
  | _ => none

/-- A case of a choice, given a reader of its action. -/
def readCase? (read : Value → Option Action) (v : Value) : Option (Value × Action) := do
  let fields ← readFields? v
  let value ← required? "case" readAny? fields
  let action ← required? "action" read fields
  some (value, action)

/-- An action of a kind, given a reader of the actions within it. -/
def Action.ofKind? (read : Value → Option Action) (kind : String)
    (fields : List (String × Value)) : Option Action :=
  if kind = "assign" then do
    let declared ← required? "variable" Variable.read? fields
    some (.assign declared)
  else if kind = "create" then do
    let declared ← required? "variable" Variable.read? fields
    let persistent ← optional? "persistent" false readBool? fields
    some (.create declared persistent)
  else if kind = "invoke" then do
    let service ← required? "service_type" readText? fields
    let isLocal ← optional? "is_local" false readBool? fields
    let input ← optional? "input" [] (readList? Variable.read?) fields
    let output ← optional? "output" [] (readList? readText?) fields
    let done ← optional? "done" [] (readList? Event.read?) fields
    some (.invoke service isLocal input output done)
  else if kind = "match" then do
    let value ← required? "value" readAny? fields
    let cases ← required? "cases" (readList? (readCase? read)) fields
    some (.choose value cases)
  else if kind = "raise" then do
    let event ← required? "event" Event.read? fields
    some (.raise event)
  else if kind = "timeout" then do
    let name ← required? "name" readText? fields
    let delay ← required? "delay" readAny? fields
    let action ← required? "action" read fields
    some (.timeout name delay action)
  else if kind = "timeout_reset" then do
    let timeout ← required? "action" readText? fields
    some (.resetTimeout timeout)
  else none

def Action.ofFields? (read : Value → Option Action) (byPlace : Bool)
    (fields : List (String × Value)) : Option Action := do
  let kind ← required? "type" (readKind? byPlace) fields
  Action.ofKind? read kind fields

/-- An action within another one may give its kind by place. -/
def Action.ofValue? : Nat → Bool → Value → Option Action
  | 0, _, _ => none
  | budget + 1, byPlace, v => do
      let fields ← readFields? v
      Action.ofFields? (Action.ofValue? budget true) byPlace fields

def Action.read? (byPlace : Bool) (v : Value) : Option Action :=
  Action.ofValue? (v.depth + 1) byPlace v

/-! ## Graphs -/

def Transition.ofFields? (byPlace : Bool) (fields : List (String × Value)) :
    Option Transition := do
  let target ← optional? "target" none (readNullable? readText?) fields
  let guards ← optional? "guards" [] (readList? readText?) fields
  let actions ← optional? "actions" [] (readList? (Action.read? byPlace)) fields
  let otherwise ← optional? "else" none (readNullable? readText?) fields
  some ⟨target, guards, actions, otherwise⟩

def Transition.read? (v : Value) : Option Transition := do
  let fields ← readFields? v
  Transition.ofFields? false fields

/-- The actions of a transition on an event may give their kinds by place. -/
def Trigger.read? (v : Value) : Option Trigger := do
  let fields ← readFields? v
  let event ← required? "event" readText? fields
  let transition ← Transition.ofFields? true fields
  some ⟨event, transition⟩

def State.read? (v : Value) : Option State := do
  let fields ← readFields? v
  let actions := fun name => optional? name [] (readList? (Action.read? false)) fields
  let name ← required? "name" readText? fields
  let isInitial ← optional? "initial" false readBool? fields
  let isTerminal ← optional? "terminal" false readBool? fields
  let entry ← actions "entry"
  let exit ← actions "exit"
  let during ← actions "while"
  let after ← actions "after"
  let on ← optional? "on" [] (readList? Trigger.read?) fields
  let always ← optional? "always" [] (readList? Transition.read?) fields
  let locals ← optional? "local" [] (readList? Variable.read?) fields
  some { name, isInitial, isTerminal, entry, exit, during, after, on, always, locals }

/-- A graph, given a reader of the graphs nested in it. -/
def Graph.ofFields? (read : Value → Option Graph) (fields : List (String × Value)) :
    Option Graph := do
  let name ← required? "name" readText? fields
  let isAbstract ← optional? "abstract" false readBool? fields
  let locals ← optional? "local" [] (readList? Variable.read?) fields
  let states ← required? "states" (readList? State.read?) fields
  let nested ← optional? "nested" [] (readList? read) fields
  some ⟨name, isAbstract, locals, states, nested⟩

def Graph.ofValue? : Nat → Value → Option Graph
  | 0, _ => none
  | budget + 1, v => do
      let fields ← readFields? v
      Graph.ofFields? (Graph.ofValue? budget) fields

def Graph.read? (v : Value) : Option Graph := Graph.ofValue? (v.depth + 1) v

def Collaboration.read? (v : Value) : Option Collaboration := do
  let fields ← readFields? v
  let name ← required? "name" readText? fields
  let persistent ← optional? "persistent" [] (readList? Variable.read?) fields
  let machines ← required? "machines" (readList? Graph.read?) fields
  some ⟨name, persistent, machines⟩

end Description
end Statechart
