import Statechart.Context.Extent
import Statechart.Engine.Fault

/-!
# Parties

Who receives and sends events, where their actions are done, and what is said about them.

- `Party`   : an instance, or a party outside of all instances
- `Scope`   : the part of a machine that an action belongs to
- `Site`    : where an action is done
- `Remark`  : a line of the log
-/

namespace Statechart

/-! ## Parties -/

inductive Party where
  /-- A party outside of the engine, or on a bench beside it. -/
  | named (name : String)
  /-- The instance of a number. -/
  | numbered (number : Nat)
  deriving DecidableEq, Repr

/-- The name under which a party sends events. -/
def Party.id : Party → String
  | .named name => name
  | .numbered number => "#" ++ toString number

/-! ## Sites -/

inductive Scope where
  /-- Of transitions. -/
  | machine
  /-- Of a state. -/
  | state (name : String)
  deriving DecidableEq, Repr

def Scope.text : Scope → String
  | .machine => "instance"
  | .state name => "state " ++ name

/-- Where an action is done: for whom, in what scope, and with what variables. -/
structure Site where
  owner : Party
  scope : Scope
  extent : Extent
  /-- Whether invocations end when the tasks of the owner are cancelled. -/
  tracksTasks : Bool
  deriving DecidableEq, Repr

/-! ## Remarks -/

inductive Severity where
  | error
  | warning
  | notice
  deriving DecidableEq, Repr

def Severity.word : Severity → String
  | .error => "ERROR"
  | .warning => "WARN"
  | .notice => "INFO"

structure Remark where
  severity : Severity
  /-- The party that the text is about, if it is about one. -/
  about : Option Party
  text : String
  deriving DecidableEq, Repr

end Statechart
