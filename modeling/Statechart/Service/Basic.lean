import Statechart.Value.Basic

/-!
# Services

What invocations call: services of a type, with a cost and a performance to choose them by. What
a service responds, and when, is a matter of the service.

- `Completion`, `Behaviour`  : when and what a service responds
- `Service`                  : a service of a type
- `Registry.implementations` : the services of a type, in the order they were registered
-/

namespace Statechart

/-! ## Behaviour -/

inductive Completion where
  | atOnce
  | after (millis : Nat)
  /-- When somebody outside of the engine responds, if ever, and with whatever they respond. -/
  | external
  deriving DecidableEq, Repr

structure Behaviour where
  /-- The output variables for some input, or why there are none, unless they come from outside. -/
  respond : List (String × Value) → Except String (List (String × Value))
  completion : Completion

namespace Behaviour

/-- Responds with the input. -/
def echo : Behaviour := ⟨.ok, .atOnce⟩

/-- Responds with the input after some milliseconds. -/
def delayed (millis : Nat) : Behaviour := ⟨.ok, .after millis⟩

/-- One more than a signed integer, if that is one too. -/
def successor (input : String × Value) : Except String (String × Value) :=
  match input with
  | (name, .number n) =>
      match n.toSigned? with
      | some n =>
          if h : IsSigned (n + 1) then .ok (name, .number (.whole (n + 1) h.isWhole))
          else .error ("input '" ++ name ++ "' overflows")
      | none => .error ("input '" ++ name ++ "' is not an integer")
  | (name, _) => .error ("input '" ++ name ++ "' is not an integer")

/-- Responds with every input raised by one. -/
def increment : Behaviour := ⟨fun input => input.mapM successor, .atOnce⟩

/-- Responds when and with what somebody outside of the engine likes. -/
def external : Behaviour := ⟨fun _ => .error "no response", .external⟩

end Behaviour

/-! ## Services -/

/-- A service whose cost and performance are measured in `α`. -/
structure Service (α : Type) where
  /-- The type of service; several services may be of one type. -/
  name : String
  /-- Lower is better. -/
  cost : α
  /-- Higher is better. -/
  performance : α
  /-- Whether it runs in this process. -/
  isLocal : Bool
  behaviour : Behaviour

structure Registry (α : Type) where
  services : List (Service α)

namespace Registry

def empty : Registry α := ⟨[]⟩

def register (r : Registry α) (s : Service α) : Registry α := ⟨r.services ++ [s]⟩

/-- The services of a type; where only local ones will do, the local ones of them. -/
def implementations (r : Registry α) (type : String) (localOnly : Bool) : List (Service α) :=
  r.services.filter fun s => s.name == type && (!localOnly || s.isLocal)

/-- The registered types, sorted, each once. -/
def types (r : Registry α) : List String :=
  (Table.ofList (r.services.map fun s => (s.name, ()))).entries.map (·.1)

end Registry

end Statechart
