import Statechart.Context.Layer
import Statechart.Expression.Evaluation

/-!
# Extents

Variables live in layers of one memory. An extent is a stack of layers, lowest first: the lowest
holds the persistent variables, every inner scope adds one layer. Look-ups go from the highest
layer down, so that inner variables shadow outer ones.

- `Memory`             : all layers, with the backing of the durable ones
- `Extent`             : a stack of layers
- `Extent.resolve`     : the value of a name
- `Extent.assign`      : writes the variable that `resolve` finds
- `Extent.put`         : writes the highest layer, creating the variable if need be
- `Extent.create`      : creates a variable in the lowest or highest layer
- `Extent.visible`     : everything that can be seen
-/

namespace Statechart

/-! ## Memory -/

/-- The place of a layer in the memory. -/
abbrev LayerId := Nat

structure Memory where
  layers : List Layer
  backing : Backing

namespace Memory

/-- What is said about a layer that the memory does not hold. -/
def missing : ContextFault := .backend (.unavailable "no such layer")

def add (m : Memory) (l : Layer) : Memory × LayerId :=
  ({ m with layers := m.layers ++ [l] }, m.layers.length)

def get (m : Memory) (id : LayerId) (name : String) : Except ContextFault Value :=
  match m.layers[id]? with
  | some l => l.get m.backing name
  | none => .error missing

def contains (m : Memory) (id : LayerId) (name : String) : Bool :=
  match m.layers[id]? with
  | some l => l.contains m.backing name
  | none => false

def list (m : Memory) (id : LayerId) : Except ContextFault (List (String × Value)) :=
  match m.layers[id]? with
  | some l => l.list m.backing
  | none => .error missing

def create (m : Memory) (id : LayerId) (name : String) (value : Value) :
    Memory × Except ContextFault Nat :=
  match m.layers[id]? with
  | some l =>
      let (l, backing, outcome) := l.create m.backing name value
      (⟨m.layers.set id l, backing⟩, outcome)
  | none => (m, .error missing)

def assign (m : Memory) (id : LayerId) (name : String) (value : Value) :
    Memory × Except ContextFault Nat :=
  match m.layers[id]? with
  | some l =>
      let (l, backing, outcome) := l.assign m.backing name value
      (⟨m.layers.set id l, backing⟩, outcome)
  | none => (m, .error missing)

def delete (m : Memory) (id : LayerId) (name : String) : Memory × Except ContextFault Unit :=
  match m.layers[id]? with
  | some l =>
      let (l, backing, outcome) := l.delete m.backing name
      (⟨m.layers.set id l, backing⟩, outcome)
  | none => (m, .error missing)

end Memory

/-! ## Extents -/

/-- A stack of layers, lowest first. -/
structure Extent where
  layers : List LayerId
  deriving DecidableEq, Repr

namespace Extent

def empty : Extent := ⟨[]⟩

instance : Inhabited Extent := ⟨empty⟩

def extend (e : Extent) (id : LayerId) : Extent := ⟨e.layers ++ [id]⟩

def depth (e : Extent) : Nat := e.layers.length

def low? (e : Extent) : Option LayerId := e.layers.head?

def high? (e : Extent) : Option LayerId := e.layers.getLast?

/-- From the highest layer down. -/
def downward (e : Extent) : List LayerId := e.layers.reverse

/-! ### Reading -/

/-- Only a layer without the variable is passed over. -/
def resolveIn (m : Memory) (name : String) : List LayerId → Except ContextFault (Option Value)
  | [] => .ok none
  | id :: rest =>
      match m.get id name with
      | .ok value => .ok (some value)
      | .error (.notFound _) => resolveIn m name rest
      | .error fault => .error fault

def resolve (m : Memory) (e : Extent) (name : String) : Except ContextFault (Option Value) :=
  resolveIn m name e.downward

def get (m : Memory) (e : Extent) (name : String) : Except ContextFault Value := do
  match ← e.resolve m name with
  | some value => .ok value
  | none => .error (.notFound name)

def lookup (m : Memory) (e : Extent) : Lookup := fun name => e.resolve m name

/-- Adds the variables of the layers that are not seen yet. -/
def visibleIn (m : Memory) : List LayerId → List (String × Value) →
    Except ContextFault (List (String × Value))
  | [], seen => .ok seen
  | id :: rest, seen =>
      match m.list id with
      | .ok entries =>
          visibleIn m rest
            (seen ++ entries.filter fun entry => (valueOf? entry.1 seen).isNone)
      | .error fault => .error fault

def visible (m : Memory) (e : Extent) : Except ContextFault (List (String × Value)) :=
  visibleIn m e.downward []

/-! ### Writing -/

def assignIn (name : String) (value : Value) : Memory → List LayerId →
    Memory × Except ContextFault Nat
  | m, [] => (m, .error (.notFound name))
  | m, id :: rest =>
      match m.assign id name value with
      | (m, .ok written) => (m, .ok written)
      | (m, .error (.notFound _)) => assignIn name value m rest
      | (m, .error fault) => (m, .error fault)

/-- Assigns the variable in the highest layer that has it. -/
def assign (m : Memory) (e : Extent) (name : String) (value : Value) :
    Memory × Except ContextFault Nat :=
  assignIn name value m e.downward

/-- Assigns the variable in the highest layer, creating it there if it is absent. -/
def put (m : Memory) (e : Extent) (name : String) (value : Value) :
    Memory × Except ContextFault Nat :=
  match e.high? with
  | none => (m, .error (.backend .noLayers))
  | some id =>
      match m.assign id name value with
      | (m, .error (.notFound _)) => m.create id name value
      | outcome => outcome

/-- Persistent variables are created in the lowest layer, others in the highest. -/
def create (m : Memory) (e : Extent) (name : String) (value : Value) (persistent : Bool) :
    Memory × Except ContextFault Nat :=
  match if persistent then e.low? else e.high? with
  | none => (m, .error (.backend .noLayers))
  | some id => m.create id name value

end Extent

end Statechart
