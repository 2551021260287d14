import Statechart.Context.Fault
import Statechart.Storage.Store

/-!
# Layers

A layer holds variables by name: in memory, under a namespace of the store, or not at all because
it cannot be reached. All layers answer to the same accesses.

- `Backing`      : the store that durable layers share, and its disk
- `Layer`        : the three kinds of layer
- `Layer.get`, `Layer.create`, `Layer.assign`, `Layer.delete`, `Layer.contains`, `Layer.list`
-/

namespace Statechart

structure Backing where
  store : Store
  disk : Disk

inductive Layer where
  | memory (table : Table Value)
  | durable (space : String)
  | unreachable (reason : String)

namespace Layer

/-! ## Durable layers -/

/-- The store key of a variable. -/
def key (space name : String) : String := space ++ "/" ++ name

/-- What a store fault means for the variable of a name. -/
def faultOf (name : String) : StorageFault → ContextFault
  | .keyExists _ => .exists name
  | .keyNotFound _ => .notFound name
  | fault => .backend (.storage fault)

def commit (backing : Backing) (change : Change) (name : String) :
    Backing × Except ContextFault Nat :=
  let (store, disk, outcome) := backing.store.commit backing.disk change none
  (⟨store, disk⟩, outcome.mapError (faultOf name))

/-! ## Accesses

A write returns the layer, the backing and the number of bytes written. -/

def get (backing : Backing) (l : Layer) (name : String) : Except ContextFault Value :=
  match l with
  | .memory table =>
      match table.get? name with
      | some value => .ok value
      | none => .error (.notFound name)
  | .durable space =>
      match backing.store.get? (key space name) with
      | some value => .ok value
      | none => .error (.notFound name)
  | .unreachable reason => .error (.backend (.unavailable reason))

def create (backing : Backing) (l : Layer) (name : String) (value : Value) :
    Layer × Backing × Except ContextFault Nat :=
  match l with
  | .memory table =>
      if table.contains name then (l, backing, .error (.exists name))
      else (.memory (table.insert name value), backing, .ok value.encodedSize)
  | .durable space =>
      let (backing, outcome) := commit backing (.create (key space name) value) name
      (l, backing, outcome)
  | .unreachable reason => (l, backing, .error (.backend (.unavailable reason)))

def assign (backing : Backing) (l : Layer) (name : String) (value : Value) :
    Layer × Backing × Except ContextFault Nat :=
  match l with
  | .memory table =>
      if table.contains name then
        (.memory (table.insert name value), backing, .ok value.encodedSize)
      else (l, backing, .error (.notFound name))
  | .durable space =>
      let (backing, outcome) := commit backing (.put (key space name) value) name
      (l, backing, outcome)
  | .unreachable reason => (l, backing, .error (.backend (.unavailable reason)))

def delete (backing : Backing) (l : Layer) (name : String) :
    Layer × Backing × Except ContextFault Unit :=
  match l with
  | .memory table =>
      if table.contains name then (.memory (table.erase name), backing, .ok ())
      else (l, backing, .error (.notFound name))
  | .durable space =>
      let (backing, outcome) := commit backing (.delete (key space name)) name
      (l, backing, outcome.map fun _ => ())
  | .unreachable reason => (l, backing, .error (.backend (.unavailable reason)))

def contains (backing : Backing) (l : Layer) (name : String) : Bool :=
  match l with
  | .memory table => table.contains name
  | .durable space => backing.store.contains (key space name)
  | .unreachable _ => false

/-- All variables, in bytewise order of their names. -/
def list (backing : Backing) (l : Layer) : Except ContextFault (List (String × Value)) :=
  match l with
  | .memory table => .ok table.entries
  | .durable space =>
      let stem := key space ""
      .ok ((backing.store.scan stem).map fun entry =>
        (String.ofList (entry.1.toList.drop stem.length), entry.2))
  | .unreachable reason => .error (.backend (.unavailable reason))

/-- An in-memory layer with the given variables; a name may occur once. -/
def ofVariables (entries : List (String × Value)) : Except ContextFault Layer := do
  let table ← entries.foldlM
    (fun (table : Table Value) (entry : String × Value) =>
      if table.contains entry.1 then .error (ContextFault.exists entry.1)
      else .ok (table.insert entry.1 entry.2))
    Table.empty
  .ok (.memory table)

end Layer

end Statechart
