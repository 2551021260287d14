import Statechart.Configuration.Basic
import Statechart.Value.Shape
import Statechart.Yaml.Reader

/-!
# Reading configurations

One reader for every notation of records, lists and scalars. Missing sections and fields have
their defaults, and unknown fields are passed over.

- `Format`                     : a notation
- `blockFormat`, `valueFormat` : configuration files, and values
- `Configuration.read?`        : a configuration in some notation
- `Configuration.ofText?`      : the text of a configuration file
- `Configuration.load`         : the effective configuration
-/

namespace Statechart

/-! ## Notations -/

structure Format (σ : Type) where
  fields? : σ → Option (List (String × σ))
  items? : σ → Option (List σ)
  text? : σ → Option String
  /-- One word of a fixed choice. -/
  word? : σ → Option String
  bool? : σ → Option Bool
  /-- A whole number of at most 64 bits. -/
  count? : σ → Option Nat
  real? : σ → Option Float

/-- The notation of one configuration file. -/
def blockFormat (d : Yaml.Document) : Format Yaml.Node :=
  { fields? := d.fields?
    items? := d.items?
    text? := fun n => (d.resolve n).text?
    word? := fun n => (d.resolve n).word?
    bool? := d.scalar? "bool" Yaml.truth?
    count? := d.scalar? "int" fun s => Yaml.count? s.toList
    real? := d.scalar? "float" fun s => Yaml.real? s.toList }

namespace Shape

def readCount? (v : Value) : Option Nat :=
  (readInt? v).bind fun n => if 0 ≤ n then some n.toNat else none

def readReal? : Value → Option Float
  | .number n => some n.toFloat
  | _ => none

end Shape

def valueFormat : Format Value :=
  { fields? := Shape.readFields?
    items? := Shape.readList? some
    text? := Shape.readText?
    word? := Shape.readWord? Shape.isNull
    bool? := Shape.readBool?
    count? := Shape.readCount?
    real? := Shape.readReal? }

/-! ## Settings -/

open Shape

def Policy.read? (f : Format σ) (v : σ) : Option Policy := (f.word? v).bind Policy.ofName?

def ExecutionSettings.read? (f : Format σ) (v : σ) : Option ExecutionSettings := do
  let fields ← f.fields? v
  let default := ExecutionSettings.standard
  let deadlineMillis ← optional? "deadline_ms" default.deadlineMillis f.count? fields
  let eventCapacity ← optional? "event_channel_capacity" default.eventCapacity f.count? fields
  let policy ← optional? "selection_policy" default.policy (Policy.read? f) fields
  some ⟨deadlineMillis, eventCapacity, policy⟩

def TimerSettings.read? (f : Format σ) (v : σ) : Option TimerSettings := do
  let fields ← f.fields? v
  let default := TimerSettings.standard
  let workerThreads ← optional? "worker_threads" default.workerThreads f.count? fields
  some ⟨workerThreads⟩

def StorageSettings.read? (f : Format σ) (v : σ) : Option StorageSettings := do
  let fields ← f.fields? v
  let default := StorageSettings.standard
  let isEnabled ← optional? "enabled" default.isEnabled f.bool? fields
  let directory ← optional? "data_dir" default.directory f.text? fields
  let syncs ← optional? "fsync" default.syncs f.bool? fields
  some ⟨isEnabled, directory, syncs⟩

/-- A service has a name and a kind. -/
def ServiceSettings.read? (f : Format σ) (v : σ) : Option ServiceSettings := do
  let fields ← f.fields? v
  let name ← required? "name" f.text? fields
  let cost ← optional? "cost" 1.0 f.real? fields
  let performance ← optional? "performance" 1.0 f.real? fields
  let isLocal ← optional? "local" true f.bool? fields
  let kind ← required? "kind" (fun v => (f.word? v).bind ServiceKind.ofName?) fields
  some ⟨name, cost, performance, isLocal, kind⟩

namespace Configuration

def read? (f : Format σ) (v : σ) : Option Configuration := do
  let fields ← f.fields? v
  let execution ← optional? "runtime" .standard (ExecutionSettings.read? f) fields
  let timers ← optional? "timers" .standard (TimerSettings.read? f) fields
  let storage ← optional? "storage" .standard (StorageSettings.read? f) fields
  let services ← optional? "services" []
    (fun v => (f.items? v).bind fun items => items.mapM (ServiceSettings.read? f)) fields
  some ⟨execution, timers, storage, services⟩

def ofText? (s : String) : Option Configuration :=
  (Yaml.Document.ofText? s).bind fun d => read? (blockFormat d) d.root

/-- The configuration in the file at a path; `content` is what the path holds. -/
def ofFile (path : String) (content : Option String) : Except ConfigurationFault Configuration :=
  match content with
  | none => .error (.unreadable path .notFound)
  | some s =>
      match ofText? s with
      | some c => .ok c
      | none => .error (.malformed path)

/-- The effective configuration: the file, if one is named, or the defaults, then the environment,
then the ranges. A file comes as its path and what the path holds. -/
def load (env : Environment) (file : Option (String × Option String)) :
    Except ConfigurationFault Configuration := do
  let base ←
    match file with
    | some (path, content) => ofFile path content
    | none => .ok .standard
  let c := base.override env
  c.validate
  .ok c

end Configuration

end Statechart
