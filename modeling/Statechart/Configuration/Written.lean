import Statechart.Configuration.Basic
import Statechart.Yaml.Written

/-!
# Writing configurations

Every field is written, also where it has its default.

- `Configuration.toValue` : a configuration as a value
- `Configuration.text`    : the text of a configuration file
-/

namespace Statechart

/-! ## As values -/

/-- A double as a value; what is not finite becomes null. -/
def Value.ofFloat (x : Float) : Value :=
  match Number.ofFloat? x with
  | some n => .number n
  | none => .null

def ServiceSettings.toValue (s : ServiceSettings) : Value :=
  .record [("name", .text s.name), ("cost", .ofFloat s.cost),
    ("performance", .ofFloat s.performance), ("local", .bool s.isLocal),
    ("kind", .text s.kind.name)]

def Configuration.toValue (c : Configuration) : Value :=
  .record [
    ("runtime", .record [
      ("deadline_ms", .ofNat c.execution.deadlineMillis),
      ("event_channel_capacity", .ofNat c.execution.eventCapacity),
      ("selection_policy", .text c.execution.policy.name)]),
    ("timers", .record [("worker_threads", .ofNat c.timers.workerThreads)]),
    ("storage", .record [
      ("enabled", .bool c.storage.isEnabled),
      ("data_dir", .text c.storage.directory),
      ("fsync", .bool c.storage.syncs)]),
    ("services", .list (c.services.map ServiceSettings.toValue))]

/-! ## As files -/

namespace Yaml

/-- A field on a line of its own. A value that ends in a break has ended its line. -/
def entry (indent : String) (name value : String) : String :=
  indent ++ name ++ ": " ++ value ++ if endsInBreak value.toList then "" else "\n"

def truthText (b : Bool) : String := if b then "true" else "false"

end Yaml

open Yaml in
/-- The item of a service. -/
def ServiceSettings.text (s : ServiceSettings) : String :=
  entry "- " "name" (writeText s.name) ++
    entry "  " "cost" (Decimal.blockLayout.render s.cost) ++
    entry "  " "performance" (Decimal.blockLayout.render s.performance) ++
    entry "  " "local" (truthText s.isLocal) ++
    entry "  " "kind" s.kind.name

open Yaml in
def Configuration.text (c : Configuration) : String :=
  "runtime:\n" ++
    entry "  " "deadline_ms" (toString c.execution.deadlineMillis) ++
    entry "  " "event_channel_capacity" (toString c.execution.eventCapacity) ++
    entry "  " "selection_policy" c.execution.policy.name ++
  "timers:\n" ++
    entry "  " "worker_threads" (toString c.timers.workerThreads) ++
  "storage:\n" ++
    entry "  " "enabled" (truthText c.storage.isEnabled) ++
    entry "  " "data_dir" (writeText c.storage.directory) ++
    entry "  " "fsync" (truthText c.storage.syncs) ++
  if c.services.isEmpty then "services: []\n"
  else "services:\n" ++ String.join (c.services.map ServiceSettings.text)

end Statechart
