import Statechart.Service.Selection
import Statechart.Storage.Fault
import Statechart.Decimal.Layout
import Statechart.Decimal.Reader

/-!
# Configuration

How instances run, where persistent variables are kept, and which services there are. Variables of
the environment override what a file says.

- `Configuration`                     : all settings, with their defaults
- `Configuration.override`            : the settings that the environment changes
- `Configuration.validate`            : the ranges of values
- `Configuration.registry`            : the configured services
-/

namespace Statechart

/-! ## Settings -/

structure ExecutionSettings where
  /-- How long an instance may run; zero means for ever. -/
  deadlineMillis : Nat
  /-- How many events observers of the bus may fall behind. -/
  eventCapacity : Nat
  policy : Policy
  deriving DecidableEq, Repr

structure TimerSettings where
  /-- Threads for timers alone; with none they share those of the instances. -/
  workerThreads : Nat
  deriving DecidableEq, Repr

structure StorageSettings where
  /-- Otherwise persistent variables live in memory. -/
  isEnabled : Bool
  directory : String
  syncs : Bool
  deriving DecidableEq, Repr

inductive ServiceKind where
  | echo
  | increment
  deriving DecidableEq, Repr

namespace ServiceKind

def name : ServiceKind → String
  | .echo => "echo"
  | .increment => "increment"

def ofName? (s : String) : Option ServiceKind := [echo, increment].find? fun k => k.name == s

def behaviour : ServiceKind → Behaviour
  | .echo => .echo
  | .increment => .increment

end ServiceKind

structure ServiceSettings where
  name : String
  cost : Float
  performance : Float
  isLocal : Bool
  kind : ServiceKind

def ServiceSettings.service (s : ServiceSettings) : Service Float :=
  ⟨s.name, s.cost, s.performance, s.isLocal, s.kind.behaviour⟩

structure Configuration where
  execution : ExecutionSettings
  timers : TimerSettings
  storage : StorageSettings
  services : List ServiceSettings

/-! ## Defaults -/

def ExecutionSettings.standard : ExecutionSettings := ⟨0, 1024, .optimal⟩

def TimerSettings.standard : TimerSettings := ⟨2⟩

def StorageSettings.standard : StorageSettings := ⟨true, "./data", true⟩

namespace Configuration

def standard : Configuration := ⟨.standard, .standard, .standard, []⟩

def registry (c : Configuration) : Registry Float :=
  (c.services.map (·.service)).foldl Registry.register .empty

def deadline? (c : Configuration) : Option Nat :=
  if 0 < c.execution.deadlineMillis then some c.execution.deadlineMillis else none

end Configuration

/-! ## The environment -/

/-- The variables of the environment by name. -/
abbrev Environment := String → Option String

namespace Environment

def ofList (entries : List (String × String)) : Environment := fun name => valueOf? name entries

/-- A whole number of at most 64 bits, perhaps after a plus sign. -/
def count? (s : String) : Option Nat :=
  let digits :=
    match s.toList with
    | '+' :: r => r
    | r => r
  if digits.isEmpty || !digits.all Decimal.isDigit then none
  else
    let n := Decimal.readNat digits
    if n < wordLimit then some n else none

/-- The number in a variable; anything but a number is as good as no variable. -/
def count (env : Environment) (name : String) (old : Nat) : Nat :=
  ((env name).bind count?).getD old

/-- A variable is on if it is `1` or `true` in any case. -/
def switch (env : Environment) (name : String) (old : Bool) : Bool :=
  match env name with
  | some s => s == "1" || s.toLower == "true"
  | none => old

end Environment

namespace Configuration

def overridePolicy (env : Environment) (old : Policy) : Policy :=
  match env "CSM_SELECTION_POLICY" with
  | some s => if s.toLower = "random" then .random else .optimal
  | none => old

def override (c : Configuration) (env : Environment) : Configuration :=
  { c with
    execution :=
      { deadlineMillis := env.count "CSM_DEADLINE_MS" c.execution.deadlineMillis
        eventCapacity := env.count "CSM_EVENT_CAPACITY" c.execution.eventCapacity
        policy := overridePolicy env c.execution.policy }
    timers := { workerThreads := env.count "CSM_TIMER_THREADS" c.timers.workerThreads }
    storage :=
      { isEnabled := env.switch "CSM_PERSISTENCE_ENABLED" c.storage.isEnabled
        directory := (env "CSM_DATA").getD c.storage.directory
        syncs := env.switch "CSM_FSYNC" c.storage.syncs } }

end Configuration

/-! ## Faults -/

inductive ConfigurationFault where
  | unreadable (path : String) (fault : IoFault)
  /-- The file is not a configuration. -/
  | malformed (path : String)
  | zeroCapacity
  | missingDirectory
  | unnamedService
  | invalidCost (service : String) (cost : Float)
  | invalidPerformance (service : String) (performance : Float)

namespace ConfigurationFault

/-- What is wrong with a value that is out of range. -/
def invalid (reason : String) : String := "configuration validation failed: " ++ reason

def message : ConfigurationFault → String
  | .unreadable path fault =>
      "failed to read config file '" ++ path ++ "': " ++ fault.message
  | .malformed path => "failed to parse config file '" ++ path ++ "'"
  | .zeroCapacity => invalid "runtime.event_channel_capacity must be positive"
  | .missingDirectory => invalid "storage enabled but data_dir not set"
  | .unnamedService => invalid "service name must not be empty"
  | .invalidCost service cost =>
      invalid ("service '" ++ service ++ "' has invalid cost " ++ Decimal.plainLayout.render cost)
  | .invalidPerformance service performance =>
      invalid ("service '" ++ service ++ "' has invalid performance " ++
        Decimal.plainLayout.render performance)

end ConfigurationFault

/-! ## Validation -/

/-- Costs are finite and not negative, performances finite and positive. -/
def ServiceSettings.validate (s : ServiceSettings) : Except ConfigurationFault Unit :=
  if s.name = "" then .error .unnamedService
  else if !(s.cost.isFinite && decide (0.0 ≤ s.cost)) then .error (.invalidCost s.name s.cost)
  else if !(s.performance.isFinite && decide (0.0 < s.performance)) then
    .error (.invalidPerformance s.name s.performance)
  else .ok ()

def Configuration.validate (c : Configuration) : Except ConfigurationFault Unit :=
  if c.execution.eventCapacity = 0 then .error .zeroCapacity
  else if c.storage.isEnabled && c.storage.directory = "" then .error .missingDirectory
  else c.services.forM ServiceSettings.validate

end Statechart
