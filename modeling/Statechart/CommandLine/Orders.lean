import Statechart.CommandLine.Files
import Statechart.CommandLine.Help
import Statechart.Configuration.Reading
import Statechart.Configuration.Written
import Statechart.Description.Document
import Statechart.Engine.Basic
import Statechart.Graph.Build

/-!
# Orders

What the orders of the command line do.

- `Report`            : the output and the exit code of an order
- `loadConfiguration` : the effective configuration
- `loadMachines`      : the machines of a file
- `runMachines`       : runs machines until none is left or time is over
- `execute`           : whatever the arguments demand
-/

namespace Statechart
namespace CommandLine

structure Report where
  exit : Nat
  output : String
  deriving DecidableEq, Repr

namespace Report

def success (output : String) : Report := ⟨0, output⟩

def failure : Report := ⟨1, ""⟩

/-- The arguments ask for nothing that is known. -/
def usage : Report := ⟨2, ""⟩

end Report

/-! ## Inputs -/

/-- The effective configuration, from a file if one is named. -/
def loadConfiguration [Monad m] (files : FileSystem m) (env : Environment)
    (path : Option String) : m (Except ConfigurationFault Configuration) :=
  match path with
  | some path => do
      let found ← files.read path
      return Configuration.load env (some (path, found.text?))
  | none => return Configuration.load env none

/-- The machines of a file, if it holds a valid description. -/
def loadMachines [Monad m] (files : FileSystem m) (path : String) (strict : Bool) :
    m (Option Collaboration) := do
  let found ← files.read path
  let document := found.text?.bind Description.Collaboration.ofText?
  return document.bind fun v => (Collaboration.ofValue strict v).toOption

/-! ## Running -/

/-- Runs machines over persistent variables in the lowest layer. After a timeout the instances get
five seconds to end. The answer is whether the machines could be started at all. -/
def runMachines (fuel : Nat) (c : Configuration) (machines : Collaboration) (memory : Memory)
    (timeoutSeconds : Nat) : World × Bool :=
  match (World.engine memory 0 c c.registry).launch machines with
  | (w, .error _) => (w, false)
  | (w, .ok _) =>
      let limit := if timeoutSeconds = 0 then none else some (timeoutSeconds * secondNanos)
      match w.await fuel limit with
      | (w, true) => (w, true)
      | (w, false) => ((w.shutDown.await fuel (some (5 * secondNanos))).1, true)

/-- Runs machines over the store in a directory that holds a store file, or none. -/
def runOver [Monad m] (files : FileSystem m) (fuel : Nat) (c : Configuration)
    (machines : Collaboration) (timeoutSeconds : Nat) (file : Option String) : m Report := do
  let directory := c.storage.directory
  let path := directory ++ "/variables.json"
  let draftPath := path ++ ".tmp"
  let draft := (← files.read draftPath).text?.map fun text => text.toUTF8.toList
  match Store.load directory c.storage.syncs ⟨true, file, draft, ← files.now⟩ with
  | (_, .error _) => return .failure
  | (disk, .ok store) =>
      let memory : Memory := ⟨[.durable machines.name], ⟨store, disk⟩⟩
      let (w, isStarted) := runMachines fuel c machines memory timeoutSeconds
      let disk := w.memory.backing.disk
      -- also what was written before a failed start is kept
      match disk.file with
      | some text => if file = some text then pure () else discard (files.write path text)
      | none => pure ()
      -- a save leaves no draft behind
      if draft.isSome && disk.draft.isNone then files.remove draftPath
      return if isStarted then .success "" else .failure

/-- Runs machines whose persistent variables are kept in a store. -/
def runDurably [Monad m] (files : FileSystem m) (fuel : Nat) (c : Configuration)
    (machines : Collaboration) (timeoutSeconds : Nat) : m Report := do
  if ← files.makeDirectory c.storage.directory then
    match ← files.read (c.storage.directory ++ "/variables.json") with
    | .text text => runOver files fuel c machines timeoutSeconds (some text)
    | .nothing => runOver files fuel c machines timeoutSeconds none
    | .unreadable => return .failure
  else return .failure

/-- Runs machines whose persistent variables live in memory. -/
def runFleetingly (fuel : Nat) (c : Configuration) (machines : Collaboration)
    (timeoutSeconds : Nat) : Report :=
  let memory : Memory := ⟨[.memory .empty], ⟨⟨"", false, .empty⟩, .blank⟩⟩
  if (runMachines fuel c machines memory timeoutSeconds).2 then .success "" else .failure

/-! ## Orders -/

/-- What is said about valid machines. -/
def summary (machines : Collaboration) : String :=
  machines.name ++ ": " ++ toString machines.machines.length ++ " machines, " ++
    toString machines.persistent.length ++ " persistent variables (checksum " ++
    machines.checksum ++ ")\n"

def executeOrder [Monad m] (files : FileSystem m) (fuel : Nat) (c : Configuration) :
    Order → m Report
  | .run path timeoutSeconds => do
      match ← loadMachines files path false with
      | none => return .failure
      | some machines =>
          if c.storage.isEnabled then runDurably files fuel c machines timeoutSeconds
          else return runFleetingly fuel c machines timeoutSeconds
  | .validate path strict => do
      match ← loadMachines files path strict with
      | none => return .failure
      | some machines => return .success (summary machines)
  | .configuration none => return .success c.text
  | .configuration (some path) => do
      return if ← files.write path c.text then .success "" else .failure

/-- The configuration comes first, whatever the order. -/
def invoke [Monad m] (files : FileSystem m) (fuel : Nat) (env : Environment) (i : Invocation) :
    m Report := do
  match ← loadConfiguration files env i.configuration with
  | .error _ => return .failure
  | .ok c => executeOrder files fuel c i.order

/-- Answers questions and executes orders. -/
def execute [Monad m] (files : FileSystem m) (fuel : Nat) (env : Environment)
    (args : List String) : m Report :=
  match Demand.read? env args with
  | none => return .usage
  | some .version => return .success versionText
  | some (.help topic) => return .success (topic.manual env).text
  | some (.invoke invocation) => invoke files fuel env invocation

end CommandLine
end Statechart
