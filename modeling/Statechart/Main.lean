import Statechart.CommandLine.Orders
import Std.Time.DateTime.Timestamp

/-!
# The command

Hands arguments, environment and files to `CommandLine.execute` and prints its report. Machines
run in virtual time, so that nothing is waited for.
-/

namespace Statechart
namespace CommandLine

/-- More steps than any run is given. -/
def patience : Nat := 1000000000

/-- The variables of the environment that count. -/
def settingNames : List String :=
  ["CSM_CONFIG", "CSM_MACHINE", "CSM_DEADLINE_MS", "CSM_EVENT_CAPACITY", "CSM_SELECTION_POLICY",
    "CSM_TIMER_THREADS", "CSM_DATA", "CSM_PERSISTENCE_ENABLED", "CSM_FSYNC"]

def succeeds (action : IO Unit) : IO Bool := do
  try
    action
    return true
  catch _ => return false

/-- The files of the computer. -/
def realFiles : FileSystem IO :=
  { read := fun path => do
      try
        return .text (← IO.FS.readFile path)
      catch
        | .noFileOrDirectory .. => return .nothing
        | _ => return .unreadable
    write := fun path text => succeeds (IO.FS.writeFile path text)
    remove := fun path => discard (succeeds (IO.FS.removeFile path))
    makeDirectory := fun path => succeeds (IO.FS.createDirAll path)
    now := do
      let time ← Std.Time.Timestamp.now
      return time.toMillisecondsSinceUnixEpoch.val }

end CommandLine
end Statechart

open Statechart.CommandLine in
def main (args : List String) : IO UInt32 := do
  let found ← settingNames.filterMapM fun name => do
    return (← IO.getEnv name).map fun value => (name, value)
  let report ← execute realFiles patience (Statechart.Environment.ofList found) args
  IO.print report.output
  return UInt32.ofNat report.exit
