import Statechart.Engine.Lifecycle

/-!
# Rehearsals

A rehearsal goes through the states of a graph without being an instance: actions are done for
real, but what happens between states is only written down.

- `Entry`             : what is written down
- `Rehearsal`         : a world, the active state, and the protocol
- `rehearsalMachine`  : the rehearsal as a machine
-/

namespace Statechart

inductive Entry where
  | startTimers (state : String)
  | stopTimers
  | cancelTasks
  | active (state : String)
  deriving DecidableEq, Repr

def Entry.text : Entry → String
  | .startTimers state => "start-timers:" ++ state
  | .stopTimers => "stop-timers"
  | .cancelTasks => "cancel-tasks"
  | .active state => "active:" ++ state

structure Rehearsal where
  world : World
  graph : Graph
  active : Option State
  protocol : List Entry
  /-- Where actions are done, up to their scope. -/
  site : Site
  /-- The state whose timers cannot start. -/
  failing : Option String

namespace Rehearsal

def write (r : Rehearsal) (e : Entry) : Rehearsal := { r with protocol := r.protocol ++ [e] }

def siteOf (r : Rehearsal) (scope : Scope) : Site := { r.site with scope }

def perform (r : Rehearsal) (site : Site) (action : Action) :
    Rehearsal × Except EngineFault (List Action) :=
  let (world, outcome) := r.world.perform site action
  ({ r with world }, outcome)

def remark (r : Rehearsal) (remark : Remark) : Rehearsal :=
  { r with world := r.world.remark remark }

/-- The timers of one state may be made to fail. -/
def startTimers (r : Rehearsal) (state : State) : Rehearsal × Except EngineFault Unit :=
  let r := r.write (.startTimers state.name)
  if r.failing = some state.name then (r, .error (.duplicateTimer state.name)) else (r, .ok ())

/-- The first transition that waits for nothing, whatever its guards. -/
def selectAlways (r : Rehearsal) (state : State) :
    Rehearsal × Except EngineFault (Option Selected) :=
  (r, .ok (state.always.head?.map fun t => ⟨t, false⟩))

end Rehearsal

def rehearsalMachine : Machine Rehearsal :=
  { perform := Rehearsal.perform
    remark := Rehearsal.remark
    active? := fun r => r.active
    state? := fun r name => r.graph.state? name
    machineSite := fun r => r.siteOf .machine
    stateSite := fun r state => r.siteOf (.state state.name)
    duringSite := fun r state => r.siteOf (.state ("while:" ++ state.name))
    startTimers := Rehearsal.startTimers
    stopTimers := fun r => r.write .stopTimers
    cancelTasks := fun r => r.write .cancelTasks
    setActive := fun r state => { r.write (.active state.name) with active := some state }
    selectAlways := Rehearsal.selectAlways }

end Statechart
