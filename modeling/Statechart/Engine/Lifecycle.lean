import Statechart.Engine.World

/-!
# Life of an instance

An instance is built with its variables, starts by entering its initial state, reacts to one event
after the other, and ends in a terminal state, by a request, or by a fault.

- `World.build`          : an instance of a graph, and depth first those nested in it
- `instanceMachine`      : an instance as a machine
- `World.react`          : the commands that an event gives rise to
- `World.finish`         : the end of an instance
- `World.resume`         : one step of the turn of an instance
-/

namespace Statechart

/-! ## Building -/

namespace World

/-- Creates declared variables in a layer; later values see the variables before them. -/
def declare (layer : LayerId) (extent : Extent) :
    Memory → List Variable → Except EngineFault Memory
  | m, [] => .ok m
  | m, declared :: rest =>
      match declared.evaluate (extent.lookup m) with
      | .error fault => .error (.model fault)
      | .ok (name, value) =>
          match m.create layer name value with
          | (m, .ok _) => declare layer extent m rest
          | (_, .error fault) => .error (.model (.context fault))

/-- A layer of its own for every state. -/
def declareStates (extent : Extent) :
    Memory → List State → Except EngineFault (Memory × List (String × LayerId))
  | m, [] => .ok (m, [])
  | m, state :: rest => do
      let (m, layer) := m.add (.memory .empty)
      let m ← declare layer (extent.extend layer) m state.locals
      let (m, layers) ← declareStates extent m rest
      .ok (m, (state.name, layer) :: layers)

/-- Builds one instance; it is neither known nor started yet. -/
def addInstance (w : World) (g : Graph) (enclosing : Extent) (parent : Option Nat) :
    Except EngineFault (World × Nat × Extent) := do
  let (memory, locals) := w.memory.add (.memory .empty)
  let extent := enclosing.extend locals
  let memory ← declare locals extent memory g.locals
  let (memory, stateLayers) ← declareStates extent memory g.states
  let i : Instance :=
    { graph := g, parent, nested := [], extent, locals, stateLayers, active := none, inbox := []
      phase := .created, isParked := false, isCancelled := false, isRegistered := false
      deadline := none }
  .ok ({ w with memory, instances := w.instances ++ [i] }, w.instances.length, extent)

def setNested (w : World) (n : Nat) (nested : List Nat) : World :=
  w.mapInstance n fun i => { i with nested }

mutual

/-- Builds an instance of a graph and those nested in it, depth first. -/
def build (w : World) (enclosing : Extent) (parent : Option Nat) :
    Graph → Except EngineFault (World × Nat)
  | ⟨name, isAbstract, locals, nested, states, initial, description⟩ => do
      let (w, n, extent) ←
        w.addInstance ⟨name, isAbstract, locals, nested, states, initial, description⟩
          enclosing parent
      let (w, children) ← buildAll w extent (some n) nested
      .ok (w.setNested n children, n)

/-- Builds instances of the graphs that are not abstract. -/
def buildAll (w : World) (enclosing : Extent) (parent : Option Nat) :
    List Graph → Except EngineFault (World × List Nat)
  | [] => .ok (w, [])
  | g :: rest =>
      if g.isAbstract then buildAll w enclosing parent rest
      else do
        let (w, n) ← build w enclosing parent g
        let (w, ns) ← buildAll w enclosing parent rest
        .ok (w, n :: ns)

end

end World

/-! ## The machine of an instance -/

namespace World

def say (w : World) (severity : Severity) (n : Nat) (text : String) : World :=
  w.remark ⟨severity, some (.numbered n), text⟩

/-- The variables seen in a state of an instance. -/
def stateExtent (w : World) (n : Nat) (state : State) : Extent :=
  match w.instance? n with
  | some i => i.stateExtent state
  | none => .empty

def machineSite (w : World) (n : Nat) : Site :=
  match w.instance? n with
  | some i => ⟨.numbered n, .machine, i.extent, false⟩
  | none => ⟨.numbered n, .machine, .empty, false⟩

def stateSite (w : World) (n : Nat) (state : State) : Site :=
  ⟨.numbered n, .state state.name, w.stateExtent n state, false⟩

/-- Starts the timers of a state, up to the first that fails. -/
def startTimers (site : Site) : World → List Timeout → World × Except EngineFault Unit
  | w, [] => (w, .ok ())
  | w, timeout :: rest =>
      match timeout.period (site.extent.lookup w.memory) with
      | .error fault => (w, .error fault)
      | .ok period =>
          match w.startTimer site timeout.name period (.raise timeout.event) with
          | (w, .ok ()) => startTimers site w rest
          | (w, .error fault) => (w, .error fault)

/-- What is said about guards that fail to evaluate. -/
def guardRemark (n : Nat) (state trigger : String) (fault : ModelFault) : Remark :=
  ⟨.error, some (.numbered n),
    "failed to evaluate guards in state " ++ state ++ " for " ++ trigger ++ ": " ++ fault.message⟩

def remarks (w : World) (rs : List Remark) : World := { w with log := w.log ++ rs }

/-- Selects a transition of an instance; guards that fail are told in the log. -/
def select (w : World) (n : Nat) (state trigger : String) (candidates : List Transition)
    (find : Lookup) : World × Except EngineFault (Option Selected) :=
  (w.remarks ((guardFaults candidates find).map (guardRemark n state trigger)),
    selectTransition state trigger candidates find)

end World

/-- Actions in the world. -/
def worldActor : Actor World := ⟨World.perform, World.remark⟩

/-- The machine of the instance of a number. -/
def instanceMachine (n : Nat) : Machine World :=
  { worldActor with
    active? := fun w => (w.instance? n).bind (·.active)
    state? := fun w name => (w.instance? n).bind fun i => i.graph.state? name
    machineSite := fun w => w.machineSite n
    stateSite := fun w state => w.stateSite n state
    duringSite := fun w state => { w.stateSite n state with tracksTasks := true }
    startTimers := fun w state => World.startTimers (w.stateSite n state) w state.after
    stopTimers := fun w => w.stopTimers (.numbered n)
    cancelTasks := fun w => w.cancelTasks (.numbered n)
    setActive := fun w state => w.mapInstance n fun i => { i with active := some state }
    selectAlways := fun w state =>
      w.select n state.name "always" state.always ((w.stateExtent n state).lookup w.memory) }

/-! ## Events -/

namespace World

/-- The name under which event data is seen. -/
def dataName (name : String) : String := "$" ++ name

/-- The data of an event as variables; of data with one name the first counts. -/
def dataTable (data : List (String × Value)) : Table Value :=
  data.foldl
    (fun t entry =>
      if t.contains (dataName entry.1) then t else t.insert (dataName entry.1) entry.2)
    .empty

/-- The data that is passed over because its name occurs before. -/
def repeated (data : List (String × Value)) : List String :=
  data.zipIdx.filterMap fun (entry, position) =>
    if (data.take position).any fun earlier => earlier.1 == entry.1 then some entry.1 else none

def repeatedRemark (n : Nat) (name : String) : Remark :=
  ⟨.warning, some (.numbered n),
    "ignoring event data " ++ dataName name ++ ": " ++
      (ContextFault.exists (dataName name)).message⟩

/-- What guards see: the data of the event over the variables of the state. -/
def guardLookup (m : Memory) (extent : Extent) (e : Event) : Lookup :=
  let (m, layer) := m.add (.memory (dataTable e.data))
  (extent.extend layer).lookup m

/-- Makes the data of an event variables of the instance. -/
def inject (n : Nat) (extent : Extent) (w : World) (entry : String × Value) : World :=
  match extent.put w.memory (dataName entry.1) entry.2 with
  | (memory, .ok _) => { w with memory }
  | (memory, .error fault) =>
      { w with memory }.say .warning n
        ("failed to set event data " ++ dataName entry.1 ++ ": " ++ fault.message)

/-- The commands that an event gives rise to in the active state. The data of the event becomes
variables of the instance only if there are any. -/
def react (w : World) (n : Nat) (e : Event) : World × Except EngineFault (List Command) :=
  match w.instance? n with
  | none => (w, .error .noActiveState)
  | some i =>
      match i.active with
      | none => (w, .error .noActiveState)
      | some state =>
          let w := w.remarks ((repeated e.data).map (repeatedRemark n))
          match w.select n state.name e.name (state.onEvent e.name)
              (guardLookup w.memory (i.stateExtent state) e) with
          | (w, .error fault) => (w, .error fault)
          | (w, .ok none) => (w, .ok [])
          | (w, .ok (some selected)) =>
              (e.data.foldl (inject n i.extent) w, .ok [.move (.transit selected)])

end World

/-! ## The end -/

inductive Outcome where
  | done
  | interrupted
  | deadlineElapsed
  | parentEnded
  deriving DecidableEq, Repr

def Outcome.text : Outcome → String
  | .done => "is done"
  | .interrupted => "is interrupted"
  | .deadlineElapsed => "is interrupted: deadline elapsed"
  | .parentEnded => "is interrupted: parent terminated"

namespace World

def endRemark (n : Nat) : Except EngineFault Outcome → Remark
  | .ok outcome => ⟨.notice, some (.numbered n), outcome.text⟩
  | .error fault =>
      ⟨.error, some (.numbered n),
        "received a fatal error: " ++ fault.message ++ " (" ++ fault.code ++ ")"⟩

/-- The instances nested in one, by number. -/
def children (w : World) (n : Nat) : List Nat :=
  w.instances.zipIdx.filterMap fun (i, number) => if i.parent = some n then some number else none

/-- Takes the subscriptions and the listener of an instance off the bus. -/
def detach (b : Bus) (n : Nat) (events : List String) : Bus :=
  (events.foldl (fun b event => b.unsubscribe wildcard event) b).removeListener (.numbered n)

/-- Ends an instance: its timers and tasks, its place on the bus, and its registration. -/
def finish (w : World) (n : Nat) (result : Except EngineFault Outcome) : World :=
  match w.instance? n with
  | none => w
  | some i =>
      let w := w.remark (endRemark n result)
      let w := (w.stopTimers (.numbered n)).cancelTasks (.numbered n)
      let w := w.mapInstance n fun i =>
        { i with phase := .ended, isParked := false, isRegistered := false }
      -- nested instances find out in their next turn that their parent has ended
      let w := (w.children n).foldl wake w
      { w with bus := detach w.bus n i.graph.events, current := none }

/-- An instance that can go no further stays as it is. -/
def strand (w : World) (n : Nat) : World :=
  { w.mapInstance n (fun i => { i with phase := .stuck, isParked := false }) with current := none }

/-- What follows a fault: before the first state and for fatal faults the end. -/
def fail (w : World) (t : Turn) (fault : EngineFault) : World :=
  match fault with
  | .endlessDelay _ => w.strand t.number
  | fault =>
      -- a fault on the way into the initial state ends the instance, fatal or not
      if t.isStarting || fault.isFatal then w.finish t.number (.error fault)
      else
        { w.say .warning t.number ("failed to handle event: " ++ fault.message) with
          current := some ⟨t.number, [], false⟩ }

/-! ## Turns -/

def hasParentEnded (w : World) (i : Instance) : Bool :=
  match i.parent.bind w.instance? with
  | some parent => parent.hasEnded
  | none => false

/-- Why an instance has to stop before the next event. -/
def stopReason? (w : World) (i : Instance) : Option Outcome :=
  if i.active.any (·.isTerminal) then some .done
  else if i.isCancelled then some .interrupted
  else if w.hasParentEnded i then some .parentEnded
  else if i.deadline.any (fun d => decide (d ≤ w.clock)) then some .deadlineElapsed
  else none

/-- Begins to handle an event in the turn of an instance. -/
def handle (w : World) (n : Nat) (e : Event) : World :=
  match w.react n e with
  | (w, .ok work) => { w with current := some ⟨n, work, false⟩ }
  | (w, .error fault) => w.fail ⟨n, [], false⟩ fault

/-- Handles the next event of an instance, or waits for one. -/
def next (w : World) (n : Nat) (i : Instance) : World :=
  match i.inbox with
  | e :: rest => (w.mapInstance n fun i => { i with inbox := rest }).handle n e
  | [] => { w.mapInstance n (fun i => { i with isParked := true }) with current := none }

/-- One step of a turn: a command, or what comes after the last one. -/
def resume (w : World) (t : Turn) : World :=
  match t.work with
  | c :: rest =>
      match (instanceMachine t.number).advance w c rest with
      | (w, .ok work) => { w with current := some { t with work } }
      | (w, .error fault) => w.fail t fault
  | [] =>
      match w.instance? t.number with
      | none => { w with current := none }
      | some i =>
          match w.stopReason? i with
          | some outcome => w.finish t.number (.ok outcome)
          | none => w.next t.number i

/-- Begins a turn. An instance that waited may take an event before it sees a request to stop. -/
def beginTurn (w : World) (n : Nat) : World :=
  match w.instance? n with
  | none => w
  | some i =>
      match i.phase with
      | .created =>
          let w := w.say .notice n ("started (" ++ i.graph.name ++ ")")
          let w := w.mapInstance n fun i =>
            { i with phase := .running, deadline := w.deadline.map fun d => w.clock + d }
          { w with current := some ⟨n, [.move (.enterInitial i.graph.initial)], true⟩ }
      | .running =>
          -- an event that is there may win over a request to stop that is there too
          let w := { w with turns := w.turns + 1 }
          if w.choices.prefersEvent (w.turns - 1) && !i.inbox.isEmpty then w.next n i
          else { w with current := some ⟨n, [], false⟩ }
      | .ended => w
      | .stuck => w

end World

end Statechart
