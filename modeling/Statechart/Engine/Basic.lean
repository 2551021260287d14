import Statechart.Configuration.Basic
import Statechart.Engine.Schedule

/-!
# Engines

What can be asked of an engine.

- `Choices.standard`        : what is chosen unless somebody else chooses
- `World.ofMemory`          : variables and services without instances
- `World.engine`            : an engine over a layer of persistent variables
- `World.launch`            : instances of the machines of a collaboration
- `World.spawn`             : an instance of one graph
- `World.cancel`, `World.shutDown`
-/

namespace Statechart

/-- The first service that fits, requests to stop before events, and moments that are counted in
seconds of 64 bits with a sign. -/
def Choices.standard : Choices := ⟨fun _ => 0, fun _ => false, Nat.pow 2 63 * secondNanos⟩

namespace World

/-! ## New worlds -/

/-- A world without instances. -/
def ofMemory (memory : Memory) (capacity : Nat) (services : Registry Float) (policy : Policy)
    (choices : Choices := .standard) : World :=
  { memory, root := 0, clock := 0, bus := .ofCapacity capacity, recorders := [], receipts := []
    instances := [], timers := [], jobs := [], tracked := [], ready := [], current := none
    services, policy, deadline := none, isShutDown := false, fresh := 0, drawn := 0, turns := 0
    choices, log := [] }

/-- The sources under which events for everybody are published. -/
def openSources : List String := [Channel.global.name, Channel.peripheral.name]

/-- An engine whose persistent variables are in a layer. Events for everybody reach all its
instances. -/
def engine (memory : Memory) (root : LayerId) (c : Configuration) (services : Registry Float)
    (choices : Choices := .standard) : World :=
  let w := ofMemory memory c.execution.eventCapacity services c.execution.policy choices
  { w with
    root
    bus := openSources.foldl (fun b source => b.subscribe source wildcard) w.bus
    deadline := c.deadline?.map (· * milliNanos) }

/-- Adds a party that records what it is offered. -/
def record (w : World) (name : String) (accepts : Bool) : World :=
  { w with recorders := (w.recorders.filter fun r => r.name != name) ++ [⟨name, accepts⟩] }

/-! ## Launching -/

/-- Creates the persistent variables that are not there yet. -/
def establish (root : LayerId) (extent : Extent) :
    Memory → List Variable → Memory × Except EngineFault Unit
  | m, [] => (m, .ok ())
  | m, declared :: rest =>
      match declared.evaluate (extent.lookup m) with
      | .error fault => (m, .error (.model fault))
      | .ok (name, value) =>
          match m.create root name value with
          | (m, .ok _) => establish root extent m rest
          | (m, .error (.exists _)) => establish root extent m rest
          | (m, .error fault) => (m, .error (.model (.context fault)))

/-- Makes an instance known and a listener of the bus. -/
def register (w : World) (n : Nat) : World :=
  match w.instance? n with
  | none => w
  | some i =>
      let bus := w.bus.addListener (.numbered n)
      { w.mapInstance n (fun i => { i with isRegistered := true }) with
        bus := i.graph.events.foldl (fun b event => b.subscribe wildcard event) bus }

/-- Makes built instances known, then queues their first turns. -/
def start (w : World) (ns : List Nat) : World :=
  ns.foldl (fun w n => w.enqueue (.turn n)) (ns.foldl register w)

/-- The instances built since there were `before` of them. -/
def builtSince (w : World) (before : Nat) : List Nat :=
  (List.range w.instances.length).drop before

/-- Starts instances of all graphs of a collaboration that are not abstract. Persistent variables
that exist keep their values; no instance is started if one cannot be built. -/
def launch (w : World) (c : Collaboration) : World × Except EngineFault (List Nat) :=
  if w.isShutDown then (w, .error .shutDown)
  else
    match establish w.root w.rootExtent w.memory c.persistent with
    | (memory, .error fault) => ({ w with memory }, .error fault)
    | (memory, .ok ()) =>
        let w := { w with memory }
        match buildAll w w.rootExtent none c.machines with
        | .error fault => (w, .error fault)
        | .ok (built, _) =>
            -- only now are the built instances known to anybody
            let ns := built.builtSince w.instances.length
            let text :=
              "Created " ++ toString ns.length ++ " instances of " ++ c.name ++ " (checksum " ++
                c.checksum ++ ")"
            ((built.remark ⟨.notice, none, text⟩).start ns, .ok ns)

/-- Adds an instance to those nested in another one. -/
def adopt (w : World) (parent : Option Nat) (n : Nat) : World :=
  match parent with
  | none => w
  | some p =>
      w.mapInstance p fun i =>
        { i with nested := if n ∈ i.nested then i.nested else i.nested ++ [n] }

/-- Starts an instance of a graph, even of an abstract one, with those nested in it. -/
def spawn (w : World) (g : Graph) (parent : Option Nat) : World × Except EngineFault Nat :=
  if w.isShutDown then (w, .error .shutDown)
  else
    let enclosing :=
      match parent.bind w.instance? with
      | some i => i.extent
      | none => w.rootExtent
    match build w enclosing parent g with
    | .error fault => (w, .error fault)
    | .ok (built, n) =>
        ((built.adopt parent n).start (built.builtSince w.instances.length), .ok n)

/-! ## Stopping -/

/-- Asks an instance to stop. -/
def cancel (w : World) (n : Nat) : World :=
  (w.mapInstance n fun i => { i with isCancelled := true }).wake n

/-- The instances that the engine knows. -/
def registered (w : World) : List Nat :=
  w.instances.zipIdx.filterMap fun (i, n) => if i.isRegistered then some n else none

/-- Asks all instances to stop, and starts no new ones. -/
def shutDown (w : World) : World :=
  if w.isShutDown then w
  else
    let ns := w.registered
    let text := "Shutting down runtime, cancelling " ++ toString ns.length ++ " instances"
    ns.foldl cancel ({ w with isShutDown := true }.remark ⟨.notice, none, text⟩)

end World

end Statechart
