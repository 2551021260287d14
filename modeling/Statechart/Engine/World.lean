import Statechart.Engine.Bus
import Statechart.Engine.Worklist
import Statechart.Service.Selection

/-!
# The world of an engine

All that is shared by the instances of an engine: variables, the clock, timers, invocations, the
bus, the instances themselves, and the queue of what is ready to run.

- `Instance`                : a running state machine
- `Timer`, `Job`            : a running timer, an invocation under way
- `World`                   : everything together
- `World.offer`             : an event for a party and, if it is internal, for those nested in it
- `World.send`              : an event for the bus
- `World.startTimer`, `World.stopTimer`, `World.stopTimers`
- `World.cancelTasks`       : ends the tracked invocations of a party
- `World.perform`           : does an action
- `World.complete`          : the effects of a response
-/

namespace Statechart

/-! ## Instances -/

inductive Phase where
  /-- Waits for its first turn. -/
  | created
  | running
  | ended
  /-- Stopped by a delay without end; it neither goes on nor cleans up. -/
  | stuck
  deriving DecidableEq, Repr

structure Instance where
  graph : Graph
  parent : Option Nat
  /-- The numbers of the instances nested in this one. -/
  nested : List Nat
  /-- The variables outside of states: those of the enclosing scope and its own. -/
  extent : Extent
  /-- The layer of its own variables. -/
  locals : LayerId
  /-- The layers of the variables of states, by state. -/
  stateLayers : List (String × LayerId)
  active : Option State
  inbox : List Event
  phase : Phase
  /-- Whether it waits for an event and is not queued for a turn. -/
  isParked : Bool
  isCancelled : Bool
  /-- Whether the engine still knows it. -/
  isRegistered : Bool
  /-- In nanoseconds. -/
  deadline : Option Nat

namespace Instance

/-- Whether its turns are over. -/
def hasEnded (i : Instance) : Bool := i.phase == .ended

/-- Whether it takes events. -/
def isOpen (i : Instance) : Bool := i.phase == .created || i.phase == .running

/-- The variables that are seen in a state. -/
def stateExtent (i : Instance) (state : State) : Extent :=
  match valueOf? state.name i.stateLayers with
  | some layer => i.extent.extend layer
  | none => i.extent

end Instance

/-! ## Timers and invocations -/

/-- Times are in nanoseconds. -/
inductive TimerStage where
  /-- Queued, and not begun yet. -/
  | fresh
  /-- Waits until a time. -/
  | asleep (due : Nat)
  /-- Queued, since a time has come. -/
  | awake (due : Nat)
  /-- Broke off on its way to the first firing, which lies past all moments. -/
  | lost
  deriving DecidableEq, Repr

structure Timer where
  id : Nat
  owner : Party
  name : String
  /-- In nanoseconds. -/
  period : Nat
  stage : TimerStage
  site : Site
  event : EventTemplate

/-- The response to an invocation: output variables, or why there are none. -/
abbrev Response := Except EngineFault (List (String × Value))

inductive JobStage where
  /-- Queued, and not begun yet. -/
  | fresh
  /-- Waits for the response until a time in nanoseconds. -/
  | asleep (due : Nat)
  /-- Waits for a response from outside. -/
  | waiting
  /-- Queued, since the service has responded. -/
  | awake
  /-- Queued, with a response from outside. -/
  | answered (response : Response)

/-- An invocation under way. -/
structure Job where
  id : Nat
  site : Site
  call : Invocation
  input : List (String × Value)
  service : Service Float
  stage : JobStage

/-- What the service responds if nobody else does. -/
def Job.ownResponse (j : Job) : Response :=
  (j.service.behaviour.respond j.input).mapError (.serviceFailed j.service.name)

/-- The place of a tracked invocation among the tasks of its owner. -/
structure Tracked where
  owner : Party
  job : Nat
  deriving DecidableEq, Repr

/-! ## The world -/

/-- What is ready to run. -/
inductive Task where
  | turn (number : Nat)
  | timer (id : Nat)
  | job (id : Nat)
  deriving DecidableEq, Repr

/-- The turn of an instance: the worklist that is left. -/
structure Turn where
  number : Nat
  work : List Command
  /-- Whether the initial state is still being entered. -/
  isStarting : Bool

/-- What a party outside of the engine received, and when. -/
structure Receipt where
  recipient : String
  time : Nat
  event : Event

/-- A party outside of the engine that takes or refuses what it is offered. -/
structure Recorder where
  name : String
  accepts : Bool
  deriving DecidableEq, Repr

/-- What an engine does not decide itself. -/
structure Choices where
  /-- Which service is drawn, one time after the other. -/
  draws : Nat → Nat
  /-- Which turns prefer an event to a request to stop. -/
  prefersEvent : Nat → Bool
  /-- The first moment that is past all moments, in nanoseconds. -/
  horizon : Nat

structure World where
  memory : Memory
  /-- The layer of the persistent variables. -/
  root : LayerId
  /-- In nanoseconds. -/
  clock : Nat
  bus : Bus
  recorders : List Recorder
  receipts : List Receipt
  instances : List Instance
  timers : List Timer
  jobs : List Job
  tracked : List Tracked
  ready : List Task
  /-- The turn under way. -/
  current : Option Turn
  services : Registry Float
  policy : Policy
  /-- How long an instance may run, in nanoseconds. -/
  deadline : Option Nat
  isShutDown : Bool
  /-- The identity of the next timer or invocation. -/
  fresh : Nat
  /-- How many services were drawn. -/
  drawn : Nat
  /-- How many turns were taken. -/
  turns : Nat
  choices : Choices
  log : List Remark

namespace World

def remark (w : World) (r : Remark) : World := { w with log := w.log ++ [r] }

/-- The extent of the persistent variables alone. -/
def rootExtent (w : World) : Extent := Extent.empty.extend w.root

/-! ### Queues -/

def instance? (w : World) (n : Nat) : Option Instance := w.instances[n]?

def mapInstance (w : World) (n : Nat) (f : Instance → Instance) : World :=
  { w with instances := w.instances.modify n f }

def enqueue (w : World) (t : Task) : World := { w with ready := w.ready ++ [t] }

/-- Queues a turn for an instance that waits. -/
def wake (w : World) (n : Nat) : World :=
  match w.instance? n with
  | some i =>
      if i.isParked then
        (w.mapInstance n fun i => { i with isParked := false }).enqueue (.turn n)
      else w
  | none => w

/-! ### Offering events -/

/-- The instances that an internal event for an instance is for: those nested in it, then itself.
Nested instances are younger, so that the number of instances bounds the depth. -/
def audience (instances : List Instance) : Nat → Nat → List Nat
  | 0, _ => []
  | depth + 1, n =>
      match instances[n]? with
      | none => []
      | some i =>
          if i.hasEnded then []
          else
            -- nested instances get the event before the instance itself
            (i.nested.flatMap fun child =>
              match instances[child]? with
              | some c => if c.isRegistered then audience instances depth child else []
              | none => []) ++
            (if i.isOpen then [n] else [])

/-- Puts an event into the inbox of an instance. -/
def post (e : Event) (w : World) (n : Nat) : World :=
  (w.mapInstance n fun i => { i with inbox := i.inbox ++ [e] }).wake n

/-- The instances that get an event offered to an instance. -/
def recipients (w : World) (e : Event) (n : Nat) : List Nat :=
  if e.channel = .internal then audience w.instances w.instances.length n
  else
    match w.instance? n with
    | some i => if i.isOpen then [n] else []
    | none => []

/-- Offers an event to a party; the answer is whether the party took it. -/
def offer (w : World) (p : Party) (e : Event) : World × Bool :=
  match p with
  | .named name =>
      match w.recorders.find? fun r => r.name == name with
      | some r => ({ w with receipts := w.receipts ++ [⟨name, w.clock, e⟩] }, r.accepts)
      | none => (w, false)
  | .numbered n =>
      match w.instance? n with
      | some i => ((w.recipients e n).foldl (post e) w, i.isOpen)
      | none => (w, false)

/-- Sends an event over the bus. -/
def send (w : World) (source : Party) (e : Event) : World × Except EngineFault Unit :=
  match w.bus.route e source with
  | .error fault => (w, .error fault)
  | .ok listeners =>
      -- observers see the event whether or not anybody was offered it
      let w := listeners.foldl (fun w p => (w.offer p e).1) w
      ({ w with bus := w.bus.publish e source }, .ok ())

/-- Internal events go to their owner, all others over the bus. -/
def deliver (w : World) (owner : Party) (e : Event) : World × Except EngineFault Unit :=
  if e.channel = .internal then ((w.offer owner e).1, .ok ()) else w.send owner e

/-! ### Timers -/

def timer? (w : World) (owner : Party) (name : String) : Option Timer :=
  w.timers.find? fun t => t.owner == owner && t.name == name

/-- The names of the running timers of a party. -/
def runningTimers (w : World) (owner : Party) : List String :=
  (w.timers.filter fun t => t.owner == owner).map (·.name)

/-- Starts a timer; it fires after every period, the first of which begins with its first step. -/
def startTimer (w : World) (site : Site) (name : String) (period : Nat) (action : Action) :
    World × Except EngineFault Unit :=
  match action with
  | .raise event =>
      if period = 0 then (w, .error (.invalidTimer name .zeroDelay))
      else if (w.timer? site.owner name).isSome then (w, .error (.duplicateTimer name))
      else
        let timer : Timer := ⟨w.fresh, site.owner, name, period, .fresh, site, event⟩
        ({ w with timers := w.timers ++ [timer], fresh := w.fresh + 1 }.enqueue (.timer w.fresh),
          .ok ())
  | action => (w, .error (.invalidTimer name (.notARaise action.kind)))

def stopTimer (w : World) (owner : Party) (name : String) : World × Except EngineFault Unit :=
  match w.timer? owner name with
  | some timer => ({ w with timers := w.timers.filter fun t => t.id != timer.id }, .ok ())
  | none => (w, .error (.timerNotFound name))

def stopTimers (w : World) (owner : Party) : World :=
  { w with timers := w.timers.filter fun t => t.owner != owner }

/-! ### Invocations -/

/-- The number of invocations tracked since the tasks were last cancelled. -/
def taskCount (w : World) (owner : Party) : Nat :=
  (w.tracked.filter fun t => t.owner == owner).length

def cancelTasks (w : World) (owner : Party) : World :=
  { w with
    jobs := w.jobs.filter fun j => !(w.tracked.contains ⟨owner, j.id⟩)
    tracked := w.tracked.filter fun t => t.owner != owner }

/-- The service for a type. -/
def selectService (w : World) (type : String) (localOnly : Bool) :
    World × Except EngineFault (Service Float) :=
  match w.policy.choose? w.services (w.choices.draws w.drawn) type localOnly with
  | some service => ({ w with drawn := w.drawn + 1 }, .ok service)
  | none => (w, .error (.serviceNotFound type))

def startJob (w : World) (site : Site) (call : Invocation) (input : List (String × Value))
    (service : Service Float) : World :=
  let id := w.fresh
  let job : Job := ⟨id, site, call, input, service, .fresh⟩
  let tracked := if site.tracksTasks then w.tracked ++ [⟨site.owner, id⟩] else w.tracked
  { w with jobs := w.jobs ++ [job], tracked, fresh := id + 1 }.enqueue (.job id)

def warn (w : World) (owner : Party) (text : String) : World :=
  w.remark ⟨.warning, some owner, text⟩

/-- Assigns one output variable from a response. -/
def assignOutput (site : Site) (type : String) (response : List (String × Value)) (w : World)
    (name : String) : World :=
  match valueOf? name response with
  | some value =>
      match site.extent.assign w.memory name value with
      | (memory, .ok _) => { w with memory }
      | (memory, .error fault) =>
          { w with memory }.warn site.owner
            ("could not assign output " ++ name ++ " of " ++ type ++ ": " ++ fault.message)
  | none =>
      w.warn site.owner ("output " ++ name ++ " missing from " ++ type ++ " response")

/-- Raises one event of a completed invocation; it goes to the owner, whatever its channel. -/
def raiseDone (site : Site) (response : List (String × Value)) (w : World) (t : EventTemplate) :
    World :=
  (w.offer site.owner (t.toEvent response)).1

/-- Assigns the outputs, then raises the events of a completed invocation. -/
def complete (w : World) (site : Site) (call : Invocation) (response : List (String × Value)) :
    World :=
  let w := call.output.foldl (assignOutput site call.service response) w
  call.done.foldl (raiseDone site response) w

/-! ### Actions -/

/-- The cases whose value equals a given one; all cases are evaluated. -/
def matching (find : Lookup) (value : Value) :
    List (Expression × Action) → Except ModelFault (List Action)
  | [] => .ok []
  | (case, action) :: rest => do
      let found ← case.evaluate find
      let actions ← matching find value rest
      .ok (if value.equal found then action :: actions else actions)

/-- Does an action and returns those it gives rise to. -/
def perform (w : World) (site : Site) (action : Action) :
    World × Except EngineFault (List Action) :=
  let find := site.extent.lookup w.memory
  match action with
  | .assign declared =>
      match declared.evaluate find with
      | .error fault => (w, .error (.model fault))
      | .ok (name, value) =>
          match site.extent.assign w.memory name value with
          | (memory, .ok _) => ({ w with memory }, .ok [])
          | (memory, .error fault) => ({ w with memory }, .error (.model (.context fault)))
  | .create declared persistent =>
      match declared.evaluate find with
      | .error fault => (w, .error (.model fault))
      | .ok (name, value) =>
          match site.extent.create w.memory name value persistent with
          | (memory, .ok _) => ({ w with memory }, .ok [])
          | (memory, .error fault) => ({ w with memory }, .error (.model (.context fault)))
  | .invoke call =>
      match w.selectService call.service call.isLocal with
      | (w, .error fault) => (w, .error fault)
      | (w, .ok service) =>
          match call.input.mapM fun v => v.evaluate find with
          | .error fault => (w, .error (.model fault))
          | .ok input => (w.startJob site call input service, .ok [])
  | .choose value cases =>
      match value.evaluate find with
      | .error fault => (w, .error (.model fault))
      | .ok value => (w, (matching find value cases).mapError .model)
  | .raise template =>
      match template.evaluate find with
      | .error fault => (w, .error (.model fault))
      | .ok event =>
          match w.deliver site.owner event with
          | (w, .ok ()) => (w, .ok [])
          | (w, .error fault) => (w, .error fault)
  | .timeout timer => (w, .ok [.raise timer.event])
  | .resetTimeout name =>
      match w.stopTimer site.owner name with
      | (w, .ok ()) => (w, .ok [])
      | (w, .error fault) => (w, .error fault)

end World

end Statechart
