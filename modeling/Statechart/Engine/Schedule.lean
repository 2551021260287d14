import Statechart.Engine.Lifecycle

/-!
# Schedule

One task runs at a time, in the order in which tasks became ready. The clock stands still while
anything is ready, and then jumps to whatever is due next. It shows whole milliseconds: what is due
within a millisecond happens at its end.

- `World.fire`      : the firings of a timer
- `World.runJob`, `World.respond` : an invocation, and its response from outside
- `World.step?`     : one step, or `none` when nothing is ready
- `World.settle`    : steps until nothing is ready
- `World.nextDue?`  : when something is due next
- `World.advance`   : lets time pass
- `World.await`     : lets time pass until no instance is left
-/

namespace Statechart

/-! ## Waiting -/

/-- How late a timer may be before that delays its later firings, in nanoseconds. -/
def lateness : Nat := 5 * milliNanos

namespace Timer

/-- When it fires next, while it waits for that. -/
def due? (t : Timer) : Option Nat :=
  match t.stage with
  | .asleep due => some due
  | _ => none

/-- It does not wait any more. -/
def awaken (t : Timer) : Timer :=
  match t.stage with
  | .asleep due => { t with stage := .awake due }
  | _ => t

/-- When it is due again if it was due at one time and fires at another one. -/
def dueAfter (t : Timer) (due clock : Nat) : Nat :=
  if due + lateness < clock then clock + t.period else due + t.period

end Timer

namespace Job

/-- When the response is there, while it waits for that. -/
def due? (j : Job) : Option Nat :=
  match j.stage with
  | .asleep due => some due
  | _ => none

/-- It does not wait any more. -/
def awaken (j : Job) : Job :=
  match j.stage with
  | .asleep _ => { j with stage := .awake }
  | _ => j

/-- What becomes of it in its next step. -/
def polled (j : Job) (clock : Nat) : JobStage :=
  match j.stage with
  | .fresh =>
      match j.service.behaviour.completion with
      | .atOnce => .awake
      -- the delay counts from the moment at which the invocation begins
      | .after millis => .asleep (clock + millis * milliNanos)
      | .external => .waiting
  | stage => stage

/-- The response with which it ends in its next step, if it does. -/
def response? (j : Job) (clock : Nat) : Option Response :=
  match j.polled clock with
  | .awake => some j.ownResponse
  | .answered response => some response
  | _ => none

end Job

namespace World

/-! ## Tasks -/

def timerById? (w : World) (id : Nat) : Option Timer := w.timers.find? fun t => t.id == id

/-- Changes the timer with an identity. -/
def updateTimer (w : World) (id : Nat) (f : Timer → Timer) : World :=
  { w with timers := w.timers.map fun t => if t.id == id then f t else t }

/-- How often a timer may fire before others get their turn. -/
def burst : Nat := 128

/-- Raises the event of a timer that is due. While it is due again already it fires on; at the end
of a burst it queues once more. -/
def fire : Nat → World → Nat → World
  | 0, w, id => w.enqueue (.timer id)
  | firings + 1, w, id =>
      match w.timerById? id with
      | none => w
      | some timer =>
          match timer.stage with
          | .awake due =>
              let (w, _) := worldActor.execute w timer.site (.raise timer.event)
              let due := timer.dueAfter due w.clock
              if due ≤ w.clock then
                fire firings (w.updateTimer id fun t => { t with stage := .awake due }) id
              else w.updateTimer id fun t => { t with stage := .asleep due }
          | _ => w

/-- A timer that has begun waits for a period, unless that would end past all moments. -/
def begun (w : World) (t : Timer) : TimerStage :=
  if w.clock + t.period < w.choices.horizon then .asleep (w.clock + t.period) else .lost

/-- Begins a timer, or lets it fire. -/
def runTimer (w : World) (id : Nat) : World :=
  match w.timerById? id with
  | none => w
  | some timer =>
      match timer.stage with
      | .fresh => w.updateTimer id fun t => { t with stage := w.begun timer }
      | _ => fire burst w id

def jobById? (w : World) (id : Nat) : Option Job := w.jobs.find? fun j => j.id == id

/-- Changes the invocation with an identity. -/
def updateJob (w : World) (id : Nat) (f : Job → Job) : World :=
  { w with jobs := w.jobs.map fun j => if j.id == id then f j else j }

/-- What is said about a service that fails. -/
def failedRemark (job : Job) (fault : EngineFault) : Remark :=
  ⟨.error, some job.site.owner,
    "invocation of " ++ job.service.name ++ " failed: " ++ fault.message⟩

/-- The effects of a response. -/
def answer (w : World) (job : Job) (response : Response) : World :=
  let w := { w with jobs := w.jobs.filter fun j => j.id != job.id }
  match response with
  | .ok output => w.complete job.site job.call output
  | .error fault => w.remark (failedRemark job fault)

/-- Begins an invocation, or goes on with one whose response is there. -/
def runJob (w : World) (id : Nat) : World :=
  match w.jobById? id with
  | none => w
  | some job =>
      match job.response? w.clock with
      | some response => w.answer job response
      | none => w.updateJob id fun j => { j with stage := job.polled w.clock }

/-- A response from outside to an invocation that waits for one, or will. -/
def respond (w : World) (id : Nat) (response : Response) : World :=
  match w.jobById? id with
  | none => w
  | some job =>
      match job.service.behaviour.completion, job.stage with
      -- an invocation that has not begun is queued already
      | .external, .fresh => w.updateJob id fun j => { j with stage := .answered response }
      | .external, .waiting =>
          (w.updateJob id fun j => { j with stage := .answered response }).enqueue (.job id)
      | _, _ => w

def run (w : World) : Task → World
  | .turn n => w.beginTurn n
  | .timer id => w.runTimer id
  | .job id => w.runJob id

/-! ## Steps -/

/-- A turn goes on until it is over; then the next task begins. -/
def step? (w : World) : Option World :=
  match w.current with
  | some t => some (w.resume t)
  | none =>
      match w.ready with
      | t :: rest => some ({ w with ready := rest }.run t)
      | [] => none

/-- Takes steps until nothing is ready, as far as the fuel goes. -/
def settle : Nat → World → World
  | 0, w => w
  | fuel + 1, w =>
      match w.step? with
      | some w => settle fuel w
      | none => w

/-! ## Time -/

/-- The end of the millisecond in which a moment lies. -/
def wholeMillis (time : Nat) : Nat := (time + (milliNanos - 1)) / milliNanos * milliNanos

/-- The times at which timers fire, responses are there and deadlines pass. -/
def dueTimes (w : World) : List Nat :=
  w.timers.filterMap (fun t => t.due?.map wholeMillis) ++ w.jobs.filterMap (·.due?) ++
    w.instances.filterMap fun i => if i.isParked then i.deadline else none

def nextDue? (w : World) : Option Nat := w.dueTimes.min?

def isDue (w : World) (time : Option Nat) : Bool := time.any fun t => decide (t ≤ w.clock)

/-- Queues the timers that are due. -/
def queueTimers (w : World) : World :=
  { w with
    ready := w.ready ++ (w.timers.filter fun t => w.isDue t.due?).map fun t => .timer t.id
    timers := w.timers.map fun t => if w.isDue t.due? then t.awaken else t }

/-- Queues the invocations whose response is there. -/
def queueJobs (w : World) : World :=
  { w with
    ready := w.ready ++ (w.jobs.filter fun j => w.isDue j.due?).map fun j => .job j.id
    jobs := w.jobs.map fun j => if w.isDue j.due? then j.awaken else j }

/-- Wakes the instances whose deadline has passed. -/
def queueDeadlines (w : World) : World :=
  (w.instances.zipIdx.filterMap fun (i, n) =>
    if i.isParked && w.isDue i.deadline then some n else none).foldl wake w

/-- Moves the clock and queues everything that is due by then. -/
def jump (w : World) (time : Nat) : World :=
  { w with clock := max w.clock time }.queueTimers.queueJobs.queueDeadlines

/-- Lets time pass up to a moment, with everything that is due on the way. -/
def runUntil (fuel : Nat) : Nat → Nat → World → World
  | 0, _, w => w
  | jumps + 1, target, w =>
      let w := settle fuel w
      match w.nextDue? with
      | none => { w with clock := max w.clock target }
      | some due =>
          if due ≤ target then runUntil fuel jumps target (w.jump due)
          else { w with clock := max w.clock target }

/-- Lets some nanoseconds pass. -/
def advance (fuel : Nat) (w : World) (nanos : Nat) : World :=
  runUntil fuel fuel (w.clock + nanos) w

/-- The number of instances that the engine knows. -/
def count (w : World) : Nat := (w.instances.filter (·.isRegistered)).length

/-- Lets time pass up to a moment or until no instance is left, and tells whether none is. Without
a last moment it lasts until nothing is due any more. -/
def awaitUntil (fuel : Nat) : Nat → Option Nat → World → World × Bool
  | 0, _, w => (w, w.count == 0)
  | jumps + 1, target, w =>
      let w := settle fuel w
      if w.count == 0 then (w, true)
      else
        let late := { w with clock := max w.clock (target.getD w.clock) }
        match w.nextDue? with
        | none => (late, false)
        | some due =>
            if target.all fun t => decide (due ≤ t) then awaitUntil fuel jumps target (w.jump due)
            else (late, false)

/-- Lets time pass until no instance is left, but no more than some nanoseconds. -/
def await (fuel : Nat) (w : World) (nanos : Option Nat) : World × Bool :=
  awaitUntil fuel fuel (nanos.map fun n => w.clock + n) w

end World

end Statechart
