import Statechart.Proofs.Engine.Run

/-!
# Timers without instances

Where there are no instances and no invocations, a timer that fires is heard by those who listen,
and the event is seen on the bus. Nothing else comes of it, and none of it depends on which timers
there are and what is queued.

- `World.HasOnlyTimers`     : no instances, no invocations, and no turn
- `World.announced`         : what raising an event comes to
- `TimerTable`              : the time, the timers and the queue
- `World.withTable`         : the same world with others
- `Firing`, `World.raiseAt` : one firing of a timer
- `World.execute_withTable` : it is the same with any timers
-/

namespace Statechart

namespace World

variable {w : World}

/-- No instances, no invocations, and no turn under way. -/
structure HasOnlyTimers (w : World) : Prop where
  instances : w.instances = []
  jobs : w.jobs = []
  current : w.current = none

/-! ## Raising events -/

/-- What a party hears of an event. -/
def heard (recorders : List Recorder) (time : Nat) (e : Event) : Party → List Receipt
  | .named name =>
      match recorders.find? fun r => r.name == name with
      | some _ => [⟨name, time, e⟩]
      | none => []
  | .numbered _ => []

theorem offer_of_noInstances (h : w.instances = []) (p : Party) (e : Event) :
    (w.offer p e).1 = { w with receipts := w.receipts ++ heard w.recorders w.clock e p } := by
  cases p with
  | named name =>
      simp only [offer, heard]
      cases w.recorders.find? fun r => r.name == name with
      | none => simp
      | some r => rfl
  | numbered n =>
      have hnobody : w.instance? n = none := by rw [instance?, h]; rfl
      simp [offer, hnobody, heard]

theorem offers_of_noInstances (h : w.instances = []) (listeners : List Party) (e : Event) :
    listeners.foldl (fun w p => (w.offer p e).1) w =
      { w with receipts := w.receipts ++ listeners.flatMap (heard w.recorders w.clock e) } := by
  induction listeners generalizing w with
  | nil => simp
  | cons p rest ih =>
      rw [List.foldl_cons, offer_of_noInstances h, ih (by exact h), List.flatMap_cons]
      simp only [List.append_assoc]

/-- An event is raised where there are no instances. -/
def announced (w : World) (site : Site) (t : EventTemplate) : World :=
  match t.evaluate (site.extent.lookup w.memory) with
  | .error fault => w.remark (Actor.failure site (.raise t) (.model fault))
  | .ok e =>
      if e.channel = .internal then
        { w with receipts := w.receipts ++ heard w.recorders w.clock e site.owner }
      else
        match w.bus.route e site.owner with
        | .error fault => w.remark (Actor.failure site (.raise t) fault)
        | .ok listeners =>
            { w with
              receipts := w.receipts ++ listeners.flatMap (heard w.recorders w.clock e)
              bus := w.bus.publish e site.owner }

theorem execute_raise_of_noInstances (h : w.instances = []) (site : Site) (t : EventTemplate) :
    (worldActor.execute w site (.raise t)).1 = w.announced site t := by
  simp only [Actor.execute, worldActor, perform, announced]
  cases t.evaluate (site.extent.lookup w.memory) with
  | error fault => rfl
  | ok e =>
      simp only [deliver, send]
      by_cases hchannel : e.channel = .internal
      · simp only [if_pos hchannel, offer_of_noInstances h]
      · simp only [if_neg hchannel]
        cases w.bus.route e site.owner with
        | error fault => rfl
        | ok listeners => simp only [offers_of_noInstances h]

end World

/-! ## Timers and tasks -/

/-- The time, the timers, and what is ready to run. -/
structure TimerTable where
  clock : Nat
  timers : List Timer
  ready : List Task
  fresh : Nat

namespace World

variable {w : World} {c : TimerTable}

def table (w : World) : TimerTable := ⟨w.clock, w.timers, w.ready, w.fresh⟩

/-- The same world with other timers. -/
def withTable (w : World) (c : TimerTable) : World :=
  { w with clock := c.clock, timers := c.timers, ready := c.ready, fresh := c.fresh }

theorem HasOnlyTimers.withTable (h : w.HasOnlyTimers) (c : TimerTable) :
    (w.withTable c).HasOnlyTimers :=
  ⟨h.instances, h.jobs, h.current⟩

/-- Of the timers an event that is raised tells the time at most. -/
theorem announced_withTable (w : World) (c : TimerTable) (site : Site) (t : EventTemplate) :
    (w.withTable c).announced site t =
      (({ w with clock := c.clock } : World).announced site t).withTable c := by
  have hmemory : (w.withTable c).memory = w.memory := rfl
  have hbus : (w.withTable c).bus = w.bus := rfl
  simp only [announced, hmemory, hbus]
  cases t.evaluate (site.extent.lookup w.memory) with
  | error fault => rfl
  | ok e =>
      by_cases hchannel : e.channel = .internal
      · simp only [if_pos hchannel]
        rfl
      · simp only [if_neg hchannel]
        cases w.bus.route e site.owner <;> rfl

theorem HasOnlyTimers.announced (h : w.HasOnlyTimers) (site : Site) (t : EventTemplate) :
    (w.announced site t).HasOnlyTimers := by
  unfold World.announced
  split
  · exact ⟨h.instances, h.jobs, h.current⟩
  · split
    · exact ⟨h.instances, h.jobs, h.current⟩
    · split <;> exact ⟨h.instances, h.jobs, h.current⟩

end World

/-! ## Firings -/

/-- A timer fires: the time in nanoseconds, and the event that it raises at its site. -/
structure Firing where
  time : Nat
  site : Site
  event : EventTemplate

namespace World

variable {w : World} {c : TimerTable}

/-- The event of a firing is raised at its time. -/
def raiseAt (f : Firing) (w : World) : World :=
  (worldActor.execute { w with clock := f.time } f.site (.raise f.event)).1

/-- The events of firings are raised, the last one in the list first. -/
def raiseAll (w : World) (fs : List Firing) : World := fs.foldr raiseAt w

theorem HasOnlyTimers.raiseAt (h : w.HasOnlyTimers) (f : Firing) : (raiseAt f w).HasOnlyTimers := by
  have hclock : ({ w with clock := f.time } : World).HasOnlyTimers :=
    ⟨h.instances, h.jobs, h.current⟩
  rw [World.raiseAt, execute_raise_of_noInstances hclock.instances]
  exact hclock.announced f.site f.event

theorem HasOnlyTimers.raiseAll (h : w.HasOnlyTimers) (fs : List Firing) :
    (w.raiseAll fs).HasOnlyTimers := by
  induction fs with
  | nil => exact h
  | cons f rest ih => exact ih.raiseAt f

/-- Events that are raised decide nothing that the engine does not decide. -/
@[simp]
theorem choices_raiseAll (w : World) (fs : List Firing) : (w.raiseAll fs).choices = w.choices := by
  induction fs with
  | nil => rfl
  | cons f rest ih =>
      obtain ⟨_, _, _, _, hframe, -⟩ :=
        (Delivers.executeRaise { w.raiseAll rest with clock := f.time } f.site f.event).frame
      exact (congrArg World.choices hframe).trans ih

/-- A timer that fires does the same whichever timers there are. -/
theorem execute_withTable (h : w.HasOnlyTimers) (site : Site) (event : EventTemplate) :
    (worldActor.execute (w.withTable c) site (.raise event)).1 =
      (raiseAt ⟨c.clock, site, event⟩ w).withTable c := by
  rw [execute_raise_of_noInstances (h.withTable c).instances, announced_withTable, raiseAt,
    execute_raise_of_noInstances (by exact h.instances)]

end World

end Statechart
