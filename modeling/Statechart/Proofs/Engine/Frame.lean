import Statechart.Proofs.Engine.Effects

/-!
# What events leave alone

Events, log lines and variables are one side of a world; what its instances are, which timers it
has and which invocations are under way is the other. Whatever is only said, offered or assigned
leaves the other side alone, and so do time and the tasks that are queued.

- `World.core`              : the other side
- `World.Passes.core_eq`    : what leaves it alone
- `World.core_perform_cases` : an action leaves it alone, begins an invocation, or stops one timer
- `World.core_start`, `World.core_shutDown` : requests
-/

namespace Statechart

/-! ## The other side of a world -/

/-- The graph of an instance and how far the instance is in it. -/
structure Control where
  graph : Graph
  active : Option State
  phase : Phase

def Instance.control (i : Instance) : Control := ⟨i.graph, i.active, i.phase⟩

/-- What neither events nor variables are a part of, nor how far timers and invocations are. -/
structure Core where
  controls : List Control
  timers : List Timer
  jobs : List Job
  tracked : List Tracked
  current : Option Turn
  fresh : Nat

namespace Core

/-- The other side after an invocation has begun. -/
def begin (c : Core) (site : Site) (job : Job) : Core :=
  { c with
    jobs := c.jobs ++ [job]
    tracked := if site.tracksTasks then c.tracked ++ [⟨site.owner, job.id⟩] else c.tracked
    fresh := c.fresh + 1 }

/-- The other side after a timer was stopped. -/
def stop (c : Core) (timer : Timer) : Core :=
  { c with timers := c.timers.filter fun t => t.id != timer.id }

end Core

namespace World

variable {w v : World}

def controls (w : World) : List Control := w.instances.map Instance.control

def core (w : World) : Core :=
  ⟨w.controls, w.timers.map Timer.plain, w.jobs.map Job.plain, w.tracked, w.current, w.fresh⟩

theorem controls_getElem? (w : World) (n : Nat) :
    w.controls[n]? = (w.instance? n).map Instance.control := by
  simp [controls, instance?]

theorem controls_mapInstance {f : Instance → Instance} {g : Control → Control} (w : World)
    (n : Nat) (h : ∀ i, (f i).control = g i.control) :
    (w.mapInstance n f).controls = w.controls.modify n g :=
  map_modify w.instances n h

theorem core_mapInstance {f : Instance → Instance} (w : World) (n : Nat)
    (h : ∀ i, (f i).control = i.control) : (w.mapInstance n f).core = w.core :=
  congrArg (fun controls => { w.core with controls }) (map_modify_of_eq w.instances n h)

/-- Timers are the same, however far they are. -/
theorem exists_timer_of_core (h : v.core.timers = w.core.timers) {t : Timer} (ht : t ∈ v.timers) :
    ∃ t' ∈ w.timers, t'.plain = t.plain := by
  have hplain : t.plain ∈ v.core.timers := List.mem_map_of_mem ht
  rw [h] at hplain
  exact List.mem_map.1 hplain

theorem exists_job_of_core (h : v.core.jobs = w.core.jobs) {j : Job} (hj : j ∈ v.jobs) :
    ∃ j' ∈ w.jobs, j'.plain = j.plain := by
  have hplain : j.plain ∈ v.core.jobs := List.mem_map_of_mem hj
  rw [h] at hplain
  exact List.mem_map.1 hplain

/-! ## What leaves it alone -/

theorem Writes.core_eq (h : w.Writes v) : v.core = w.core := by
  obtain ⟨memory, log, -, rfl⟩ := h
  rfl

theorem Delivers.core_eq {s : List Sighting} (h : w.Delivers s v) : v.core = w.core := by
  obtain ⟨instances, receipts, ready, log, rfl, hinstances⟩ := h.frame
  have hcontrols : instances.map Instance.control = w.controls :=
    map_eq_of_plain (fun _ => rfl) hinstances
  exact congrArg (fun controls => { w.core with controls }) hcontrols

theorem Queues.core_eq (h : w.Queues v) : v.core = w.core := by
  obtain ⟨timers, jobs, ready, rfl, htimers, hjobs, -⟩ := h
  simp only [core, htimers, hjobs]
  rfl

theorem Passes.core_eq {s : List Sighting} (h : w.Passes s v) : v.core = w.core := by
  induction h with
  | refl => rfl
  | writes _ hwrites ih => exact hwrites.core_eq.trans ih
  | delivers _ hdelivers ih => exact hdelivers.core_eq.trans ih
  | queues _ hqueues ih => exact hqueues.core_eq.trans ih

theorem core_wake (w : World) (n : Nat) : (w.wake n).core = w.core :=
  (Delivers.refl.wake n).core_eq

theorem core_jump (w : World) (time : Nat) : (w.jump time).core = w.core :=
  (Passes.jump w time).core_eq

/-! ### Requests -/

theorem core_register (w : World) (n : Nat) : (w.register n).core = w.core := by
  unfold register
  split
  · rfl
  · exact core_mapInstance w n fun _ => rfl

theorem core_start (w : World) (ns : List Nat) : (w.start ns).core = w.core := by
  have hqueued : ∀ (v : World) (n : Nat), (v.enqueue (.turn n)).core = v.core := fun _ _ => rfl
  unfold start
  rw [part_foldl hqueued, part_foldl core_register]

theorem core_adopt (w : World) (parent : Option Nat) (n : Nat) :
    (w.adopt parent n).core = w.core := by
  cases parent with
  | none => rfl
  | some p => exact core_mapInstance w p fun _ => rfl

theorem core_cancel (w : World) (n : Nat) : (w.cancel n).core = w.core := by
  rw [cancel, core_wake]
  exact core_mapInstance w n fun _ => rfl

theorem core_shutDown (w : World) : w.shutDown.core = w.core := by
  unfold shutDown
  split
  · rfl
  · rw [part_foldl core_cancel]
    rfl

/-! ## Actions -/

/-- An action leaves the other side of the world alone, unless it begins an invocation or stops a
timer of its owner. -/
theorem core_perform_cases {site : Site} {action : Action}
    {outcome : Except EngineFault (List Action)} (h : w.perform site action = (v, outcome)) :
    (v.core = w.core ∧ ∀ name, action = .resetTimeout name → ∃ fault, outcome = .error fault) ∨
      (∃ call job, action = .invoke call ∧ job.id = w.fresh ∧ job.site = site ∧
        v.core = w.core.begin site job) ∨
      ∃ name timer, action = .resetTimeout name ∧ outcome = .ok [] ∧
        w.timer? site.owner name = some timer ∧ v.core = w.core.stop timer := by
  cases performs h with
  | writes hwrites hreset _ => exact .inl ⟨hwrites.core_eq, hreset⟩
  | raises hdelivers => exact .inl ⟨hdelivers.core_eq, fun _ heq => by cases heq⟩
  | draws => exact .inl ⟨rfl, fun _ heq => by cases heq⟩
  | @begins call input service =>
      refine .inr (.inl ⟨call, ⟨w.fresh, site, call, input, service, .fresh⟩, rfl, rfl, rfl, ?_⟩)
      simp only [core, startJob, enqueue, List.map_append]
      rfl
  | stops htimer =>
      refine .inr (.inr ⟨_, _, rfl, rfl, htimer, ?_⟩)
      simp only [core, Core.stop, List.filter_map]
      rfl

end World

end Statechart
