import Statechart.Engine.Basic
import Statechart.Proofs.Context.Writes

/-!
# What operations do to a world

An operation changes few parts of a world. What it changes is said here once for each operation;
whatever depends on other parts only is left alone.

- `World.Writes`    : variables are written
- `World.Delivers`  : events are on their way
- `World.Queues`    : timers and invocations come further
- `World.Passes`    : any of these, one after the other
- `World.Arms`      : timers are started
- `World.Performs`  : an action
- `World.executeMove_cases` : a step between states
- `World.Passes.fire`, `World.Passes.runTimer`, `World.runJob_cases` : timers and invocations
-/

namespace Statechart

/-- An instance apart from what events change about it. -/
def Instance.plain (i : Instance) : Instance := { i with inbox := [], isParked := false }

/-- A timer, however far it is. -/
def Timer.plain (t : Timer) : Timer := { t with stage := .fresh }

/-- An invocation, however far it is. -/
def Job.plain (j : Job) : Job := { j with stage := .fresh }

theorem Timer.site_eq_of_plain {t timer : Timer} (h : t.plain = timer.plain) :
    t.site = timer.site :=
  show t.plain.site = timer.plain.site from congrArg Timer.site h

theorem Job.site_eq_of_plain {j job : Job} (h : j.plain = job.plain) : j.site = job.site :=
  show j.plain.site = job.plain.site from congrArg Job.site h

/-- The instance whose turn a task is. -/
def Task.turn? : Task → Option Nat
  | .turn n => some n
  | _ => none

/-- What observers see of an event from a source. -/
def Event.sightings (e : Event) (source : Party) : List Sighting :=
  if e.channel = .internal then [] else [⟨source, e⟩]

theorem subjectOf_cases (e : Event) (source : String) :
    (e.channel = .internal ∧ subjectOf e source = .error (.internalEvent e.name)) ∨
      (e.channel ≠ .internal ∧ ∃ text, subjectOf e source = .ok text) := by
  unfold subjectOf
  cases e.channel <;> simp

/-- An event that has a subject is for all listeners, if a subscription matches. -/
theorem Bus.route_of_subject {e : Event} {source : Party} {text : String} (b : Bus)
    (h : subjectOf e source.id = .ok text) :
    b.route e source = .ok (if b.isSubscribed text then b.listeners else []) := by
  simp only [route, h]
  rfl

namespace Bus

/-- Observers see some more events. -/
def publishAll (b : Bus) (sightings : List Sighting) : Bus :=
  { b with published := b.published ++ sightings }

@[simp]
theorem publishAll_nil (b : Bus) : b.publishAll [] = b := by
  rw [publishAll, List.append_nil]

theorem publishAll_publishAll (b : Bus) (s t : List Sighting) :
    (b.publishAll s).publishAll t = b.publishAll (s ++ t) := by
  simp only [publishAll, List.append_assoc]

theorem publish_publishAll (b : Bus) (s : List Sighting) (e : Event) (source : Party) :
    (b.publishAll s).publish e source = b.publishAll (s ++ [⟨source, e⟩]) :=
  b.publishAll_publishAll s [⟨source, e⟩]

end Bus

namespace World

variable {w v u : World}

/-! ## Instances -/

theorem instance?_mapInstance (w : World) (n m : Nat) (f : Instance → Instance) :
    (w.mapInstance n f).instance? m =
      if n = m then (w.instance? m).map f else w.instance? m := by
  simp only [instance?, mapInstance, List.getElem?_modify]
  split <;> simp

theorem instance?_mapInstance_self {n : Nat} {i : Instance} (f : Instance → Instance)
    (hi : w.instance? n = some i) : (w.mapInstance n f).instance? n = some (f i) := by
  rw [instance?_mapInstance, if_pos rfl, hi, Option.map_some]

/-- What is seen of instances changes with the instances. -/
theorem map_modify {α : Type} {part : Instance → α} {f : Instance → Instance} {g : α → α}
    (is : List Instance) (n : Nat) (h : ∀ i, part (f i) = g (part i)) :
    (is.modify n f).map part = (is.map part).modify n g := by
  refine List.ext_getElem? fun m => ?_
  simp only [List.getElem?_map, List.getElem?_modify]
  split <;> cases is[m]? <;> simp [h]

theorem map_modify_of_eq {α : Type} {part : Instance → α} {f : Instance → Instance}
    (is : List Instance) (n : Nat) (h : ∀ i, part (f i) = part i) :
    (is.modify n f).map part = is.map part := by
  rw [map_modify is n (g := id) h, List.modify_id]

/-- What is seen of plain instances is seen of the instances. -/
theorem map_eq_of_plain {α : Type} {part : Instance → α} {is js : List Instance}
    (hpart : ∀ i, part i.plain = part i) (h : js.map Instance.plain = is.map Instance.plain) :
    js.map part = is.map part := by
  have hall : ∀ ks : List Instance, ks.map part = (ks.map Instance.plain).map part := by
    intro ks
    rw [List.map_map]
    exact List.map_congr_left fun i _ => (hpart i).symm
  rw [hall, hall is, h]

/-- Whether there is an instance that takes events. -/
def isOpenAt (w : World) (n : Nat) : Bool := (w.instance? n).any (·.isOpen)

theorem isOpenAt_iff {n : Nat} :
    w.isOpenAt n = true ↔ ∃ i, w.instance? n = some i ∧ i.isOpen = true := by
  unfold isOpenAt
  cases w.instance? n <;> simp

theorem isOpenAt_of_instance? {n : Nat} {i : Instance} (hi : w.instance? n = some i) :
    w.isOpenAt n = i.isOpen := by
  rw [isOpenAt, hi, Option.any_some]

theorem isOpenAt_of_plain (h : v.instances.map Instance.plain = w.instances.map Instance.plain)
    (n : Nat) : v.isOpenAt n = w.isOpenAt n := by
  have hopen : ∀ u : World, u.isOpenAt n =
      ((u.instances.map Instance.plain)[n]?).any (·.isOpen) := by
    intro u
    rw [List.getElem?_map, Option.any_map]
    rfl
  rw [hopen, hopen, h]

theorem machineSite_owner (w : World) (n : Nat) : (w.machineSite n).owner = .numbered n := by
  unfold machineSite
  split <;> rfl

/-- What none of the operations changes is not changed by all of them. -/
theorem part_foldl {α β : Type} {part : World → β} {f : World → α → World}
    (h : ∀ w a, part (f w a) = part w) (w : World) (as : List α) :
    part (as.foldl f w) = part w := by
  induction as generalizing w with
  | nil => rfl
  | cons a rest ih => rw [List.foldl_cons, ih, h]

/-! ## Variables -/

/-- Variables are written where their layers keep them, and something may be said. -/
def Writes (w v : World) : Prop :=
  ∃ memory log, memory.kinds = w.memory.kinds ∧ v = { w with memory, log }

namespace Writes

theorem refl (w : World) : w.Writes w := ⟨w.memory, w.log, rfl, rfl⟩

theorem trans (h : w.Writes v) (h' : v.Writes u) : w.Writes u := by
  obtain ⟨memory, log, hkinds, rfl⟩ := h
  obtain ⟨memory', log', hkinds', rfl⟩ := h'
  exact ⟨memory', log', hkinds'.trans hkinds, rfl⟩

theorem foldl {α : Type} {f : World → α → World} (h : ∀ u a, Writes u (f u a)) (w : World)
    (as : List α) : w.Writes (as.foldl f w) := by
  induction as generalizing w with
  | nil => exact refl w
  | cons a rest ih => exact (h w a).trans (ih (f w a))

theorem remarks (w : World) (told : List Remark) : w.Writes (w.remarks told) :=
  ⟨w.memory, _, rfl, rfl⟩

theorem assign (w : World) (site : Site) (declared : Variable) :
    w.Writes (w.perform site (.assign declared)).1 := by
  simp only [perform]
  split
  · exact refl w
  · rename_i name value _
    have hkinds := site.extent.kinds_assign w.memory name value
    generalize site.extent.assign w.memory name value = written at hkinds
    obtain ⟨memory, outcome⟩ := written
    cases outcome <;> exact ⟨memory, w.log, hkinds, rfl⟩

theorem create (w : World) (site : Site) (declared : Variable) (persistent : Bool) :
    w.Writes (w.perform site (.create declared persistent)).1 := by
  simp only [perform]
  split
  · exact refl w
  · rename_i name value _
    have hkinds := site.extent.kinds_create w.memory name value persistent
    generalize site.extent.create w.memory name value persistent = written at hkinds
    obtain ⟨memory, outcome⟩ := written
    cases outcome <;> exact ⟨memory, w.log, hkinds, rfl⟩

theorem assignOutput (w : World) (site : Site) (type : String)
    (response : List (String × Value)) (name : String) :
    w.Writes (World.assignOutput site type response w name) := by
  unfold World.assignOutput
  split
  · rename_i value _
    have hkinds := site.extent.kinds_assign w.memory name value
    generalize site.extent.assign w.memory name value = written at hkinds
    obtain ⟨memory, outcome⟩ := written
    cases outcome <;> exact ⟨memory, _, hkinds, rfl⟩
  · exact ⟨w.memory, _, rfl, rfl⟩

theorem inject (w : World) (n : Nat) (extent : Extent) (entry : String × Value) :
    w.Writes (World.inject n extent w entry) := by
  have hkinds := extent.kinds_put w.memory (dataName entry.1) entry.2
  unfold World.inject
  generalize extent.put w.memory (dataName entry.1) entry.2 = written at hkinds
  obtain ⟨memory, outcome⟩ := written
  cases outcome <;> exact ⟨memory, _, hkinds, rfl⟩

/-- An event in a state writes the data of the event at most. -/
theorem react (w : World) (n : Nat) (e : Event) : w.Writes (w.react n e).1 := by
  unfold World.react
  split
  · exact refl w
  · rename_i i _
    split
    · exact refl w
    · have hremarks := fun told told' => (remarks w told).trans (remarks _ told')
      simp only [select]
      split
      · rename_i hselect
        exact (Prod.mk.inj hselect).1 ▸ hremarks _ _
      · rename_i hselect
        exact (Prod.mk.inj hselect).1 ▸ hremarks _ _
      · rename_i hselect
        refine trans ?_ (foldl (fun u entry => inject u n i.extent entry) _ e.data)
        exact (Prod.mk.inj hselect).1 ▸ hremarks _ _

end Writes

/-! ## Events -/

/-- What events on their way do, one thing after the other: they are put into inboxes of those who
take them, wake who waits, and are received by others; something may be said. The bus publishes the
sightings. -/
inductive Delivers (w : World) : List Sighting → World → Prop where
  | refl : Delivers w [] w
  | post {s : List Sighting} {v : World} (e : Event) (n : Nat) : Delivers w s v →
      v.isOpenAt n = true →
      Delivers w s (v.mapInstance n fun i => { i with inbox := i.inbox ++ [e] })
  | wake {s : List Sighting} {v : World} (n : Nat) : Delivers w s v → Delivers w s (v.wake n)
  | receive {s : List Sighting} {v : World} (receipts : List Receipt) : Delivers w s v →
      Delivers w s { v with receipts }
  | publish {s : List Sighting} {v : World} (source : Party) (e : Event) : Delivers w s v →
      Delivers w (s ++ [⟨source, e⟩]) { v with bus := v.bus.publish e source }
  | say {s : List Sighting} {v : World} (log : List Remark) : Delivers w s v →
      Delivers w s { v with log }

/-- An instance that is woken waits no more, and its turn is queued. -/
theorem wake_frame (w : World) (n : Nat) :
    ∃ instances ready, w.wake n = { w with instances, ready } ∧
      instances.map Instance.plain = w.instances.map Instance.plain := by
  unfold wake
  split
  · split
    · exact ⟨_, _, rfl, map_modify_of_eq w.instances n fun _ => rfl⟩
    · exact ⟨w.instances, w.ready, rfl, rfl⟩
  · exact ⟨w.instances, w.ready, rfl, rfl⟩

/-! ### Who is offered events -/

theorem mem_ite_singleton {b : Bool} {n m : Nat} :
    m ∈ (if b then [n] else []) ↔ n = m ∧ b = true := by
  cases b <;> simp [eq_comm]

/-- The audience of one more instance. -/
theorem audience_succ (instances : List Instance) (depth n : Nat) {i : Instance}
    (hi : instances[n]? = some i) :
    audience instances (depth + 1) n =
      if i.hasEnded then []
      else (i.nested.flatMap fun c =>
          if instances[c]?.any (·.isRegistered) then audience instances depth c else []) ++
        (if i.isOpen then [n] else []) := by
  simp only [audience, hi]
  split
  · rfl
  · refine congrArg (· ++ _) (congrArg (fun f => i.nested.flatMap f) (funext fun c => ?_))
    cases instances[c]? <;> rfl

theorem isOpenAt_of_mem_audience {depth n m : Nat} (h : m ∈ audience w.instances depth n) :
    w.isOpenAt m = true := by
  induction depth generalizing n with
  | zero => cases h
  | succ depth ih =>
      cases hi : w.instances[n]? with
      | none =>
          simp only [audience, hi] at h
          cases h
      | some i =>
          rw [audience_succ w.instances depth n hi] at h
          split at h
          · cases h
          · rcases List.mem_append.1 h with hnested | hself
            · obtain ⟨c, -, hm⟩ := List.mem_flatMap.1 hnested
              split at hm
              · exact ih hm
              · cases hm
            · obtain ⟨rfl, hopen⟩ := mem_ite_singleton.1 hself
              exact (isOpenAt_of_instance? hi).trans hopen

/-- Events are for instances that take them. -/
theorem isOpenAt_of_mem_recipients {e : Event} {n m : Nat} (h : m ∈ w.recipients e n) :
    w.isOpenAt m = true := by
  unfold recipients at h
  split at h
  · exact isOpenAt_of_mem_audience h
  · split at h
    · rename_i i hi
      obtain ⟨rfl, hopen⟩ := mem_ite_singleton.1 h
      exact (isOpenAt_of_instance? hi).trans hopen
    · cases h

namespace Delivers

variable {s t : List Sighting}

theorem trans (h : w.Delivers s v) (h' : v.Delivers t u) : w.Delivers (s ++ t) u := by
  induction h' with
  | refl => rwa [List.append_nil]
  | post e n _ hopen ih => exact .post e n ih hopen
  | wake n _ ih => exact .wake n ih
  | receive receipts _ ih => exact .receive receipts ih
  | publish source e _ ih => exact (List.append_assoc ..) ▸ .publish source e ih
  | say log _ ih => exact .say log ih

/-- Nothing is published. -/
theorem foldl {α : Type} {f : World → α → World} (h : ∀ u a, Delivers u [] (f u a)) (w : World)
    (as : List α) : w.Delivers [] (as.foldl f w) := by
  induction as generalizing w with
  | nil => exact refl
  | cons a rest ih => exact (h w a).trans (ih (f w a))

/-- All that is different afterwards. -/
theorem frame (h : w.Delivers s v) :
    ∃ instances receipts ready log, v = { w with
      instances, receipts, ready, log, bus := w.bus.publishAll s } ∧
      instances.map Instance.plain = w.instances.map Instance.plain := by
  induction h with
  | refl => exact ⟨w.instances, w.receipts, w.ready, w.log, by rw [Bus.publishAll_nil], rfl⟩
  | post e n _ _ ih =>
      obtain ⟨instances, receipts, ready, log, rfl, hinstances⟩ := ih
      refine ⟨_, receipts, ready, log, rfl, ?_⟩
      exact Eq.trans (map_modify_of_eq _ n fun _ => rfl) hinstances
  | wake n _ ih =>
      obtain ⟨instances, receipts, ready, log, rfl, hinstances⟩ := ih
      obtain ⟨woken, queued, hwake, hwoken⟩ := wake_frame _ n
      exact ⟨woken, receipts, queued, log, hwake, hwoken.trans hinstances⟩
  | receive receipts _ ih =>
      obtain ⟨instances, _, ready, log, rfl, hinstances⟩ := ih
      exact ⟨instances, receipts, ready, log, rfl, hinstances⟩
  | publish source e _ ih =>
      obtain ⟨instances, receipts, ready, log, rfl, hinstances⟩ := ih
      exact ⟨instances, receipts, ready, log, by rw [Bus.publish_publishAll], hinstances⟩
  | say log _ ih =>
      obtain ⟨instances, receipts, ready, _, rfl, hinstances⟩ := ih
      exact ⟨instances, receipts, ready, log, rfl, hinstances⟩

/-- An event is put into the inboxes of some that take events. -/
theorem postAll {e : Event} {ns : List Nat} (hopen : ∀ n ∈ ns, w.isOpenAt n = true) :
    w.Delivers [] (ns.foldl (World.post e) w) := by
  induction ns generalizing w with
  | nil => exact refl
  | cons n rest ih =>
      -- nobody stops taking events because another one got this one
      have hfirst : w.Delivers [] (World.post e w n) :=
        .wake n (.post e n .refl (hopen n List.mem_cons_self))
      obtain ⟨_, _, _, _, hframe, hinstances⟩ := hfirst.frame
      refine hfirst.trans (ih fun m hm => ?_)
      have hsame : (World.post e w n).isOpenAt m = w.isOpenAt m :=
        isOpenAt_of_plain (hframe ▸ hinstances) m
      exact hsame.trans (hopen m (List.mem_cons_of_mem _ hm))

theorem offer (w : World) (p : Party) (e : Event) : w.Delivers [] (w.offer p e).1 := by
  cases p with
  | named name =>
      simp only [World.offer]
      split
      · exact .receive _ .refl
      · exact .refl
  | numbered n =>
      simp only [World.offer]
      split
      · exact postAll fun n hn => isOpenAt_of_mem_recipients hn
      · exact .refl

end Delivers

/-- Only internal events are refused. -/
theorem send_of_internal {e : Event} (w : World) (source : Party) (h : e.channel = .internal) :
    w.send source e = (w, .error (.internalEvent e.name)) := by
  rcases subjectOf_cases e source.id with ⟨-, hsubject⟩ | ⟨hne, -⟩
  · simp only [send, Bus.route, hsubject]
    rfl
  · exact absurd h hne

namespace Delivers

theorem send (w : World) (source : Party) (e : Event) :
    w.Delivers (e.sightings source) (w.send source e).1 := by
  by_cases h : e.channel = .internal
  · rw [send_of_internal w source h, Event.sightings, if_pos h]
    exact .refl
  · rcases subjectOf_cases e source.id with ⟨hinternal, -⟩ | ⟨-, text, hsubject⟩
    · exact absurd hinternal h
    · simp only [World.send, Bus.route_of_subject w.bus hsubject, Event.sightings, if_neg h]
      exact .publish source e (foldl (fun u p => offer u p e) w _)

theorem deliver (w : World) (owner : Party) (e : Event) :
    w.Delivers (e.sightings owner) (w.deliver owner e).1 := by
  unfold World.deliver
  split
  · rename_i h
    rw [Event.sightings, if_pos h]
    exact offer w owner e
  · exact send w owner e

end Delivers

/-! ### Raising events -/

/-- What is published when an event is raised. -/
def raised (w : World) (site : Site) (t : EventTemplate) : List Sighting :=
  match t.evaluate (site.extent.lookup w.memory) with
  | .ok e => e.sightings site.owner
  | .error _ => []

theorem raised_of_memory (h : v.memory = w.memory) (site : Site) (t : EventTemplate) :
    v.raised site t = w.raised site t := by
  rw [raised, h, raised]

/-- An event that is raised is delivered. -/
theorem perform_raise_of_ok {site : Site} {t : EventTemplate} {e : Event}
    (h : t.evaluate (site.extent.lookup w.memory) = .ok e) :
    (w.perform site (.raise t)).1 = (w.deliver site.owner e).1 := by
  simp only [perform, h]
  cases w.deliver site.owner e with
  | mk v outcome => cases outcome <;> rfl

theorem perform_raise_of_error {site : Site} {t : EventTemplate} {fault : ModelFault}
    (h : t.evaluate (site.extent.lookup w.memory) = .error fault) :
    (w.perform site (.raise t)).1 = w := by
  simp only [perform, h]

/-- An action that fails is told in the log. -/
theorem exists_remarks_execute (w : World) (site : Site) (action : Action) :
    ∃ told, (worldActor.execute w site action).1 = (w.perform site action).1.remarks told := by
  have hnone : ∀ v : World, v.remarks [] = v := fun v => by rw [remarks, List.append_nil]
  simp only [Actor.execute, worldActor]
  cases w.perform site action with
  | mk v outcome =>
      cases outcome with
      | ok next => exact ⟨[], (hnone v).symm⟩
      | error fault => exact ⟨[Actor.failure site action fault], rfl⟩

namespace Delivers

theorem raise (w : World) (site : Site) (t : EventTemplate) :
    w.Delivers (w.raised site t) (w.perform site (.raise t)).1 := by
  unfold raised
  cases hevent : t.evaluate (site.extent.lookup w.memory) with
  | error fault =>
      rw [perform_raise_of_error hevent]
      exact .refl
  | ok e =>
      rw [perform_raise_of_ok hevent]
      exact deliver w site.owner e

theorem executeRaise (w : World) (site : Site) (t : EventTemplate) :
    w.Delivers (w.raised site t) (worldActor.execute w site (.raise t)).1 := by
  obtain ⟨told, htold⟩ := exists_remarks_execute w site (.raise t)
  rw [htold]
  exact .say _ (raise w site t)

end Delivers

/-! ## Tasks -/

/-- Timers and invocations come further, and tasks of theirs are queued or begin. -/
def Queues (w v : World) : Prop :=
  ∃ timers jobs ready, v = { w with timers, jobs, ready } ∧
    timers.map Timer.plain = w.timers.map Timer.plain ∧
    jobs.map Job.plain = w.jobs.map Job.plain ∧
    ready.filterMap Task.turn? = w.ready.filterMap Task.turn?

namespace Queues

theorem refl (w : World) : w.Queues w := ⟨w.timers, w.jobs, w.ready, rfl, rfl, rfl, rfl⟩

theorem trans (h : w.Queues v) (h' : v.Queues u) : w.Queues u := by
  obtain ⟨timers, jobs, ready, rfl, htimers, hjobs, hready⟩ := h
  obtain ⟨timers', jobs', ready', rfl, htimers', hjobs', hready'⟩ := h'
  exact ⟨timers', jobs', ready', rfl, htimers'.trans htimers, hjobs'.trans hjobs,
    hready'.trans hready⟩

/-- A task that is no turn begins. -/
theorem pop {task : Task} {rest : List Task} (hready : w.ready = task :: rest)
    (htask : task.turn? = none) : w.Queues { w with ready := rest } := by
  refine ⟨w.timers, w.jobs, rest, rfl, rfl, rfl, ?_⟩
  rw [hready, List.filterMap_cons, htask]

theorem enqueue (w : World) {task : Task} (htask : task.turn? = none) :
    w.Queues (w.enqueue task) :=
  ⟨w.timers, w.jobs, _, rfl, rfl, rfl, by simp [htask]⟩

/-- Some timers come further, or stay where they are. -/
theorem mapTimers (w : World) {f : Timer → Timer} (hf : ∀ t ∈ w.timers, (f t).plain = t.plain) :
    w.Queues { w with timers := w.timers.map f } := by
  refine ⟨_, w.jobs, w.ready, rfl, ?_, rfl, rfl⟩
  rw [List.map_map]
  exact List.map_congr_left hf

theorem mapJobs (w : World) {f : Job → Job} (hf : ∀ j ∈ w.jobs, (f j).plain = j.plain) :
    w.Queues { w with jobs := w.jobs.map f } := by
  refine ⟨w.timers, _, w.ready, rfl, rfl, ?_, rfl⟩
  rw [List.map_map]
  exact List.map_congr_left hf

theorem updateTimer (w : World) (id : Nat) (stage : TimerStage) :
    w.Queues (w.updateTimer id fun t => { t with stage }) :=
  mapTimers w fun t _ => by split <;> rfl

theorem updateJob (w : World) (id : Nat) (stage : JobStage) :
    w.Queues (w.updateJob id fun j => { j with stage }) :=
  mapJobs w fun j _ => by split <;> rfl

theorem plain_awaken (t : Timer) : t.awaken.plain = t.plain := by
  unfold Timer.awaken
  split <;> rfl

theorem plain_awaken_job (j : Job) : j.awaken.plain = j.plain := by
  unfold Job.awaken
  split <;> rfl

/-- Tasks that are no turns are queued. -/
theorem append (w : World) {tasks : List Task} (htasks : ∀ t ∈ tasks, t.turn? = none) :
    w.Queues { w with ready := w.ready ++ tasks } := by
  refine ⟨w.timers, w.jobs, _, rfl, rfl, rfl, ?_⟩
  rw [List.filterMap_append, List.filterMap_eq_nil_iff.2 htasks, List.append_nil]

theorem queueTimers (w : World) : w.Queues w.queueTimers := by
  refine (mapTimers w (f := fun t => if w.isDue t.due? then t.awaken else t) fun t _ => ?_).trans
    (append _ fun task htask => ?_)
  · split
    · exact plain_awaken t
    · rfl
  · obtain ⟨t, -, rfl⟩ := List.mem_map.1 htask
    rfl

theorem queueJobs (w : World) : w.Queues w.queueJobs := by
  refine (mapJobs w (f := fun j => if w.isDue j.due? then j.awaken else j) fun j _ => ?_).trans
    (append _ fun task htask => ?_)
  · split
    · exact plain_awaken_job j
    · rfl
  · obtain ⟨j, -, rfl⟩ := List.mem_map.1 htask
    rfl

theorem respond (w : World) (id : Nat) (response : Response) :
    w.Queues (w.respond id response) := by
  unfold World.respond
  split
  · exact refl w
  · split
    · exact updateJob w id _
    · exact (updateJob w id _).trans (enqueue _ rfl)
    · exact refl w

end Queues

/-! ## Any of these -/

/-- Variables are written, events are delivered, and timers and invocations come further. -/
inductive Passes (w : World) : List Sighting → World → Prop where
  | refl : Passes w [] w
  | writes {s : List Sighting} {v u : World} : Passes w s v → v.Writes u → Passes w s u
  | delivers {s t : List Sighting} {v u : World} : Passes w s v → v.Delivers t u →
      Passes w (s ++ t) u
  | queues {s : List Sighting} {v u : World} : Passes w s v → v.Queues u → Passes w s u

namespace Passes

variable {s t : List Sighting}

theorem of_delivers (h : w.Delivers s v) : w.Passes s v := refl.delivers h

theorem trans (h : w.Passes s v) (h' : v.Passes t u) : w.Passes (s ++ t) u := by
  induction h' with
  | refl => rwa [List.append_nil]
  | writes _ hwrites ih => exact ih.writes hwrites
  | delivers _ hdelivers ih => exact (List.append_assoc ..) ▸ ih.delivers hdelivers
  | queues _ hqueues ih => exact ih.queues hqueues

end Passes

/-- A completed invocation writes its output, and what it raises goes to its owner; nobody else
sees it. -/
theorem exists_writes_complete (w : World) (site : Site) (call : Invocation)
    (response : List (String × Value)) :
    ∃ u, w.Writes u ∧ u.Delivers [] (w.complete site call response) :=
  ⟨_, Writes.foldl (fun u name => .assignOutput u site call.service response name) w call.output,
    Delivers.foldl (f := raiseDone site response)
      (fun u t => .offer u site.owner (t.toEvent response)) _ call.done⟩

/-- The effects of a response, once the invocation is off the list. -/
theorem exists_writes_answer (w : World) (job : Job) (response : Response) :
    ∃ u, Writes { w with jobs := w.jobs.filter fun j => j.id != job.id } u ∧
      u.Delivers [] (w.answer job response) := by
  cases response with
  | ok output => exact exists_writes_complete _ job.site job.call output
  | error fault => exact ⟨_, .remarks _ [failedRemark job fault], .refl⟩

/-! ### Timers -/

/-- How often a timer fires in a burst: once, and on while it is due again already. -/
def firings (clock : Nat) : Nat → Timer → Nat
  | 0, _ => 0
  | most + 1, timer =>
      match timer.stage with
      | .awake due =>
          let due := timer.dueAfter due clock
          if due ≤ clock then firings clock most { timer with stage := .awake due } + 1 else 1
      | _ => 0

/-- What a timer publishes in a burst. -/
def timerSightings (w : World) (most : Nat) (timer : Timer) : List Sighting :=
  (List.replicate (firings w.clock most timer) (w.raised timer.site timer.event)).flatten

theorem timerSightings_of_succ {most : Nat} {timer : Timer} {stage : TimerStage}
    (hmemory : u.memory = w.memory) (hclock : u.clock = w.clock)
    (h : firings w.clock (most + 1) timer = firings w.clock most { timer with stage } + 1) :
    w.timerSightings (most + 1) timer =
      w.raised timer.site timer.event ++ u.timerSightings most { timer with stage } := by
  simp only [timerSightings, h, hclock, raised_of_memory hmemory]
  rw [List.replicate_succ, List.flatten_cons]

theorem timerSightings_of_one {most : Nat} {timer : Timer} (h : firings w.clock most timer = 1) :
    w.timerSightings most timer = w.raised timer.site timer.event := by
  simp [timerSightings, h]

theorem timerById?_updateTimer {id : Nat} {timer : Timer} {f : Timer → Timer}
    (h : w.timerById? id = some timer) (hid : ∀ t, (f t).id = t.id) :
    (w.updateTimer id f).timerById? id = some (f timer) := by
  have hsame : ∀ t : Timer, ((if t.id == id then f t else t).id == id) = (t.id == id) := by
    intro t
    split
    · rw [hid]
    · rfl
  unfold timerById? at h
  have hfound : (timer.id == id) = true := List.find?_some (p := fun t : Timer => t.id == id) h
  simp only [timerById?, updateTimer, List.find?_map, Function.comp_def, hsame]
  rw [h, Option.map_some, if_pos hfound]

/-- A timer that is awake raises its event and fires on, or the burst is over. The event changes
neither variables nor timers. -/
theorem fire_cases {id due : Nat} {timer : Timer} (most : Nat)
    (h : w.timerById? id = some timer) (hawake : timer.stage = .awake due) :
    ∃ stage u, u = (worldActor.execute w timer.site (.raise timer.event)).1.updateTimer id
        (fun t => { t with stage }) ∧ u.memory = w.memory ∧ u.clock = w.clock ∧
      u.timerById? id = some { timer with stage } ∧
      ((stage = .awake (timer.dueAfter due w.clock) ∧ fire (most + 1) w id = fire most u id ∧
          firings w.clock (most + 1) timer = firings w.clock most { timer with stage } + 1) ∨
        (stage = .asleep (timer.dueAfter due w.clock) ∧ fire (most + 1) w id = u ∧
          firings w.clock (most + 1) timer = 1)) := by
  -- raising its event leaves the timer, the clock and all variables as they are
  obtain ⟨_, _, _, _, hframe, -⟩ := (Delivers.executeRaise w timer.site timer.event).frame
  simp only [fire, h, hawake, firings]
  generalize (worldActor.execute w timer.site (.raise timer.event)).1 = v at hframe
  have htimers : v.timers = w.timers := by rw [hframe]
  have hclock : v.clock = w.clock := by rw [hframe]
  have hmemory : v.memory = w.memory := by rw [hframe]
  have hthere : v.timerById? id = some timer := by
    rw [timerById?, htimers]
    exact h
  rw [hclock]
  by_cases hdue : timer.dueAfter due w.clock ≤ w.clock
  · exact ⟨.awake (timer.dueAfter due w.clock), _, rfl, hmemory, hclock,
      timerById?_updateTimer hthere fun _ => rfl, .inl ⟨rfl, if_pos hdue, if_pos hdue⟩⟩
  · exact ⟨.asleep (timer.dueAfter due w.clock), _, rfl, hmemory, hclock,
      timerById?_updateTimer hthere fun _ => rfl, .inr ⟨rfl, if_neg hdue, if_neg hdue⟩⟩

/-- A timer that is not awake does not fire; after a burst it queues. -/
theorem fire_of_not_awake {id : Nat} (most : Nat)
    (h : ∀ timer due, w.timerById? id = some timer → timer.stage ≠ .awake due) :
    fire most w id = w ∨ fire most w id = w.enqueue (.timer id) := by
  cases most with
  | zero => exact .inr rfl
  | succ most =>
      refine .inl ?_
      simp only [fire]
      split
      · rfl
      · rename_i timer htimer
        split
        · rename_i due hawake
          exact absurd hawake (h timer due htimer)
        · rfl

theorem firings_of_not_awake {timer : Timer} (clock most : Nat)
    (h : ∀ due, timer.stage ≠ .awake due) : firings clock most timer = 0 := by
  cases most with
  | zero => rfl
  | succ most => simp only [firings]

theorem timerSightings_of_not_awake {timer : Timer} (most : Nat)
    (h : ∀ due, timer.stage ≠ .awake due) : w.timerSightings most timer = [] := by
  rw [timerSightings, firings_of_not_awake w.clock most h]
  rfl

namespace Passes

/-- A timer publishes an event for each firing. -/
theorem fire {id : Nat} {timer : Timer} (most : Nat) (h : w.timerById? id = some timer) :
    w.Passes (w.timerSightings most timer) (World.fire most w id) := by
  -- firing by firing: what a firing raises depends on nothing that another one changes
  induction most generalizing w timer with
  | zero => exact refl.queues (.enqueue w rfl)
  | succ most ih =>
      by_cases hawake : ∃ due, timer.stage = .awake due
      · obtain ⟨due, hawake⟩ := hawake
        obtain ⟨stage, u, hu, hmemory, hclock, hthere, hcases⟩ := fire_cases most h hawake
        have hraise := Delivers.executeRaise w timer.site timer.event
        have hfirst : w.Passes (w.raised timer.site timer.event) u :=
          hu ▸ (of_delivers hraise).queues (.updateTimer _ id stage)
        rcases hcases with ⟨-, hfire, hfirings⟩ | ⟨-, hfire, hfirings⟩
        · rw [hfire, timerSightings_of_succ hmemory hclock hfirings]
          exact hfirst.trans (ih hthere)
        · rw [hfire, timerSightings_of_one hfirings]
          exact hfirst
      · have hnot : ∀ due, timer.stage ≠ .awake due := fun due hdue => hawake ⟨due, hdue⟩
        rw [timerSightings_of_not_awake _ hnot]
        have hasleep : ∀ t due, w.timerById? id = some t → t.stage ≠ .awake due := fun t due ht =>
          Option.some.inj (h.symm.trans ht) ▸ hnot due
        rcases fire_of_not_awake (most + 1) hasleep with hfire | hfire
        · rw [hfire]
          exact refl
        · rw [hfire]
          exact refl.queues (.enqueue w rfl)

/-- What a timer publishes when its task runs. -/
theorem runTimer (w : World) (id : Nat) :
    w.Passes ((w.timerById? id).elim [] (w.timerSightings burst)) (w.runTimer id) := by
  unfold World.runTimer
  cases h : w.timerById? id with
  | none => exact refl
  | some timer =>
      simp only [Option.elim_some]
      split
      · rename_i hfresh
        have hnot : ∀ due, timer.stage ≠ .awake due := fun due hdue => by
          rw [hfresh] at hdue
          cases hdue
        rw [timerSightings_of_not_awake _ hnot]
        exact refl.queues (.updateTimer w id _)
      · exact fire burst h

end Passes

/-! ### Invocations and time -/

/-- An invocation is answered, or it comes further. -/
theorem runJob_cases (w : World) (id : Nat) :
    w.Queues (w.runJob id) ∨
      ∃ job response, w.jobById? id = some job ∧ job.response? w.clock = some response ∧
        w.runJob id = w.answer job response ∧
        Passes { w with jobs := w.jobs.filter fun j => j.id != job.id } [] (w.runJob id) := by
  unfold runJob
  cases hjob : w.jobById? id with
  | none => exact .inl (.refl w)
  | some job =>
      simp only
      split
      · rename_i response hresponse
        obtain ⟨u, hwrites, hdelivers⟩ := exists_writes_answer w job response
        exact .inr ⟨job, response, rfl, hresponse, rfl,
          (Passes.refl.writes hwrites).delivers hdelivers⟩
      · exact .inl (.updateJob w id _)

/-- Deadlines wake instances only. -/
theorem Delivers.queueDeadlines (w : World) : w.Delivers [] w.queueDeadlines :=
  foldl (fun _ n => .wake n .refl) w _

/-- Time queues what is due. -/
theorem Passes.jump (w : World) (time : Nat) :
    Passes { w with clock := max w.clock time } [] (w.jump time) :=
  ((refl.queues (.queueTimers _)).queues (.queueJobs _)).delivers (.queueDeadlines _)

/-- Nothing is due before what is due next. -/
theorem lt_of_nextDue? {due time : Nat} (hdue : w.nextDue? = some due) (hlate : time < due) :
    ∀ d ∈ w.dueTimes, time < d := by
  have hmin := (List.min?_eq_some_iff.1 hdue).2
  exact fun d hd => Nat.lt_of_lt_of_le hlate (hmin d hd)

theorem lt_of_nextDue?_none {time : Nat} (hdue : w.nextDue? = none) :
    ∀ d ∈ w.dueTimes, time < d := by
  intro d hd
  have hsome := List.isSome_min?_of_mem hd
  rw [nextDue?] at hdue
  rw [hdue] at hsome
  cases hsome

/-- Time awakens the timers that are due. -/
theorem timers_jump (w : World) (time : Nat) :
    (w.jump time).timers = w.timers.map fun t =>
      if t.due?.any fun due => decide (due ≤ max w.clock time) then t.awaken else t := by
  obtain ⟨_, _, _, _, hframe, -⟩ := (Delivers.queueDeadlines
    { w with clock := max w.clock time }.queueTimers.queueJobs).frame
  rw [jump, hframe]
  rfl

/-! ## Actions -/

/-- What an action publishes. -/
def actionSightings (w : World) (site : Site) : Action → List Sighting
  | .raise t => w.raised site t
  | _ => []

/-- What an action does to a world. -/
inductive Performs (w : World) (site : Site) :
    Action → Except EngineFault (List Action) → World → Prop where
  | writes {action : Action} {outcome : Except EngineFault (List Action)} {v : World} :
      w.Writes v → (∀ name, action = .resetTimeout name → ∃ fault, outcome = .error fault) →
        w.actionSightings site action = [] → Performs w site action outcome v
  | raises {t : EventTemplate} {outcome : Except EngineFault (List Action)} {v : World} :
      w.Delivers (w.raised site t) v → Performs w site (.raise t) outcome v
  /-- A service is drawn, but there is no input for it. -/
  | draws {call : Invocation} {outcome : Except EngineFault (List Action)} :
      Performs w site (.invoke call) outcome { w with drawn := w.drawn + 1 }
  | begins {call : Invocation} {input : List (String × Value)} {service : Service Float} :
      Performs w site (.invoke call) (.ok [])
        (startJob { w with drawn := w.drawn + 1 } site call input service)
  | stops {name : String} {timer : Timer} : w.timer? site.owner name = some timer →
      Performs w site (.resetTimeout name) (.ok [])
        { w with timers := w.timers.filter fun t => t.id != timer.id }

theorem perform_choose_fst (w : World) (site : Site) (value : Expression)
    (cases : List (Expression × Action)) : (w.perform site (.choose value cases)).1 = w := by
  simp only [perform]
  split <;> rfl

theorem performs {site : Site} {action : Action} {outcome : Except EngineFault (List Action)}
    (h : w.perform site action = (v, outcome)) : w.Performs site action outcome v := by
  cases action with
  | assign declared =>
      have hwrites := Writes.assign w site declared
      rw [h] at hwrites
      exact .writes hwrites (fun _ heq => by cases heq) rfl
  | create declared persistent =>
      have hwrites := Writes.create w site declared persistent
      rw [h] at hwrites
      exact .writes hwrites (fun _ heq => by cases heq) rfl
  | invoke call =>
      simp only [perform, selectService] at h
      cases hservice : w.policy.choose? w.services (w.choices.draws w.drawn) call.service
          call.isLocal with
      | none =>
          -- nothing fits, and nothing is drawn
          rw [hservice] at h
          cases h
          exact .writes (.refl w) (fun _ heq => by cases heq) rfl
      | some service =>
          rw [hservice] at h
          simp only at h
          split at h
          · cases h
            exact .draws
          · cases h
            exact .begins
  | choose value cases =>
      have hsame := perform_choose_fst w site value cases
      rw [h] at hsame
      have hv : v = w := hsame
      rw [hv]
      exact .writes (.refl w) (fun _ heq => by cases heq) rfl
  | raise template =>
      have hraise := Delivers.raise w site template
      rw [h] at hraise
      exact .raises hraise
  | timeout timer =>
      cases h
      exact .writes (.refl w) (fun _ heq => by cases heq) rfl
  | resetTimeout name =>
      simp only [perform, stopTimer] at h
      cases htimer : w.timer? site.owner name with
      | none =>
          rw [htimer] at h
          cases h
          exact .writes (.refl w) (fun _ _ => ⟨_, rfl⟩) rfl
      | some timer =>
          rw [htimer] at h
          cases h
          exact .stops htimer

/-! ## Commands -/

/-- What a timer is started with. -/
def newTimer (w : World) (site : Site) (name : String) (period : Nat) (event : EventTemplate) :
    Timer :=
  ⟨w.fresh, site.owner, name, period, .fresh, site, event⟩

theorem startTimer_raise (w : World) (site : Site) (name : String) (period : Nat)
    (event : EventTemplate) :
    w.startTimer site name period (.raise event) =
      if period = 0 then (w, .error (.invalidTimer name .zeroDelay))
      else if (w.timer? site.owner name).isSome then (w, .error (.duplicateTimer name))
      else
        ({ w with
            timers := w.timers ++ [w.newTimer site name period event]
            fresh := w.fresh + 1
            ready := w.ready ++ [.timer w.fresh] },
          .ok ()) := rfl

/-- New timers raise their events from a site, their tasks are queued, and identities are used
up. -/
def Arms (site : Site) (w v : World) : Prop :=
  ∃ added fresh, v = { w with
    timers := w.timers ++ added, fresh, ready := w.ready ++ added.map fun t => .timer t.id } ∧
    w.fresh ≤ fresh ∧ ∀ t ∈ added, t.site = site ∧ t.stage = .fresh ∧ w.fresh ≤ t.id

namespace Arms

variable {site : Site}

theorem refl (site : Site) (w : World) : Arms site w w :=
  ⟨[], w.fresh, by simp, Nat.le_refl _, fun _ ht => absurd ht List.not_mem_nil⟩

theorem trans (h : Arms site w v) (h' : Arms site v u) : Arms site w u := by
  obtain ⟨added, fresh, rfl, hfresh, hadded⟩ := h
  obtain ⟨more, fresh', rfl, hfresh', hmore⟩ := h'
  refine ⟨added ++ more, fresh', ?_, Nat.le_trans hfresh hfresh', fun t ht => ?_⟩
  · simp only [List.append_assoc, List.map_append]
  · rcases List.mem_append.1 ht with ht | ht
    · exact hadded t ht
    · obtain ⟨hsite, hstage, hid⟩ := hmore t ht
      exact ⟨hsite, hstage, Nat.le_trans hfresh hid⟩

theorem startTimer (w : World) (site : Site) (name : String) (period : Nat) (action : Action) :
    Arms site w (w.startTimer site name period action).1 := by
  unfold World.startTimer
  split
  · split
    · exact refl site w
    · split
      · exact refl site w
      · refine ⟨[_], w.fresh + 1, rfl, Nat.le_succ _, fun t ht => ?_⟩
        rw [List.mem_singleton.1 ht]
        exact ⟨rfl, rfl, Nat.le_refl _⟩
  · exact refl site w

theorem startTimers (site : Site) (w : World) (timeouts : List Timeout) :
    Arms site w (World.startTimers site w timeouts).1 := by
  induction timeouts generalizing w with
  | nil => exact refl site w
  | cons timeout rest ih =>
      simp only [World.startTimers]
      split
      · exact refl site w
      · rename_i period _
        have hfirst := startTimer w site timeout.name period (.raise timeout.event)
        split
        · rename_i hstarted
          rw [hstarted] at hfirst
          exact hfirst.trans (ih _)
        · rename_i hstarted
          rw [hstarted] at hfirst
          exact hfirst

end Arms

/-- Steps between states stop all timers and tasks of an instance when a state is left, or start
timers and make a state the active one, if the timers start. -/
theorem executeMove_cases (w : World) (n : Nat) (step : Move) :
    ((instanceMachine n).executeMove w step).1 = w ∨
      (∃ left, step = .exit left ∧ ((instanceMachine n).executeMove w step).1 =
        (w.stopTimers (.numbered n)).cancelTasks (.numbered n)) ∨
      ∃ state v, v = (startTimers (w.stateSite n state) w state.after).1 ∧
        (((instanceMachine n).executeMove w step).1 = v ∨
          ∃ told, ((instanceMachine n).executeMove w step).1 =
            (v.mapInstance n fun i => { i with active := some state }).remarks told) := by
  cases step with
  | enterInitial state => exact .inl rfl
  | enter state => exact .inl rfl
  | exit state => exact .inr (.inl ⟨state, rfl, rfl⟩)
  | change state =>
      refine .inr (.inr ⟨state, _, rfl, ?_⟩)
      simp only [Machine.executeMove, instanceMachine]
      cases startTimers (w.stateSite n state) w state.after with
      | mk v started =>
          cases started with
          | error fault => exact .inl rfl
          | ok done =>
              -- whatever is selected, the faults of its guards are told
              refine .inr ?_
              simp only [select]
              split
              · rename_i hselect
                exact ⟨_, (Prod.mk.inj hselect).1.symm⟩
              · rename_i hselect
                exact ⟨_, (Prod.mk.inj hselect).1.symm⟩
              · rename_i hselect
                exact ⟨_, (Prod.mk.inj hselect).1.symm⟩
  | transit selected =>
      refine .inl ?_
      simp only [Machine.executeMove]
      split
      · rfl
      · split
        · rfl
        · split <;> rfl

/-- What a command gives rise to is done later. -/
theorem advance_fst (w : World) (n : Nat) (c : Command) (rest : List Command) :
    ((instanceMachine n).advance w c rest).1 = ((instanceMachine n).execute w c).1 := by
  unfold Machine.advance
  cases (instanceMachine n).execute w c with
  | mk v outcome => cases outcome <;> rfl

end World

end Statechart
