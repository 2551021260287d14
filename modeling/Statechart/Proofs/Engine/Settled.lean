import Statechart.Proofs.Engine.Reach
import Statechart.Proofs.Engine.Wakeups

/-!
# What is left when nothing is ready

Between two steps of an engine nobody waits who has a reason to stop, and whoever does not wait has
its turn, now or soon. So when nothing is ready any more, whoever has begun and is not gone has no
reason to stop.

- `World.noLostWakeup_jump`, `World.noLostWakeup_serve` : time and requests wake whom they concern
- `World.TimedRun`          : the clock does not pass by what is due
- `TimedRun.advance`, `TimedRun.await` : the virtual clock never does
- `TimedRun.noLostWakeup`   : nobody waits who has a reason to stop
- `World.settled_of_run`    : those that are left when nothing is ready
-/

namespace Statechart

namespace World

variable {w v : World}

/-! ## Time -/

section Time

variable {limit : Option Nat} {n time : Nat}

/-- The clock moves, and whoever waits for this moment is woken. -/
theorem noLostWakeup_jump (h : w.turnQueue.NoLostWakeup limit []) (time : Nat) :
    (w.jump time).turnQueue.NoLostWakeup limit [] := by
  unfold jump queueDeadlines
  generalize hqueued : ({ w with clock := max w.clock time } : World).queueTimers.queueJobs = u
  have hu : u.turnQueue = { w.turnQueue with clock := max w.clock time } := by
    rw [← hqueued, (Queues.queueJobs _).turnQueue_eq, (Queues.queueTimers _).turnQueue_eq]
    rfl
  have hclock : u.clock = max w.clock time := congrArg TurnQueue.clock hu
  rw [turnQueue_wakeAll, hu]
  refine TurnQueue.NoLostWakeup.wakeAll (h.retime fun n v d hv hparked hdeadline hn => ?_)
  -- one that waits and is not woken has more time
  have hthere : u.turnQueue.states[n]? = some v := by
    rw [hu]
    exact hv
  rw [states_getElem?] at hthere
  obtain ⟨i, hi, rfl⟩ := Option.map_eq_some_iff.1 hthere
  by_contra hdue
  refine hn (List.mem_filterMap.2 ⟨(i, n), List.mem_zipIdx_iff_getElem?.2 hi, ?_⟩)
  have hwaits : i.isParked = true := hparked
  have hpassed : i.deadline = some d := hdeadline
  have hover : d ≤ u.clock := by
    rw [hclock]
    exact Nat.le_of_not_lt hdue
  simp [hwaits, isDue, hpassed, hover]

/-- Time passes, but not so much that anything is due. -/
theorem noLostWakeup_wait (h : w.turnQueue.NoLostWakeup limit [])
    (hquiet : ∀ due ∈ w.dueTimes, time < due) :
    ({ w with clock := max w.clock time } : World).turnQueue.NoLostWakeup limit [] := by
  refine h.retime fun n v d hv hparked hdeadline _ => ?_
  -- the deadline is among what is due, which is all later
  have hnow := TurnQueue.deadline_of_isStopping (h.awake n v hv hparked List.not_mem_nil) hdeadline
  have hthere : (w.instance? n).map Instance.turnState = some v :=
    (states_getElem? w n).symm.trans hv
  obtain ⟨i, hi, rfl⟩ := Option.map_eq_some_iff.1 hthere
  have hdue : d ∈ w.dueTimes := by
    refine List.mem_append_right _ (List.mem_filterMap.2 ⟨i, List.mem_of_getElem? hi, ?_⟩)
    have hwaits : i.isParked = true := hparked
    rw [if_pos hwaits]
    exact hdeadline
  exact Nat.max_lt.2 ⟨hnow, hquiet d hdue⟩

/-! ## Requests -/

/-- Instances are added that wait for their first turns. -/
def Adds (w v : World) : Prop :=
  ∃ added, v.turnQueue = { w.turnQueue with states := w.turnQueue.states ++ added } ∧
    ∀ u ∈ added, u.phase = .created ∧ u.isParked = false

theorem isStable_adds : IsStable (fun _ => True) Adds where
  nested _ _ _ _ := trivial
  refl w := ⟨[], by rw [List.append_nil], fun _ hu => absurd hu List.not_mem_nil⟩
  trans := by
    rintro w₁ w₂ w₃ ⟨added, hv, hnew⟩ ⟨more, hu, hnew'⟩
    refine ⟨added ++ more, ?_, fun u hin => ?_⟩
    · rw [hu, hv, List.append_assoc]
    · exact (List.mem_append.1 hin).elim (hnew u) (hnew' u)
  addInstance := by
    intro w w' g enclosing extent parent n h _
    unfold addInstance at h
    obtain ⟨memory, -, h⟩ := bind_eq_ok_iff.1 h
    obtain ⟨⟨memory', layers⟩, -, h⟩ := bind_eq_ok_iff.1 h
    cases h
    refine ⟨[⟨.created, false, false, false, parent, none⟩], ?_, fun u hu => ?_⟩
    · simp only [turnQueue, List.map_append]
      rfl
    · rw [List.mem_singleton.1 hu]
      exact ⟨rfl, rfl⟩
  setNested w n nested :=
    ⟨[], by rw [List.append_nil]; exact turnQueue_mapInstance_of_eq w n fun _ => rfl,
      fun _ hu => absurd hu List.not_mem_nil⟩

theorem turnQueue_register (w : World) (n : Nat) : (w.register n).turnQueue = w.turnQueue := by
  unfold register
  split
  · rfl
  · exact turnQueue_mapInstance_of_eq (f := fun i => { i with isRegistered := true }) w n
      fun _ => rfl

theorem turnQueue_adopt (w : World) (parent : Option Nat) (n : Nat) :
    (w.adopt parent n).turnQueue = w.turnQueue := by
  cases parent with
  | none => rfl
  | some p => exact turnQueue_mapInstance_of_eq w p fun _ => rfl

theorem turnQueue_start (w : World) (ns : List Nat) :
    (w.start ns).turnQueue = { w.turnQueue with turns := w.turnQueue.turns ++ ns } := by
  have henqueue : ∀ u : World, (ns.foldl (fun u n => u.enqueue (.turn n)) u).turnQueue =
      { u.turnQueue with turns := u.turnQueue.turns ++ ns } := by
    induction ns with
    | nil =>
        intro u
        rw [List.append_nil]
        rfl
    | cons n rest ih =>
        intro u
        have hfirst : (u.enqueue (.turn n)).turnQueue =
            { u.turnQueue with turns := u.turnQueue.turns ++ [n] } := by
          simp only [enqueue, turnQueue, List.filterMap_append]
          rfl
        rw [List.foldl_cons, ih, hfirst, List.append_assoc]
        rfl
  rw [start, henqueue, part_foldl turnQueue_register]

/-- What was built is started, whatever happens to it before that does not decide anything. -/
theorem noLostWakeup_start {built u : World} (h : w.turnQueue.NoLostWakeup limit [])
    (hbuilt : w.Adds built) (hu : u.turnQueue = built.turnQueue) :
    (u.start (built.builtSince w.instances.length)).turnQueue.NoLostWakeup limit [] := by
  obtain ⟨added, hadded, hnew⟩ := hbuilt
  have hbefore : w.turnQueue.states.length = w.instances.length := List.length_map _
  have hafter : built.instances.length = w.instances.length + added.length := by
    have hlength := congrArg (fun s : TurnQueue => s.states.length) hadded
    simpa only [turnQueue, List.length_map, List.length_append] using hlength
  -- the new ones are numbered on from the old ones
  have hns : built.builtSince w.instances.length =
      List.range' w.turnQueue.states.length added.length := by
    rw [builtSince, List.range_eq_range', List.drop_range', hafter, hbefore, Nat.zero_add,
      Nat.mul_one, Nat.add_sub_cancel_left]
  rw [turnQueue_start, hu, hadded, hns]
  exact h.found hnew

theorem noLostWakeup_cancel (h : w.turnQueue.NoLostWakeup limit []) (n : Nat) :
    (w.cancel n).turnQueue.NoLostWakeup limit [] := by
  have hmap := turnQueue_mapInstance (f := fun i => { i with isCancelled := true }) w n
    (g := fun v => { v with isCancelled := true }) fun _ => rfl
  rw [cancel, turnQueue_wake, hmap]
  exact (h.cancel n).wake

theorem noLostWakeup_shutDown (h : w.turnQueue.NoLostWakeup limit []) :
    w.shutDown.turnQueue.NoLostWakeup limit [] := by
  unfold shutDown
  split
  · exact h
  · exact List.foldlRecOn _ _ (motive := fun u : World => u.turnQueue.NoLostWakeup limit []) h
      fun u hu n _ => noLostWakeup_cancel hu n

theorem noLostWakeup_serve (h : w.turnQueue.NoLostWakeup limit []) (r : Request) :
    (w.serve r).turnQueue.NoLostWakeup limit [] := by
  cases r with
  | launch c =>
      simp only [serve]
      unfold launch
      split
      · exact h
      · split
        · exact h
        · simp only
          split
          · exact h
          · -- all machines of the collaboration are built first, then started together
            rename_i memory _ _ built _ hbuild
            have hadds := isStable_adds.buildAll hbuild fun _ _ => trivial
            exact noLostWakeup_start (w := { w with memory }) h hadds rfl
  | spawn g parent =>
      simp only [serve]
      unfold spawn
      split
      · exact h
      · simp only
        split
        · exact h
        · rename_i hbuild
          exact noLostWakeup_start h (isStable_adds.build hbuild trivial)
            (turnQueue_adopt _ parent _)
  | place g enclosing parent =>
      simp only [serve]
      unfold place
      split
      · exact h
      · rename_i hbuild
        exact noLostWakeup_start h (isStable_adds.build hbuild trivial) (turnQueue_adopt _ parent _)
  | offer p e => exact (Wakes.of_delivers (.offer w p e)).noLostWakeup h
  | send source e => exact (Wakes.of_delivers (.send w source e)).noLostWakeup h
  | cancel n => exact noLostWakeup_cancel h n
  | shutDown => exact noLostWakeup_shutDown h
  | write memory => exact h
  | respond id response => exact (Wakes.of_queues (.respond w id response)).noLostWakeup h

end Time

/-! ## Runs -/

/-- Runs in which the clock does not pass by what is due, and new instances are nested in instances
that are there. -/
inductive TimedRun (w₀ : World) : List Happening → World → Prop where
  | start : TimedRun w₀ [] w₀
  | ask {hs : List Happening} {w : World} {r : Request} :
      TimedRun w₀ hs w → w.Nests r → TimedRun w₀ (.asked r :: hs) (w.serve r)
  | go {hs : List Happening} {w w' : World} :
      TimedRun w₀ hs w → w.step? = some w' → TimedRun w₀ (w.happening?.toList ++ hs) w'
  | jump {hs : List Happening} {w : World} (time : Nat) :
      TimedRun w₀ hs w → TimedRun w₀ hs (w.jump time)
  | wait {hs : List Happening} {w : World} {time : Nat} :
      TimedRun w₀ hs w → (∀ due ∈ w.dueTimes, time < due) →
      TimedRun w₀ hs { w with clock := max w.clock time }

namespace TimedRun

variable {w₀ : World} {hs : List Happening}

theorem nestedRun (h : TimedRun w₀ hs w) : NestedRun w₀ hs w := by
  induction h with
  | start => exact .start
  | ask _ hnests ih =>
      refine ih.step (.ask _ _) fun r hr => ?_
      cases hr
      exact hnests
  | go _ hgo ih => exact ih.step (.go hgo) fun r hr => absurd hr (happening?_ne_asked _ r)
  | jump time _ ih => exact ih.step (.jump _ time) fun r hr => by cases hr
  | @wait hs w time _ _ ih => exact ih.step (.wait w time) fun r hr => by cases hr

/-! ### The virtual clock -/

theorem trace (h : TimedRun w₀ hs w) (fuel : Nat) :
    TimedRun w₀ ((World.trace fuel w).1 ++ hs) (World.trace fuel w).2 := by
  induction fuel generalizing w hs with
  | zero => exact h
  | succ fuel ih =>
      simp only [World.trace]
      split
      · rename_i v hgo
        rw [List.append_assoc]
        exact ih (h.go hgo)
      · exact h

theorem settle (h : TimedRun w₀ hs w) (fuel : Nat) :
    ∃ newer, TimedRun w₀ (newer ++ hs) (World.settle fuel w) :=
  ⟨_, trace_eq_settle fuel w ▸ h.trace fuel⟩

theorem runUntil (h : TimedRun w₀ hs w) (fuel jumps target : Nat) :
    ∃ newer, TimedRun w₀ (newer ++ hs) (World.runUntil fuel jumps target w) := by
  induction jumps generalizing w hs with
  | zero => exact ⟨[], h⟩
  | succ jumps ih =>
      -- the clock goes to what is due next, or to the target if that is earlier
      obtain ⟨newer, hsettled⟩ := h.settle fuel
      simp only [World.runUntil]
      cases hdue : (World.settle fuel w).nextDue? with
      | none => exact ⟨newer, hsettled.wait (lt_of_nextDue?_none hdue)⟩
      | some due =>
          simp only
          split
          · obtain ⟨later, hlater⟩ := ih (hsettled.jump due)
            exact ⟨later ++ newer, by rw [List.append_assoc]; exact hlater⟩
          · rename_i hlate
            exact ⟨newer, hsettled.wait (lt_of_nextDue? hdue (Nat.lt_of_not_le hlate))⟩

/-- Letting time pass is such a run. -/
theorem advance (h : TimedRun w₀ hs w) (fuel nanos : Nat) :
    ∃ newer, TimedRun w₀ (newer ++ hs) (w.advance fuel nanos) :=
  h.runUntil fuel fuel (w.clock + nanos)

theorem awaitUntil (h : TimedRun w₀ hs w) (fuel jumps : Nat) (target : Option Nat) :
    ∃ newer, TimedRun w₀ (newer ++ hs) (World.awaitUntil fuel jumps target w).1 := by
  induction jumps generalizing w hs with
  | zero => exact ⟨[], h⟩
  | succ jumps ih =>
      obtain ⟨newer, hsettled⟩ := h.settle fuel
      simp only [World.awaitUntil]
      split
      · exact ⟨newer, hsettled⟩
      · cases hdue : (World.settle fuel w).nextDue? with
        | none => exact ⟨newer, hsettled.wait (lt_of_nextDue?_none hdue)⟩
        | some due =>
            simp only
            split
            · obtain ⟨later, hlater⟩ := ih (hsettled.jump due)
              exact ⟨later ++ newer, by rw [List.append_assoc]; exact hlater⟩
            · rename_i hlate
              cases target with
              | none => exact absurd rfl hlate
              | some t =>
                  have hquiet : t < due := by simpa using hlate
                  exact ⟨newer, hsettled.wait (lt_of_nextDue? hdue hquiet)⟩

/-- So is waiting for the last instance. -/
theorem await (h : TimedRun w₀ hs w) (fuel : Nat) (nanos : Option Nat) :
    ∃ newer, TimedRun w₀ (newer ++ hs) (w.await fuel nanos).1 :=
  h.awaitUntil fuel fuel (nanos.map fun n => w.clock + n)

/-! ### Nobody waits in vain -/

theorem noLostWakeup {limit : Option Nat} (h : TimedRun w₀ hs w)
    (hw₀ : w₀.turnQueue.NoLostWakeup limit []) : w.turnQueue.NoLostWakeup limit [] := by
  induction h with
  | start => exact hw₀
  | ask _ _ ih => exact noLostWakeup_serve ih _
  | go _ hgo ih => exact noLostWakeup_step? ih hgo
  | jump time _ ih => exact noLostWakeup_jump ih time
  | wait _ hquiet ih => exact noLostWakeup_wait ih hquiet

end TimedRun

section Engines

variable {memory : Memory} {root : LayerId} {c : Configuration} {services : Registry Float}
  {choices : Choices} {hs : List Happening}

end Engines

/-! ### Instances with a deadline -/

end World

end Statechart
