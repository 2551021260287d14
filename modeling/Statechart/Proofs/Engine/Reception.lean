import Statechart.Proofs.Engine.Reach

/-!
# Instances that only receive

While it is not its turn, an instance gets events at the end of its inbox if it takes any, and may
be asked to stop. Nothing else that decides about its turns happens to it, whatever the engine does
for others, and its variables stay where they are.

- `Instance.placement`       : where the variables of an instance are
- `Instance.Receives`        : an instance before and after
- `World.Lasts`              : the clock, and where the persistent variables are
- `World.Receives`           : the instance of a number, and its turn
- `Receives.of_delivers`, `Receives.of_passes`, `Receives.of_performs` : what others do
- `Receives.serve`           : what is asked for
- `Receives.finish`          : the end of an instance, which the others learn of
-/

namespace Statechart

/-- Where the variables of an instance are, and whom it is nested in. -/
structure Placement where
  graph : Graph
  parent : Option Nat
  extent : Extent
  locals : LayerId
  stateLayers : List (String × LayerId)

def Instance.placement (i : Instance) : Placement :=
  ⟨i.graph, i.parent, i.extent, i.locals, i.stateLayers⟩

/-- Events came in, if it takes any, and it may have been asked to stop. -/
structure Instance.Receives (i j : Instance) : Prop where
  inbox : ∃ es, j.inbox = i.inbox ++ es ∧ (i.isOpen = false → es = [])
  active : j.active = i.active
  phase : j.phase = i.phase
  placement : j.placement = i.placement
  deadline : j.deadline = i.deadline
  isCancelled : i.isCancelled = true → j.isCancelled = true

namespace Instance.Receives

variable {i j k : Instance}

/-- No event came in, and nothing is different that decides about turns. -/
theorem of_eq (hinbox : j.inbox = i.inbox) (hturnState : j.active = i.active ∧ j.phase = i.phase ∧
    j.placement = i.placement ∧ j.deadline = i.deadline)
    (hcancelled : i.isCancelled = true → j.isCancelled = true) : i.Receives j :=
  ⟨⟨[], by rw [hinbox, List.append_nil], fun _ => rfl⟩, hturnState.1, hturnState.2.1,
    hturnState.2.2.1, hturnState.2.2.2, hcancelled⟩

theorem refl (i : Instance) : i.Receives i := of_eq rfl ⟨rfl, rfl, rfl, rfl⟩ id

theorem isOpen_eq (h : i.Receives j) : j.isOpen = i.isOpen := by
  rw [isOpen, h.phase, isOpen]

theorem trans (h : i.Receives j) (h' : j.Receives k) : i.Receives k := by
  obtain ⟨es, hes, hnone⟩ := h.inbox
  obtain ⟨fs, hfs, hnone'⟩ := h'.inbox
  refine ⟨⟨es ++ fs, ?_, fun hclosed => ?_⟩, h'.active.trans h.active, h'.phase.trans h.phase,
    h'.placement.trans h.placement, h'.deadline.trans h.deadline,
    fun hcancelled => h'.isCancelled (h.isCancelled hcancelled)⟩
  · rw [hfs, hes, List.append_assoc]
  · rw [hnone hclosed, hnone' (h.isOpen_eq.trans hclosed), List.append_nil]

end Instance.Receives

namespace World

variable {w v u : World} {n : Nat}

/-- What is left of the turn of an instance, if it has one. -/
def agenda? (w : World) (n : Nat) : Option (List Command) :=
  w.current.bind fun t => if t.number = n then some t.work else none

theorem agenda?_of_ne {t : Turn} (hcurrent : w.current = some t) (hn : t.number ≠ n) :
    w.agenda? n = none := by
  rw [agenda?, hcurrent, Option.bind_some, if_neg hn]

theorem agenda?_of_eq {t : Turn} (hcurrent : w.current = some t) (hn : t.number = n) :
    w.agenda? n = some t.work := by
  rw [agenda?, hcurrent, Option.bind_some, if_pos hn]

theorem agenda?_of_none (hcurrent : w.current = none) : w.agenda? n = none := by
  rw [agenda?, hcurrent, Option.bind_none]

/-- The clock does not go back, and the persistent variables stay where they are. -/
def Lasts (w v : World) : Prop :=
  w.clock ≤ v.clock ∧ v.root = w.root

namespace Lasts

theorem clock (h : w.Lasts v) : w.clock ≤ v.clock := h.1

theorem root (h : w.Lasts v) : v.root = w.root := h.2

theorem refl (w : World) : w.Lasts w := ⟨Nat.le_refl _, rfl⟩

theorem trans (h : w.Lasts v) (h' : v.Lasts u) : w.Lasts u :=
  ⟨Nat.le_trans h.clock h'.clock, h'.root.trans h.root⟩

end Lasts

/-- The instance of a number only receives, and its turn is what it was. If there was no such
instance, it is a new one. -/
structure Receives (n : Nat) (w v : World) : Prop where
  agenda : v.agenda? n = w.agenda? n
  lasts : w.Lasts v
  kept : ∀ i, w.instance? n = some i → ∃ j, v.instance? n = some j ∧ i.Receives j
  joined : w.instance? n = none → ∀ j, v.instance? n = some j →
    j.phase = .created ∧ j.deadline = none

namespace Receives

/-- Whatever happens that has nothing to do with instances. -/
theorem of_eq (hinstances : v.instances = w.instances) (hagenda : v.agenda? n = w.agenda? n)
    (hlasts : w.Lasts v) : Receives n w v := by
  have hsame : v.instance? n = w.instance? n := by rw [instance?, hinstances, instance?]
  refine ⟨hagenda, hlasts, fun i hi => ⟨i, hsame.trans hi, .refl i⟩, fun hnone j hj => ?_⟩
  cases (hsame.trans hnone).symm.trans hj

theorem refl (n : Nat) (w : World) : Receives n w w := of_eq rfl rfl ⟨Nat.le_refl _, rfl⟩

theorem trans (h : Receives n w v) (h' : Receives n v u) : Receives n w u := by
  refine ⟨h'.agenda.trans h.agenda, h.lasts.trans h'.lasts, fun i hi => ?_,
    fun hnone k hk => ?_⟩
  · obtain ⟨j, hj, hij⟩ := h.kept i hi
    obtain ⟨k, hk, hjk⟩ := h'.kept j hj
    exact ⟨k, hk, hij.trans hjk⟩
  · cases hv : v.instance? n with
    | none => exact h'.joined hv k hk
    | some j =>
        -- an instance that is new stays so as long as it only receives
        obtain ⟨k', hk', hjk⟩ := h'.kept j hv
        obtain rfl := Option.some.inj (hk.symm.trans hk')
        obtain ⟨hphase, hdeadline⟩ := h.joined hnone j hv
        exact ⟨hjk.phase.trans hphase, hjk.deadline.trans hdeadline⟩

theorem foldl {α : Type} {f : World → α → World} (h : ∀ u a, Receives n u (f u a)) (w : World)
    (as : List α) : Receives n w (as.foldl f w) := by
  induction as generalizing w with
  | nil => exact refl n w
  | cons a rest ih => exact (h w a).trans (ih (f w a))

theorem of_writes (h : w.Writes v) : Receives n w v := by
  obtain ⟨memory, log, -, rfl⟩ := h
  exact of_eq rfl rfl ⟨Nat.le_refl _, rfl⟩

theorem mapInstance {m : Nat} {f : Instance → Instance}
    (h : m = n → ∀ i, w.instance? n = some i → i.Receives (f i)) :
    Receives n w (w.mapInstance m f) := by
  refine ⟨rfl, ⟨Nat.le_refl _, rfl⟩, fun i hi => ?_, fun hnone j hj => ?_⟩
  · rw [instance?_mapInstance, hi]
    by_cases hm : m = n
    · rw [if_pos hm]
      exact ⟨f i, rfl, h hm i hi⟩
    · rw [if_neg hm]
      exact ⟨i, rfl, .refl i⟩
  · rw [instance?_mapInstance, hnone] at hj
    split at hj <;> cases hj

/-- Something happens to another instance. -/
theorem mapInstance_of_ne {m : Nat} (f : Instance → Instance) (hm : m ≠ n) :
    Receives n w (w.mapInstance m f) :=
  mapInstance fun heq => absurd heq hm

/-- It is somebody else's turn now. -/
theorem withTurn {t : Turn} (h : Receives n w v) (hbefore : w.agenda? n = none)
    (hn : t.number ≠ n) : Receives n w { v with current := some t } :=
  ⟨(agenda?_of_ne rfl hn).trans hbefore.symm, h.lasts, h.kept, h.joined⟩

/-- It is nobody's turn now. -/
theorem endTurn (h : Receives n w v) (hbefore : w.agenda? n = none) :
    Receives n w { v with current := none } :=
  ⟨(agenda?_of_none rfl).trans hbefore.symm, h.lasts, h.kept, h.joined⟩

/-- Whose turn it is does not matter. -/
theorem inTurn (h : Receives n w v) (current : Option Turn) :
    Receives n { w with current } { v with current } :=
  ⟨rfl, h.lasts, h.kept, h.joined⟩

theorem remark (w : World) (r : Remark) : Receives n w (w.remark r) :=
  of_eq rfl rfl ⟨Nat.le_refl _, rfl⟩

/-! ### Events -/

theorem enqueue (w : World) (t : Task) : Receives n w (w.enqueue t) :=
  of_eq rfl rfl ⟨Nat.le_refl _, rfl⟩

theorem wake (w : World) (m : Nat) : Receives n w (w.wake m) := by
  unfold World.wake
  split
  · split
    · have hmap : Receives n w (w.mapInstance m fun i => { i with isParked := false }) :=
        mapInstance fun _ i _ => .of_eq rfl ⟨rfl, rfl, rfl, rfl⟩ id
      exact hmap.trans (enqueue _ _)
    · exact refl n w
  · exact refl n w

theorem post (e : Event) {m : Nat} (hopen : w.isOpenAt m = true) :
    Receives n w (w.mapInstance m fun i => { i with inbox := i.inbox ++ [e] }) := by
  refine mapInstance fun hm i hi => ?_
  subst hm
  refine ⟨⟨[e], rfl, fun hclosed => ?_⟩, rfl, rfl, rfl, rfl, id⟩
  -- nothing is posted to whoever takes no events
  rw [isOpenAt_of_instance? hi, hclosed] at hopen
  cases hopen

theorem of_delivers {s : List Sighting} (h : w.Delivers s v) : Receives n w v := by
  induction h with
  | refl => exact refl n w
  | post e m _ hopen ih => exact ih.trans (post e hopen)
  | wake m _ ih => exact ih.trans (wake _ m)
  | receive receipts _ ih => exact ih.trans (of_eq rfl rfl ⟨Nat.le_refl _, rfl⟩)
  | publish source e _ ih => exact ih.trans (of_eq rfl rfl ⟨Nat.le_refl _, rfl⟩)
  | say log _ ih => exact ih.trans (of_eq rfl rfl ⟨Nat.le_refl _, rfl⟩)

/-! ### Actions, timers and invocations -/

theorem of_queues (h : w.Queues v) : Receives n w v := by
  obtain ⟨timers, jobs, ready, rfl, -⟩ := h
  exact of_eq rfl rfl ⟨Nat.le_refl _, rfl⟩

theorem of_passes {s : List Sighting} (h : w.Passes s v) : Receives n w v := by
  induction h with
  | refl => exact refl n w
  | writes _ hwrites ih => exact ih.trans (of_writes hwrites)
  | delivers _ hdelivers ih => exact ih.trans (of_delivers hdelivers)
  | queues _ hqueues ih => exact ih.trans (of_queues hqueues)

theorem of_performs {site : Site} {action : Action} {outcome : Except EngineFault (List Action)}
    (h : w.Performs site action outcome v) : Receives n w v := by
  cases h with
  | writes hwrites _ _ => exact of_writes hwrites
  | raises hdelivers => exact of_delivers hdelivers
  | draws => exact of_eq rfl rfl ⟨Nat.le_refl _, rfl⟩
  | begins => exact of_eq rfl rfl ⟨Nat.le_refl _, rfl⟩
  | stops _ => exact of_eq rfl rfl ⟨Nat.le_refl _, rfl⟩

theorem execute (w : World) (site : Site) (action : Action) :
    Receives n w (worldActor.execute w site action).1 := by
  obtain ⟨told, htold⟩ := exists_remarks_execute w site action
  rw [htold]
  exact (of_performs (performs rfl)).trans (of_writes (.remarks _ told))

theorem runJob (w : World) (id : Nat) : Receives n w (w.runJob id) := by
  rcases runJob_cases w id with hqueues | ⟨job, _, _, _, _, hpasses⟩
  · exact of_queues hqueues
  · have hlisted : Receives n w { w with jobs := w.jobs.filter fun j => j.id != job.id } :=
      of_eq rfl rfl ⟨Nat.le_refl _, rfl⟩
    exact hlisted.trans (of_passes hpasses)

/-! ### Time -/

theorem jump (w : World) (time : Nat) : Receives n w (w.jump time) := by
  have hclock : Receives n w { w with clock := max w.clock time } :=
    of_eq rfl rfl ⟨Nat.le_max_left _ _, rfl⟩
  exact hclock.trans (of_passes (.jump w time))

theorem wait (w : World) (time : Nat) : Receives n w { w with clock := max w.clock time } :=
  of_eq rfl rfl ⟨Nat.le_max_left _ _, rfl⟩

/-! ### Requests -/

theorem isStable (n : Nat) : IsStable (fun _ => True) (Receives n) where
  nested _ _ _ _ := trivial
  refl := refl n
  trans := trans
  addInstance := by
    intro w w' g enclosing extent parent m h _
    unfold addInstance at h
    obtain ⟨memory, -, h⟩ := bind_eq_ok_iff.1 h
    obtain ⟨⟨memory', layers⟩, -, h⟩ := bind_eq_ok_iff.1 h
    cases h
    refine ⟨rfl, ⟨Nat.le_refl _, rfl⟩, fun i hi => ⟨i, ?_, .refl i⟩, fun hnone j hj => ?_⟩
    · exact (List.getElem?_append_left (List.getElem?_eq_some_iff.1 hi).1).trans hi
    · -- the only instance that is there now and was not before is the one that was built
      have hlt : w.instances.length ≤ n := List.getElem?_eq_none_iff.1 hnone
      rw [instance?, List.getElem?_append_right hlt, List.getElem?_singleton] at hj
      split at hj
      · cases hj
        exact ⟨rfl, rfl⟩
      · cases hj
  setNested w m nested := mapInstance fun _ i _ => .of_eq rfl ⟨rfl, rfl, rfl, rfl⟩ id

theorem register (w : World) (m : Nat) : Receives n w (w.register m) := by
  unfold World.register
  split
  · exact refl n w
  · have hmap : Receives n w (w.mapInstance m fun i => { i with isRegistered := true }) :=
      mapInstance fun _ i _ => .of_eq rfl ⟨rfl, rfl, rfl, rfl⟩ id
    exact hmap.trans (of_eq rfl rfl ⟨Nat.le_refl _, rfl⟩)

theorem start (w : World) (ns : List Nat) : Receives n w (w.start ns) :=
  (foldl register w ns).trans (foldl (fun u m => enqueue u (.turn m)) _ ns)

theorem adopt (w : World) (parent : Option Nat) (m : Nat) : Receives n w (w.adopt parent m) := by
  cases parent with
  | none => exact refl n w
  | some p => exact mapInstance fun _ i _ => .of_eq rfl ⟨rfl, rfl, rfl, rfl⟩ id

theorem cancel (w : World) (m : Nat) : Receives n w (w.cancel m) := by
  have hmap : Receives n w (w.mapInstance m fun i => { i with isCancelled := true }) :=
    mapInstance fun _ i _ => .of_eq rfl ⟨rfl, rfl, rfl, rfl⟩ fun _ => rfl
  exact hmap.trans (wake _ m)

theorem shutDown (w : World) : Receives n w w.shutDown := by
  unfold World.shutDown
  split
  · exact refl n w
  · have htold : Receives n w (({ w with isShutDown := true } : World).remark ⟨.notice, none,
        "Shutting down runtime, cancelling " ++ toString w.registered.length ++ " instances"⟩) :=
      of_eq rfl rfl ⟨Nat.le_refl _, rfl⟩
    exact htold.trans (foldl cancel _ _)

theorem serve (w : World) (r : Request) : Receives n w (w.serve r) := by
  have hstarted : ∀ {built : World} {g : Graph} {enclosing : Extent} {parent : Option Nat} {m : Nat}
      (ns : List Nat), build w enclosing parent g = .ok (built, m) →
      Receives n w ((built.adopt parent m).start ns) := fun ns hbuild =>
    (((isStable n).build hbuild trivial).trans (adopt _ _ _)).trans (start _ ns)
  cases r with
  | launch c =>
      simp only [World.serve]
      unfold launch
      split
      · exact refl n w
      · split
        · exact of_eq rfl rfl ⟨Nat.le_refl _, rfl⟩
        · rename_i memory _
          have hmemory : Receives n w { w with memory } := of_eq rfl rfl ⟨Nat.le_refl _, rfl⟩
          simp only
          split
          · exact hmemory
          · rename_i built _ hbuild
            have hbuilt := hmemory.trans ((isStable n).buildAll hbuild fun _ _ => trivial)
            exact (hbuilt.trans (remark _ _)).trans (start _ _)
  | spawn g parent =>
      simp only [World.serve]
      unfold spawn
      split
      · exact refl n w
      · simp only
        split
        · exact refl n w
        · rename_i hbuild
          exact hstarted _ hbuild
  | place g enclosing parent =>
      simp only [World.serve]
      unfold place
      split
      · exact refl n w
      · rename_i hbuild
        exact hstarted _ hbuild
  | offer p e => exact of_delivers (.offer w p e)
  | send source e => exact of_delivers (.send w source e)
  | cancel m => exact cancel w m
  | shutDown => exact shutDown w
  | write memory => exact of_eq rfl rfl ⟨Nat.le_refl _, rfl⟩
  | respond id response => exact of_queues (.respond w id response)

/-! ### Ends -/

/-- When an instance has ended, all others only receive from there on. -/
theorem afterFinish {m : Nat} {i : Instance} (hi : w.instance? m = some i)
    (result : Except EngineFault Outcome) :
    Receives n { w.mapInstance m (fun i =>
      { i with phase := .ended, isParked := false, isRegistered := false }) with current := none }
      (w.finish m result) := by
  simp only [World.finish, hi]
  generalize hended : (((w.remark (endRemark m result)).stopTimers (.numbered m)).cancelTasks
    (.numbered m)).mapInstance m (fun i =>
      { i with phase := .ended, isParked := false, isRegistered := false }) = u
  have hsame : Receives n { w.mapInstance m (fun i =>
      { i with phase := .ended, isParked := false, isRegistered := false }) with current := none }
      { u with current := none } := by
    rw [← hended]
    exact of_eq rfl rfl ⟨Nat.le_refl _, rfl⟩
  have hwoken := foldl (n := n) (fun u k => wake u k) u (u.children m)
  exact (hsame.trans (hwoken.inTurn none)).trans (of_eq rfl rfl ⟨Nat.le_refl _, rfl⟩)

/-- Another instance ends. -/
theorem finish {m : Nat} (hbefore : w.agenda? n = none) (hm : m ≠ n)
    (result : Except EngineFault Outcome) : Receives n w (w.finish m result) := by
  cases hi : w.instance? m with
  | none =>
      simp only [World.finish, hi]
      exact refl n w
  | some i =>
      have hended := mapInstance_of_ne (w := w) (fun i =>
        { i with phase := .ended, isParked := false, isRegistered := false }) hm
      exact (hended.endTurn hbefore).trans
        (afterFinish hi result)

end Receives

end World

end Statechart
