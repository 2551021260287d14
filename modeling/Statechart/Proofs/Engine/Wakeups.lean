import Statechart.Proofs.Engine.TurnQueue
import Statechart.Proofs.Engine.Turns

/-!
# Turns and who they wake

Events, actions, timers and invocations wake instances at most. In its turn an instance goes from
state to state, waits when there is no reason to stop, or ends and wakes those nested in it.

- `World.turnQueue`           : all instances, whose turn it is, and the clock
- `World.Wakes`               : some instances were woken, and nothing else happened to any
- `Works.noLostWakeup`, `Closes.noLostWakeup` : the parts of a turn
- `World.noLostWakeup_step?`  : nobody waits in vain after a step of an engine
-/

namespace Statechart

def Instance.turnState (i : Instance) : TurnState :=
  ⟨i.phase, i.isParked, i.isCancelled, i.active.any (·.isTerminal), i.parent, i.deadline⟩

namespace World

variable {w v : World}

def turnQueue (w : World) : TurnQueue :=
  { states := w.instances.map Instance.turnState
    turns := w.ready.filterMap Task.turn?
    current := w.current.map (·.number)
    clock := w.clock
    limit := w.deadline }

theorem states_getElem? (w : World) (n : Nat) :
    w.turnQueue.states[n]? = (w.instance? n).map Instance.turnState := by
  simp [turnQueue, instance?]

theorem isStopping_turnState (w : World) (i : Instance) :
    w.turnQueue.isStopping i.turnState = (w.stopReason? i).isSome := by
  have hparent : i.parent.any w.turnQueue.hasEnded = w.hasParentEnded i := by
    unfold hasParentEnded
    cases hp : i.parent with
    | none => rfl
    | some p =>
        rw [Option.any_some, TurnQueue.hasEnded, states_getElem?, Option.bind_some]
        cases w.instance? p <;> rfl
  have hreasons : w.turnQueue.isStopping i.turnState =
      (i.active.any (·.isTerminal) || i.isCancelled || w.hasParentEnded i ||
        i.deadline.any fun d => decide (d ≤ w.clock)) := by
    rw [← hparent]
    rfl
  rw [hreasons, stopReason?]
  -- only the first reason that holds is given, but any of them is enough
  cases i.active.any (·.isTerminal) <;> cases i.isCancelled <;> cases w.hasParentEnded i <;>
    cases i.deadline.any (fun d => decide (d ≤ w.clock)) <;> rfl

theorem turnQueue_mapInstance {f : Instance → Instance} {g : TurnState → TurnState} (w : World)
    (n : Nat) (h : ∀ i, (f i).turnState = g i.turnState) :
    (w.mapInstance n f).turnQueue = w.turnQueue.modify n g :=
  congrArg (fun states => { w.turnQueue with states }) (map_modify w.instances n h)

/-- Something happens to an instance that does not decide whether it goes on. -/
theorem turnQueue_mapInstance_of_eq {f : Instance → Instance} (w : World) (n : Nat)
    (h : ∀ i, (f i).turnState = i.turnState) : (w.mapInstance n f).turnQueue = w.turnQueue := by
  rw [turnQueue_mapInstance w n (g := id) h, TurnQueue.modify, List.modify_id]

theorem turnQueue_wake (w : World) (n : Nat) : (w.wake n).turnQueue = w.turnQueue.wake n := by
  unfold wake TurnQueue.wake
  rw [states_getElem?, Option.any_map]
  cases hi : w.instance? n with
  | none => rfl
  | some i =>
      have hparked : i.turnState.isParked = i.isParked := rfl
      simp only [Option.any_some, hparked]
      by_cases hwaits : i.isParked = true
      · have hmap := turnQueue_mapInstance (f := fun i => { i with isParked := false }) w n
          (g := fun v => { v with isParked := false }) fun _ => rfl
        rw [if_pos hwaits, if_pos hwaits, ← hmap]
        simp only [turnQueue, enqueue, mapInstance, List.filterMap_append]
        rfl
      · rw [if_neg hwaits, if_neg hwaits]

theorem turnQueue_wakeAll (w : World) (ns : List Nat) :
    (ns.foldl wake w).turnQueue = w.turnQueue.wakeAll ns := by
  induction ns generalizing w with
  | nil => rfl
  | cons n rest ih =>
      rw [List.foldl_cons, ih, turnQueue_wake]
      rfl

theorem Writes.turnQueue_eq (h : w.Writes v) : v.turnQueue = w.turnQueue := by
  obtain ⟨memory, log, -, rfl⟩ := h
  rfl

/-- Tasks of timers and invocations are no turns. -/
theorem Queues.turnQueue_eq (h : w.Queues v) : v.turnQueue = w.turnQueue := by
  obtain ⟨timers, jobs, ready, rfl, -, -, hready⟩ := h
  exact congrArg (fun turns => { w.turnQueue with turns }) hready

theorem Arms.turnQueue_eq {site : Site} (h : Arms site w v) : v.turnQueue = w.turnQueue := by
  obtain ⟨added, fresh, rfl, -⟩ := h
  have hnone : (added.map fun t => Task.timer t.id).filterMap Task.turn? = [] := by
    simp [Task.turn?]
  simp only [turnQueue, List.filterMap_append, hnone, List.append_nil]

/-! ## Being woken -/

/-- Some instances were woken, and nothing else happened to any. -/
def Wakes (w v : World) : Prop := ∃ ns, v.turnQueue = w.turnQueue.wakeAll ns

namespace Wakes

theorem of_eq (h : v.turnQueue = w.turnQueue) : w.Wakes v := ⟨[], h⟩

theorem refl (w : World) : w.Wakes w := of_eq rfl

theorem of_writes (h : w.Writes v) : w.Wakes v := of_eq h.turnQueue_eq

theorem of_queues (h : w.Queues v) : w.Wakes v := of_eq h.turnQueue_eq

theorem trans {u : World} (h : w.Wakes v) (h' : v.Wakes u) : w.Wakes u := by
  obtain ⟨ns, hv⟩ := h
  obtain ⟨ms, hu⟩ := h'
  exact ⟨ns ++ ms, by rw [hu, hv, TurnQueue.wakeAll_append]⟩

theorem wake (w : World) (n : Nat) : w.Wakes (w.wake n) := ⟨[n], turnQueue_wake w n⟩

theorem of_delivers {s : List Sighting} (h : w.Delivers s v) : w.Wakes v := by
  induction h with
  | refl => exact refl w
  | post e n _ _ ih => exact ih.trans (of_eq (turnQueue_mapInstance_of_eq _ n fun _ => rfl))
  | wake n _ ih => exact ih.trans (wake _ n)
  | receive receipts _ ih => exact ih.trans (of_eq rfl)
  | publish source e _ ih => exact ih.trans (of_eq rfl)
  | say log _ ih => exact ih.trans (of_eq rfl)

theorem of_passes {s : List Sighting} (h : w.Passes s v) : w.Wakes v := by
  induction h with
  | refl => exact refl w
  | writes _ hwrites ih => exact ih.trans (of_writes hwrites)
  | delivers _ hdelivers ih => exact ih.trans (of_delivers hdelivers)
  | queues _ hqueues ih => exact ih.trans (of_queues hqueues)

/-- An invocation that begins is queued, which is no turn. -/
theorem startJob (w : World) (site : Site) (call : Invocation) (input : List (String × Value))
    (service : Service Float) : w.Wakes (w.startJob site call input service) := by
  refine of_eq ?_
  simp only [World.startJob, enqueue, turnQueue, List.filterMap_append]
  simp [Task.turn?]

theorem of_performs {site : Site} {action : Action} {outcome : Except EngineFault (List Action)}
    (h : w.Performs site action outcome v) : w.Wakes v := by
  cases h with
  | writes hwrites _ _ => exact of_writes hwrites
  | raises hdelivers => exact of_delivers hdelivers
  | draws => exact of_eq rfl
  | begins => exact trans (of_eq rfl) (startJob { w with drawn := w.drawn + 1 } site _ _ _)
  | stops _ => exact of_eq rfl

theorem execute (w : World) (site : Site) (action : Action) :
    w.Wakes (worldActor.execute w site action).1 := by
  obtain ⟨told, htold⟩ := exists_remarks_execute w site action
  rw [htold]
  exact (of_performs (performs rfl)).trans (of_writes (.remarks _ told))

theorem runJob (w : World) (id : Nat) : w.Wakes (w.runJob id) := by
  rcases runJob_cases w id with hqueues | ⟨job, _, _, _, _, hpasses⟩
  · exact of_queues hqueues
  · have hlisted : w.Wakes { w with jobs := w.jobs.filter fun j => j.id != job.id } := of_eq rfl
    exact hlisted.trans (of_passes hpasses)

theorem noLostWakeup {limit : Option Nat} (h : w.Wakes v)
    (hw : w.turnQueue.NoLostWakeup limit []) : v.turnQueue.NoLostWakeup limit [] := by
  obtain ⟨ns, hv⟩ := h
  exact hv ▸ hw.wakeMore ns

end Wakes

/-! ## Turns -/

/-- The queue as it is while it is the turn of an instance. -/
def queueInTurn (w : World) (n : Nat) : TurnQueue := { w.turnQueue with current := some n }

theorem queueInTurn_eq {n : Nat} (h : w.turnQueue.current = some n) :
    w.queueInTurn n = w.turnQueue := by
  rw [queueInTurn, ← h]

section Turns

variable {limit : Option Nat} {n : Nat}

theorem Wakes.inTurn (h : w.Wakes v) (hw : (w.queueInTurn n).NoLostWakeup limit []) :
    (v.queueInTurn n).NoLostWakeup limit [] := by
  obtain ⟨ns, hv⟩ := h
  rw [queueInTurn, hv, ← TurnQueue.wakeAll_withCurrent]
  exact hw.wakeMore ns

/-- A step between states makes a state the active one, if it does anything. -/
theorem executeMove_turnQueue (w : World) (n : Nat) (step : Move) :
    ((instanceMachine n).executeMove w step).1.turnQueue = w.turnQueue ∨
      ∃ isOver, ((instanceMachine n).executeMove w step).1.turnQueue =
        w.turnQueue.modify n fun v => { v with isOver } := by
  rcases executeMove_cases w n step with hmove | ⟨left, -, hmove⟩ | ⟨state, u, hu, hmoved⟩
  · exact .inl (congrArg turnQueue hmove)
  · -- timers and tasks are not what decides
    have hstopped : ((w.stopTimers (.numbered n)).cancelTasks (.numbered n)).turnQueue =
      w.turnQueue := rfl
    exact .inl ((congrArg turnQueue hmove).trans hstopped)
  · have hstarted : u.turnQueue = w.turnQueue :=
      hu ▸ (Arms.startTimers _ w state.after).turnQueue_eq
    rcases hmoved with hmove | ⟨told, hmove⟩
    · exact .inl ((congrArg turnQueue hmove).trans hstarted)
    · refine .inr ⟨state.isTerminal, (congrArg turnQueue hmove).trans ?_⟩
      have hactive := turnQueue_mapInstance (f := fun i => { i with active := some state }) u n
        (g := fun v => { v with isOver := state.isTerminal }) fun _ => rfl
      rw [hstarted] at hactive
      exact hactive

/-- What an instance does in its turn keeps nobody waiting who should not. -/
theorem Works.noLostWakeup {work : List Command} (h : Works n work w v)
    (hw : (w.queueInTurn n).NoLostWakeup limit []) :
    (v.queueInTurn n).NoLostWakeup limit [] := by
  induction h with
  | rest _ => exact hw
  | act _ => exact (Wakes.execute w _ _).inTurn hw
  | @move step _ _ =>
      rcases executeMove_turnQueue w n step with hsame | ⟨isOver, hentered⟩
      · rw [queueInTurn, hsame]
        exact hw
      · rw [queueInTurn, hentered]
        exact hw.enter rfl isOver
  | @take _ e events _ _ _ =>
      have hinbox : w.Wakes (w.mapInstance n fun i => { i with inbox := events }) :=
        .of_eq (turnQueue_mapInstance_of_eq w n fun _ => rfl)
      exact (hinbox.trans (.of_writes (.react _ n e))).inTurn hw
  | tell told _ ih => exact (Wakes.of_writes (.remarks _ told)).inTurn ih

theorem mem_children {m : Nat} :
    m ∈ w.children n ↔ ∃ v, w.turnQueue.states[m]? = some v ∧ v.parent = some n := by
  simp only [children, List.mem_filterMap, Prod.exists, List.mem_zipIdx_iff_getElem?,
    states_getElem?, Option.map_eq_some_iff, instance?]
  constructor
  · rintro ⟨i, k, hi, hk⟩
    split at hk
    · rename_i hparent
      cases hk
      exact ⟨i.turnState, ⟨i, hi, rfl⟩, hparent⟩
    · cases hk
  · rintro ⟨v, ⟨i, hi, rfl⟩, hparent⟩
    have hnested : i.parent = some n := hparent
    exact ⟨i, m, hi, if_pos hnested⟩

/-- An instance ends in its turn, and those nested in it are woken. -/
theorem noLostWakeup_finish (h : (w.queueInTurn n).NoLostWakeup limit [])
    (result : Except EngineFault Outcome) :
    (w.finish n result).turnQueue.NoLostWakeup limit [] := by
  obtain ⟨-, v, hv, -, -⟩ := h.turn n rfl
  have hthere : (w.instance? n).map Instance.turnState = some v :=
    (states_getElem? w n).symm.trans hv
  obtain ⟨i, hi, -⟩ := Option.map_eq_some_iff.1 hthere
  simp only [finish, hi]
  generalize hended : (((w.remark (endRemark n result)).stopTimers (.numbered n)).cancelTasks
    (.numbered n)).mapInstance n (fun i =>
      { i with phase := .ended, isParked := false, isRegistered := false }) = u
  have hu : u.turnQueue = w.turnQueue.modify n fun v =>
      { v with phase := .ended, isParked := false } := by
    rw [← hended]
    exact turnQueue_mapInstance (((w.remark (endRemark n result)).stopTimers
      (.numbered n)).cancelTasks (.numbered n)) n fun _ => rfl
  have hpending : TurnQueue.NoLostWakeup limit (u.children n) { w.turnQueue.modify n (fun v =>
      { v with phase := .ended, isParked := false }) with current := none } := by
    refine h.finish rfl fun m v hv hparent => mem_children.2 ?_
    rw [hu, TurnQueue.states_modify]
    split
    · exact ⟨_, congrArg (Option.map _) hv, hparent⟩
    · exact ⟨v, hv, hparent⟩
  -- those nested in it have a reason to stop now, and are woken
  have hwoken := turnQueue_wakeAll u (u.children n)
  have hleft : TurnQueue.NoLostWakeup limit (u.children n)
      { u.turnQueue with current := none } := by
    rw [hu]
    exact hpending
  have hdone := hleft.wakeAll
  rw [TurnQueue.wakeAll_withCurrent, ← hwoken] at hdone
  exact hdone

/-- An instance waits in the end only if there is no reason to stop. -/
theorem noLostWakeup_park {i : Instance} (h : (w.queueInTurn n).NoLostWakeup limit [])
    (hi : w.instance? n = some i) (hgoes : w.stopReason? i = none) :
    ({ w.mapInstance n (fun i => { i with isParked := true }) with
      current := none } : World).turnQueue.NoLostWakeup limit [] := by
  have hparked := turnQueue_mapInstance (f := fun i => { i with isParked := true }) w n
    (g := fun v => { v with isParked := true }) fun _ => rfl
  have hwaits := h.park rfl fun v hv => by
    have hthere : (w.instance? n).map Instance.turnState = some v :=
      (states_getElem? w n).symm.trans hv
    rw [hi] at hthere
    obtain rfl := Option.some.inj hthere
    have hstopping : w.turnQueue.isStopping i.turnState = false := by
      rw [isStopping_turnState, hgoes]
      rfl
    exact (TurnQueue.isStopping_congr rfl rfl i.turnState).trans hstopping
  have heq : ({ w.mapInstance n (fun i => { i with isParked := true }) with
      current := none } : World).turnQueue = { w.turnQueue.modify n (fun v =>
        { v with isParked := true }) with current := none } := by
    rw [← hparked]
    rfl
  rw [heq]
  exact hwaits

theorem noLostWakeup_strand (h : (w.queueInTurn n).NoLostWakeup limit []) :
    (w.strand n).turnQueue.NoLostWakeup limit [] := by
  have hstuck := turnQueue_mapInstance (f := fun i => { i with phase := .stuck, isParked := false })
    w n (g := fun v => { v with phase := .stuck, isParked := false }) fun _ => rfl
  have heq : (w.strand n).turnQueue = { w.turnQueue.modify n (fun v =>
      { v with phase := .stuck, isParked := false }) with current := none } := by
    rw [← hstuck]
    rfl
  rw [heq]
  exact h.strand rfl

theorem Closes.noLostWakeup (h : Closes n w v) (hw : (w.queueInTurn n).NoLostWakeup limit []) :
    v.turnQueue.NoLostWakeup limit [] := by
  cases h with
  | goes work isStarting => exact hw
  | parks hi hgoes => exact noLostWakeup_park hw hi hgoes
  | strands => exact noLostWakeup_strand hw
  | finishes result => exact noLostWakeup_finish hw result
  | leaves hnone =>
      -- whose turn it is, is there
      obtain ⟨-, v, hv, -⟩ := hw.turn n rfl
      cases (congrArg (Option.map Instance.turnState) hnone).symm.trans
        ((states_getElem? w n).symm.trans hv)

theorem noLostWakeup_resume {t : Turn} (h : w.turnQueue.NoLostWakeup limit [])
    (hcurrent : w.current = some t) : (w.resume t).turnQueue.NoLostWakeup limit [] := by
  have hturn : w.turnQueue.current = some t.number := congrArg (Option.map Turn.number) hcurrent
  obtain ⟨u, hworks, hcloses⟩ := resume_cases w t
  exact hcloses.noLostWakeup (hworks.noLostWakeup ((queueInTurn_eq hturn).symm ▸ h))

theorem noLostWakeup_beginTurn {rest : List Task} (h : w.turnQueue.NoLostWakeup limit [])
    (hfree : w.current = none) (hready : w.ready = .turn n :: rest) :
    (({ w with ready := rest } : World).beginTurn n).turnQueue.NoLostWakeup limit [] := by
  have hnobody : w.turnQueue.current = none := congrArg (Option.map Turn.number) hfree
  have hturns : w.turnQueue.turns = n :: rest.filterMap Task.turn? := by
    simp only [turnQueue, hready, List.filterMap_cons, Task.turn?]
  have hthere : ∀ i, w.instance? n = some i → w.turnQueue.states[n]? = some i.turnState :=
    fun i hi => (states_getElem? w n).trans (congrArg (Option.map Instance.turnState) hi)
  rcases beginTurn_cases { w with ready := rest } n with ⟨hsame, hover⟩ |
    ⟨i, told, hi, hphase, hbegins⟩ | ⟨i, u, hi, hphase, hworks, hcloses⟩
  · -- a turn that comes too late is dropped
    rw [hsame]
    refine h.skip hturns fun v hv => ?_
    rw [states_getElem?] at hv
    obtain ⟨i, hi, rfl⟩ := Option.map_eq_some_iff.1 hv
    intro hrunning
    have hphase : i.phase = .running := hrunning
    rcases hover i hi with hended | hstuck
    · cases hphase.symm.trans hended
    · cases hphase.symm.trans hstuck
  · have hbegun := h.begin hnobody hturns (hthere i hi) hphase
    have hmap := turnQueue_mapInstance (f := fun i => { i with
      phase := .running, deadline := w.deadline.map fun d => w.clock + d })
      (({ w with ready := rest } : World).remarks told) n (g := w.turnQueue.begun) fun _ => rfl
    have hstarted := congrArg (fun s : TurnQueue => { s with current := some n }) hmap
    rw [hbegins]
    exact (congrArg (TurnQueue.NoLostWakeup limit []) hstarted).mpr hbegun
  · have htaken := h.take hnobody hturns (hthere i hi) hphase
    exact hcloses.noLostWakeup (hworks.noLostWakeup htaken)

theorem noLostWakeup_step? (h : w.turnQueue.NoLostWakeup limit []) (hgo : w.step? = some v) :
    v.turnQueue.NoLostWakeup limit [] := by
  unfold step? at hgo
  split at hgo
  · rename_i t hcurrent
    cases hgo
    exact noLostWakeup_resume h hcurrent
  · rename_i hfree
    split at hgo
    · rename_i task rest hready
      cases hgo
      cases task with
      | turn n => exact noLostWakeup_beginTurn h hfree hready
      | timer id =>
          have hpopped := Wakes.of_queues (Queues.pop hready rfl)
          exact (hpopped.trans (.of_passes (.runTimer _ id))).noLostWakeup h
      | job id =>
          have hpopped := Wakes.of_queues (Queues.pop hready rfl)
          exact (hpopped.trans (.runJob _ id)).noLostWakeup h
    · cases hgo

end Turns

end World

end Statechart
