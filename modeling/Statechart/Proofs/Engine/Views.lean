import Statechart.Proofs.Engine.Topology
import Statechart.Proofs.Engine.Replacement

/-!
# What a step looks at

A step looks at the variables of few sites: of the one where something is done, or of those where an
instance takes an event. All other layers may hold anything.

- `Command.sites`, `World.sites`  : the sites that are looked at
- `IsUnseen`                      : a layer is seen at none of some sites
- `World.replace_advance`         : commands look at nothing else
- `World.replace_react`           : nor does an instance that takes an event
- `World.replace_runTimer`, `World.replace_runJob` : nor do timers and invocations
- `World.replace_step?`           : nor do steps
-/

namespace Statechart

/-- A layer is seen at none of some sites. -/
def IsUnseen (k : LayerId) (sites : List Site) : Prop := ∀ site ∈ sites, k ∉ site.extent.layers

/-- The site of an action, and that of a state whose timers are started. -/
def Command.sites (w : World) (n : Nat) : Command → List Site
  | .act site _ => [site]
  | .move (.change state) => [w.stateSite n state]
  | .move _ => []

namespace World

variable {w v : World} {k : LayerId} {n : Nat}

/-- Where an instance takes an event: its guards are those of the active state, and the data of the
event is put among its own variables. -/
def eventSites (w : World) (n : Nat) : List Site :=
  match w.instance? n with
  | some i => w.machineSite n :: (i.active.map (w.stateSite n)).toList
  | none => []

/-- The sites that the next step looks at. -/
def sites (w : World) : List Site :=
  match w.current with
  | some t =>
      match t.work with
      | c :: _ => c.sites w t.number
      | [] => w.eventSites t.number
  | none =>
      match w.ready with
      | .turn n :: _ => w.eventSites n
      | .timer id :: _ => ((w.timerById? id).map (·.site)).toList
      | .job id :: _ => ((w.jobById? id).map (·.site)).toList
      | [] => []

/-! ## Commands -/

theorem stateExtent_mapInstance {f : Instance → Instance} (w : World) (n m : Nat) (state : State)
    (h : ∀ i, (f i).stateExtent state = i.stateExtent state) :
    (w.mapInstance m f).stateExtent n state = w.stateExtent n state := by
  unfold stateExtent
  rw [instance?_mapInstance]
  by_cases hsame : m = n
  · rw [if_pos hsame]
    cases w.instance? n with
    | none => rfl
    | some i => exact h i
  · rw [if_neg hsame]

/-- Guards that wait for nothing are over the variables of the state. -/
theorem replace_selectAlways {state : State} (h : k ∉ (w.stateExtent n state).layers) (l : Layer) :
    (instanceMachine n).selectAlways (w.replace k l) state =
      (((instanceMachine n).selectAlways w state).1.replace k l,
        ((instanceMachine n).selectAlways w state).2) := by
  have hfind : ((w.replace k l).stateExtent n state).lookup (w.replace k l).memory =
      (w.stateExtent n state).lookup w.memory := Extent.lookup_replace h l
  change (w.replace k l).select n state.name "always" state.always
    (((w.replace k l).stateExtent n state).lookup (w.replace k l).memory) = _
  rw [hfind]
  rfl

theorem replace_executeMove {step : Move} (h : IsUnseen k ((Command.move step).sites w n))
    (l : Layer) :
    (instanceMachine n).executeMove (w.replace k l) step =
      (((instanceMachine n).executeMove w step).1.replace k l,
        ((instanceMachine n).executeMove w step).2) := by
  cases step with
  | enterInitial state => rfl
  | enter state => rfl
  | exit state => rfl
  | change state =>
      have hsite : k ∉ (w.stateSite n state).extent.layers := h _ List.mem_cons_self
      have hunseen : k ∉ (w.stateExtent n state).layers := hsite
      have hstart : (instanceMachine n).startTimers (w.replace k l) state =
          (((instanceMachine n).startTimers w state).1.replace k l,
            ((instanceMachine n).startTimers w state).2) :=
        replace_startTimers hsite w l state.after
      -- the guards of the state are evaluated when its timers are on, which is no other scope
      have hsees : ((instanceMachine n).startTimers w state).1.stateExtent n state =
          w.stateExtent n state := by
        obtain ⟨added, fresh, hv, -⟩ := Arms.startTimers (w.stateSite n state) w state.after
        have hstarted : ((instanceMachine n).startTimers w state).1 =
            { w with
              timers := w.timers ++ added, fresh
              ready := w.ready ++ added.map fun t => .timer t.id } := hv
        rw [hstarted]
        rfl
      simp only [Machine.executeMove, hstart]
      generalize (instanceMachine n).startTimers w state = started at hsees
      obtain ⟨v, outcome⟩ := started
      cases outcome with
      | error fault => rfl
      | ok done =>
          have hactive := stateExtent_mapInstance (f := fun i => { i with active := some state })
            v n n state fun _ => rfl
          have hselect := replace_selectAlways (w := (instanceMachine n).setActive v state)
            ((hactive.trans hsees).symm ▸ hunseen) l
          have hmoved : (instanceMachine n).setActive (v.replace k l) state =
              ((instanceMachine n).setActive v state).replace k l := rfl
          simp only [hmoved, hselect]
          generalize (instanceMachine n).selectAlways ((instanceMachine n).setActive v state)
            state = selected
          obtain ⟨u, outcome⟩ := selected
          rcases outcome with fault | selected
          · rfl
          · cases selected <;> rfl
  | transit selected =>
      -- a transition only looks up its states
      have hstate : (instanceMachine n).state? (w.replace k l) =
        (instanceMachine n).state? w := rfl
      have hactive : (instanceMachine n).active? (w.replace k l) =
        (instanceMachine n).active? w := rfl
      have hsite : (instanceMachine n).machineSite (w.replace k l) =
        (instanceMachine n).machineSite w := rfl
      simp only [Machine.executeMove, hstate, hactive, hsite]
      split
      · rfl
      · split
        · rfl
        · split <;> rfl

theorem replace_advance {c : Command} (h : IsUnseen k (c.sites w n)) (l : Layer)
    (rest : List Command) :
    (instanceMachine n).advance (w.replace k l) c rest =
      (((instanceMachine n).advance w c rest).1.replace k l,
        ((instanceMachine n).advance w c rest).2) := by
  have hexecute : (instanceMachine n).execute (w.replace k l) c =
      (((instanceMachine n).execute w c).1.replace k l, ((instanceMachine n).execute w c).2) := by
    cases c with
    | act site action =>
        have hact := replace_execute (h site List.mem_cons_self) w l action
        exact congrArg (fun done => (done.1, Except.ok done.2)) hact
    | move step => exact replace_executeMove h l
  unfold Machine.advance
  rw [hexecute]
  generalize (instanceMachine n).execute w c = executed
  obtain ⟨v, outcome⟩ := executed
  cases outcome <;> rfl

/-! ## Events -/

/-- The data of an event is in a layer above all others while the guards are evaluated. -/
theorem guardLookup_replace {m : Memory} {extent : Extent} (h : k ∉ extent.layers)
    (hheld : k < m.layers.length) (l : Layer) (e : Event) :
    guardLookup (m.replace k l) extent e = guardLookup m extent e := by
  have habove : k ∉ (extent.extend m.layers.length).layers := by
    intro hin
    rcases List.mem_append.1 hin with hin | hin
    · exact h hin
    · exact Nat.ne_of_lt hheld (List.mem_singleton.1 hin)
  simp only [guardLookup, Memory.add_replace hheld]
  exact Extent.lookup_replace habove l

theorem replace_inject {extent : Extent} (h : k ∉ extent.layers) (n : Nat) (w : World) (l : Layer)
    (entry : String × Value) :
    inject n extent (w.replace k l) entry = (inject n extent w entry).replace k l := by
  have hput : extent.put (w.replace k l).memory (dataName entry.1) entry.2 =
      ((extent.put w.memory (dataName entry.1) entry.2).1.replace k l,
        (extent.put w.memory (dataName entry.1) entry.2).2) :=
    Extent.put_replace h l (dataName entry.1) entry.2
  unfold inject
  rw [hput]
  generalize extent.put w.memory (dataName entry.1) entry.2 = written
  obtain ⟨memory, outcome⟩ := written
  cases outcome <;> rfl

/-- What an instance in a state does not see when it takes an event. -/
theorem unseen_of_eventSites {i : Instance} {state : State} (hi : w.instance? n = some i)
    (hactive : i.active = some state) (h : IsUnseen k (w.eventSites n)) :
    k ∉ i.extent.layers ∧ k ∉ (i.stateExtent state).layers := by
  have hmachine : (w.machineSite n).extent = i.extent := by simp only [machineSite, hi]
  have hstate : (w.stateSite n state).extent = i.stateExtent state := by
    simp only [stateSite, stateExtent, hi]
  simp only [eventSites, hi, hactive] at h
  exact ⟨hmachine ▸ h _ List.mem_cons_self,
    hstate ▸ h _ (List.mem_cons_of_mem _ List.mem_cons_self)⟩

theorem replace_react (h : IsUnseen k (w.eventSites n)) (hheld : k < w.memory.layers.length)
    (l : Layer) (e : Event) :
    (w.replace k l).react n e = ((w.react n e).1.replace k l, (w.react n e).2) := by
  have hsame : (w.replace k l).instance? n = w.instance? n := rfl
  unfold react
  rw [hsame]
  cases hi : w.instance? n with
  | none => rfl
  | some i =>
      simp only
      cases hactive : i.active with
      | none => rfl
      | some state =>
          obtain ⟨hown, hstate⟩ := unseen_of_eventSites hi hactive h
          have hguards : guardLookup (w.replace k l).memory (i.stateExtent state) e =
              guardLookup w.memory (i.stateExtent state) e :=
            guardLookup_replace hstate hheld l e
          have hselect : ∀ find, ((w.replace k l).remarks
              ((repeated e.data).map (repeatedRemark n))).select n state.name e.name
                (state.onEvent e.name) find =
              (((w.remarks ((repeated e.data).map (repeatedRemark n))).select n state.name e.name
                (state.onEvent e.name) find).1.replace k l,
              ((w.remarks ((repeated e.data).map (repeatedRemark n))).select n state.name e.name
                (state.onEvent e.name) find).2) := fun _ => rfl
          have hmemory : ∀ (u : World) told, (u.remarks told).memory = u.memory := fun _ _ => rfl
          simp only [hmemory, hguards, hselect]
          generalize (w.remarks ((repeated e.data).map (repeatedRemark n))).select n state.name
            e.name (state.onEvent e.name) (guardLookup w.memory (i.stateExtent state) e) = selected
          obtain ⟨v, outcome⟩ := selected
          rcases outcome with fault | selected
          · rfl
          · cases selected with
            | none => rfl
            | some selected =>
                simp only
                rw [replace_foldl fun u entry => replace_inject hown n u l entry]

/-! ## Turns -/

theorem replace_finish (w : World) (k : LayerId) (l : Layer) (n : Nat)
    (result : Except EngineFault Outcome) :
    (w.replace k l).finish n result = (w.finish n result).replace k l := by
  have hsame : (w.replace k l).instance? n = w.instance? n := rfl
  unfold finish
  rw [hsame]
  cases w.instance? n with
  | none => rfl
  | some i =>
      simp only
      -- the instance ends, and then its children are woken one by one
      generalize hended : ((((w.remark (endRemark n result)).stopTimers (.numbered n)).cancelTasks
        (.numbered n)).mapInstance n fun i =>
          { i with phase := .ended, isParked := false, isRegistered := false }) = u
      have hended' : (((((w.replace k l).remark (endRemark n result)).stopTimers
          (.numbered n)).cancelTasks (.numbered n)).mapInstance n fun i =>
            { i with phase := .ended, isParked := false, isRegistered := false }) =
          u.replace k l := hended ▸ rfl
      have hchildren : (u.replace k l).children n = u.children n := rfl
      rw [hended', hchildren, replace_foldl fun u m => replace_wake u k l m]
      rfl

theorem replace_fail (w : World) (k : LayerId) (l : Layer) (t : Turn) (fault : EngineFault) :
    (w.replace k l).fail t fault = (w.fail t fault).replace k l := by
  unfold fail
  split
  · rfl
  · split
    · exact replace_finish w k l t.number _
    · rfl

theorem replace_handle (h : IsUnseen k (w.eventSites n)) (hheld : k < w.memory.layers.length)
    (l : Layer) (e : Event) : (w.replace k l).handle n e = (w.handle n e).replace k l := by
  unfold handle
  rw [replace_react h hheld]
  generalize w.react n e = reacted
  obtain ⟨v, outcome⟩ := reacted
  cases outcome with
  | ok work => rfl
  | error fault => exact replace_fail v k l _ fault

/-- Where an instance takes events does not depend on its inbox. -/
theorem eventSites_inbox (w : World) (n : Nat) (inbox : List Event) :
    (w.mapInstance n fun i => { i with inbox }).eventSites n = w.eventSites n := by
  cases hi : w.instance? n with
  | none =>
      have hnone : (w.mapInstance n fun i => { i with inbox }).instance? n = none := by
        rw [instance?_mapInstance, hi]
        exact ite_self _
      simp only [eventSites, hi, hnone]
  | some i =>
      have hthere := instance?_mapInstance_self (fun i => { i with inbox }) hi
      have hstate : (w.mapInstance n fun i => { i with inbox }).stateSite n = w.stateSite n := by
        funext state
        simp only [stateSite, stateExtent, hi, hthere]
        rfl
      simp only [eventSites, machineSite, hi, hthere, hstate]

theorem replace_next (h : IsUnseen k (w.eventSites n)) (hheld : k < w.memory.layers.length)
    (l : Layer) (i : Instance) : (w.replace k l).next n i = (w.next n i).replace k l := by
  unfold next
  split
  · rename_i e rest _
    exact replace_handle (w := w.mapInstance n _) ((eventSites_inbox w n rest).symm ▸ h) hheld l e
  · rfl

theorem replace_resume {t : Turn} (hcurrent : w.current = some t) (h : IsUnseen k w.sites)
    (hheld : k < w.memory.layers.length) (l : Layer) :
    (w.replace k l).resume t = (w.resume t).replace k l := by
  unfold sites at h
  rw [hcurrent] at h
  unfold resume
  split
  · rename_i c rest hwork
    simp only [hwork] at h
    rw [replace_advance h]
    generalize (instanceMachine t.number).advance w c rest = advanced
    obtain ⟨v, outcome⟩ := advanced
    cases outcome with
    | ok work => rfl
    | error fault => exact replace_fail v k l t fault
  · rename_i hwork
    simp only [hwork] at h
    have hsame : (w.replace k l).instance? t.number = w.instance? t.number := rfl
    rw [hsame]
    cases w.instance? t.number with
    | none => rfl
    | some i =>
        have hreason : (w.replace k l).stopReason? i = w.stopReason? i := rfl
        simp only [hreason]
        split
        · exact replace_finish w k l t.number _
        · exact replace_next h hheld l i

theorem replace_beginTurn (h : IsUnseen k (w.eventSites n)) (hheld : k < w.memory.layers.length)
    (l : Layer) : (w.replace k l).beginTurn n = (w.beginTurn n).replace k l := by
  have hsame : (w.replace k l).instance? n = w.instance? n := rfl
  unfold beginTurn
  rw [hsame]
  cases w.instance? n with
  | none => rfl
  | some i =>
      cases hphase : i.phase with
      | created => simp only [hphase]; rfl
      | running =>
          simp only [hphase]
          have hchoices : (w.replace k l).choices = w.choices := rfl
          have hturns : (w.replace k l).turns = w.turns := rfl
          rw [hchoices, hturns]
          split
          · exact replace_next (w := { w with turns := w.turns + 1 }) h hheld l i
          · rfl
      | ended => simp only [hphase]
      | stuck => simp only [hphase]

/-! ## Tasks -/

theorem replace_fire {firings id : Nat}
    (h : ∀ t, w.timerById? id = some t → k ∉ t.site.extent.layers) (l : Layer) :
    fire firings (w.replace k l) id = (fire firings w id).replace k l := by
  induction firings generalizing w with
  | zero => rfl
  | succ firings ih =>
      have hsame : (w.replace k l).timerById? id = w.timerById? id := rfl
      simp only [fire, hsame]
      cases htimer : w.timerById? id with
      | none => rfl
      | some timer =>
          simp only
          split
          · rename_i due _
            obtain ⟨_, _, _, _, hframe, -⟩ := (Delivers.executeRaise w timer.site timer.event).frame
            have htimers : (worldActor.execute w timer.site (.raise timer.event)).1.timers =
                w.timers := by rw [hframe]
            rw [replace_execute (h timer htimer)]
            generalize (worldActor.execute w timer.site (.raise timer.event)).1 = v at htimers
            have hclock : (v.replace k l).clock = v.clock := rfl
            simp only [hclock]
            split
            · -- the timer is due again already, and its event is raised in the same place
              have hthere : v.timerById? id = some timer := by
                rw [timerById?, htimers]
                exact htimer
              have hnext := timerById?_updateTimer
                (f := fun t => { t with stage := .awake (timer.dueAfter due v.clock) }) hthere
                fun _ => rfl
              refine ih (w := v.updateTimer id _) fun t ht => ?_
              cases hnext.symm.trans ht
              exact h timer htimer
            · rfl
          · rfl

theorem replace_runTimer {id : Nat}
    (h : ∀ t, w.timerById? id = some t → k ∉ t.site.extent.layers) (l : Layer) :
    (w.replace k l).runTimer id = (w.runTimer id).replace k l := by
  have hsame : (w.replace k l).timerById? id = w.timerById? id := rfl
  unfold runTimer
  rw [hsame]
  cases w.timerById? id with
  | none => rfl
  | some timer =>
      simp only
      split
      · rfl
      · exact replace_fire h l

theorem replace_answer {job : Job} (h : k ∉ job.site.extent.layers) (l : Layer)
    (response : Response) :
    (w.replace k l).answer job response = (w.answer job response).replace k l := by
  cases response with
  | ok output =>
      exact replace_complete h { w with jobs := w.jobs.filter fun j => j.id != job.id } l job.call
        output
  | error fault => rfl

theorem replace_runJob {id : Nat} (h : ∀ j, w.jobById? id = some j → k ∉ j.site.extent.layers)
    (l : Layer) : (w.replace k l).runJob id = (w.runJob id).replace k l := by
  have hsame : (w.replace k l).jobById? id = w.jobById? id := rfl
  have hclock : (w.replace k l).clock = w.clock := rfl
  unfold runJob
  rw [hsame, hclock]
  cases hjob : w.jobById? id with
  | none => rfl
  | some job =>
      simp only
      split
      · exact replace_answer (h job hjob) l _
      · rfl

/-! ## Steps -/

/-- A step is the same whatever is in a layer that it does not look at. -/
theorem replace_step? (h : IsUnseen k w.sites) (hheld : k < w.memory.layers.length) (l : Layer) :
    (w.replace k l).step? = w.step?.map fun v => v.replace k l := by
  have hcurrent : (w.replace k l).current = w.current := rfl
  have hready : (w.replace k l).ready = w.ready := rfl
  unfold step?
  rw [hcurrent, hready]
  cases ht : w.current with
  | some t => exact congrArg some (replace_resume ht h hheld l)
  | none =>
      simp only [sites, ht] at h
      cases hqueue : w.ready with
      | nil => rfl
      | cons task rest =>
          simp only [hqueue] at h
          refine congrArg some ?_
          cases task with
          | turn n =>
              exact replace_beginTurn (w := { w with ready := rest, current := none }) h hheld l
          | timer id =>
              refine replace_runTimer (w := { w with ready := rest, current := none })
                (fun t htimer => ?_) l
              exact h _ (Option.mem_toList.2 (Option.map_eq_some_iff.2 ⟨t, htimer, rfl⟩))
          | job id =>
              refine replace_runJob (w := { w with ready := rest, current := none })
                (fun j hjob => ?_) l
              exact h _ (Option.mem_toList.2 (Option.map_eq_some_iff.2 ⟨j, hjob, rfl⟩))

end World

end Statechart
