import Statechart.Proofs.Engine.Status
import Statechart.Proofs.Engine.Turns
import Statechart.Proofs.Worklist.Protocol

/-!
# What operations do to a status

One lemma for each operation of a turn that run states depend on.

- `selectTransition_ok`, `selectTransition_error` : choosing a transition
- `World.startTimers_start`   : timers that start, and why one does not
- `World.executeMove_ok`, `World.executeMove_error` : steps between states
- `World.fail_stops`          : what follows a fault
- `World.perform_local`       : an action stops a timer at most
-/

namespace Statechart

/-! ## Choosing transitions -/

theorem mem_of_mem_eligible {candidates : List Transition} {find : Lookup} {t : Selected}
    (h : t ∈ eligible candidates find) : t.transition ∈ candidates := by
  obtain ⟨candidate, hmem, hsome⟩ := List.mem_filterMap.1 h
  split at hsome
  · cases hsome
    exact hmem
  · split at hsome
    · cases hsome
      exact hmem
    · cases hsome

theorem selectTransition_ok {state trigger : String} {candidates : List Transition}
    {find : Lookup} {follow : Option Selected}
    (h : selectTransition state trigger candidates find = .ok follow) :
    ∀ t, follow = some t → t.transition ∈ candidates := by
  rintro t rfl
  unfold selectTransition at h
  split at h
  · cases h
  · rename_i selected heq
    cases h
    exact mem_of_mem_eligible (heq ▸ List.mem_singleton.2 rfl)
  · cases h

theorem selectTransition_error {state trigger : String} {candidates : List Transition}
    {find : Lookup} {fault : EngineFault}
    (h : selectTransition state trigger candidates find = .error fault) :
    ∃ count, 2 ≤ count ∧ count ≤ candidates.length ∧
      fault = .nonDeterminism state trigger count := by
  unfold selectTransition at h
  split at h
  · cases h
  · cases h
  · rename_i hnil hsingle
    cases h
    refine ⟨(eligible candidates find).length, ?_, List.length_filterMap_le .., rfl⟩
    -- neither none nor one, so two at least
    cases heq : eligible candidates find with
    | nil => exact absurd heq hnil
    | cons t rest =>
        cases rest with
        | nil => exact absurd heq (hsingle t)
        | cons _ others => exact Nat.le_add_left 2 others.length

/-! ## Timers -/

theorem Timeout.faults_of_period {t : Timeout} {find : Lookup} {fault : EngineFault}
    (h : t.period find = .error fault) : t.Faults fault := by
  unfold Timeout.period Expression.evaluate at h
  split at h
  · rename_i value _
    replace h : delayNanos t.name value = .error fault := h
    unfold delayNanos at h
    split at h
    · simp only at h
      split at h
      · cases h
        exact .invalid _
      · split at h
        · cases h
        · cases h
          exact .endless
    · cases h
      exact .invalid _
  · cases h
    exact .evaluation _

namespace World

theorem status_stopTimers (w : World) (p : Party) :
    (w.stopTimers p).status =
      { w.status with keys := w.status.keys.filter fun k => k.owner != p } := by
  simp only [status, stopTimers, List.filter_map]
  rfl

theorem keysOf_filter_ne (s : Status) (p : Party) :
    Status.keysOf { s with keys := s.keys.filter fun k => k.owner != p } p = [] := by
  simp only [Status.keysOf, List.filter_filter]
  refine List.filter_eq_nil_iff.2 fun k _ hboth => ?_
  simp [bne] at hboth

theorem timer?_isSome {w : World} {p : Party} {name : String} :
    (w.timer? p name).isSome = true ↔ name ∈ (w.status.keysOf p).map (·.name) := by
  simp only [timer?, List.find?_isSome, Status.keysOf, status, List.filter_map, List.map_map,
    List.mem_map, List.mem_filter, Bool.and_eq_true, beq_iff_eq]
  constructor
  · rintro ⟨t, ht, howner, rfl⟩
    exact ⟨t, ⟨ht, beq_iff_eq.2 howner⟩, rfl⟩
  · rintro ⟨t, ⟨ht, howner⟩, rfl⟩
    exact ⟨t, ht, beq_iff_eq.1 howner, rfl⟩

/-- A timer starts, has no delay, or has the name of another one. -/
theorem startTimer_cases {w v : World} {site : Site} {name : String} {period : Nat}
    {event : EventTemplate} {outcome : Except EngineFault Unit}
    (h : w.startTimer site name period (.raise event) = (v, outcome)) :
    (outcome = .ok () ∧ v.status =
        { w.status with
          keys := w.status.keys ++ [⟨w.fresh, site.owner, name⟩], fresh := w.fresh + 1 }) ∨
      (v = w ∧ outcome = .error (.invalidTimer name .zeroDelay)) ∨
      (v = w ∧ outcome = .error (.duplicateTimer name) ∧
        name ∈ (w.status.keysOf site.owner).map (·.name)) := by
  simp only [startTimer] at h
  split at h
  · cases h
    exact .inr (.inl ⟨rfl, rfl⟩)
  · split at h
    · rename_i hsome
      cases h
      exact .inr (.inr ⟨rfl, rfl, timer?_isSome.1 hsome⟩)
    · cases h
      refine .inl ⟨rfl, ?_⟩
      simp [status, controls, enqueue, Timer.key]

/-- Timers of an instance start in their order, up to one that fails. -/
structure StartsTimers (m : Nat) (timeouts : List Timeout) (w v : World)
    (outcome : Except EngineFault Unit) : Prop where
  isLocal : Status.Local m w.status v.status
  controls : v.controls = w.controls
  current : v.current = w.current
  started : ∃ started,
    v.status.keysOf (.numbered m) = w.status.keysOf (.numbered m) ++ started ∧
      (outcome = .ok () → started.map (·.name) = timeouts.map (·.name))
  faults : ∀ fault, outcome = .error fault →
    (∃ timeout ∈ timeouts, timeout.Faults fault) ∨
      ∃ name, fault = .duplicateTimer name ∧
        ¬ ((w.status.keysOf (.numbered m)).map (·.name) ++ timeouts.map (·.name)).Nodup

namespace StartsTimers

variable {m : Nat} {timeout : Timeout} {timeouts : List Timeout} {w u v : World}
  {outcome : Except EngineFault Unit} {fault : EngineFault}

theorem nil (m : Nat) (w : World) : StartsTimers m [] w w (.ok ()) :=
  ⟨.refl _, rfl, rfl, ⟨[], by simp, fun _ => rfl⟩, fun _ h => by cases h⟩

/-- The first one fails. -/
theorem of_error (h : timeout.Faults fault ∨ ∃ name, fault = .duplicateTimer name ∧
      name = timeout.name ∧ name ∈ (w.status.keysOf (.numbered m)).map (·.name)) :
    StartsTimers m (timeout :: timeouts) w w (.error fault) := by
  refine ⟨.refl _, rfl, rfl, ⟨[], by simp, fun h => by cases h⟩, fun _ heq => ?_⟩
  cases heq
  rcases h with hfaults | ⟨name, hfault, rfl, hname⟩
  · exact .inl ⟨timeout, List.mem_cons_self, hfaults⟩
  · refine .inr ⟨_, hfault, fun hnodup => ?_⟩
    exact (List.nodup_append.1 hnodup).2.2 _ hname _ (by simp) rfl

/-- The first one starts. -/
theorem cons (h : u.status =
      { w.status with
        keys := w.status.keys ++ [⟨w.fresh, .numbered m, timeout.name⟩], fresh := w.fresh + 1 })
    (hrest : StartsTimers m timeouts u v outcome) :
    StartsTimers m (timeout :: timeouts) w v outcome := by
  obtain ⟨hlocal, hcontrols, hcurrent, ⟨started, hkeys, hok⟩, hfaults⟩ := hrest
  have hpush : u.status.keysOf (.numbered m) =
      w.status.keysOf (.numbered m) ++ [⟨w.fresh, .numbered m, timeout.name⟩] := by
    rw [h]
    simp [Status.keysOf, List.filter_append]
  refine ⟨Status.Local.trans (h ▸ .push w.status m timeout.name) hlocal,
    hcontrols.trans (congrArg Status.controls h), hcurrent.trans (congrArg Status.current h),
    ⟨⟨w.fresh, .numbered m, timeout.name⟩ :: started, ?_, fun heq => ?_⟩, fun fault heq => ?_⟩
  · rw [hkeys, hpush, List.append_assoc]
    rfl
  · simp [hok heq]
  · rcases hfaults fault heq with ⟨t, ht, hfault⟩ | ⟨name, hfault, hdup⟩
    · exact .inl ⟨t, List.mem_cons_of_mem _ ht, hfault⟩
    · refine .inr ⟨name, hfault, ?_⟩
      rw [hpush, List.map_append, List.append_assoc] at hdup
      exact hdup

end StartsTimers

/-- The timers of a state. -/
theorem startTimers_start {m : Nat} {site : Site} (howner : site.owner = .numbered m)
    {w v : World} {timeouts : List Timeout} {outcome : Except EngineFault Unit}
    (h : startTimers site w timeouts = (v, outcome)) : StartsTimers m timeouts w v outcome := by
  -- the world moves on with every timer that starts, and stays as it is where one fails
  induction timeouts generalizing w with
  | nil =>
      cases h
      exact .nil m v
  | cons timeout rest ih =>
      simp only [startTimers] at h
      split at h
      · rename_i fault hperiod
        cases h
        exact .of_error (.inl (Timeout.faults_of_period hperiod))
      · rename_i period _
        cases hstart : w.startTimer site timeout.name period (.raise timeout.event) with
        | mk u started =>
            rw [hstart] at h
            rcases startTimer_cases hstart with ⟨rfl, hstatus⟩ | ⟨rfl, rfl⟩ | ⟨rfl, rfl, hname⟩
            · exact .cons (howner ▸ hstatus) (ih h)
            · cases h
              exact .of_error (.inl (.invalid _))
            · cases h
              exact .of_error (.inr ⟨_, rfl, rfl, howner ▸ hname⟩)

/-! ## Steps between states -/

/-- The actions among some commands are done at sites with a property. -/
def ActAt (Q : Site → Prop) (work : List Command) : Prop :=
  ∀ site action, .act site action ∈ work → Q site

section Work

variable {Q : Site → Prop} {front back : List Command}

theorem ActAt.append (h : ActAt Q front) (h' : ActAt Q back) : ActAt Q (front ++ back) :=
  fun site action hin => (List.mem_append.1 hin).elim (h site action) (h' site action)

theorem ActAt.tail {c : Command} (h : ActAt Q (c :: back)) : ActAt Q back :=
  fun site action hin => h site action (List.mem_cons_of_mem c hin)

theorem actAt_actions {site : Site} (h : Q site) (as : List Action) :
    ActAt Q (actions site as) := by
  intro site' action hmem
  obtain ⟨_, -, heq⟩ := List.mem_map.1 hmem
  cases heq
  exact h

theorem actAt_moves (moves : List Move) : ActAt Q (moves.map .move) := by
  intro site' action hmem
  obtain ⟨_, -, heq⟩ := List.mem_map.1 hmem
  cases heq

theorem actAt_follow (follow : Option Selected) :
    ActAt Q (follow.map fun t => Command.move (.transit t)).toList := by
  cases follow with
  | none => exact actAt_moves []
  | some t => exact actAt_moves [.transit t]

end Work

theorem filterMap_move?_follow (follow : Option Selected) :
    (follow.map fun t => Command.move (.transit t)).toList.filterMap Command.move? =
      (follow.map Move.transit).toList := by
  cases follow <;> rfl

@[simp]
theorem filterMap_move?_actions (site : Site) (as : List Action) :
    (actions site as).filterMap Command.move? = [] := by
  simp [actions, List.filterMap_map, Command.move?]

theorem stateSite_owner (w : World) (n : Nat) (state : State) :
    (w.stateSite n state).owner = .numbered n := rfl

variable {w v : World} {m : Nat} {c : Control}

/-- An instance that has changed. -/
theorem control_of_modify {f : Control → Control} (hc : w.controls[m]? = some c)
    (h : v.controls = w.controls.modify m f) : v.controls[m]? = some (f c) := by
  rw [h, List.getElem?_modify_eq, hc]
  rfl

/-- A state is made active, and what follows is chosen. -/
theorem activate_status {u : World} {state : State}
    {result : Except EngineFault (Option Selected)}
    (h : (instanceMachine m).selectAlways ((instanceMachine m).setActive u state) state =
      (v, result)) :
    v.status = { u.status with
      controls := u.status.controls.modify m fun c => { c with active := some state } } ∧
      ∃ find, selectTransition state.name "always" state.always find = result := by
  obtain ⟨hv, hresult⟩ := Prod.mk.inj h
  refine ⟨?_, _, hresult⟩
  have hactive : (u.mapInstance m fun i => { i with active := some state }).status =
      { u.status with
        controls := u.status.controls.modify m fun c => { c with active := some state } } :=
    status_mapInstance u m fun _ => rfl
  rw [← hv, ← hactive]
  rfl

/-- What the machine of an instance sees of it. -/
theorem control_of_getElem? (hc : w.controls[m]? = some c) :
    (instanceMachine m).active? w = c.active ∧
      ∀ name, (instanceMachine m).state? w name = c.graph.state? name := by
  rw [controls_getElem?] at hc
  obtain ⟨i, hi, rfl⟩ := Option.map_eq_some_iff.1 hc
  simp [instanceMachine, hi, Instance.control]

/-- A step between states that succeeds. -/
theorem executeMove_ok {step : Move} {next : List Command} (hc : w.controls[m]? = some c)
    (h : (instanceMachine m).executeMove w step = (v, .ok next)) (moves : List Move) :
    Status.Local m w.status v.status ∧ v.current = w.current ∧ Status.IsWorkOf m next ∧
      ∃ c', v.controls[m]? = some c' ∧ c'.phase = c.phase ∧
        (c.runState (w.status.keysOf (.numbered m)) moves).Moves step
          (c'.runState (v.status.keysOf (.numbered m)) (next.filterMap Command.move?)) := by
  cases step with
  | enterInitial state =>
      cases h
      exact ⟨.refl _, rfl, actAt_moves [.enter state], c, hc, rfl, .enterInitial state⟩
  | enter state =>
      cases h
      refine ⟨.refl _, rfl, ?_, c, hc, rfl, ?_⟩
      · have howner := stateSite_owner w m state
        exact ActAt.append (.append (actAt_actions howner _) (actAt_actions howner _))
          (actAt_moves [.change state])
      · rw [List.filterMap_append, List.filterMap_append, filterMap_move?_actions,
          filterMap_move?_actions]
        exact .enter state
  | exit state =>
      cases h
      -- tasks are no part of a status, so that stopping the timers is all that counts
      have hstatus : ((w.stopTimers (.numbered m)).cancelTasks (.numbered m)).status =
          { w.status with keys := w.status.keys.filter fun k => k.owner != .numbered m } :=
        status_stopTimers w _
      refine ⟨hstatus ▸ .filter _ _ _ fun k _ hk => bne_iff_ne.2 hk, rfl,
        actAt_actions (stateSite_owner w m state) _, c, hc, rfl, ?_⟩
      rw [filterMap_move?_actions]
      have hnone : ((w.stopTimers (.numbered m)).cancelTasks (.numbered m)).status.keysOf
          (.numbered m) = [] := by
        rw [hstatus]
        exact keysOf_filter_ne _ _
      change RunState.Moves _ _ (c.runState (((w.stopTimers (.numbered m)).cancelTasks
        (.numbered m)).status.keysOf (.numbered m)) [])
      rw [hnone]
      exact .exit state
  | change state =>
      -- timers start while the old state is still active, and only then is the new one
      obtain ⟨u, follow, hstart, hselect, rfl⟩ :=
        Machine.execute_change_inv (m := instanceMachine m) h
      replace hstart := startTimers_start (stateSite_owner w m state) hstart
      obtain ⟨started, hkeys, hnames⟩ := hstart.started
      obtain ⟨hstatus, find, hfollow⟩ := activate_status hselect
      refine ⟨hstart.isLocal.trans (hstatus ▸ .modify u.status m _), ?_, ?_,
        { c with active := some state }, ?_, rfl, ?_⟩
      · exact (congrArg Status.current hstatus).trans hstart.current
      · exact actAt_follow follow
      · exact control_of_modify (hstart.controls ▸ hc) (congrArg Status.controls hstatus)
      · have hkept : v.status.keysOf (.numbered m) =
            w.status.keysOf (.numbered m) ++ started := by
          rw [← hkeys, hstatus]
          rfl
        rw [hkept, filterMap_move?_follow]
        exact .change (hnames rfl) (selectTransition_ok hfollow)
  | transit t =>
      obtain ⟨rfl, hcases⟩ := Machine.execute_transit_inv (m := instanceMachine m) h
      have howner : ((instanceMachine m).machineSite v).owner = .numbered m :=
        machineSite_owner v m
      rcases hcases with ⟨htarget, rfl⟩ | ⟨target, current, state, htarget, hcurrent, hstate, rfl⟩
      · refine ⟨.refl _, rfl, actAt_actions howner _, c, hc, rfl, ?_⟩
        rw [filterMap_move?_actions]
        exact .inside htarget
      · refine ⟨.refl _, rfl, ?_, c, hc, rfl, ?_⟩
        · exact ActAt.append (actAt_moves [.exit current])
            (.append (actAt_actions howner _) (actAt_moves [.enter state]))
        · have hmoves : (Command.move (.exit current) ::
              (actions ((instanceMachine m).machineSite v) t.actions ++
                [.move (.enter state)])).filterMap Command.move? =
                [.exit current, .enter state] := by
            simp [Command.move?]
          rw [hmoves]
          obtain ⟨hactive, hgraph⟩ := control_of_getElem? hc
          exact .across htarget (hgraph target ▸ hstate) (hactive.symm.trans hcurrent)

/-- A step between states that fails. -/
theorem executeMove_error {step : Move} {fault : EngineFault} (hc : w.controls[m]? = some c)
    (h : (instanceMachine m).executeMove w step = (v, .error fault)) (moves : List Move) :
    Status.Local m w.status v.status ∧ v.current = w.current ∧
      (∃ c', v.controls[m]? = some c' ∧ c'.graph = c.graph) ∧
      (c.runState (w.status.keysOf (.numbered m)) moves).Faults step fault := by
  obtain ⟨hactive, hgraph⟩ := control_of_getElem? hc
  cases step with
  | enterInitial state => cases h
  | enter state => cases h
  | exit state => cases h
  | change state =>
      simp only [Machine.executeMove] at h
      split at h
      · rename_i u fault' hstart
        cases h
        replace hstart := startTimers_start (stateSite_owner w m state) hstart
        refine ⟨hstart.isLocal, hstart.current, ⟨c, hstart.controls ▸ hc, rfl⟩, ?_⟩
        rcases hstart.faults fault rfl with ⟨timeout, htimeout, hfaults⟩ | ⟨name, rfl, hdup⟩
        · exact .timer htimeout hfaults
        · exact .duplicateTimer hdup
      · rename_i u hstart
        replace hstart := startTimers_start (stateSite_owner w m state) hstart
        split at h
        · rename_i x fault' hselect
          cases h
          obtain ⟨hstatus, find, hfault⟩ := activate_status hselect
          obtain ⟨count, hmany, hcount, rfl⟩ := selectTransition_error hfault
          exact ⟨hstart.isLocal.trans (hstatus ▸ .modify u.status m _),
            (congrArg Status.current hstatus).trans hstart.current,
            ⟨_, control_of_modify (hstart.controls ▸ hc) (congrArg Status.controls hstatus), rfl⟩,
            .nonDeterminism hmany hcount⟩
        · cases h
        · cases h
  | transit t =>
      simp only [Machine.executeMove] at h
      split at h
      · cases h
      · rename_i target htarget
        split at h
        · rename_i hstate
          cases h
          exact ⟨.refl _, rfl, ⟨c, hc, rfl⟩, .stateNotFound htarget (hgraph target ▸ hstate)⟩
        · split at h
          · rename_i hcurrent
            cases h
            exact ⟨.refl _, rfl, ⟨c, hc, rfl⟩, .noActiveState (hactive.symm.trans hcurrent)⟩
          · cases h

/-! ## The end of an instance -/

theorem finish_status (hc : w.controls[m]? = some c) (result : Except EngineFault Outcome) :
    (w.finish m result).status =
      { w.status with
        controls := w.status.controls.modify m fun c => { c with phase := .ended }
        keys := w.status.keys.filter fun k => k.owner != .numbered m
        current := none } := by
  rw [controls_getElem?] at hc
  obtain ⟨i, hi, -⟩ := Option.map_eq_some_iff.1 hc
  -- its timers are stopped, it ends, and those nested in it are woken
  obtain ⟨u, hwoken, hfinish⟩ := finish_frame hi result
  have hstop := status_stopTimers (w.remark (endRemark m result)) (.numbered m)
  have hended := status_mapInstance (g := fun c => { c with phase := .ended })
    (f := fun i => { i with phase := .ended, isParked := false, isRegistered := false })
    (((w.remark (endRemark m result)).stopTimers (.numbered m)).cancelTasks (.numbered m)) m
    fun _ => rfl
  have hstatus : u.status = { w.status with
      controls := w.status.controls.modify m fun c => { c with phase := .ended }
      keys := w.status.keys.filter fun k => k.owner != .numbered m } := by
    rw [status_of_core hwoken.core_eq, hended]
    exact congrArg (fun s : Status => { s with
      controls := s.controls.modify m fun c => { c with phase := .ended } }) hstop
  rw [hfinish]
  exact congrArg (fun s : Status => { s with current := none }) hstatus

theorem strand_status (w : World) (m : Nat) :
    (w.strand m).status =
      { w.status with
        controls := w.status.controls.modify m fun c => { c with phase := .stuck }
        current := none } := by
  have hstuck : (w.mapInstance m fun i => { i with phase := .stuck, isParked := false }).status =
      { w.status with
        controls := w.status.controls.modify m fun c => { c with phase := .stuck } } :=
    status_mapInstance w m fun _ => rfl
  exact congrArg (fun s => { s with current := none }) hstuck

/-- An instance that ends is left by its timers, and the turn is over. -/
theorem finish_local (hc : w.controls[m]? = some c) (result : Except EngineFault Outcome) :
    Status.Local m w.status (w.finish m result).status ∧ (w.finish m result).current = none ∧
      (w.finish m result).controls[m]? = some { c with phase := .ended } ∧
      (w.finish m result).status.keysOf (.numbered m) = [] := by
  have hstatus := finish_status hc result
  refine ⟨?_, congrArg Status.current hstatus, ?_, ?_⟩
  · rw [hstatus]
    have hfilter := Status.Local.filter w.status m (fun k => k.owner != .numbered m)
      fun k _ hk => bne_iff_ne.2 hk
    have hmodify := Status.Local.modify
      { w.status with keys := w.status.keys.filter fun k => k.owner != .numbered m } m
      fun c => { c with phase := .ended }
    exact (hfilter.trans hmodify).trans (.of_eq rfl rfl (Nat.le_refl _))
  · exact control_of_modify hc (congrArg Status.controls hstatus)
  · rw [hstatus]
    exact keysOf_filter_ne w.status _

/-- A fault that is fatal stops the instance whose turn it is. -/
theorem fail_stops {t : Turn} {fault : EngineFault} (hc : w.controls[t.number]? = some c)
    (hfatal : fault.isFatal = true) {s : RunState} (hgraph : s.graph = c.graph) :
    Status.Local t.number w.status (w.fail t fault).status ∧ (w.fail t fault).current = none ∧
      ∃ c', (w.fail t fault).controls[t.number]? = some c' ∧
        s.Stops fault
          (c'.runState ((w.fail t fault).status.keysOf (.numbered t.number)) []) := by
  -- a delay without end leaves everything where it is
  by_cases hendless : ∃ name, fault = .endlessDelay name
  · obtain ⟨name, rfl⟩ := hendless
    have hstatus := strand_status w t.number
    refine ⟨?_, congrArg Status.current hstatus, { c with phase := .stuck }, ?_, ?_⟩
    · change Status.Local t.number w.status (w.strand t.number).status
      rw [hstatus]
      exact (Status.Local.modify w.status t.number _).trans (.of_eq rfl rfl (Nat.le_refl _))
    · exact control_of_modify hc (congrArg Status.controls hstatus)
    · rw [Control.runState, ← hgraph]
      exact .strands name _ _ rfl
  · have hfail : w.fail t fault = w.finish t.number (.error fault) := by
      cases fault with
      | endlessDelay name => exact absurd ⟨name, rfl⟩ hendless
      | _ => simp [fail, hfatal]
    obtain ⟨hlocal, hcurrent, hcontrol, hkeys⟩ := finish_local hc (.error fault)
    rw [hfail]
    refine ⟨hlocal, hcurrent, _, hcontrol, ?_⟩
    rw [hkeys, Control.runState, ← hgraph]
    exact .ends _ hfatal fun name heq => hendless ⟨name, heq⟩

/-! ## Actions -/

/-- An action does nothing to run states but stop a timer of its owner. -/
theorem perform_local {site : Site} {action : Action}
    {result : Except EngineFault (List Action)} (htidy : w.status.IsTidy)
    (howner : site.owner = .numbered m) (h : w.perform site action = (v, result)) :
    Status.Local m w.status v.status ∧ v.controls = w.controls ∧
      ((v.status.keysOf (.numbered m) = w.status.keysOf (.numbered m) ∧
          ∀ name, action = .resetTimeout name → outcomeOf result ≠ .ok ()) ∨
        ∃ key ∈ w.status.keysOf (.numbered m),
          action = .resetTimeout key.name ∧ outcomeOf result = .ok () ∧
          v.status.keysOf (.numbered m) =
            (w.status.keysOf (.numbered m)).filter fun k => k ≠ key) := by
  -- events and variables, invocations, and timers that are reset
  rcases core_perform_cases h with ⟨hcore, hreset⟩ | ⟨call, job, rfl, -, -, hcore⟩ |
    ⟨name, timer, rfl, rfl, htimer, hcore⟩
  · have hstatus := status_of_core hcore
    refine ⟨hstatus ▸ .refl _, congrArg Core.controls hcore, .inl ⟨by rw [hstatus], ?_⟩⟩
    intro name hname heq
    obtain ⟨fault, rfl⟩ := hreset name hname
    cases heq
  · have hstatus : v.status = { w.status with fresh := w.fresh + 1 } := by
      rw [status_eq, hcore, status_eq]
      rfl
    rw [hstatus]
    exact ⟨.of_eq rfl rfl (Nat.le_succ _), congrArg Core.controls hcore,
      .inl ⟨rfl, fun name hname => by cases hname⟩⟩
  · have hstatus : v.status =
        { w.status with keys := w.status.keys.filter fun k => k.id != timer.id } := by
      rw [status_eq, hcore, status_eq]
      simp only [Core.stop, List.filter_map]
      rfl
    have hkeys : v.status.keys = w.status.keys.filter fun k => k.id != timer.id :=
      congrArg Status.keys hstatus
    have hcontrols : v.controls = w.controls := congrArg Core.controls hcore
    have hfound := List.find?_some htimer
    simp only [Bool.and_eq_true, beq_iff_eq] at hfound
    have hkey : timer.key ∈ w.status.keys :=
      List.mem_map_of_mem (List.mem_of_find?_eq_some htimer)
    have hmine : timer.key.owner = .numbered m := hfound.1.trans howner
    -- identities tell timers apart, so that only this one is gone
    have hsame : ∀ k ∈ w.status.keys, k.id = timer.id → k = timer.key := fun k hk hid =>
      List.inj_on_of_nodup_map htidy.nodup hk hkey hid
    refine ⟨?_, hcontrols, .inr ⟨timer.key, ?_, ?_, rfl, ?_⟩⟩
    · rw [hstatus]
      refine .filter _ _ _ fun k hk hne => bne_iff_ne.2 fun hid => hne ?_
      rw [hsame k hk hid, hmine]
    · exact List.mem_filter.2 ⟨hkey, beq_iff_eq.2 hmine⟩
    · exact congrArg Action.resetTimeout hfound.2.symm
    · rw [Status.keysOf, hkeys, Status.keysOf, List.filter_filter, List.filter_filter]
      refine List.filter_congr fun k hk => ?_
      have hid : k.id ≠ timer.id ↔ k ≠ timer.key :=
        ⟨fun hne heq => hne (heq ▸ rfl), fun hne heq => hne (hsame k hk heq)⟩
      by_cases heq : k = timer.key
      · simp [heq, Timer.key]
      · simp [heq, hid.2 heq]

end World

end Statechart
