import Statechart.Proofs.Engine.Operations

/-!
# Every step is a step of the run states

From the operations to turns, and to the step of the engine as a whole.

- `World.handle_advances`    : an instance takes an event
- `World.resume_advances`, `World.beginTurn_advances` : turns
- `World.status_jump`        : time
- `World.Step.advances`      : every step of an engine
-/

namespace Statechart

namespace World

variable {w v : World} {c : Control}

/-! ## Events -/

/-- What an event comes to depends on the state and on what is seen there. -/
theorem react_result {i : Instance} {n : Nat} (hi : w.instance? n = some i) (e : Event) :
    (w.react n e).2 =
      match i.active with
      | none => .error .noActiveState
      | some state =>
          (selectTransition state.name e.name (state.onEvent e.name)
            (guardLookup w.memory (i.stateExtent state) e)).map
              fun follow => (follow.map fun t => Command.move (.transit t)).toList := by
  unfold react
  rw [hi]
  simp only
  cases i.active with
  | none => rfl
  | some state =>
      simp only [select, remarks]
      generalize selectTransition state.name e.name (state.onEvent e.name)
        (guardLookup w.memory (i.stateExtent state) e) = choice
      cases choice with
      | error fault => rfl
      | ok follow => cases follow <;> rfl

/-! ## Turns -/

theorem exists_control {n : Nat} {i : Instance} (hi : w.instance? n = some i) :
    w.controls[n]? = some i.control := by
  rw [controls_getElem?, hi]
  rfl

/-- After a fault of the instance whose turn it is, its run state is that of an instance that was
stopped. -/
theorem fail_advances {u : World} {n : Nat} {isStarting : Bool} {work : List Command}
    {label : Option Happening} {fault : EngineFault} {c' : Control} (htidy : w.status.IsTidy)
    (hc : w.controls[n]? = some c) (hlocal : Status.Local n w.status u.status)
    (hc' : u.controls[n]? = some c') (hgraph : c'.graph = c.graph)
    (hturn : ∀ t, w.current = some t → t.number = n)
    (hlabel : ∀ h, label = some h → h.number? = some n) (hfatal : fault.isFatal = true)
    (hstep : ∀ a b, w.status.runState? n = some a → a.Stops fault b → RunState.Step n a label b) :
    w.status.Advances label (u.fail ⟨n, work, isStarting⟩ fault).status := by
  have ha := Status.runState?_of_control (s := w.status) hc
  obtain ⟨hfail, hcurrent, c'', hc'', hstops⟩ :=
    fail_stops (t := ⟨n, work, isStarting⟩) hc' hfatal
      (s := c.runState (w.status.keysOf (.numbered n))
        ((w.status.workOf n).filterMap Command.move?))
      hgraph.symm
  exact (hlocal.trans hfail).advances_endTurn htidy hc hc'' hturn hcurrent hlabel
    (hstep _ _ ha hstops)

/-- An instance takes an event. -/
theorem handle_advances {n : Nat} {i : Instance} (htidy : w.status.IsTidy)
    (hi : w.instance? n = some i) (hphase : i.phase = .running)
    (hturn : ∀ t, w.current = some t → t.number = n ∧ t.work = []) (e : Event) :
    w.status.Advances (some (.took n e (outcomeOf (w.react n e).2))) (w.handle n e).status := by
  have hc := exists_control hi
  have hwork : w.status.workOf n = [] := Status.workOf_of_turn hturn
  have hresult := react_result hi e
  have hcore := (Writes.react w n e).core_eq
  have ha := Status.runState?_of_control (s := w.status) hc
  -- without a state, with several transitions to follow, or with one at most
  unfold handle
  cases hreact : w.react n e with
  | mk v result =>
      rw [hreact] at hresult hcore
      simp only at hresult hcore ⊢
      have hstatus := status_of_core hcore
      have hcontrol : v.controls[n]? = some i.control :=
        (congrArg (fun s : Status => s.controls[n]?) hstatus).trans hc
      cases hactive : i.active with
      | none =>
          rw [hactive] at hresult
          subst hresult
          refine fail_advances htidy hc (hstatus ▸ .refl _) hcontrol rfl
            (fun t ht => (hturn t ht).1) (fun h heq => by cases heq; rfl) rfl
            fun a b hsome hstops => ?_
          rw [ha, hwork] at hsome
          cases hsome
          exact .lost hphase rfl hactive hstops
      | some state =>
          rw [hactive] at hresult
          simp only at hresult
          cases hchoice : selectTransition state.name e.name (state.onEvent e.name)
            (guardLookup w.memory (i.stateExtent state) e) with
          | error fault =>
              rw [hchoice] at hresult
              subst hresult
              obtain ⟨count, hmany, hcount, rfl⟩ := selectTransition_error hchoice
              refine fail_advances htidy hc (hstatus ▸ .refl _) hcontrol rfl
                (fun t ht => (hturn t ht).1) (fun h heq => by cases heq; rfl) rfl
                fun a b hsome hstops => ?_
              rw [ha, hwork] at hsome
              cases hsome
              exact .refuse hphase rfl hactive hmany hcount hstops
          | ok follow =>
              rw [hchoice] at hresult
              subst hresult
              have hstep := RunState.Step.take (n := n) (e := e)
                (s := i.control.runState (w.status.keysOf (.numbered n)) []) hphase rfl hactive
                (selectTransition_ok hchoice)
              have hlocal : Status.Local n w.status v.status := hstatus ▸ .refl _
              refine hlocal.advances_withTurn htidy hc hcontrol (fun t ht => (hturn t ht).1)
                hphase (actAt_follow follow) (fun h heq => by cases heq; rfl) ?_
              rw [hwork, hstatus, filterMap_move?_follow]
              exact hstep

/-- An instance in its turn, or before it, takes its next event or waits for one. -/
theorem next_advances {n : Nat} {i : Instance} (htidy : w.status.IsTidy)
    (hi : w.instance? n = some i) (hphase : i.phase = .running)
    (hturn : ∀ t, w.current = some t → t.number = n ∧ t.work = []) :
    w.status.Advances (w.taking? n) (w.next n i).status := by
  have hc := exists_control hi
  -- without an event the instance is parked, and its turn is over
  cases hinbox : i.inbox with
  | nil =>
      have hpark : (w.mapInstance n fun i => { i with isParked := true }).status = w.status :=
        status_of_core (core_mapInstance w n fun _ => rfl)
      have hstatus : (w.next n i).status = { w.status with current := none } := by
        simp only [next, hinbox, ← hpark]
        rfl
      have hlabel : w.taking? n = none := by simp [taking?, hi, hinbox]
      rw [hstatus, hlabel]
      refine Status.Local.advances_endTurn (.of_eq rfl rfl (Nat.le_refl _)) htidy hc hc
        (fun t ht => (hturn t ht).1) rfl (fun h heq => by cases heq) ?_
      rw [Status.workOf_of_turn hturn]
      exact .stay fun h heq => by cases heq
  | cons e rest =>
      -- the event is taken from the inbox first, which nothing else depends on
      generalize hu : (w.mapInstance n fun i => { i with inbox := rest }) = u
      have hui : u.instance? n = some { i with inbox := rest } := by
        rw [← hu, instance?_mapInstance, if_pos rfl, hi]
        rfl
      have hresult : (w.react n e).2 = (u.react n e).2 := by
        rw [react_result hui, react_result hi, ← hu]
        rfl
      have hstatus : u.status = w.status := by
        rw [← hu]
        exact status_of_core (core_mapInstance w n fun _ => rfl)
      have hnext : w.next n i = u.handle n e := by
        simp only [next, hinbox, hu]
      have hlabel : w.taking? n = some (.took n e (outcomeOf (u.react n e).2)) := by
        simp [taking?, hi, hinbox, hresult]
      rw [hlabel, hnext, ← hstatus]
      refine handle_advances (hstatus ▸ htidy) hui hphase (fun t ht => hturn t ?_) e
      exact (congrArg Status.current hstatus).symm.trans ht

/-- An action puts others at its site in front of the worklist. -/
theorem advance_act {site : Site} {action : Action} {result : Except EngineFault (List Action)}
    (h : w.perform site action = (v, result)) (n : Nat) (rest : List Command) :
    ∃ u as, (instanceMachine n).advance w (.act site action) rest =
      (u, .ok (actions site as ++ rest)) ∧ u.core = v.core := by
  have hperform : (instanceMachine n).perform w site action = (v, result) := h
  simp only [Machine.advance, Machine.execute, Actor.execute, hperform]
  cases result with
  | ok next => exact ⟨v, next, rfl, rfl⟩
  | error fault => exact ⟨_, [], rfl, rfl⟩

/-- A command in the turn of an instance. -/
theorem resume_cons_advances {t : Turn} {command : Command} {rest : List Command}
    (htidy : w.status.IsTidy) (hcurrent : w.current = some t) (hwork : t.work = command :: rest) :
    w.status.Advances (some (.did t.number command (w.outcome t.number command)))
      (w.resume t).status := by
  obtain ⟨c, hc, hphase⟩ := htidy.running t hcurrent
  have hturn : ∀ t', w.status.current = some t' → t'.number = t.number := by
    intro t' ht'
    rw [Option.some.inj (hcurrent.symm.trans ht')]
  have hmine : Status.IsWorkOf t.number (command :: rest) := hwork ▸ htidy.work t hcurrent
  have hrest : Status.IsWorkOf t.number rest := ActAt.tail hmine
  have hall : w.status.workOf t.number = command :: rest :=
    (Status.workOf_of_current hcurrent).trans hwork
  simp only [resume, hwork]
  cases command with
  | act site action =>
      have howner : site.owner = .numbered t.number := hmine site action List.mem_cons_self
      cases hperform : w.perform site action with
      | mk v result =>
          obtain ⟨u, as, hadvance, hcore⟩ := advance_act hperform t.number rest
          obtain ⟨hlocal, hcontrols, hcases⟩ := perform_local htidy howner hperform
          -- what the action gives rise to is work of the same instance
          have hstatus := status_of_core hcore
          rw [hadvance, outcome, hperform]
          refine (hstatus ▸ hlocal : Status.Local t.number w.status u.status).advances_withTurn
            htidy hc (?_ : u.controls[t.number]? = some c) hturn hphase
            (ActAt.append (actAt_actions howner as) hrest)
            (fun h heq => by cases heq; rfl) ?_
          · rw [show u.controls = w.controls from (congrArg Core.controls hcore).trans hcontrols]
            exact hc
          · rw [hall, hstatus, List.filterMap_append, filterMap_move?_actions, List.nil_append]
            rcases hcases with ⟨hkeys, hreset⟩ | ⟨key, hkey, rfl, hok, hkeys⟩
            · rw [hkeys]
              exact .act hphase hreset
            · rw [hkeys]
              simp only [hok]
              exact .reset hphase hkey
  | move step =>
      cases hexec : (instanceMachine t.number).executeMove w step with
      | mk v result =>
          have hmoves : (w.status.workOf t.number).filterMap Command.move? =
              step :: rest.filterMap Command.move? := by
            rw [hall]
            rfl
          simp only [Machine.advance, Machine.execute, outcome, hexec]
          cases result with
          | ok next =>
              obtain ⟨hlocal, -, hnext, c', hc', hsame, hstep⟩ :=
                executeMove_ok hc hexec (step :: rest.filterMap Command.move?)
              refine hlocal.advances_withTurn htidy hc hc' hturn (hsame.trans hphase)
                (ActAt.append hnext hrest) (fun h heq => by cases heq; rfl) ?_
              rw [hmoves, List.filterMap_append]
              exact .move hphase rfl hstep
          | error fault =>
              obtain ⟨hlocal, -, ⟨c', hc', hgraph⟩, hfaults⟩ :=
                executeMove_error hc hexec (step :: rest.filterMap Command.move?)
              refine fail_advances htidy hc hlocal hc' hgraph hturn
                (fun h heq => by cases heq; rfl) hfaults.isFatal fun a b ha hstops => ?_
              rw [Status.runState?_of_control hc, hmoves] at ha
              cases ha
              exact .fault hphase rfl hfaults hstops

/-- A step of a turn. -/
theorem resume_advances {t : Turn} (htidy : w.status.IsTidy) (hcurrent : w.current = some t) :
    w.status.Advances w.happening? (w.resume t).status := by
  obtain ⟨c, hc, hphase⟩ := htidy.running t hcurrent
  obtain ⟨i, hi, rfl⟩ := Option.map_eq_some_iff.1 ((controls_getElem? w t.number).symm.trans hc)
  have hturn : ∀ t', w.current = some t' → t' = t := fun t' ht' =>
    Option.some.inj (ht'.symm.trans hcurrent)
  -- commands first; without any the turn ends, or goes on with the next event
  cases hwork : t.work with
  | cons command rest =>
      have hlabel : w.happening? = some (.did t.number command (w.outcome t.number command)) := by
        simp only [happening?, hcurrent, hwork]
      rw [hlabel]
      exact resume_cons_advances htidy hcurrent hwork
  | nil =>
      cases hstop : w.stopReason? i with
      | some outcome =>
          have hlabel : w.happening? = none := by
            simp [happening?, hcurrent, hwork, hi, hstop]
          have hresume : w.resume t = w.finish t.number (.ok outcome) := by
            simp only [resume, hwork, hi, hstop]
          obtain ⟨hlocal, hnone, hc', hkeys⟩ := finish_local hc (.ok outcome)
          rw [hlabel, hresume]
          refine hlocal.advances_endTurn htidy hc hc' (fun t' ht' => hturn t' ht' ▸ rfl) hnone
            (fun h heq => by cases heq) ?_
          rw [Status.workOf_of_current hcurrent, hwork, hkeys]
          exact .finish hphase rfl
      | none =>
          have hlabel : w.happening? = w.taking? t.number := by
            simp [happening?, hcurrent, hwork, hi, hstop]
          have hresume : w.resume t = w.next t.number i := by
            simp only [resume, hwork, hi, hstop]
          rw [hlabel, hresume]
          refine next_advances htidy hi hphase fun t' ht' => ?_
          rw [hturn t' ht']
          exact ⟨rfl, hwork⟩

/-- What an instance takes next depends on the instances and on the variables. -/
theorem taking?_congr {u : World} (hinstances : u.instances = w.instances)
    (hmemory : u.memory = w.memory) (n : Nat) : u.taking? n = w.taking? n := by
  have hinstance : u.instance? n = w.instance? n := congrArg (fun is => is[n]?) hinstances
  simp only [taking?, hinstance]
  cases hi : w.instance? n with
  | none => rfl
  | some i =>
      have hresult : ∀ e, (u.react n e).2 = (w.react n e).2 := fun e => by
        rw [react_result (hinstance.trans hi), react_result hi, hmemory]
      simp [hresult]

/-- The first turn of an instance. -/
theorem beginTurn_created {n : Nat} {i : Instance} (hi : w.instance? n = some i)
    (hphase : i.phase = .created) :
    (w.beginTurn n).status =
      Status.withTurn
        { w.status with
          controls := w.status.controls.modify n fun c => { c with phase := .running } }
        (some ⟨n, [.move (.enterInitial i.graph.initial)], true⟩) := by
  have hrunning := status_mapInstance
    (f := fun j => { j with phase := .running, deadline := w.deadline.map fun d => w.clock + d })
    (g := fun c => { c with phase := .running })
    (w.say .notice n ("started (" ++ i.graph.name ++ ")")) n fun _ => rfl
  simp only [beginTurn, hi, hphase]
  exact congrArg
    (fun s => Status.withTurn s (some ⟨n, [.move (.enterInitial i.graph.initial)], true⟩)) hrunning

/-- The beginning of a turn. -/
theorem beginTurn_advances (htidy : w.status.IsTidy) (hnone : w.current = none) (n : Nat) :
    w.status.Advances
      (if (w.instance? n).any fun i => i.phase == .running && w.choices.prefersEvent w.turns then
        w.taking? n else none)
      (w.beginTurn n).status := by
  have hturn : ∀ t, w.current = some t → t.number = n ∧ t.work = [] := fun t ht => by
    rw [hnone] at ht
    cases ht
  have hmine : ∀ t, w.status.current = some t → t.number = n := fun t ht => (hturn t ht).1
  cases hi : w.instance? n with
  | none =>
      simp only [beginTurn, hi]
      exact htidy.advances fun h heq => by cases heq
  | some i =>
      have hc := exists_control hi
      cases hphase : i.phase with
      | created =>
          have hlabel : ¬ ((some i).any fun i => i.phase == .running &&
              w.choices.prefersEvent w.turns) = true := by
            simp [hphase]
          have hlocal := Status.Local.modify w.status n fun c => { c with phase := .running }
          have hc' : (w.status.controls.modify n fun c => { c with phase := .running })[n]? =
              some { i.control with phase := .running } := by
            have hsome : w.status.controls[n]? = some i.control := hc
            rw [List.getElem?_modify_eq, hsome]
            rfl
          rw [if_neg hlabel, beginTurn_created hi hphase]
          refine hlocal.advances_withTurn htidy hc hc' hmine rfl
            (actAt_moves [.enterInitial i.graph.initial]) (fun h heq => by cases heq) ?_
          rw [Status.workOf_of_turn hturn]
          exact .begin hphase rfl
      | running =>
          -- the turn is counted before an event or a request to stop is chosen
          generalize hu : ({ w with turns := w.turns + 1 } : World) = u
          have huw : u.status = w.status := by
            rw [← hu]
            rfl
          have hui : u.instance? n = some i := by
            rw [← hu]
            exact hi
          have htaking : u.taking? n = w.taking? n := taking?_congr (hu ▸ rfl) (hu ▸ rfl) n
          have hbegin : w.beginTurn n =
              if w.choices.prefersEvent w.turns && !i.inbox.isEmpty then u.next n i
              else { u with current := some ⟨n, [], false⟩ } := by
            simp only [beginTurn, hi, hphase, ← hu, Nat.add_sub_cancel]
          rw [hbegin]
          by_cases hprefers : (w.choices.prefersEvent w.turns && !i.inbox.isEmpty) = true
          · have hlabel : ((some i).any fun i => i.phase == .running &&
                w.choices.prefersEvent w.turns) = true := by
              simpa [hphase] using (Bool.and_eq_true_iff.1 hprefers).1
            rw [if_pos hlabel, if_pos hprefers, ← htaking, ← huw]
            refine next_advances (huw ▸ htidy) hui hphase fun t ht => hturn t ?_
            exact (congrArg Status.current huw).symm.trans ht
          · have hlabel : (if (some i).any fun i => i.phase == .running &&
                w.choices.prefersEvent w.turns then w.taking? n else none) = none := by
              cases hinbox : i.inbox with
              | nil => simp [taking?, hi, hinbox]
              | cons e rest =>
                  have hlater : w.choices.prefersEvent w.turns = false := by
                    simpa [hinbox] using hprefers
                  simp [hlater]
            have hlocal : Status.Local n w.status u.status := huw ▸ .refl _
            have hc' : u.status.controls[n]? = some i.control := huw ▸ hc
            rw [hlabel, if_neg hprefers]
            refine hlocal.advances_withTurn htidy hc hc' hmine hphase (actAt_moves [])
              (fun h heq => by cases heq) ?_
            rw [Status.workOf_of_turn hturn, huw]
            exact .stay fun h heq => by cases heq
      | ended =>
          simp only [beginTurn, hi, hphase]
          exact htidy.advances fun h heq => by simp [hphase] at heq
      | stuck =>
          simp only [beginTurn, hi, hphase]
          exact htidy.advances fun h heq => by simp [hphase] at heq

/-! ## Timers, invocations and time -/

theorem status_runTimer (w : World) (id : Nat) : (w.runTimer id).status = w.status :=
  status_of_core (Passes.runTimer w id).core_eq

/-- Invocations are no part of a status, whether they are answered or not. -/
theorem status_runJob (w : World) (id : Nat) : (w.runJob id).status = w.status := by
  rcases runJob_cases w id with hqueues | ⟨_, _, _, _, _, hpasses⟩
  · exact status_of_core hqueues.core_eq
  · exact (status_of_core hpasses.core_eq).trans rfl

/-- Time only queues what is due. -/
theorem status_jump (w : World) (time : Nat) : (w.jump time).status = w.status :=
  status_of_core (core_jump w time)

/-! ## Steps -/

/-- Every step of an engine is a step of its run states. -/
theorem Step.advances {label : Option Happening} (hstep : Step w label v)
    (htidy : w.status.IsTidy) (hbuilt : ∀ r, label = some (.asked r) → r.IsBuilt) :
    w.status.Advances label v.status := by
  cases hstep with
  | ask r => exact (serve_grows w (hbuilt r rfl)).advances htidy fun h heq => by cases heq; rfl
  | go hgo =>
      unfold step? at hgo
      split at hgo
      · rename_i t hcurrent
        cases hgo
        exact resume_advances htidy hcurrent
      · rename_i hnone
        split at hgo
        · rename_i task rest hready
          cases hgo
          have htidy' : ({ w with ready := rest } : World).status.IsTidy := htidy
          -- only a turn changes run states
          cases task with
          | turn n =>
              have htaking : ({ w with ready := rest } : World).taking? n = w.taking? n :=
                taking?_congr (by rfl) (by rfl) n
              have hlabel : w.happening? =
                  if (w.instance? n).any fun i =>
                      i.phase == .running && w.choices.prefersEvent w.turns then
                    ({ w with ready := rest } : World).taking? n else none := by
                rw [htaking]
                simp only [happening?, hnone, hready]
              rw [hlabel]
              exact beginTurn_advances htidy' hnone n
          | timer id =>
              have hlabel : w.happening? =
                  ((w.timerById? id).filter (·.isAwake)).map .fired := by
                simp only [happening?, hnone, hready]
              have hstatus : (({ w with ready := rest } : World).run (.timer id)).status =
                  w.status := status_runTimer _ id
              rw [hstatus, hlabel]
              refine htidy.advances fun h heq => ?_
              obtain ⟨timer, -, rfl⟩ := Option.map_eq_some_iff.1 heq
              rfl
          | job id =>
              have hlabel : w.happening? = none := by simp only [happening?, hnone, hready]
              have hstatus : (({ w with ready := rest } : World).run (.job id)).status = w.status :=
                status_runJob _ id
              rw [hstatus, hlabel]
              exact htidy.advances fun h heq => by cases heq
        · cases hgo
  | jump time =>
      rw [status_jump]
      exact htidy.advances fun h heq => by cases heq
  | wait time => exact htidy.advances fun h heq => by cases heq

end World

end Statechart
