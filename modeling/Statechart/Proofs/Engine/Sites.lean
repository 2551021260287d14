import Statechart.Proofs.Engine.Simulation

/-!
# Where things are done

Timers raise their events at sites, invocations are begun at sites, and the actions of a turn are
done at sites. A new site is a part of the instance whose turn it is, and all others were there
before. What holds of the parts of all instances so holds of all sites.

- `World.AreAt`        : timers are at sites with one property, all else at sites with another one
- `World.OffersSites`  : the parts of an instance have these properties
- `World.Step.areAt`   : every step keeps this, if it holds of the instance whose turn it is
- `World.IsOwned`     : timers raise their events for instances
-/

namespace Statechart

def Party.IsInstance (p : Party) : Prop := ∃ n, p = .numbered n

namespace World

variable {P Q : Site → Prop} {w v : World} {n : Nat} {label : Option Happening}

/-- Timers are at sites with one property, invocations and the actions of a turn at sites with
another one. -/
structure AreAt (P Q : Site → Prop) (w : World) : Prop where
  timers : ∀ t ∈ w.timers, P t.site
  jobs : ∀ j ∈ w.jobs, Q j.site
  work : ∀ t, w.current = some t → ActAt Q t.work

/-- The parts of an instance have the property that is asked for. -/
structure OffersSites (P Q : Site → Prop) (w : World) (n : Nat) : Prop where
  machine : Q (w.machineSite n)
  state : ∀ state, P (w.stateSite n state) ∧ Q (w.stateSite n state)
  during : ∀ state, Q { w.stateSite n state with tracksTasks := true }

namespace AreAt

theorem of_core (h : w.AreAt P Q) (hcore : v.core = w.core) : v.AreAt P Q := by
  have hcurrent : v.current = w.current := congrArg Core.current hcore
  refine ⟨fun t ht => ?_, fun j hj => ?_, hcurrent ▸ h.work⟩
  · obtain ⟨t', ht', hplain⟩ := exists_timer_of_core (congrArg Core.timers hcore) ht
    exact Timer.site_eq_of_plain hplain ▸ h.timers t' ht'
  · obtain ⟨j', hj', hplain⟩ := exists_job_of_core (congrArg Core.jobs hcore) hj
    exact Job.site_eq_of_plain hplain ▸ h.jobs j' hj'

/-- Timers and invocations are gone. -/
theorem of_subset (h : w.AreAt P Q) (htimers : v.timers ⊆ w.timers) (hjobs : v.jobs ⊆ w.jobs)
    (hcurrent : v.current = w.current) : v.AreAt P Q :=
  ⟨fun t ht => h.timers t (htimers ht), fun j hj => h.jobs j (hjobs hj), hcurrent ▸ h.work⟩

/-! ## Commands -/

theorem perform (h : w.AreAt P Q) {site : Site} (hsite : Q site) (action : Action) :
    (w.perform site action).1.AreAt P Q := by
  cases hperform : w.perform site action with
  | mk u outcome =>
      cases performs hperform with
      | writes hwrites _ _ => exact h.of_core hwrites.core_eq
      | raises hdelivers => exact h.of_core hdelivers.core_eq
      | draws => exact ⟨h.timers, h.jobs, h.work⟩
      | begins =>
          refine ⟨h.timers, fun j hj => ?_, h.work⟩
          rcases List.mem_append.1 hj with hold | hnew
          · exact h.jobs j hold
          · rw [List.mem_singleton.1 hnew]
            exact hsite
      | stops _ => exact h.of_subset (List.filter_subset_self _) (List.Subset.refl _) rfl

/-- Timers are started at a site. -/
theorem arms {site : Site} (h : w.AreAt P Q) (hsite : P site) (harms : Arms site w v) :
    v.AreAt P Q := by
  obtain ⟨added, fresh, rfl, -, hadded⟩ := harms
  refine ⟨fun t ht => ?_, h.jobs, h.work⟩
  rcases List.mem_append.1 ht with hold | hnew
  · exact h.timers t hold
  · exact (hadded t hnew).1 ▸ hsite

/-- A step between states starts and stops timers of the instance and cancels its invocations. -/
theorem executeMove (h : w.AreAt P Q) (hoffers : w.OffersSites P Q n) (step : Move) :
    ((instanceMachine n).executeMove w step).1.AreAt P Q := by
  rcases executeMove_cases w n step with hmove | ⟨left, -, hmove⟩ | ⟨state, v, hv, hmoved⟩
  · rw [hmove]
    exact h
  · rw [hmove]
    exact h.of_subset (List.filter_subset_self _) (List.filter_subset_self _) rfl
  · have hstarted : v.AreAt P Q :=
      hv ▸ h.arms (hoffers.state state).1 (.startTimers _ w state.after)
    rcases hmoved with hmove | ⟨told, hmove⟩
    · rw [hmove]
      exact hstarted
    · rw [hmove]
      exact ⟨hstarted.timers, hstarted.jobs, hstarted.work⟩

end AreAt

/-- What a step between states gives rise to is done in parts of the instance. -/
theorem OffersSites.executeMove (h : w.OffersSites P Q n) {step : Move} {next : List Command}
    (hmoved : (instanceMachine n).executeMove w step = (v, .ok next)) : ActAt Q next := by
  cases step with
  | enterInitial state =>
      cases hmoved
      exact actAt_moves [.enter state]
  | enter state =>
      cases hmoved
      exact .append (.append (actAt_actions (h.state state).2 _) (actAt_actions (h.during state) _))
        (actAt_moves [.change state])
  | exit state =>
      cases hmoved
      exact actAt_actions (h.state state).2 _
  | change state =>
      obtain ⟨_, follow, -, -, rfl⟩ := Machine.execute_change_inv hmoved
      exact actAt_follow follow
  | transit t =>
      obtain ⟨rfl, hcases⟩ := Machine.execute_transit_inv hmoved
      rcases hcases with ⟨-, rfl⟩ | ⟨target, current, state, -, -, -, rfl⟩
      · exact actAt_actions h.machine _
      · exact .append (actAt_moves [.exit current])
          (.append (actAt_actions h.machine _) (actAt_moves [.enter state]))

namespace AreAt

theorem advance (h : w.AreAt P Q) (hoffers : w.OffersSites P Q n) {c : Command}
    {rest : List Command} {outcome : Except EngineFault (List Command)}
    (hwork : ActAt Q (c :: rest)) (hdone : (instanceMachine n).advance w c rest = (v, outcome)) :
    v.AreAt P Q ∧ ∀ work, outcome = .ok work → ActAt Q work := by
  cases c with
  | act site action =>
      have hsite : Q site := hwork site action List.mem_cons_self
      cases hresult : w.perform site action with
      | mk u result =>
          obtain ⟨u', as, hadvance, hcore⟩ := advance_act hresult n rest
          cases hdone.symm.trans hadvance
          refine ⟨?_, fun work hok => ?_⟩
          · have hperform := h.perform hsite action
            rw [hresult] at hperform
            exact hperform.of_core hcore
          · cases hok
            exact (actAt_actions hsite as).append hwork.tail
  | move step =>
      have hmoved := h.executeMove hoffers step
      cases hresult : (instanceMachine n).executeMove w step with
      | mk u result =>
          rw [hresult] at hmoved
          simp only [Machine.advance, Machine.execute, hresult] at hdone
          cases result with
          | ok next =>
              cases hdone
              refine ⟨hmoved, fun work hok => ?_⟩
              cases hok
              exact (hoffers.executeMove hresult).append hwork.tail
          | error fault =>
              cases hdone
              exact ⟨hmoved, fun work hok => by cases hok⟩

/-! ## Turns -/

theorem finish (h : w.AreAt P Q) (n : Nat) (result : Except EngineFault Outcome) :
    (w.finish n result).AreAt P Q := by
  cases hi : w.instance? n with
  | none =>
      simp only [World.finish, hi]
      exact h
  | some i =>
      obtain ⟨u, hwoken, hfinish⟩ := finish_frame hi result
      have hu : u.AreAt P Q := by
        refine of_core ?_ hwoken.core_eq
        exact h.of_subset (List.filter_subset_self _) (List.filter_subset_self _) rfl
      rw [hfinish]
      exact ⟨hu.timers, hu.jobs, fun t ht => by cases ht⟩

theorem fail (h : w.AreAt P Q) (t : Turn) (fault : EngineFault) : (w.fail t fault).AreAt P Q := by
  unfold World.fail
  split
  · exact ⟨h.timers, h.jobs, fun t ht => by cases ht⟩
  · split
    · exact h.finish t.number _
    · refine ⟨h.timers, h.jobs, fun t ht => ?_⟩
      cases ht
      exact actAt_moves []

/-- An event gives rise to a transition at most. -/
theorem handle {i : Instance} (h : w.AreAt P Q) (hi : w.instance? n = some i) (e : Event) :
    (w.handle n e).AreAt P Q := by
  have hreact := h.of_core (Writes.react w n e).core_eq
  have hresult := react_result hi e
  unfold World.handle
  cases hdone : w.react n e with
  | mk u outcome =>
      rw [hdone] at hreact hresult
      cases outcome with
      | error fault => exact hreact.fail _ fault
      | ok work =>
          refine ⟨hreact.timers, hreact.jobs, fun t ht => ?_⟩
          cases ht
          cases hactive : i.active with
          | none =>
              simp only [hactive] at hresult
              cases hresult
          | some state =>
              simp only [hactive] at hresult
              cases hselect : selectTransition state.name e.name (state.onEvent e.name)
                  (guardLookup w.memory (i.stateExtent state) e) with
              | error fault =>
                  rw [hselect] at hresult
                  cases hresult
              | ok follow =>
                  rw [hselect] at hresult
                  cases hresult
                  exact actAt_follow follow

theorem next {i : Instance} (h : w.AreAt P Q) (hi : w.instance? n = some i) :
    (w.next n i).AreAt P Q := by
  unfold World.next
  split
  · rename_i e rest _
    have hthere := instance?_mapInstance_self (fun i => { i with inbox := rest }) hi
    exact handle (w := w.mapInstance n _) ⟨h.timers, h.jobs, h.work⟩ hthere e
  · exact ⟨h.timers, h.jobs, fun t ht => by cases ht⟩

theorem resume {t : Turn} (h : w.AreAt P Q) (hcurrent : w.current = some t)
    (hoffers : w.OffersSites P Q t.number) : (w.resume t).AreAt P Q := by
  unfold World.resume
  split
  · rename_i c rest hcommands
    have hwork : ActAt Q (c :: rest) := hcommands ▸ h.work t hcurrent
    split
    · rename_i v work hdone
      obtain ⟨hv, hnext⟩ := h.advance hoffers hwork hdone
      refine ⟨hv.timers, hv.jobs, fun t ht => ?_⟩
      cases ht
      exact hnext work rfl
    · rename_i v fault hfailed
      exact (h.advance hoffers hwork hfailed).1.fail t fault
  · split
    · exact ⟨h.timers, h.jobs, fun t ht => by cases ht⟩
    · rename_i i hi
      split
      · exact h.finish t.number _
      · exact h.next hi

theorem beginTurn (h : w.AreAt P Q) (n : Nat) : (w.beginTurn n).AreAt P Q := by
  unfold World.beginTurn
  split
  · exact h
  · rename_i i hi
    split
    · refine ⟨h.timers, h.jobs, fun t ht => ?_⟩
      cases ht
      exact actAt_moves [.enterInitial i.graph.initial]
    · simp only
      split
      · exact next (w := { w with turns := w.turns + 1 }) ⟨h.timers, h.jobs, h.work⟩ hi
      · refine ⟨h.timers, h.jobs, fun t ht => ?_⟩
        cases ht
        exact actAt_moves []
    · exact h
    · exact h

/-! ## Timers, invocations and time -/

theorem runJob (h : w.AreAt P Q) (id : Nat) : (w.runJob id).AreAt P Q := by
  rcases runJob_cases w id with hqueues | ⟨_, _, _, _, _, hpasses⟩
  · exact h.of_core hqueues.core_eq
  · refine of_core ?_ hpasses.core_eq
    exact h.of_subset (List.Subset.refl _) (List.filter_subset_self _) rfl

/-! ## Requests -/

theorem serve (h : w.AreAt P Q) {r : Request} (hr : r.IsBuilt) : (w.serve r).AreAt P Q := by
  -- new instances have neither timers nor invocations
  obtain ⟨added, hcore, -⟩ := serve_grows w hr
  have htimers : (w.serve r).core.timers = w.core.timers := by rw [hcore]
  have hjobs : (w.serve r).core.jobs = w.core.jobs := by rw [hcore]
  refine ⟨fun t ht => ?_, fun j hj => ?_, ?_⟩
  · obtain ⟨t', ht', hplain⟩ := exists_timer_of_core htimers ht
    exact Timer.site_eq_of_plain hplain ▸ h.timers t' ht'
  · obtain ⟨j', hj', hplain⟩ := exists_job_of_core hjobs hj
    exact Job.site_eq_of_plain hplain ▸ h.jobs j' hj'
  · have hcurrent : (w.serve r).current = w.current := congrArg Core.current hcore
    exact hcurrent ▸ h.work

end AreAt

/-- All sites are where they were, or in the instance whose turn it is. -/
theorem Step.areAt (hstep : Step w label v) (h : w.AreAt P Q)
    (hoffers : ∀ t, w.current = some t → w.OffersSites P Q t.number)
    (hbuilt : ∀ r, label = some (.asked r) → r.IsBuilt) : v.AreAt P Q := by
  cases hstep with
  | ask r => exact h.serve (hbuilt r rfl)
  | go hgo =>
      unfold step? at hgo
      split at hgo
      · rename_i t hcurrent
        cases hgo
        exact h.resume hcurrent (hoffers t hcurrent)
      · split at hgo
        · rename_i task rest _
          cases hgo
          have hready : AreAt P Q { w with ready := rest } := ⟨h.timers, h.jobs, h.work⟩
          cases task with
          | turn n => exact hready.beginTurn n
          | timer id => exact hready.of_core (Passes.runTimer _ id).core_eq
          | job id => exact hready.runJob id
        · cases hgo
  | jump time => exact h.of_core (core_jump w time)
  | wait time => exact ⟨h.timers, h.jobs, h.work⟩

/-! ## Instances -/

/-- Every timer raises its event for an instance. -/
def IsOwned (w : World) : Prop := w.AreAt (fun site => site.owner.IsInstance) fun _ => True

theorem Step.isOwned (hstep : Step w label v) (h : w.IsOwned)
    (hbuilt : ∀ r, label = some (.asked r) → r.IsBuilt) : v.IsOwned := by
  refine hstep.areAt h (fun t _ => ?_) hbuilt
  exact ⟨trivial, fun _ => ⟨⟨t.number, rfl⟩, trivial⟩, fun _ => trivial⟩

end World

end Statechart
