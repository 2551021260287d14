import Statechart.Proofs.Worklist.Effects

/-!
# Machines in lockstep

Two machines do the same as far as a relation between their configurations tells if every operation
on related configurations comes to the same and keeps them related. So do their worklists, with a
machine to move or without.

- `Actor.Matches`, `Machine.Matches` : operation by operation
- `Actor.Matches.drain`, `Machine.Matches.drain` : so are worklists
- `Machine.Matches.traced`           : with the same effects
-/

namespace Statechart

variable {σ τ : Type} {R : σ → τ → Prop}

/-- What comes to the same, with one outcome. -/
theorem exists_outcome {α : Type} {done : σ × α} {done' : τ × α}
    (h : R done.1 done'.1 ∧ done.2 = done'.2) :
    ∃ s t outcome, done = (s, outcome) ∧ done' = (t, outcome) ∧ R s t :=
  ⟨done.1, done'.1, done.2, rfl, Prod.ext rfl h.2.symm, h.1⟩

/-! ## Without a machine to move -/

/-- From related configurations, actions give rise to the same and leave related ones. -/
structure Actor.Matches (R : σ → τ → Prop) (a : Actor σ) (b : Actor τ) : Prop where
  perform {s : σ} {t : τ} : R s t → ∀ site action,
    R (a.perform s site action).1 (b.perform t site action).1 ∧
      (a.perform s site action).2 = (b.perform t site action).2
  remark {s : σ} {t : τ} : R s t → ∀ r, R (a.remark s r) (b.remark t r)

namespace Actor.Matches

variable {a : Actor σ} {b : Actor τ} {s : σ} {t : τ}

theorem execute (h : a.Matches R b) (hst : R s t) (site : Site) (action : Action) :
    R (a.execute s site action).1 (b.execute t site action).1 ∧
      (a.execute s site action).2 = (b.execute t site action).2 := by
  obtain ⟨s', t', outcome, hdone, hdone', hnext⟩ := exists_outcome (h.perform hst site action)
  rw [Actor.execute, Actor.execute, hdone, hdone']
  cases outcome with
  | ok next => exact ⟨hnext, rfl⟩
  | error fault => exact ⟨h.remark hnext _, rfl⟩

theorem drain (h : a.Matches R b) (hst : R s t) (fuel : Nat) (work : List Command) :
    Option.Rel R (a.drain fuel s work) (b.drain fuel t work) := by
  induction fuel generalizing s t work with
  | zero =>
      cases work with
      | nil => exact .some hst
      | cons c rest => exact .none
  | succ fuel ih =>
      cases work with
      | nil => exact .some hst
      | cons c rest =>
          cases c with
          | act site action =>
              obtain ⟨hnext, hwork⟩ := h.execute hst site action
              simp only [Actor.drain, Actor.advance, hwork]
              exact ih hnext _
          | move step => exact ih (h.remark hst _) rest

theorem exists_drain {s' : σ} {fuel : Nat} {work : List Command} (h : a.Matches R b) (hst : R s t)
    (hdrain : a.drain fuel s work = some s') :
    ∃ t', b.drain fuel t work = some t' ∧ R s' t' := by
  have hsame := h.drain hst fuel work
  rw [hdrain] at hsame
  generalize b.drain fuel t work = drained at hsame
  cases hsame with
  | @some _ t' hst' => exact ⟨t', rfl, hst'⟩

end Actor.Matches

/-! ## With one -/

/-- All operations come to the same and leave related configurations. -/
structure Machine.Matches (R : σ → τ → Prop) (m : Machine σ) (m' : Machine τ) : Prop
    extends Actor.Matches R m.toActor m'.toActor where
  active? {s : σ} {t : τ} : R s t → m.active? s = m'.active? t
  state? {s : σ} {t : τ} : R s t → ∀ name, m.state? s name = m'.state? t name
  machineSite {s : σ} {t : τ} : R s t → m.machineSite s = m'.machineSite t
  stateSite {s : σ} {t : τ} : R s t → ∀ state, m.stateSite s state = m'.stateSite t state
  duringSite {s : σ} {t : τ} : R s t → ∀ state, m.duringSite s state = m'.duringSite t state
  startTimers {s : σ} {t : τ} : R s t → ∀ state,
    R (m.startTimers s state).1 (m'.startTimers t state).1 ∧
      (m.startTimers s state).2 = (m'.startTimers t state).2
  stopTimers {s : σ} {t : τ} : R s t → R (m.stopTimers s) (m'.stopTimers t)
  cancelTasks {s : σ} {t : τ} : R s t → R (m.cancelTasks s) (m'.cancelTasks t)
  setActive {s : σ} {t : τ} : R s t → ∀ state, R (m.setActive s state) (m'.setActive t state)
  selectAlways {s : σ} {t : τ} : R s t → ∀ state,
    R (m.selectAlways s state).1 (m'.selectAlways t state).1 ∧
      (m.selectAlways s state).2 = (m'.selectAlways t state).2

/-- Two drains that leave the same commands, for the same reason, and related configurations. -/
structure Drained.Matches (R : σ → τ → Prop) (d : Drained σ) (d' : Drained τ) : Prop where
  final : R d.final d'.final
  left : d.left = d'.left
  outcome : d.outcome = d'.outcome

namespace Machine.Matches

variable {m : Machine σ} {m' : Machine τ} {s : σ} {t : τ}

theorem executeMove (h : m.Matches R m') (hst : R s t) (step : Move) :
    R (m.executeMove s step).1 (m'.executeMove t step).1 ∧
      (m.executeMove s step).2 = (m'.executeMove t step).2 := by
  cases step with
  | enterInitial state => exact ⟨hst, rfl⟩
  | enter state =>
      rw [Machine.executeMove, Machine.executeMove, h.stateSite hst, h.duringSite hst]
      exact ⟨hst, rfl⟩
  | exit state =>
      have hleft := h.cancelTasks (h.stopTimers hst)
      refine ⟨hleft, ?_⟩
      simp only [Machine.executeMove, h.stateSite hleft]
  | change state =>
      obtain ⟨s', t', outcome, hdone, hdone', hstarted⟩ := exists_outcome (h.startTimers hst state)
      simp only [Machine.executeMove, hdone, hdone']
      cases outcome with
      | error fault => exact ⟨hstarted, rfl⟩
      | ok _ =>
          obtain ⟨s'', t'', choice, hselect, hselect', hchosen⟩ :=
            exists_outcome (h.selectAlways (h.setActive hstarted state) state)
          simp only [hselect, hselect']
          cases choice with
          | error fault => exact ⟨hchosen, rfl⟩
          | ok follow => cases follow <;> exact ⟨hchosen, rfl⟩
  | transit selected =>
      simp only [Machine.executeMove, h.machineSite hst, h.active? hst, h.state? hst]
      cases selected.target? with
      | none => exact ⟨hst, rfl⟩
      | some target =>
          simp only
          cases m'.state? t target with
          | none => exact ⟨hst, rfl⟩
          | some next =>
              simp only
              cases m'.active? t <;> exact ⟨hst, rfl⟩

theorem execute (h : m.Matches R m') (hst : R s t) (c : Command) :
    R (m.execute s c).1 (m'.execute t c).1 ∧ (m.execute s c).2 = (m'.execute t c).2 := by
  cases c with
  | act site action =>
      obtain ⟨hnext, hwork⟩ := h.toMatches.execute hst site action
      exact ⟨hnext, congrArg Except.ok hwork⟩
  | move step => exact h.executeMove hst step

theorem drain (h : m.Matches R m') (hst : R s t) (fuel : Nat) (work : List Command) :
    Option.Rel (Drained.Matches R) (m.drain fuel s work) (m'.drain fuel t work) := by
  induction fuel generalizing s t work with
  | zero =>
      cases work with
      | nil => exact .some ⟨hst, rfl, rfl⟩
      | cons c rest => exact .none
  | succ fuel ih =>
      cases work with
      | nil => exact .some ⟨hst, rfl, rfl⟩
      | cons c rest =>
          obtain ⟨s', t', outcome, hdone, hdone', hnext⟩ := exists_outcome (h.execute hst c)
          rw [drain_cons, drain_cons, hdone, hdone']
          cases outcome with
          | ok next => exact ih hnext _
          | error fault => exact .some ⟨hnext, rfl, rfl⟩

/-- What is done to the one machine is done to the other, whatever was done to each before. -/
theorem traced (h : m.Matches R m') (before after : List Effect) :
    Machine.Matches (fun (s : σ × List Effect) (t : τ × List Effect) =>
      R s.1 t.1 ∧ ∃ es, s.2 = before ++ es ∧ t.2 = after ++ es) m.traced m'.traced := by
  -- an effect that is written down is the last of both
  have hmore : ∀ {es es' : List Effect} (effect : Effect),
      (∃ shared, es = before ++ shared ∧ es' = after ++ shared) →
        ∃ shared, es ++ [effect] = before ++ shared ∧ es' ++ [effect] = after ++ shared := by
    rintro _ _ effect ⟨shared, rfl, rfl⟩
    exact ⟨shared ++ [effect], List.append_assoc _ _ _, List.append_assoc _ _ _⟩
  refine ⟨⟨fun hst site action => ?_, fun hst r => ⟨h.remark hst.1 r, hst.2⟩⟩,
    fun hst => h.active? hst.1, fun hst => h.state? hst.1, fun hst => h.machineSite hst.1,
    fun hst => h.stateSite hst.1, fun hst => h.duringSite hst.1, fun hst state => ?_,
    fun hst => ⟨h.stopTimers hst.1, hmore _ hst.2⟩,
    fun hst => ⟨h.cancelTasks hst.1, hmore _ hst.2⟩,
    fun hst state => ⟨h.setActive hst.1 state, hmore _ hst.2⟩, fun hst state => ?_⟩
  · obtain ⟨hnext, houtcome⟩ := h.perform hst.1 site action
    exact ⟨⟨hnext, hmore _ hst.2⟩, houtcome⟩
  · obtain ⟨hnext, houtcome⟩ := h.startTimers hst.1 state
    exact ⟨⟨hnext, hmore _ hst.2⟩, houtcome⟩
  · obtain ⟨hnext, houtcome⟩ := h.selectAlways hst.1 state
    exact ⟨⟨hnext, hst.2⟩, houtcome⟩

end Machine.Matches

end Statechart
