import Statechart.Engine.Worklist

/-!
# What a worklist does to its machine

A machine can be made to write down everything that is done to it. Draining a worklist is then
described without fuel, step by step, together with the effects that are written down.

- `Effect`                 : one thing that is done to a machine
- `Machine.traced`         : the same machine, which writes down its effects
- `Machine.Drains`         : a drain in a number of steps, with its effects and what it comes to
- `Machine.Drains.traced`  : the effects are those that the traced machine writes down
-/

namespace Statechart

/-! ## Effects -/

inductive Effect where
  | did (site : Site) (action : Action)
  | stopTimers
  | cancelTasks
  | startTimers (state : State)
  | activate (state : State)

namespace Machine

variable {σ : Type} {m : Machine σ}

/-- The same machine, which writes down what is done to it. What is only looked up or said leaves
no trace. -/
def traced (m : Machine σ) : Machine (σ × List Effect) :=
  { perform := fun s site action =>
      (((m.perform s.1 site action).1, s.2 ++ [.did site action]),
        (m.perform s.1 site action).2)
    remark := fun s r => (m.remark s.1 r, s.2)
    active? := fun s => m.active? s.1
    state? := fun s name => m.state? s.1 name
    machineSite := fun s => m.machineSite s.1
    stateSite := fun s state => m.stateSite s.1 state
    duringSite := fun s state => m.duringSite s.1 state
    startTimers := fun s state =>
      (((m.startTimers s.1 state).1, s.2 ++ [.startTimers state]), (m.startTimers s.1 state).2)
    stopTimers := fun s => (m.stopTimers s.1, s.2 ++ [.stopTimers])
    cancelTasks := fun s => (m.cancelTasks s.1, s.2 ++ [.cancelTasks])
    setActive := fun s state => (m.setActive s.1 state, s.2 ++ [.activate state])
    selectAlways := fun s state =>
      (((m.selectAlways s.1 state).1, s.2), (m.selectAlways s.1 state).2) }

/-- The effects of one command. -/
def effectsOf (m : Machine σ) (s : σ) : Command → List Effect
  | .act site action => [.did site action]
  | .move (.exit _) => [.stopTimers, .cancelTasks]
  | .move (.change state) =>
      match (m.startTimers s state).2 with
      | .ok () => [.startTimers state, .activate state]
      | .error _ => [.startTimers state]
  | .move _ => []

/-- The traced machine does the same and writes down the effects of the command. -/
theorem execute_traced (s : σ) (es : List Effect) (c : Command) :
    m.traced.execute (s, es) c =
      (((m.execute s c).1, es ++ m.effectsOf s c), (m.execute s c).2) := by
  cases c with
  | act site action =>
      simp only [execute, Actor.execute, traced, effectsOf]
      generalize m.perform s site action = done
      obtain ⟨t, outcome⟩ := done
      cases outcome with
      | ok next => rfl
      | error fault => rfl
  | move step =>
      cases step with
      | enterInitial state => simp [execute, executeMove, effectsOf]
      | enter state => simp [execute, executeMove, effectsOf, traced]
      | exit state => simp [execute, executeMove, effectsOf, traced]
      | change state =>
          simp only [execute, executeMove, effectsOf, traced]
          generalize m.startTimers s state = started
          obtain ⟨t, outcome⟩ := started
          cases outcome with
          | error fault => rfl
          | ok _ =>
              simp only
              generalize m.selectAlways (m.setActive t state) state = chosen
              obtain ⟨u, choice⟩ := chosen
              cases choice with
              | error fault => simp
              | ok follow => cases follow <;> simp
      | transit selected =>
          simp only [execute, executeMove, effectsOf, traced, List.append_nil]
          cases selected.target? with
          | none => rfl
          | some target =>
              simp only
              cases m.state? s target with
              | none => rfl
              | some next =>
                  simp only
                  cases m.active? s <;> rfl

/-! ## Drains -/

/-- A worklist is drained in a number of steps: its effects in their order, and what it comes to. -/
inductive Drains (m : Machine σ) : Nat → σ → List Command → List Effect → Drained σ → Prop where
  | done (s : σ) : Drains m 0 s [] [] ⟨s, [], .ok ()⟩
  | step {n : Nat} {s t : σ} {c : Command} {next rest : List Command} {es : List Effect}
      {d : Drained σ} :
      m.execute s c = (t, .ok next) → Drains m n t (next ++ rest) es d →
        Drains m (n + 1) s (c :: rest) (m.effectsOf s c ++ es) d
  | fault {s t : σ} {c : Command} {rest : List Command} {fault : EngineFault} :
      m.execute s c = (t, .error fault) →
        Drains m 1 s (c :: rest) (m.effectsOf s c) ⟨t, rest, .error fault⟩

/-- A worklist is drained to its end. -/
def Completes (m : Machine σ) (n : Nat) (s : σ) (work : List Command) (es : List Effect) (t : σ) :
    Prop :=
  m.Drains n s work es ⟨t, [], .ok ()⟩

theorem drain_cons (fuel : Nat) (s : σ) (c : Command) (rest : List Command) :
    m.drain (fuel + 1) s (c :: rest) =
      match m.execute s c with
      | (t, .ok next) => m.drain fuel t (next ++ rest)
      | (t, .error fault) => some ⟨t, rest, .error fault⟩ := by
  simp only [drain, advance]
  generalize m.execute s c = done
  obtain ⟨t, outcome⟩ := done
  cases outcome <;> rfl

theorem Drains.drain {n fuel : Nat} {s : σ} {work : List Command} {es : List Effect}
    {d : Drained σ} (h : m.Drains n s work es d) (hfuel : n ≤ fuel) :
    m.drain fuel s work = some d := by
  induction h generalizing fuel with
  | done s => cases fuel <;> rfl
  | step hexec _ ih =>
      obtain ⟨fuel, rfl⟩ : ∃ k, fuel = k + 1 := ⟨fuel - 1, by omega⟩
      rw [drain_cons, hexec]
      exact ih (by omega)
  | fault hexec =>
      obtain ⟨fuel, rfl⟩ : ∃ k, fuel = k + 1 := ⟨fuel - 1, by omega⟩
      rw [drain_cons, hexec]

theorem exists_drains {fuel : Nat} {s : σ} {work : List Command} {d : Drained σ}
    (h : m.drain fuel s work = some d) : ∃ n es, n ≤ fuel ∧ m.Drains n s work es d := by
  induction fuel generalizing s work with
  | zero =>
      cases work with
      | nil =>
          cases h
          exact ⟨0, [], Nat.le_refl _, .done s⟩
      | cons c rest => cases h
  | succ fuel ih =>
      cases work with
      | nil =>
          cases h
          exact ⟨0, [], Nat.zero_le _, .done s⟩
      | cons c rest =>
          rw [drain_cons] at h
          split at h
          · rename_i t next hexec
            obtain ⟨n, es, hn, hd⟩ := ih h
            exact ⟨n + 1, _, by omega, .step hexec hd⟩
          · rename_i t fault hexec
            cases h
            exact ⟨1, _, by omega, .fault hexec⟩

/-- The effects of a drain are those that the traced machine writes down. -/
theorem Drains.traced {n fuel : Nat} {s : σ} {work : List Command} {es : List Effect}
    {d : Drained σ} (h : m.Drains n s work es d) (hfuel : n ≤ fuel) (before : List Effect) :
    m.traced.drain fuel (s, before) work =
      some ⟨(d.final, before ++ es), d.left, d.outcome⟩ := by
  -- every step of the drain is one of the traced machine
  induction h generalizing fuel before with
  | done s => cases fuel <;> simp [Machine.drain]
  | step hexec _ ih =>
      obtain ⟨fuel, rfl⟩ : ∃ k, fuel = k + 1 := ⟨fuel - 1, by omega⟩
      rw [drain_cons, execute_traced, hexec]
      simp only
      rw [ih (by omega), List.append_assoc]
  | fault hexec =>
      obtain ⟨fuel, rfl⟩ : ∃ k, fuel = k + 1 := ⟨fuel - 1, by omega⟩
      rw [drain_cons, execute_traced, hexec]

/-- The first command of a worklist that is drained to its end. -/
theorem Completes.cons_inv {n : Nat} {s u : σ} {c : Command} {rest : List Command}
    {es : List Effect} (h : m.Completes n s (c :: rest) es u) :
    ∃ k t next es', n = k + 1 ∧ m.execute s c = (t, .ok next) ∧
      m.Completes k t (next ++ rest) es' u ∧ es = m.effectsOf s c ++ es' := by
  cases h with
  | step hexec hrest => exact ⟨_, _, _, _, rfl, hexec, hrest, rfl⟩

theorem Completes.nil_inv {n : Nat} {s u : σ} {es : List Effect} (h : m.Completes n s [] es u) :
    u = s ∧ es = [] := by
  cases h
  exact ⟨rfl, rfl⟩

end Machine

end Statechart
