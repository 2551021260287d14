import Statechart.Proofs.Worklist.Protocol

/-!
# Lists of actions come to an end

An action gives rise to parts of itself at most. So every list of actions is done in as many steps
as it has effects, whatever waits behind it, and with a machine to move or without.

- `Action.weight`          : how many actions an action can come to
- `Actor.Unfolds`          : actions give rise to lighter ones
- `Machine.exists_does`    : every list of actions is done
- `Machine.Does.drain`, `Machine.Does.drain_detached` : in front of a worklist
- `Machine.Does.traced`    : its effects are those that are written down
-/

namespace Statechart

/-! ## Weights -/

mutual

/-- How many actions an action can come to, itself among them. -/
def Action.weight : Action → Nat
  | .assign _ => 1
  | .create _ _ => 1
  | .invoke _ => 1
  | .choose _ cases => 1 + caseWeight cases
  | .raise _ => 1
  | .timeout _ => 2
  | .resetTimeout _ => 1

def caseWeight : List (Expression × Action) → Nat
  | [] => 0
  | (_, action) :: rest => action.weight + caseWeight rest

end

@[simp]
def totalWeight : List Action → Nat
  | [] => 0
  | action :: rest => action.weight + totalWeight rest

theorem Action.weight_pos (action : Action) : 0 < action.weight := by
  cases action with
  | choose value cases =>
      rw [Action.weight]
      omega
  | timeout timer => exact Nat.zero_lt_two
  | _ => exact Nat.one_pos

/-- What actions give rise to weighs less than they do. -/
def Actor.Unfolds {σ : Type} (a : Actor σ) : Prop :=
  ∀ s site action t next, a.perform s site action = (t, .ok next) →
    totalWeight next < action.weight

/-! ## Lists of actions -/

namespace Machine

variable {σ : Type} {m : Machine σ}

/-- Every list of actions is done. -/
theorem exists_does (h : m.toActor.Unfolds) (site : Site) (s : σ) (as : List Action) :
    ∃ es u, m.Does site s as es u := by
  -- on the weight: what an action gives rise to is lighter than it, and so is the rest without it
  induction hweight : totalWeight as using Nat.strongRecOn generalizing s as with
  | ind weight ih =>
      cases as with
      | nil => exact ⟨[], s, .nil s⟩
      | cons action rest =>
          rw [totalWeight] at hweight
          have hrest : totalWeight rest < weight := by
            have := action.weight_pos
            omega
          cases hperform : m.perform s site action with
          | mk t outcome =>
              cases outcome with
              | ok next =>
                  have hnext : totalWeight next < weight := by
                    have := h s site action t next hperform
                    omega
                  obtain ⟨es, u, hdone⟩ := ih _ hnext t next rfl
                  obtain ⟨es', v, hlater⟩ := ih _ hrest u rest rfl
                  exact ⟨_, v, .cons hperform hdone hlater⟩
              | error fault =>
                  obtain ⟨es, u, hlater⟩ := ih _ hrest _ rest rfl
                  exact ⟨_, u, .failed hperform hlater⟩

/-- A list of actions in front of a worklist is done first, in one step for every effect. -/
theorem Does.drain {site : Site} {s u : σ} {as : List Action} {es : List Effect}
    (h : m.Does site s as es u) (fuel : Nat) (rest : List Command) :
    m.drain (fuel + es.length) s (Statechart.actions site as ++ rest) = m.drain fuel u rest := by
  induction h generalizing fuel rest with
  | nil s => rfl
  | @cons s t u v action next tail es es' hperform _ _ ihnext ihtail =>
      have hexec : m.execute s (.act site action) = (t, .ok (Statechart.actions site next)) := by
        simp only [execute, Actor.execute, hperform]
      have hlength : fuel + (Effect.did site action :: (es ++ es')).length =
          fuel + es'.length + es.length + 1 := by
        simp only [List.length_cons, List.length_append]
        omega
      rw [hlength, Statechart.actions, List.map_cons, List.cons_append, drain_cons, hexec]
      exact (ihnext _ _).trans (ihtail _ _)
  | @failed s t u action fault tail es hperform _ ih =>
      have hexec : m.execute s (.act site action) =
          (m.remark t (Actor.failure site action fault), .ok []) := by
        simp only [execute, Actor.execute, hperform]
      rw [List.length_cons, ← Nat.add_assoc, Statechart.actions, List.map_cons, List.cons_append,
        drain_cons, hexec]
      exact ih _ _

/-- So it is without a machine to move. -/
theorem Does.drain_detached {site : Site} {s u : σ} {as : List Action} {es : List Effect}
    (h : m.Does site s as es u) (fuel : Nat) (rest : List Command) :
    m.toActor.drain (fuel + es.length) s (Statechart.actions site as ++ rest) =
      m.toActor.drain fuel u rest := by
  induction h generalizing fuel rest with
  | nil s => rfl
  | @cons s t u v action next tail es es' hperform _ _ ihnext ihtail =>
      have hlength : fuel + (Effect.did site action :: (es ++ es')).length =
          fuel + es'.length + es.length + 1 := by
        simp only [List.length_cons, List.length_append]
        omega
      rw [hlength, Statechart.actions, List.map_cons, List.cons_append, Actor.drain]
      simp only [Actor.advance, Actor.execute, hperform]
      exact (ihnext _ _).trans (ihtail _ _)
  | @failed s t u action fault tail es hperform _ ih =>
      rw [List.length_cons, ← Nat.add_assoc, Statechart.actions, List.map_cons, List.cons_append,
        Actor.drain]
      simp only [Actor.advance, Actor.execute, hperform]
      exact ih _ _

/-- The traced machine writes down the effects of a list of actions. -/
theorem Does.traced {site : Site} {s u : σ} {as : List Action} {es : List Effect}
    (h : m.Does site s as es u) (before : List Effect) :
    m.traced.Does site (s, before) as es (u, before ++ es) := by
  induction h generalizing before with
  | nil s =>
      rw [List.append_nil]
      exact .nil _
  | @cons s t u v action next tail es es' hperform _ _ ihnext ihtail =>
      have htraced : m.traced.perform (s, before) site action =
          ((t, before ++ [.did site action]), .ok next) := by
        simp only [Machine.traced, hperform]
      have hdone := Does.cons htraced (ihnext _) (ihtail _)
      simpa only [List.append_assoc, List.cons_append, List.nil_append] using hdone
  | @failed s t u action fault tail es hperform _ ih =>
      have htraced : m.traced.perform (s, before) site action =
          ((t, before ++ [.did site action]), .error fault) := by
        simp only [Machine.traced, hperform]
      have hlater := ih (before ++ [.did site action])
      rw [List.append_assoc, List.singleton_append] at hlater
      exact .failed htraced hlater

end Machine

end Statechart
