import Statechart.Proofs.Worklist.Exhaustion
import Statechart.Proofs.Worklist.Lockstep

/-!
# Worklists of actions

A worklist of actions, each at a site of its own, comes to its end whatever the actions write:
after no more steps than there are actions in it, those in cases included. It never uses what a
machine has besides actions, so it makes no difference whether there is a machine.

- `acts`                  : actions at their sites, as a worklist
- `Actor.traced`          : an actor that writes down its effects
- `Machine.DoesAll`       : actions at several sites, one after the other
- `Machine.exists_doesAll`                          : they come to an end
- `Machine.DoesAll.drain`, `Machine.DoesAll.drain_detached` : in front of a worklist
- `Machine.DoesAll.ends`, `Machine.DoesAll.ends_detached`   : alone
- `Machine.DoesAll.length_le`                       : in how many steps
-/

namespace Statechart

/-- Actions at their sites, as a worklist. -/
def acts (work : List (Site × Action)) : List Command := work.map fun job => .act job.1 job.2

/-- The same actor, which writes down what it does. -/
def Actor.traced {σ : Type} (a : Actor σ) : Actor (σ × List Effect) :=
  { perform := fun s site action =>
      (((a.perform s.1 site action).1, s.2 ++ [.did site action]),
        (a.perform s.1 site action).2)
    remark := fun s r => (a.remark s.1 r, s.2) }

/-- What is done to the one is done to the other. -/
theorem Actor.Matches.traced {σ τ : Type} {R : σ → τ → Prop} {a : Actor σ} {b : Actor τ}
    (h : a.Matches R b) :
    Actor.Matches (fun s t => R s.1 t.1 ∧ s.2 = t.2) a.traced b.traced := by
  refine ⟨fun hst site action => ?_, fun hst r => ⟨h.remark hst.1 r, hst.2⟩⟩
  obtain ⟨hnext, houtcome⟩ := h.perform hst.1 site action
  exact ⟨⟨hnext, congrArg (· ++ [Effect.did site action]) hst.2⟩, houtcome⟩

namespace Machine

variable {σ : Type} {m : Machine σ}

theorem toActor_traced (m : Machine σ) : m.traced.toActor = m.toActor.traced := rfl

/-! ## One site -/

/-- An action is done with as many effects as it weighs, at most. -/
theorem Does.length_le (hunfolds : m.toActor.Unfolds) {site : Site} {s u : σ} {as : List Action}
    {es : List Effect} (h : m.Does site s as es u) : es.length ≤ totalWeight as := by
  induction h with
  | nil s => exact Nat.le_refl 0
  | @cons s t u v action next rest es es' hperform _ _ ihnext ihrest =>
      have hlighter := hunfolds s site action t next hperform
      rw [List.length_cons, List.length_append, totalWeight]
      omega
  | @failed s t u action fault rest es _ _ ih =>
      have hpos := action.weight_pos
      rw [List.length_cons, totalWeight]
      omega

/-! ## Several sites -/

/-- Actions at several sites are done one after the other, each with all that it gives rise to. -/
inductive DoesAll (m : Machine σ) : σ → List (Site × Action) → List Effect → σ → Prop where
  | nil (s : σ) : DoesAll m s [] [] s
  | cons {s t u : σ} {site : Site} {action : Action} {rest : List (Site × Action)}
      {es es' : List Effect} :
      m.Does site s [action] es t → DoesAll m t rest es' u →
        DoesAll m s ((site, action) :: rest) (es ++ es') u

theorem exists_doesAll (hunfolds : m.toActor.Unfolds) (s : σ) (work : List (Site × Action)) :
    ∃ es u, m.DoesAll s work es u := by
  induction work generalizing s with
  | nil => exact ⟨[], s, .nil s⟩
  | cons job rest ih =>
      obtain ⟨site, action⟩ := job
      obtain ⟨es, t, hfirst⟩ := exists_does hunfolds site s [action]
      obtain ⟨es', u, hrest⟩ := ih t
      exact ⟨es ++ es', u, .cons hfirst hrest⟩

namespace DoesAll

variable {s u : σ} {work : List (Site × Action)} {es : List Effect}

theorem did (h : m.DoesAll s work es u) : ∀ e ∈ es, ∃ site action, e = .did site action := by
  induction h with
  | nil s =>
      intro e he
      cases he
  | @cons s t u site action rest es es' hfirst _ ih =>
      intro e he
      rcases List.mem_append.1 he with he | he
      · exact ⟨site, hfirst.did e he⟩
      · exact ih e he

theorem length_le (hunfolds : m.toActor.Unfolds) (h : m.DoesAll s work es u) :
    es.length ≤ totalWeight (work.map (·.2)) := by
  induction h with
  | nil s => exact Nat.le_refl 0
  | @cons s t u site action rest es es' hfirst _ ih =>
      have hweight := hfirst.length_le hunfolds
      rw [totalWeight, totalWeight, Nat.add_zero] at hweight
      rw [List.length_append, List.map_cons, totalWeight]
      exact Nat.add_le_add hweight ih

/-- In front of a worklist they are done first, in one step for every effect. -/
theorem drain (h : m.DoesAll s work es u) (fuel : Nat) (rest : List Command) :
    m.drain (fuel + es.length) s (acts work ++ rest) = m.drain fuel u rest := by
  induction h generalizing fuel with
  | nil s => rfl
  | @cons s t u site action later es es' hfirst _ ih =>
      rw [List.length_append, Nat.add_comm es.length, ← Nat.add_assoc]
      exact (hfirst.drain (fuel + es'.length) (acts later ++ rest)).trans (ih fuel)

/-- So they are without a machine to move. -/
theorem drain_detached (h : m.DoesAll s work es u) (fuel : Nat) (rest : List Command) :
    m.toActor.drain (fuel + es.length) s (acts work ++ rest) = m.toActor.drain fuel u rest := by
  induction h generalizing fuel with
  | nil s => rfl
  | @cons s t u site action later es es' hfirst _ ih =>
      rw [List.length_append, Nat.add_comm es.length, ← Nat.add_assoc]
      exact (hfirst.drain_detached (fuel + es'.length) (acts later ++ rest)).trans (ih fuel)

/-- With fuel for every effect that is all that there is to do. -/
theorem ends (h : m.DoesAll s work es u) {fuel : Nat} (hfuel : es.length ≤ fuel) :
    m.drain fuel s (acts work) = some ⟨u, [], .ok ()⟩ := by
  obtain ⟨more, rfl⟩ := Nat.exists_eq_add_of_le' hfuel
  have hdrain := h.drain more []
  rw [List.append_nil] at hdrain
  rw [hdrain, Machine.drain]

theorem ends_detached (h : m.DoesAll s work es u) {fuel : Nat} (hfuel : es.length ≤ fuel) :
    m.toActor.drain fuel s (acts work) = some u := by
  obtain ⟨more, rfl⟩ := Nat.exists_eq_add_of_le' hfuel
  have hdrain := h.drain_detached more []
  rw [List.append_nil] at hdrain
  rw [hdrain, Actor.drain]

theorem traced (h : m.DoesAll s work es u) (before : List Effect) :
    m.traced.DoesAll (s, before) work es (u, before ++ es) := by
  induction h generalizing before with
  | nil s =>
      rw [List.append_nil]
      exact .nil _
  | @cons s t u site action rest es es' hfirst _ ih =>
      have hrest := ih (before ++ es)
      rw [List.append_assoc] at hrest
      exact .cons (hfirst.traced before) hrest

end DoesAll

end Machine

end Statechart
