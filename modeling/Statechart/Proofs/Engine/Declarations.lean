import Statechart.Engine.Basic
import Statechart.Proofs.Context.Writes
import Statechart.Proofs.Graph.Coherence

/-!
# What declarations do to variables

Declared variables are created one after the other, and every state of an instance has a layer of
its own added for them. What holds along every variable that is created, and every layer that is
added, holds along all declarations.

- `Memory.IsStable`       : a relation of memories that holds along created variables
- `IsStable.declare`, `IsStable.establish` : along declared variables, also where they exist
- `IsStable.addInstance`  : along the variables of an instance and of its states
-/

namespace Statechart

namespace Memory

/-- The relation holds between a memory and what creating variables makes of it. -/
structure IsStable (R : Memory → Memory → Prop) : Prop where
  refl : ∀ m, R m m
  trans : ∀ {m₁ m₂ m₃}, R m₁ m₂ → R m₂ m₃ → R m₁ m₃
  create : ∀ m id name value, R m (m.create id name value).1

theorem isStable_keeps : IsStable Keeps where
  refl := .refl
  trans := .trans
  create := keeps_create

theorem isStable_kinds : IsStable fun m m' => m'.kinds = m.kinds where
  refl _ := rfl
  trans h h' := h'.trans h
  create := kinds_create

theorem isStable_isPrefix_kinds : IsStable fun m m' => m.kinds <+: m'.kinds where
  refl _ := List.prefix_rfl
  trans := List.IsPrefix.trans
  create m id name value :=
    ⟨[], (List.append_nil _).trans (m.kinds_create id name value).symm⟩

theorem isPrefix_kinds_add (m : Memory) (l : Layer) : m.kinds <+: (m.add l).1.kinds :=
  ⟨[l.isMemory], (m.kinds_add l).symm⟩

end Memory

namespace Memory.IsStable

open World

variable {R : Memory → Memory → Prop} {m m' : Memory} {extent : Extent}

theorem declare (h : IsStable R) {layer : LayerId} {declared : List Variable}
    (hdeclare : World.declare layer extent m declared = .ok m') : R m m' := by
  induction declared generalizing m with
  | nil =>
      cases hdeclare
      exact h.refl _
  | cons v rest ih =>
      simp only [World.declare] at hdeclare
      split at hdeclare
      · cases hdeclare
      · rename_i name value _
        have hcreate := h.create m layer name value
        split at hdeclare
        · rename_i hm'
          rw [hm'] at hcreate
          exact h.trans hcreate (ih hdeclare)
        · cases hdeclare

/-- Establishing goes on past variables that exist, and stops at the first other fault. -/
theorem establish (h : IsStable R) (root : LayerId) (extent : Extent) (m : Memory)
    (declared : List Variable) : R m (World.establish root extent m declared).1 := by
  induction declared generalizing m with
  | nil => exact h.refl m
  | cons v rest ih =>
      simp only [World.establish]
      split
      · exact h.refl m
      · rename_i name value _
        have hcreate := h.create m root name value
        split
        · rename_i m' _ hm'
          rw [hm'] at hcreate
          exact h.trans hcreate (ih m')
        · rename_i m' _ hm'
          rw [hm'] at hcreate
          exact h.trans hcreate (ih m')
        · rename_i hm'
          rw [hm'] at hcreate
          exact hcreate

/-! ## Layers -/

theorem declareStates (h : IsStable R) (hadd : ∀ m l, R m (m.add l).1) {states : List State}
    {layers : List (String × LayerId)}
    (hstates : World.declareStates extent m states = .ok (m', layers)) : R m m' := by
  induction states generalizing m layers with
  | nil =>
      cases hstates
      exact h.refl _
  | cons state rest ih =>
      simp only [World.declareStates] at hstates
      obtain ⟨m₁, hdeclare, hstates⟩ := bind_eq_ok_iff.1 hstates
      obtain ⟨⟨m₂, others⟩, hrest, hstates⟩ := bind_eq_ok_iff.1 hstates
      cases hstates
      have hown : R m m₁ := h.trans (hadd m _) (h.declare hdeclare)
      exact h.trans hown (ih hrest)

theorem addInstance (h : IsStable R) (hadd : ∀ m l, R m (m.add l).1) {w w' : World} {g : Graph}
    {enclosing extent : Extent} {parent : Option Nat} {n : Nat}
    (hinstance : w.addInstance g enclosing parent = .ok (w', n, extent)) :
    R w.memory w'.memory := by
  unfold World.addInstance at hinstance
  obtain ⟨m₁, hdeclare, hinstance⟩ := bind_eq_ok_iff.1 hinstance
  obtain ⟨⟨m₂, layers⟩, hstates, hinstance⟩ := bind_eq_ok_iff.1 hinstance
  cases hinstance
  have hown : R w.memory m₁ := h.trans (hadd w.memory _) (h.declare hdeclare)
  exact h.trans hown (h.declareStates hadd hstates)

end Memory.IsStable

end Statechart
