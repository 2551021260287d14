import Mathlib.Data.List.Forall2
import Statechart.Engine.Selection

/-!
# The choice of a transition

Guards and candidates are looked at in the order in which they are declared, and guards only up to
the first that does not hold. For the choice none of this matters.

- `Transition.AllHold`         : every guard evaluates to true
- `Transition.IsEligible`      : it may be taken, for its target or for its else target
- `eligible_eq`                : the eligible candidates, each in its mode
- `Transition.Alike`           : the same transition but for the order of its guards
- `SameChoice`                 : the same outcome but for the order of guards
- `selectTransition_choice`    : what is chosen, and that order does not matter
-/

namespace Statechart

/-! ## Guards -/

theorem Expression.evaluateBool_eq_true_iff {e : Expression} {find : Lookup} :
    e.evaluateBool find = .ok true ↔ e.evaluate find = .ok (.bool true) := by
  unfold evaluateBool
  cases h : e.evaluate find with
  | error fault => simp [bind, Except.bind]
  | ok v => cases v <;> simp [bind, Except.bind]

namespace Transition

variable {t u : Transition} {find : Lookup}

/-- Every guard evaluates to true. -/
def AllHold (t : Transition) (find : Lookup) : Prop :=
  ∀ guard ∈ t.guards, guard.evaluate find = .ok (.bool true)

theorem guardsHold_eq_true_iff {guards : List Expression} :
    guardsHold find guards = .ok true ↔
      ∀ guard ∈ guards, guard.evaluate find = .ok (.bool true) := by
  induction guards with
  | nil => simp [guardsHold]
  | cons guard rest ih =>
      rw [List.forall_mem_cons, ← ih, ← Expression.evaluateBool_eq_true_iff, guardsHold]
      -- a fault and a guard that does not hold both end the matter
      cases h : guard.evaluateBool find with
      | error fault => simp [bind, Except.bind]
      | ok holds => cases holds <;> simp [bind, Except.bind]

theorem holds_iff : t.holds find = true ↔ t.AllHold find := by
  refine Iff.trans ?_ guardsHold_eq_true_iff
  unfold holds passes
  cases guardsHold find t.guards with
  | error fault => simp
  | ok holds => cases holds <;> simp

instance (t : Transition) (find : Lookup) : Decidable (t.AllHold find) :=
  decidable_of_iff _ holds_iff

/-- It may be taken, for its target or for its else target. -/
def IsEligible (t : Transition) (find : Lookup) : Prop :=
  t.AllHold find ∨ ∃ target, t.otherwise = some target

theorem hasElse_iff : t.hasElse = true ↔ ∃ target, t.otherwise = some target :=
  Option.isSome_iff_exists

instance (t : Transition) (find : Lookup) : Decidable (t.IsEligible find) :=
  haveI : Decidable (∃ target, t.otherwise = some target) := decidable_of_iff _ hasElse_iff
  inferInstanceAs (Decidable (_ ∨ _))

/-- A transition that is taken is taken for its else target unless all its guards hold. -/
def chosen (t : Transition) (find : Lookup) : Selected := ⟨t, decide (¬ t.AllHold find)⟩

/-- The same transition but for the order of its guards. -/
structure Alike (t u : Transition) : Prop where
  event : t.event = u.event
  target : t.target = u.target
  otherwise : t.otherwise = u.otherwise
  actions : t.actions = u.actions
  guards : t.guards.Perm u.guards

theorem Alike.allHold_iff (h : t.Alike u) : t.AllHold find ↔ u.AllHold find :=
  forall_congr' fun _ => imp_congr_left h.guards.mem_iff

theorem Alike.isEligible_iff (h : t.Alike u) : t.IsEligible find ↔ u.IsEligible find := by
  rw [IsEligible, IsEligible, h.allHold_iff, h.otherwise]

end Transition

/-! ## Candidates -/

theorem eligible_eq (candidates : List Transition) (find : Lookup) :
    eligible candidates find =
      (candidates.filter fun t => t.IsEligible find).map fun t => t.chosen find := by
  induction candidates with
  | nil => rfl
  | cons t rest ih =>
      rw [eligible] at ih ⊢
      rw [List.filterMap_cons, ih, List.filter_cons]
      by_cases hholds : t.AllHold find
      · have heligible : t.IsEligible find := .inl hholds
        simp [Transition.holds_iff.2 hholds, heligible, Transition.chosen, hholds]
      · have hnot : ¬ t.holds find = true := fun h => hholds (Transition.holds_iff.1 h)
        by_cases helse : t.hasElse = true
        · have heligible : t.IsEligible find := .inr (Transition.hasElse_iff.1 helse)
          simp [hnot, helse, heligible, Transition.chosen, hholds]
        · have heligible : ¬ t.IsEligible find := fun h =>
            h.elim hholds fun h => helse (Transition.hasElse_iff.2 h)
          simp [hnot, helse, heligible]

/-- The same outcome but for the order of the guards of the transition that is chosen. -/
inductive SameChoice :
    Except EngineFault (Option Selected) → Except EngineFault (Option Selected) → Prop where
  | fault (fault : EngineFault) : SameChoice (.error fault) (.error fault)
  | none : SameChoice (.ok none) (.ok none)
  | some {s t : Selected} : s.transition.Alike t.transition → s.isElse = t.isElse →
      SameChoice (.ok (some s)) (.ok (some t))

section

variable {state trigger : String} {candidates others : List Transition} {find : Lookup}

theorem selectTransition_of_nil (h : candidates.filter (fun t => t.IsEligible find) = []) :
    selectTransition state trigger candidates find = .ok none := by
  rw [selectTransition, eligible_eq, h]
  rfl

theorem selectTransition_of_singleton {t : Transition}
    (h : candidates.filter (fun t => t.IsEligible find) = [t]) :
    selectTransition state trigger candidates find = .ok (some (t.chosen find)) := by
  rw [selectTransition, eligible_eq, h]
  rfl

theorem selectTransition_of_several {first second : Transition} {rest : List Transition}
    (h : candidates.filter (fun t => t.IsEligible find) = first :: second :: rest) :
    selectTransition state trigger candidates find =
      .error (.nonDeterminism state trigger (first :: second :: rest).length) := by
  rw [selectTransition, eligible_eq, h]
  simp

/-- The candidates in another order. -/
theorem selectTransition_of_perm (h : candidates.Perm others) :
    selectTransition state trigger candidates find =
      selectTransition state trigger others find := by
  have hperm := h.filter fun t => t.IsEligible find
  generalize hother : others.filter (fun t => t.IsEligible find) = found at hperm
  cases hthere : candidates.filter (fun t => t.IsEligible find) with
  | nil =>
      rw [hthere] at hperm
      rw [selectTransition_of_nil hthere,
        selectTransition_of_nil (hother.trans (List.nil_perm.1 hperm))]
  | cons first rest =>
      rw [hthere] at hperm
      cases rest with
      | nil =>
          rw [selectTransition_of_singleton hthere,
            selectTransition_of_singleton (hother.trans (List.singleton_perm.1 hperm).symm)]
      | cons second rest =>
          -- several stay several, and as many
          match found, hperm.length_eq, hother with
          | _ :: _ :: _, hlength, hother =>
              rw [selectTransition_of_several hthere, selectTransition_of_several hother, hlength]

/-- The guards of each candidate in another order. -/
theorem selectTransition_of_alike (h : List.Forall₂ Transition.Alike candidates others) :
    SameChoice (selectTransition state trigger candidates find)
      (selectTransition state trigger others find) := by
  have hfilter : List.Forall₂ Transition.Alike (candidates.filter fun t => t.IsEligible find)
      (others.filter fun t => t.IsEligible find) := by
    refine List.rel_filter (fun t u htu => ?_) h
    simpa using htu.isEligible_iff
  generalize hthere : candidates.filter (fun t => t.IsEligible find) = there at hfilter
  generalize hother : others.filter (fun t => t.IsEligible find) = found at hfilter
  cases hfilter with
  | nil =>
      rw [selectTransition_of_nil hthere, selectTransition_of_nil hother]
      exact .none
  | cons halike hrest =>
      cases hrest with
      | nil =>
          rw [selectTransition_of_singleton hthere, selectTransition_of_singleton hother]
          exact .some halike (decide_eq_decide.2 (not_congr halike.allHold_iff))
      | cons _ hmore =>
          rw [selectTransition_of_several hthere, selectTransition_of_several hother]
          simp only [List.length_cons, hmore.length_eq]
          exact .fault _

end

/-- A candidate is eligible if all its guards evaluate to true or it has an else target. Of several
eligible candidates none is chosen, and their number is told; one alone is chosen, for its else
target unless all its guards evaluate to true. In another order of the candidates the outcome is
the same, and in another order of the guards of each candidate, too, whether or not guards fail to
evaluate. -/
theorem selectTransition_choice (state trigger : String) (candidates : List Transition)
    (find : Lookup) :
    (match candidates.filter fun t => t.IsEligible find with
      | [] => selectTransition state trigger candidates find = .ok none
      | [t] =>
          ∃ isElse, selectTransition state trigger candidates find = .ok (some ⟨t, isElse⟩) ∧
            (isElse = true ↔ ¬ t.AllHold find)
      | several =>
          selectTransition state trigger candidates find =
            .error (.nonDeterminism state trigger several.length)) ∧
    ∀ others, candidates.Perm others →
      selectTransition state trigger others find =
          selectTransition state trigger candidates find ∧
        ∀ reordered, List.Forall₂ Transition.Alike others reordered →
          SameChoice (selectTransition state trigger candidates find)
            (selectTransition state trigger reordered find) := by
  refine ⟨?_, fun others hperm =>
    ⟨(selectTransition_of_perm hperm).symm, fun reordered halike => ?_⟩⟩
  · cases hthere : candidates.filter fun t => t.IsEligible find with
    | nil => exact selectTransition_of_nil hthere
    | cons t rest =>
        cases rest with
        | nil => exact ⟨_, selectTransition_of_singleton hthere, decide_eq_true_iff⟩
        | cons second rest => exact selectTransition_of_several hthere
  · rw [selectTransition_of_perm hperm]
    exact selectTransition_of_alike halike

/-! ### A trial -/

/-- The tunnel is closed. -/
def tunnel : Transition :=
  { event := some "cross", target := some "tunnel", otherwise := none
    guards := [⟨"false", .literal (.bool false)⟩], actions := [] }

/-- Nobody knows about the bridge, so that the river is crossed by the ford. -/
def bridge : Transition :=
  { event := some "cross", target := some "bridge", otherwise := some "ford"
    guards := [⟨"true", .literal (.bool true)⟩, ⟨"safe", .variable "safe" []⟩], actions := [] }

/-- The bridge, with the guard that fails to evaluate first. -/
def bridgeReversed : Transition := { bridge with guards := bridge.guards.reverse }

theorem bridge_choice :
    selectTransition "bank" "cross" [tunnel, bridge] (.ofFields []) = .ok (some ⟨bridge, true⟩) ∧
      [tunnel, bridge].Perm [bridge, tunnel] ∧
      selectTransition "bank" "cross" [bridge, tunnel] (.ofFields []) =
        selectTransition "bank" "cross" [tunnel, bridge] (.ofFields []) ∧
      List.Forall₂ Transition.Alike [bridge, tunnel] [bridgeReversed, tunnel] ∧
      SameChoice (selectTransition "bank" "cross" [tunnel, bridge] (.ofFields []))
        (selectTransition "bank" "cross" [bridgeReversed, tunnel] (.ofFields [])) := by
  have hperm : [tunnel, bridge].Perm [bridge, tunnel] := .swap _ _ _
  have halike : List.Forall₂ Transition.Alike [bridge, tunnel] [bridgeReversed, tunnel] :=
    .cons ⟨rfl, rfl, rfl, rfl, (List.reverse_perm _).symm⟩
      (.cons ⟨rfl, rfl, rfl, rfl, .refl _⟩ .nil)
  obtain ⟨hone, horder⟩ := selectTransition_choice "bank" "cross" [tunnel, bridge] (.ofFields [])
  have hfilter : [tunnel, bridge].filter (fun t => t.IsEligible (.ofFields [])) = [bridge] :=
    rfl
  rw [hfilter] at hone
  obtain ⟨isElse, hselect, hmode⟩ := hone
  have helse : isElse = true := hmode.2 (by decide +kernel)
  exact ⟨helse ▸ hselect, hperm, (horder _ hperm).1, halike, (horder _ hperm).2 _ halike⟩

end Statechart
