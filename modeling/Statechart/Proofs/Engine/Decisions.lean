import Statechart.Proofs.Engine.Run
import Statechart.Proofs.Worklist.Exhaustion

/-!
# Decisions

A decision evaluates its value and all its cases before it acts. What its actions write decides
nothing any more, and an expression that fails keeps all of them from being done.

- `Expression.meets`        : whether a case equals a value
- `World.chosen`            : the actions that a decision is for
- `World.matching_eq_ok`    : they are those that are given back
- `World.unfolds`           : an action gives rise to parts of itself
- `World.choose_then_act`   : a decision in front of a worklist
-/

namespace Statechart

/-- The case evaluates to the value. -/
def Expression.meets (find : Lookup) (value : Value) (case : Expression) : Bool :=
  match case.evaluate find with
  | .ok found => value.equal found
  | .error _ => false

theorem Expression.meets_eq {find : Lookup} {case : Expression} {found : Value}
    (h : case.evaluate find = .ok found) (value : Value) :
    case.meets find value = value.equal found := by
  simp only [meets, h]

namespace World

/-- The actions of the cases that equal a value, in their order. -/
def chosen (find : Lookup) (value : Value) (cases : List (Expression × Action)) : List Action :=
  (cases.filter fun c => c.1.meets find value).map (·.2)

theorem matching_cons {find : Lookup} {case : Expression} {found : Value}
    (h : case.evaluate find = .ok found) (value : Value) (action : Action)
    (rest : List (Expression × Action)) :
    matching find value ((case, action) :: rest) =
      (matching find value rest).map fun actions =>
        if value.equal found then action :: actions else actions := by
  rw [matching, h]
  cases matching find value rest <;> rfl

theorem matching_eq_ok {find : Lookup} {cases : List (Expression × Action)} (value : Value)
    (h : ∀ c ∈ cases, ∃ found, c.1.evaluate find = .ok found) :
    matching find value cases = .ok (chosen find value cases) := by
  induction cases with
  | nil => rfl
  | cons c rest ih =>
      obtain ⟨case, action⟩ := c
      obtain ⟨found, hfound⟩ := h _ List.mem_cons_self
      rw [matching_cons hfound, ih fun c hc => h c (List.mem_cons_of_mem _ hc)]
      simp only [chosen, List.filter_cons, Expression.meets_eq hfound]
      cases value.equal found <;> rfl

/-- One case that fails is enough. -/
theorem matching_eq_error {find : Lookup} {cases : List (Expression × Action)}
    {c : Expression × Action} {fault : ModelFault} (value : Value) (hc : c ∈ cases)
    (hfault : c.1.evaluate find = .error fault) :
    ∃ first, matching find value cases = .error first := by
  induction cases with
  | nil => cases hc
  | cons head rest ih =>
      obtain ⟨case, action⟩ := head
      cases hcase : case.evaluate find with
      | error first => exact ⟨first, by rw [matching, hcase]; rfl⟩
      | ok found =>
          rcases List.mem_cons.1 hc with rfl | hc
          · rw [hcase] at hfault
            cases hfault
          · obtain ⟨first, hfirst⟩ := ih hc
            exact ⟨first, by rw [matching_cons hcase, hfirst]; rfl⟩

/-! ## What an action gives rise to -/

theorem totalWeight_chosen (find : Lookup) (value : Value) (cases : List (Expression × Action)) :
    totalWeight (chosen find value cases) ≤ caseWeight cases := by
  induction cases with
  | nil => exact Nat.le_refl _
  | cons c rest ih =>
      obtain ⟨case, action⟩ := c
      rw [caseWeight, chosen, List.filter_cons]
      split
      · rw [List.map_cons, totalWeight]
        exact Nat.add_le_add_left ih _
      · exact Nat.le_trans ih (Nat.le_add_left _ _)

/-- Cases are given back only if all of them evaluate. -/
theorem eq_chosen_of_matching {find : Lookup} {value : Value}
    {cases : List (Expression × Action)} {actions : List Action}
    (h : matching find value cases = .ok actions) : actions = chosen find value cases := by
  have hall : ∀ c ∈ cases, ∃ found, c.1.evaluate find = .ok found := by
    intro c hc
    cases hcase : c.1.evaluate find with
    | ok found => exact ⟨found, rfl⟩
    | error fault =>
        obtain ⟨first, hfirst⟩ := matching_eq_error value hc hcase
        rw [hfirst] at h
        cases h
  rw [matching_eq_ok value hall] at h
  cases h
  rfl

theorem unfolds : worldActor.Unfolds := by
  intro w site action w' next h
  change w.perform site action = (w', .ok next) at h
  cases action with
  | choose value cases =>
      simp only [perform] at h
      split at h
      · cases h
      · rename_i found _
        obtain ⟨-, h⟩ := Prod.mk.inj h
        cases hmatching : matching (site.extent.lookup w.memory) found cases with
        | error fault =>
            rw [hmatching] at h
            cases h
        | ok actions =>
            rw [hmatching] at h
            cases h
            rw [Action.weight, eq_chosen_of_matching hmatching]
            have := totalWeight_chosen (site.extent.lookup w.memory) found cases
            omega
  | timeout timer =>
      cases h
      exact Nat.lt_succ_self 1
  | _ =>
      -- all others give rise to nothing
      have hnext : next = [] := by
        simp only [perform] at h
        repeat' split at h
        all_goals first | cases h; rfl | cases h
      subst hnext
      exact Action.weight_pos _

/-! ## Decisions -/

section Choose

variable {w : World} {site : Site} {value : Expression} {cases : List (Expression × Action)}

theorem perform_choose {v : Value} (hvalue : value.evaluate (site.extent.lookup w.memory) = .ok v)
    (hcases : ∀ c ∈ cases, ∃ found, c.1.evaluate (site.extent.lookup w.memory) = .ok found) :
    w.perform site (.choose value cases) =
      (w, .ok (chosen (site.extent.lookup w.memory) v cases)) := by
  simp only [perform, hvalue, matching_eq_ok v hcases]
  rfl

theorem perform_choose_of_error {e : Expression} {fault : ModelFault}
    (he : e = value ∨ e ∈ cases.map (·.1))
    (hfault : e.evaluate (site.extent.lookup w.memory) = .error fault) :
    ∃ first, w.perform site (.choose value cases) = (w, .error (.model first)) := by
  simp only [perform]
  cases hvalue : value.evaluate (site.extent.lookup w.memory) with
  | error first => exact ⟨first, rfl⟩
  | ok v =>
      rcases he with rfl | he
      · rw [hvalue] at hfault
        cases hfault
      · obtain ⟨c, hc, rfl⟩ := List.mem_map.1 he
        obtain ⟨first, hfirst⟩ := matching_eq_error v hc hfault
        exact ⟨first, by simp only [hfirst]; rfl⟩

end Choose

/-- A decision in front of other actions and of a worklist. It is done with all that it gives rise
to, and with the actions after it, before the worklist goes on: in as many steps as there are
effects, `es` in their order, and whether there is a machine to move or not. If the value and all
cases evaluate in the world that it finds, it comes to the actions of the cases that equal the
value there, each once and in their order, and then to the actions after it. If an expression
fails, it comes to the actions after it, and there is nothing but a remark. -/
theorem choose_then_act (n : Nat) (w : World) (site : Site) (value : Expression)
    (cases : List (Expression × Action)) (after : List Action) :
    ∃ es u, (instanceMachine n).Does site w (.choose value cases :: after) es u ∧
      (∀ fuel before rest,
        (instanceMachine n).drain (fuel + es.length) w
            (actions site (.choose value cases :: after) ++ rest) =
          (instanceMachine n).drain fuel u rest ∧
        (instanceMachine n).traced.drain (fuel + es.length) (w, before)
            (actions site (.choose value cases :: after) ++ rest) =
          (instanceMachine n).traced.drain fuel (u, before ++ es) rest ∧
        worldActor.drain (fuel + es.length) w
            (actions site (.choose value cases :: after) ++ rest) =
          worldActor.drain fuel u rest) ∧
      (∀ v, value.evaluate (site.extent.lookup w.memory) = .ok v →
        (∀ c ∈ cases, ∃ found, c.1.evaluate (site.extent.lookup w.memory) = .ok found) →
        ∃ t es₁ es₂,
          (instanceMachine n).Does site w (chosen (site.extent.lookup w.memory) v cases) es₁ t ∧
          (instanceMachine n).Does site t after es₂ u ∧
          es = .did site (.choose value cases) :: (es₁ ++ es₂)) ∧
      (∀ e fault, e = value ∨ e ∈ cases.map (·.1) →
        e.evaluate (site.extent.lookup w.memory) = .error fault →
        ∃ first es',
          (instanceMachine n).Does site
            (w.remark (Actor.failure site (.choose value cases) (.model first))) after es' u ∧
          es = .did site (.choose value cases) :: es') := by
  have hunfolds : (instanceMachine n).toActor.Unfolds := unfolds
  obtain ⟨es, u, hdoes⟩ :=
    Machine.exists_does hunfolds site w (.choose value cases :: after)
  refine ⟨es, u, hdoes, fun fuel before rest =>
    ⟨hdoes.drain fuel rest, ?_, hdoes.drain_detached fuel rest⟩, fun v hvalue hcases => ?_,
    fun e fault he hfault => ?_⟩
  · exact (hdoes.traced before).drain fuel rest
  · -- the decision is made in the world that it finds
    have hdecided : (instanceMachine n).perform w site (.choose value cases) =
        (w, .ok (chosen (site.extent.lookup w.memory) v cases)) := perform_choose hvalue hcases
    cases hdoes with
    | cons hperform hchosen hafter =>
        rw [hdecided] at hperform
        cases hperform
        exact ⟨_, _, _, hchosen, hafter, rfl⟩
    | failed hperform _ =>
        rw [hdecided] at hperform
        cases hperform
  · obtain ⟨first, hfirst⟩ := perform_choose_of_error he hfault
    have hrefused : (instanceMachine n).perform w site (.choose value cases) =
        (w, .error (.model first)) := hfirst
    cases hdoes with
    | cons hperform _ _ =>
        rw [hrefused] at hperform
        cases hperform
    | failed hperform hafter =>
        rw [hrefused] at hperform
        cases hperform
        exact ⟨first, _, hafter, rfl⟩

/-! ### A trial -/

namespace DecisionTrial

def tally : Expression := ⟨"tally", .variable "tally" []⟩

/-- A name that nothing has. -/
def gone : Expression := ⟨"gone", .variable "gone" []⟩

def setTally (n : Nat) : Action := .assign ⟨"tally", .ofLiteral (.ofNat n)⟩

/-- Decides on the variable once more. -/
def again : Action := .choose tally [(.ofLiteral (.ofNat 2), setTally 4)]

/-- The first action writes what is decided on. -/
def steps : List (Expression × Action) :=
  [(.ofLiteral (.ofNat 1), setTally 2), (.ofLiteral (.ofNat 2), setTally 3), (tally, again)]

/-- One variable, which is one. -/
def abacus : World :=
  { bare with memory := ⟨[.memory (Table.empty.insert "tally" (.ofNat 1))], bare.memory.backing⟩ }

def abacusSite : Site := ⟨.named "abacus", .machine, ⟨[0]⟩, false⟩

def abacusLookup : Lookup := abacusSite.extent.lookup abacus.memory

def totals (w : World) (n : Nat) : Bool :=
  (w.memory.get 0 "tally").toOption.any fun value => value.equal (.ofNat n)

theorem chosen_steps : chosen abacusLookup (.ofNat 1) steps = [setTally 2, again] := by
  have hone : (Expression.ofLiteral (.ofNat 1)).meets abacusLookup (.ofNat 1) = true := by
    decide +kernel
  have htwo : (Expression.ofLiteral (.ofNat 2)).meets abacusLookup (.ofNat 1) = false := by
    decide +kernel
  have htally : tally.meets abacusLookup (.ofNat 1) = true := by decide +kernel
  simp [chosen, steps, hone, htwo, htally]

end DecisionTrial

open DecisionTrial in
/-- What the first action writes neither brings in the second nor keeps out the third, which goes
by it. With an unknown name among the cases nothing is done. -/
theorem abacus_chooses_then_acts :
    (∃ es u t es₁ es₂,
      (instanceMachine 0).Does abacusSite abacus [.choose tally steps] es u ∧
        (instanceMachine 0).Does abacusSite abacus [setTally 2, again] es₁ t ∧
        (instanceMachine 0).Does abacusSite t [] es₂ u ∧
        es = .did abacusSite (.choose tally steps) :: (es₁ ++ es₂) ∧ totals u 4 = true) ∧
      ∃ u,
        (instanceMachine 0).Does abacusSite abacus
            [.choose tally (steps ++ [(gone, setTally 5)])]
            [.did abacusSite (.choose tally (steps ++ [(gone, setTally 5)]))] u ∧
          u.memory = abacus.memory := by
  constructor
  · obtain ⟨es, u, hdoes, hdrain, hchosen, -⟩ :=
      choose_then_act 0 abacus abacusSite tally steps []
    have hcases : ∀ c ∈ steps, ∃ found, c.1.evaluate abacusLookup = .ok found := by
      intro c hc
      simp only [steps, List.mem_cons, List.not_mem_nil, or_false] at hc
      rcases hc with rfl | rfl | rfl <;> exact ⟨_, rfl⟩
    obtain ⟨t, es₁, es₂, hfirst, hafter, hes⟩ := hchosen (.ofNat 1) rfl hcases
    refine ⟨es, u, t, es₁, es₂, hdoes, chosen_steps ▸ hfirst, hafter, hes, ?_⟩
    -- more fuel than is needed leads to the same world
    have hcounts : ((instanceMachine 0).drain 20 abacus
        (actions abacusSite [.choose tally steps])).any (fun d => totals d.final 4) = true := by
      decide +kernel
    obtain ⟨d, hd, hcounts⟩ := (Option.any_eq_true _ _).1 hcounts
    obtain ⟨k, effects, hk, hdrains⟩ := Machine.exists_drains hd
    have hmore := (hdrain 20 [] []).1
    rw [List.append_nil, hdrains.drain (Nat.le_trans hk (Nat.le_add_right _ _))] at hmore
    cases hmore
    exact hcounts
  · obtain ⟨es, u, hdoes, -, -, hfails⟩ :=
      choose_then_act 0 abacus abacusSite tally (steps ++ [(gone, setTally 5)]) []
    obtain ⟨first, es', hafter, rfl⟩ := hfails gone _ (.inr (by simp [steps])) rfl
    cases hafter
    exact ⟨_, hdoes, rfl⟩

end World

end Statechart
