import Statechart.Proofs.Engine.Soundness

/-!
# Faults of the turns

- `World.faults_of_run` : the faults that an instance can meet between states, and what follows
-/

namespace Statechart

namespace World

/-- The faults that an instance meets in its turns are several transitions to follow, and timers
that cannot start. States are always found, there is always one to leave, and no timer is in the
way of another. All faults are fatal: nothing happens to the instance any more. With a graph that
was built strictly several transitions are met only where no event is waited for. A delay without
end is no fault that an instance could report; it is stranded by it. -/
theorem faults_of_run {w₀ w : World} {older newer : List Happening} {h : Happening} {n : Nat}
    {fault : EngineFault} (hnew : w₀.IsNew)
    (hbuilt : ∀ r, .asked r ∈ newer ++ h :: older → r.IsBuilt)
    (hrun : Run w₀ (newer ++ h :: older) w) (hnumber : h.number? = some n)
    (hfault : h.fault? = some fault) :
    ∃ i, w.instance? n = some i ∧ i.graph.MayMeet fault ∧
      ((∀ name, fault ≠ .stateNotFound name) ∧ fault ≠ .noActiveState ∧
        ∀ name, fault ≠ .duplicateTimer name) ∧
      fault.isFatal = true ∧
      (i.graph.IsBuilt true → ∀ state trigger count,
        fault = .nonDeterminism state trigger count → trigger = "always") ∧
      (i.phase = .ended ∨ i.phase = .stuck ∧ ∃ name, fault = .endlessDelay name) ∧
      ∀ later ∈ newer, later.number? ≠ some n := by
  -- the run up to the fault, the fault, and what comes after it
  obtain ⟨w₁, w₂, holder, hstep, hnewer⟩ := hrun.split
  have hbuilt₁ : ∀ r, .asked r ∈ older → r.IsBuilt := fun r hr => hbuilt r (by simp [hr])
  have hbuilt₂ : ∀ r, .asked r ∈ newer → r.IsBuilt := fun r hr => hbuilt r (by simp [hr])
  have htidy := holder.isTidy hnew.isTidy hbuilt₁
  have hadvances := hstep.advances htidy fun r hr => hbuilt r (by cases hr; simp)
  obtain ⟨a, ha⟩ := Option.isSome_iff_exists.1 (hadvances.known n h rfl hnumber)
  obtain ⟨b, hb, hnext⟩ := hadvances.runState n a ha
  obtain ⟨hmeets, hstops⟩ :=
    (holder.sound hnew hbuilt₁ ha).mayMeet_of_step hnext hnumber hfault
  obtain ⟨hsame, hnone⟩ := hnewer.of_isOver hadvances.tidy hbuilt₂ hb hstops.isOver
  obtain ⟨i, hi, hgraph, hphase⟩ := exists_instance hsame
  rw [← hstops.graph_eq, ← hgraph] at hmeets
  refine ⟨i, hi, hmeets, hmeets.ne, hmeets.isFatal, fun hstrict state trigger count heq => ?_,
    hphase ▸ hstops.phase, hnone⟩
  subst heq
  exact hmeets.trigger_eq hstrict

/-! ### A trial -/

/-- A machine that goes on an event to a state whose timer has no delay. -/
def rush : Description.Graph :=
  { name := "rush", isAbstract := false, locals := [], nested := []
    states :=
      [{ name := "calm", isInitial := true, isTerminal := false, entry := [], exit := []
         during := [], after := [], on := [⟨"go", ⟨some "hasty", [], [], none⟩⟩], always := []
         locals := [] },
        { name := "hasty", isInitial := false, isTerminal := false, entry := [], exit := []
          during := [], after := [.timeout "tick" (.ofNat 0) (.raise ⟨"tick", .internal, []⟩)]
          on := [], always := [], locals := [] }] }

def rushRequests : List Request :=
  [.place (.ofBuilt true rush (by decide +kernel)) .empty none,
    .offer (.numbered 0) ⟨"go", .internal, []⟩]

theorem rush_faults :
    ∃ newer h older w fault, Run bare (newer ++ h :: older) w ∧
      h.number? = some 0 ∧ h.fault? = some fault ∧ fault.code = "INVALID_TIMER" ∧
      ∃ i, w.instance? 0 = some i ∧ i.graph.MayMeet fault ∧ i.phase = .ended ∧
        ∀ later ∈ newer, later.number? ≠ some 0 := by
  have hany : (attend 20 bare rushRequests).1.any (fun h =>
      h.number? == some 0 && h.fault?.any fun fault => fault.code == "INVALID_TIMER") = true := by
    decide +kernel
  obtain ⟨h, hmem, hwanted⟩ := List.any_eq_true.1 hany
  obtain ⟨hnumber, hcode⟩ := Bool.and_eq_true_iff.1 hwanted
  obtain ⟨fault, hfault, hcode⟩ := (Option.any_eq_true _ _).1 hcode
  obtain ⟨newer, older, hsplit⟩ := List.append_of_mem hmem
  have hbuilt : ∀ r, .asked r ∈ newer ++ h :: older → r.IsBuilt := by
    intro r hr
    rcases List.mem_cons.1 (mem_of_asked_attend (hsplit ▸ hr)) with rfl | hr
    · exact ⟨true, Graph.ofBuilt_isBuilt true rush _⟩
    · cases List.mem_singleton.1 hr
      trivial
  have hrun := run_attend 20 bare rushRequests
  rw [hsplit] at hrun
  obtain ⟨i, hi, hmeets, -, -, -, hphase, hnone⟩ :=
    faults_of_run bare_isNew hbuilt hrun (beq_iff_eq.1 hnumber) hfault
  refine ⟨newer, h, older, _, fault, hrun, beq_iff_eq.1 hnumber, hfault, beq_iff_eq.1 hcode, i, hi,
    hmeets, ?_, hnone⟩
  rcases hphase with hended | ⟨-, name, rfl⟩
  · exact hended
  · exact absurd hcode (by simp [EngineFault.code])

end World

end Statechart
