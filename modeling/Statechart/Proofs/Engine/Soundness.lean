import Statechart.Proofs.Engine.Simulation

/-!
# What holds of every run

From a new engine on, whatever it is asked for and however time passes, the run state of every
instance is sound. Timers are never mixed up, and an instance whose turns are over stays as it is.

- `World.IsNew.isTidy`, `World.Run.isTidy` : every status of a run is tidy
- `World.Run.sound`      : the run state of every instance is sound
- `World.Run.origin`     : timers are old or fresh
- `World.Run.of_isOver`  : nothing happens to an instance whose turns are over
-/

namespace Statechart

namespace World

variable {w₀ w : World} {hs : List Happening}

theorem IsNew.isTidy (h : w₀.IsNew) : w₀.status.IsTidy := by
  have hkeys : w₀.status.keys = [] := congrArg (List.map Timer.key) h.timers
  have hcurrent : w₀.status.current = none := h.current
  exact {
    nodup := by
      rw [hkeys]
      exact List.nodup_nil
    below := by simp [hkeys]
    owned := by simp [hkeys]
    running := by simp [hcurrent]
    work := by simp [hcurrent] }

theorem IsNew.runState?_eq_none (h : w₀.IsNew) (n : Nat) : w₀.status.runState? n = none := by
  have hcontrols : w₀.status.controls = [] := congrArg (List.map Instance.control) h.instances
  simp [Status.runState?, hcontrols]

/-- What is known of the requests of a history is known of those of its last step. -/
theorem isBuilt_of_toList {label : Option Happening}
    (hbuilt : ∀ r, .asked r ∈ label.toList ++ hs → r.IsBuilt) :
    (∀ r, label = some (.asked r) → r.IsBuilt) ∧ ∀ r, .asked r ∈ hs → r.IsBuilt := by
  constructor
  · rintro r rfl
    exact hbuilt r (by simp)
  · exact fun r hr => hbuilt r (List.mem_append_right _ hr)

namespace Run

theorem isTidy (hrun : Run w₀ hs w) (htidy : w₀.status.IsTidy)
    (hbuilt : ∀ r, .asked r ∈ hs → r.IsBuilt) : w.status.IsTidy := by
  induction hrun with
  | start => exact htidy
  | step _ hstep ih =>
      obtain ⟨hlabel, hold⟩ := isBuilt_of_toList hbuilt
      exact (hstep.advances (ih hold) hlabel).tidy

/-- At any time of a run the run state of every instance is sound. -/
theorem sound (hrun : Run w₀ hs w) (hnew : w₀.IsNew)
    (hbuilt : ∀ r, .asked r ∈ hs → r.IsBuilt) {n : Nat} {a : RunState}
    (ha : w.status.runState? n = some a) : a.Sound (TimerLog.of n hs) := by
  induction hrun generalizing a with
  | start =>
      rw [hnew.runState?_eq_none n] at ha
      cases ha
  | @step _ _ v w hbefore hstep ih =>
      obtain ⟨hlabel, hold⟩ := isBuilt_of_toList hbuilt
      have hadvances := hstep.advances (hbefore.isTidy hnew.isTidy hold) hlabel
      rw [TimerLog.of_toList_append]
      cases hthere : v.status.runState? n with
      | none =>
          -- the instance is new, and what happened so far did not happen to it
          obtain ⟨hfirst, hgraph⟩ := hadvances.new n a hthere ha
          exact ⟨hgraph, .new hfirst⟩
      | some b =>
          obtain ⟨c, hc, hnext⟩ := hadvances.runState n b hthere
          obtain rfl : a = c := Option.some.inj (ha.symm.trans hc)
          exact (ih hold hthere).step hnext

/-- The timers of a later time were there before, or they are fresh. -/
theorem origin (hrun : Run w₀ hs w) (htidy : w₀.status.IsTidy)
    (hbuilt : ∀ r, .asked r ∈ hs → r.IsBuilt) :
    w₀.fresh ≤ w.fresh ∧ ∀ k ∈ w.status.keys, k ∈ w₀.status.keys ∨ w₀.fresh ≤ k.id := by
  induction hrun with
  | start => exact ⟨Nat.le_refl _, fun k hk => .inl hk⟩
  | step hbefore hstep ih =>
      obtain ⟨hlabel, hold⟩ := isBuilt_of_toList hbuilt
      obtain ⟨hfresh, horigin⟩ := ih hold
      have hadvances := hstep.advances (hbefore.isTidy htidy hold) hlabel
      refine ⟨Nat.le_trans hfresh hadvances.fresh, fun k hk => ?_⟩
      rcases hadvances.origin k hk with hthere | hlate
      · exact horigin k hthere
      · exact .inr (Nat.le_trans hfresh hlate)

/-- Nothing happens to an instance any more whose turns are over. -/
theorem of_isOver (hrun : Run w₀ hs w) (htidy : w₀.status.IsTidy)
    (hbuilt : ∀ r, .asked r ∈ hs → r.IsBuilt) {n : Nat} {a : RunState}
    (ha : w₀.status.runState? n = some a) (hover : a.IsOver) :
    w.status.runState? n = some a ∧ ∀ h ∈ hs, h.number? ≠ some n := by
  -- from the first world on, every step leaves the instance as it is
  induction hrun with
  | start => exact ⟨ha, by simp⟩
  | @step _ label _ _ hbefore hstep ih =>
      obtain ⟨hlabel, hold⟩ := isBuilt_of_toList hbuilt
      obtain ⟨hthere, hnone⟩ := ih hold
      have hadvances := hstep.advances (hbefore.isTidy htidy hold) hlabel
      obtain ⟨b, hb, hnext⟩ := hadvances.runState n a hthere
      obtain ⟨rfl, hother⟩ := hnext.of_isOver hover
      refine ⟨hb, fun h hh => ?_⟩
      rcases List.mem_append.1 hh with hlast | hearlier
      · exact hother h (Option.mem_toList.1 hlast)
      · exact hnone h hearlier

end Run

/-- Where an instance stands. -/
theorem runState?_of_instance? {n : Nat} {i : Instance} (hi : w.instance? n = some i) :
    w.status.runState? n =
      some (i.control.runState (w.status.keysOf (.numbered n))
        ((w.status.workOf n).filterMap Command.move?)) :=
  Status.runState?_of_control (exists_control hi)

theorem exists_instance {n : Nat} {a : RunState} (ha : w.status.runState? n = some a) :
    ∃ i, w.instance? n = some i ∧ i.graph = a.graph ∧ i.phase = a.phase := by
  obtain ⟨c, hc, rfl⟩ := Option.map_eq_some_iff.1 ha
  obtain ⟨i, hi, rfl⟩ := Option.map_eq_some_iff.1 ((controls_getElem? w n).symm.trans hc)
  exact ⟨i, hi, rfl, rfl⟩

theorem runningTimers_eq (w : World) (p : Party) :
    w.runningTimers p = (w.status.keysOf p).map (·.name) := by
  simp only [runningTimers, Status.keysOf, status, List.filter_map, List.map_map]
  rfl

end World

end Statechart
