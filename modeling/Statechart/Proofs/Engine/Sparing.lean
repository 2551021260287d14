import Statechart.Proofs.Engine.Frame
import Statechart.Proofs.Worklist.Protocol

/-!
# What actions leave of a world

Actions do not move instances, end no invocations, and stop no timers but those that are reset.

- `World.Spares`          : what is left of a world
- `World.Spares.perform`  : by one action
- `Machine.ActsIn`        : machines that act in a world, whatever else they are made of
- `spares_of_does`        : what is left of their world by a list of actions
-/

namespace Statechart

/-! ## One action -/

/-- Instances are where they were in their graphs, and invocations go on. A timer is lost only with
a reset of a timer, by its owner. -/
structure World.Spares (es : List Effect) (w w' : World) : Prop where
  controls : w'.controls = w.controls
  tracked : w.tracked <+: w'.tracked
  jobs : w.jobs <+: w'.jobs
  timers : w'.timers.Sublist w.timers
  lost : ∀ timer ∈ w.timers, timer ∉ w'.timers →
    ∃ stopped ∈ w.timers, stopped.id = timer.id ∧
      ∃ site, site.owner = stopped.owner ∧ Effect.did site (.resetTimeout stopped.name) ∈ es

namespace World.Spares

theorem refl (w : World) : Spares [] w w :=
  ⟨rfl, List.prefix_refl _, List.prefix_refl _, List.Sublist.refl _,
    fun _ hin hout => absurd hin hout⟩

theorem trans {es es' : List Effect} {w₁ w₂ w₃ : World} (h : Spares es w₁ w₂)
    (h' : Spares es' w₂ w₃) : Spares (es ++ es') w₁ w₃ := by
  refine ⟨h'.controls.trans h.controls, h.tracked.trans h'.tracked, h.jobs.trans h'.jobs,
    h'.timers.trans h.timers, fun timer hin hout => ?_⟩
  -- a timer is lost in the one part or in the other
  by_cases hmid : timer ∈ w₂.timers
  · obtain ⟨stopped, hstopped, hid, site, howner, hdid⟩ := h'.lost timer hmid hout
    exact ⟨stopped, h.timers.subset hstopped, hid, site, howner, List.mem_append_right _ hdid⟩
  · obtain ⟨stopped, hstopped, hid, site, howner, hdid⟩ := h.lost timer hin hmid
    exact ⟨stopped, hstopped, hid, site, howner, List.mem_append_left _ hdid⟩

/-- Neither timers nor invocations are touched. -/
theorem of_eq (es : List Effect) {w w' : World} (hcontrols : w'.controls = w.controls)
    (htracked : w'.tracked = w.tracked) (hjobs : w'.jobs = w.jobs)
    (htimers : w'.timers = w.timers) : Spares es w w' :=
  ⟨hcontrols, htracked ▸ List.prefix_refl _, hjobs ▸ List.prefix_refl _,
    htimers ▸ List.Sublist.refl _, fun _ hin hout => absurd hin (htimers ▸ hout)⟩

theorem of_writes (es : List Effect) {w w' : World} (h : w.Writes w') : Spares es w w' := by
  obtain ⟨memory, log, -, rfl⟩ := h
  exact of_eq es rfl rfl rfl rfl

theorem of_delivers (es : List Effect) {s : List Sighting} {w w' : World}
    (h : w.Delivers s w') : Spares es w w' := by
  have hcontrols : w'.controls = w.controls := congrArg Core.controls h.core_eq
  obtain ⟨_, _, _, _, rfl, -⟩ := h.frame
  exact of_eq es hcontrols rfl rfl rfl

theorem remark (w : World) (r : Remark) : Spares [] w (w.remark r) := of_eq [] rfl rfl rfl rfl

/-- One action, whether it fails or not. -/
theorem perform {w w' : World} {site : Site} {action : Action}
    {outcome : Except EngineFault (List Action)} (h : w.perform site action = (w', outcome)) :
    Spares [.did site action] w w' := by
  cases performs h with
  | writes hwrites _ _ => exact of_writes _ hwrites
  | raises hdelivers => exact of_delivers _ hdelivers
  | draws => exact of_eq _ rfl rfl rfl rfl
  | begins =>
      refine ⟨rfl, ?_, List.prefix_append _ _, List.Sublist.refl _,
        fun timer hin hout => absurd hin hout⟩
      simp only [startJob, enqueue]
      split
      · exact List.prefix_append _ _
      · exact List.prefix_refl _
  | @stops name timer htimer =>
      refine ⟨rfl, List.prefix_refl _, List.prefix_refl _, List.filter_sublist,
        fun lost hin hout => ?_⟩
      -- only timers with the identity of the one that was found are filtered out
      have hid : lost.id = timer.id := by simpa [hin] using hout
      have hfound := List.find?_some htimer
      simp only [Bool.and_eq_true, beq_iff_eq] at hfound
      refine ⟨timer, List.mem_of_find?_eq_some htimer, hid.symm, site, hfound.1.symm, ?_⟩
      rw [hfound.2]
      exact List.mem_singleton.2 rfl

end World.Spares

/-! ## Machines in a world -/

/-- The actions of a machine are those of a world that it has. They do not reach its control, which
tells its active state. -/
structure Machine.ActsIn {σ κ : Type} (m : Machine σ) (world : σ → World) (control : σ → κ) :
    Prop where
  perform (s : σ) (site : Site) (action : Action) :
    (world s).perform site action =
      (world (m.perform s site action).1, (m.perform s site action).2)
  remark (s : σ) (r : Remark) : world (m.remark s r) = (world s).remark r
  control_perform (s : σ) (site : Site) (action : Action) :
    control (m.perform s site action).1 = control s
  control_remark (s : σ) (r : Remark) : control (m.remark s r) = control s
  active? {s t : σ} : control s = control t → m.active? s = m.active? t

/-- Instances act in the world that they are a part of. -/
theorem instanceMachine_actsIn (n : Nat) : (instanceMachine n).ActsIn id World.controls where
  perform _ _ _ := rfl
  remark _ _ := rfl
  control_perform _ _ _ := (World.Spares.perform rfl).controls
  control_remark _ _ := rfl
  active? {w v} h := by
    have hn : (w.instance? n).map Instance.control = (v.instance? n).map Instance.control := by
      rw [← World.controls_getElem?, ← World.controls_getElem?, h]
    have hactive : ∀ u : World, (instanceMachine n).active? u =
        ((u.instance? n).map Instance.control).bind Control.active := fun u => by
      simp only [instanceMachine]
      cases u.instance? n <;> rfl
    rw [hactive, hactive, hn]

section ActsIn

variable {σ κ : Type} {m : Machine σ} {world : σ → World} {control : σ → κ} {s t : σ}

theorem spares_of_does (h : m.ActsIn world control) {site : Site} {as : List Action}
    {es : List Effect} (hdoes : m.Does site s as es t) :
    World.Spares es (world s) (world t) := by
  induction hdoes with
  | nil s => exact .refl _
  | @cons s t u v action next rest es es' hperform _ _ ihnext ihrest =>
      have hworld := h.perform s site action
      rw [hperform] at hworld
      exact (World.Spares.perform hworld).trans (ihnext.trans ihrest)
  | @failed s t u action fault rest es hperform _ ih =>
      have hworld := h.perform s site action
      rw [hperform] at hworld
      rw [h.remark] at ih
      exact (World.Spares.perform hworld).trans ((World.Spares.remark _ _).trans ih)

theorem control_of_does (h : m.ActsIn world control) {site : Site} {as : List Action}
    {es : List Effect} (hdoes : m.Does site s as es t) : control t = control s := by
  induction hdoes with
  | nil s => rfl
  | @cons s t u v action next rest es es' hperform _ _ ihnext ihrest =>
      have hcontrol := h.control_perform s site action
      rw [hperform] at hcontrol
      rw [ihrest, ihnext, hcontrol]
  | @failed s t u action fault rest es hperform _ ih =>
      have hcontrol := h.control_perform s site action
      rw [hperform] at hcontrol
      rw [ih, h.control_remark, hcontrol]

end ActsIn

end Statechart
