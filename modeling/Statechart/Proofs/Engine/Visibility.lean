import Mathlib.Data.List.Nodup
import Mathlib.Logic.Relation
import Statechart.Proofs.Engine.JobTable
import Statechart.Proofs.Engine.Placement
import Statechart.Proofs.Engine.Reach

/-!
# What is seen where

Whatever an engine does on its own it does in a part of an instance: outside of its states, or in
one of them. Outside of its states an instance sees the persistent variables, those of the instances
that it is nested in, and its own; in a state it sees the variables of the state as well.

- `Site.IsIn`               : a site is a part of an instance
- `World.IsSited`           : all sites are
- `ServedRun.isSited`       : so it is at any time of a run
- `World.Surrounds`         : a layer of persistent variables, or of those around an instance
- `IsSeparated.mem_extent_iff` : what an instance sees outside of its states
- `IsSeparated.eq_of_mem`   : no two instances share a layer
-/

namespace Statechart

/-! ## Parts of instances -/

/-- What is seen in a part of an instance. -/
def Placement.extentOf (q : Placement) : Scope → Extent
  | .machine => q.extent
  | .state name =>
      match valueOf? name q.stateLayers with
      | some id => q.extent.extend id
      | none => q.extent

/-- A site is a part of the instance of a number. -/
def Site.IsIn (qs : List Placement) (n : Nat) (site : Site) : Prop :=
  site.owner = .numbered n ∧ ∃ q, qs[n]? = some q ∧ site.extent = q.extentOf site.scope

/-- A part of an instance shows the variables of one state at most. -/
theorem Placement.mem_extentOf {q : Placement} {scope : Scope} {k : LayerId}
    (h : k ∈ (q.extentOf scope).layers) :
    k ∈ q.extent.layers ∨ ∃ name, scope = .state name ∧ (name, k) ∈ q.stateLayers := by
  cases scope with
  | machine => exact .inl h
  | state name =>
      simp only [extentOf] at h
      split at h
      · rename_i id hid
        rcases List.mem_append.1 h with hin | hown
        · exact .inl hin
        · rw [List.mem_singleton.1 hown]
          exact .inr ⟨name, rfl, mem_of_valueOf?_eq_some hid⟩
      · exact .inl h

namespace World

variable {w₀ w v : World} {hs : List Happening} {label : Option Happening} {n m : Nat}
  {i j : Instance} {k : LayerId}

theorem placement_eq (hi : w.instance? n = some i) : w.placement[n]? = some i.placement := by
  rw [placement_getElem?, hi, Option.map_some]

theorem machineSite_isIn (hi : w.instance? n = some i) :
    (w.machineSite n).IsIn w.placement n := by
  refine ⟨machineSite_owner w n, i.placement, placement_eq hi, ?_⟩
  simp only [machineSite, hi]
  rfl

theorem stateSite_isIn (hi : w.instance? n = some i) (state : State) :
    (w.stateSite n state).IsIn w.placement n := by
  refine ⟨rfl, i.placement, placement_eq hi, ?_⟩
  simp only [stateSite, stateExtent, hi]
  rfl

/-- It is the turn of an instance that is there. -/
theorem exists_of_current {t : Turn} (htidy : w.status.IsTidy) (hcurrent : w.current = some t) :
    ∃ i, w.instance? t.number = some i := by
  obtain ⟨c, hc, -⟩ := htidy.running t hcurrent
  have hcontrol : (w.instance? t.number).map Instance.control = some c :=
    (controls_getElem? w t.number).symm.trans hc
  obtain ⟨i, hi, -⟩ := Option.map_eq_some_iff.1 hcontrol
  exact ⟨i, hi⟩

/-- Every site is a part of some instance. -/
def IsSited (w : World) : Prop :=
  w.AreAt (fun site => ∃ n, site.IsIn w.placement n) fun site => ∃ n, site.IsIn w.placement n

/-- What is a part of an instance stays one. -/
theorem Step.isIn (hstep : Step w label v) {site : Site} (h : site.IsIn w.placement n) :
    site.IsIn v.placement n := by
  obtain ⟨howner, q, hq, hextent⟩ := h
  rw [placement_getElem?] at hq
  obtain ⟨i, hi, rfl⟩ := Option.map_eq_some_iff.1 hq
  obtain ⟨-, j, hj, hreacts⟩ := hstep.reacts hi
  refine ⟨howner, i.placement, ?_, hextent⟩
  rw [placement_getElem?, hj, Option.map_some, hreacts.kept.1]

theorem Step.isSited (hstep : Step w label v) (htidy : w.status.IsTidy) (h : w.IsSited)
    (hbuilt : ∀ r, label = some (.asked r) → r.IsBuilt) : v.IsSited := by
  have hstays : ∀ site : Site, (∃ n, site.IsIn w.placement n) → ∃ n, site.IsIn v.placement n :=
    fun _ ⟨n, hin⟩ => ⟨n, hstep.isIn hin⟩
  have hat := hstep.areAt h (fun t ht => ?_) hbuilt
  · exact ⟨fun t ht => hstays _ (hat.timers t ht), fun j hj => hstays _ (hat.jobs j hj),
      fun t ht site action hin => hstays _ (hat.work t ht site action hin)⟩
  · obtain ⟨i, hi⟩ := exists_of_current htidy ht
    exact ⟨⟨_, machineSite_isIn hi⟩,
      fun state => ⟨⟨_, stateSite_isIn hi state⟩, _, stateSite_isIn hi state⟩,
      fun state => ⟨_, stateSite_isIn hi state⟩⟩

theorem ServedRun.isTidy (h : ServedRun w₀ hs w) (hnew : w₀.IsNew) : w.status.IsTidy :=
  h.nestedRun.run.isTidy hnew.isTidy h.isBuilt

/-- Every site of a run is a part of an instance. -/
theorem ServedRun.isSited (h : ServedRun w₀ hs w) (hnew : w₀.IsNew) (hidle : w₀.IsIdle) :
    w.IsSited := by
  induction h with
  | start =>
      refine ⟨fun t ht => ?_, fun j hj => ?_, fun t ht => ?_⟩
      · rw [hnew.timers] at ht
        cases ht
      · rw [hidle.1] at hj
        cases hj
      · rw [hnew.current] at ht
        cases ht
  | step hbefore hstep hserves ih =>
      exact hstep.isSited (hbefore.isTidy hnew) ih fun r hr => (hserves r hr).isBuilt

/-! ## What instances see -/

theorem descends_iff_of_isParent {p : Nat} (h : w.IsParent p n) :
    w.Descends m n ↔ m = n ∨ w.Descends m p := by
  rw [Descends, Relation.ReflTransGen.cases_tail_iff]
  constructor
  · intro hway
    rcases hway with hsame | ⟨q, hmq, hq⟩
    · exact .inl hsame.symm
    · exact .inr (isParent_unique h hq ▸ hmq)
  · intro hway
    rcases hway with hsame | hmp
    · exact .inl hsame.symm
    · exact .inr ⟨p, hmp, h⟩

/-- Who is nested in nobody is only below itself. -/
theorem eq_of_descends_of_none (hi : w.instance? n = some i) (hnone : i.parent = none)
    (hway : w.Descends m n) : m = n := by
  rcases Relation.ReflTransGen.cases_tail hway with hsame | ⟨q, -, j, hj, hq⟩
  · exact hsame.symm
  · cases hi.symm.trans hj
    cases hnone.symm.trans hq

theorem enclosing_of_instance? {p : Nat} (hp : w.instance? p = some j) :
    w.enclosing (some p) = j.extent := by
  simp only [enclosing, Option.bind_some, hp]

/-- A layer is that of the persistent variables, or of the variables of an instance that another
one is nested in or is. -/
def Surrounds (w : World) (n : Nat) (k : LayerId) : Prop :=
  k = w.root ∨ ∃ m j, w.Descends m n ∧ w.instance? m = some j ∧ k = j.locals

theorem surrounds_iff_of_none (hi : w.instance? n = some i) (hnone : i.parent = none) :
    w.Surrounds n k ↔ k = w.root ∨ k = i.locals := by
  refine or_congr_right ⟨?_, fun hk => ⟨n, i, .refl, hi, hk⟩⟩
  rintro ⟨m, j, hway, hj, hk⟩
  obtain rfl := eq_of_descends_of_none hi hnone hway
  cases hi.symm.trans hj
  exact hk

theorem surrounds_iff_of_some {p : Nat} (hi : w.instance? n = some i) (hp : i.parent = some p) :
    w.Surrounds n k ↔ w.Surrounds p k ∨ k = i.locals := by
  have hsplit : ∀ m, w.Descends m n ↔ m = n ∨ w.Descends m p := fun m =>
    descends_iff_of_isParent ⟨i, hi, hp⟩
  rw [Surrounds, Surrounds, or_assoc]
  refine or_congr_right ⟨?_, ?_⟩
  · rintro ⟨m, j, hway, hj, hk⟩
    rcases (hsplit m).1 hway with rfl | hway
    · cases hi.symm.trans hj
      exact .inr hk
    · exact .inl ⟨m, j, hway, hj, hk⟩
  · rintro (⟨m, j, hway, hj, hk⟩ | hk)
    · exact ⟨m, j, (hsplit m).2 (.inr hway), hj, hk⟩
    · exact ⟨n, i, .refl, hi, hk⟩

namespace IsSeparated

/-- The variables of an instance are above those that its parent sees. -/
theorem extent_eq (h : w.IsSeparated) (hi : w.instance? n = some i) :
    i.extent = (w.enclosing i.parent).extend i.locals := by
  rw [enclosing_eq]
  exact h.below n i.placement (placement_eq hi)

/-- Outside of its states an instance sees what surrounds it. -/
theorem mem_extent_iff (h : w.IsSeparated) (hi : w.instance? n = some i) :
    k ∈ i.extent.layers ↔ w.Surrounds n k := by
  -- the induction goes from an instance to the one that it is nested in, which is older
  induction n using Nat.strongRecOn generalizing i with
  | ind n ih =>
      have hmem : k ∈ i.extent.layers ↔ k ∈ (w.enclosing i.parent).layers ∨ k = i.locals := by
        rw [h.extent_eq hi, Extent.extend, List.mem_append, List.mem_singleton]
      cases hparent : i.parent with
      | none =>
          have hroot : (w.enclosing none).layers = [w.root] := rfl
          rw [hmem, hparent, hroot, List.mem_singleton]
          exact (surrounds_iff_of_none hi hparent).symm
      | some p =>
          have hlt : p < n := h.older n i.placement p (placement_eq hi) hparent
          have hthere : p < w.instances.length :=
            Nat.lt_trans hlt (List.getElem?_eq_some_iff.1 hi).1
          have hp : w.instance? p = some w.instances[p] := List.getElem?_eq_getElem hthere
          rw [hmem, hparent, enclosing_of_instance? hp, ih p hlt hp]
          exact (surrounds_iff_of_some hi hparent).symm

theorem nodup_ownLayers (h : w.IsSeparated) (hi : w.instance? n = some i) :
    i.ownLayers.Nodup :=
  (List.nodup_flatMap.1 h.apart).1 i.placement
    (List.mem_map_of_mem (List.mem_of_getElem? hi))

/-- No two instances share a layer. -/
theorem eq_of_mem (h : w.IsSeparated) (hi : w.instance? n = some i) (hj : w.instance? m = some j)
    (hn : k ∈ i.ownLayers) (hm : k ∈ j.ownLayers) : n = m := by
  have hapart := List.pairwise_iff_getElem.1 (List.nodup_flatMap.1 h.apart).2
  have hlayers : ∀ {n : Nat} {i : Instance}, w.instance? n = some i →
      ∃ hn : n < w.placement.length, w.placement[n].ownLayers = i.ownLayers := by
    intro n i hi
    obtain ⟨hlt, hq⟩ := List.getElem?_eq_some_iff.1 (placement_eq hi)
    exact ⟨hlt, congrArg Placement.ownLayers hq⟩
  obtain ⟨hlt, hown⟩ := hlayers hi
  obtain ⟨hlt', hown'⟩ := hlayers hj
  rcases Nat.lt_trichotomy n m with hless | hsame | hless
  · exact absurd (hown'.symm ▸ hm) (hapart n m hlt hlt' hless (hown.symm ▸ hn))
  · exact hsame
  · exact absurd (hown.symm ▸ hn) (hapart m n hlt' hlt hless (hown'.symm ▸ hm))

end IsSeparated

end World

end Statechart
