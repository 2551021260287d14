import Statechart.Proofs.Engine.Published

/-!
# Families of instances

Instances are built depth first. Each knows who it is nested in, and is told afterwards who is
nested in it, so that there is always somebody whose parent does not list it yet. When a request is
served nobody is left like that, and the instances are a forest.

- `IsForest`            : parents and those nested in them know of each other, but for some
- `IsForest.push`, `IsForest.attach` : an instance is added, and told who is nested in it
- `World.Founds`        : some instances were built, with all that are nested in them
- `World.founds_build`  : by building them
- `World.NestedRun`     : nobody is nested in an instance that is not there
- `NestedRun.isForest`  : the instances of such a run are a forest
-/

namespace Statechart

/-! ## Forests -/

def parentIn (kin : List Kin) (c : Nat) : Option Nat := kin[c]?.bind (·.parent)

def nestedIn (kin : List Kin) (p : Nat) : List Nat := (kin[p]?.map (·.nested)).getD []

/-- Parents are older than those nested in them, and both know of each other. Of some pending
instances their parents do not know yet. -/
structure IsForest (pending : List Nat) (kin : List Kin) : Prop where
  nodup : ∀ p, (nestedIn kin p).Nodup
  child : ∀ p, ∀ c ∈ nestedIn kin p, c ∉ pending ∧ parentIn kin c = some p
  parent : ∀ c p, parentIn kin c = some p → p < c ∧ (c ∈ pending ∨ c ∈ nestedIn kin p)

section Kin

variable {kin kin' : List Kin} {parent : Option Nat} {p c : Nat} {ns pending : List Nat}

theorem lt_of_parentIn (h : parentIn kin c = some p) : c < kin.length := by
  obtain ⟨k, hk, -⟩ := Option.bind_eq_some_iff.1 h
  exact (List.getElem?_eq_some_iff.1 hk).1

theorem getElem?_push (kin : List Kin) (k : Kin) (c : Nat) :
    (kin ++ [k])[c]? = if c = kin.length then some k else kin[c]? := by
  by_cases h : c = kin.length
  · subst h
    simp
  · rw [if_neg h, List.getElem?_append]
    split
    · rfl
    · rw [List.getElem?_eq_none (by simp; omega), List.getElem?_eq_none (by omega)]

theorem parentIn_push (kin : List Kin) (k : Kin) (c : Nat) :
    parentIn (kin ++ [k]) c = if c = kin.length then k.parent else parentIn kin c := by
  rw [parentIn, getElem?_push]
  split <;> rfl

/-- In a new instance nobody is nested. -/
theorem nestedIn_push (kin : List Kin) (parent : Option Nat) (p : Nat) :
    nestedIn (kin ++ [⟨parent, []⟩]) p = nestedIn kin p := by
  rw [nestedIn, getElem?_push]
  split
  · rename_i h
    simp [nestedIn, h]
  · rfl

theorem parentIn_modify {f : Kin → Kin} (kin : List Kin) (p c : Nat)
    (h : ∀ k, (f k).parent = k.parent) : parentIn (kin.modify p f) c = parentIn kin c := by
  simp only [parentIn, List.getElem?_modify]
  split <;> cases kin[c]? <;> simp [h]

theorem nestedIn_modify {f : Kin → Kin} {g : List Nat → List Nat} (hp : p < kin.length)
    (h : ∀ k, (f k).nested = g k.nested) (q : Nat) :
    nestedIn (kin.modify p f) q = if p = q then g (nestedIn kin q) else nestedIn kin q := by
  simp only [nestedIn, List.getElem?_modify]
  split
  · rename_i hq
    subst hq
    simp [List.getElem?_eq_getElem hp, h]
  · cases kin[q]? <;> rfl

namespace IsForest

theorem nil : IsForest [] [] where
  nodup _ := List.nodup_nil
  child _ _ h := by cases h
  parent _ _ h := by cases h

/-- An instance is added, and its parent does not know of it yet. -/
theorem push (h : IsForest pending kin) (hparent : ∀ p, parent = some p → p < kin.length) :
    IsForest (kin.length :: pending) (kin ++ [⟨parent, []⟩]) := by
  refine ⟨fun p => ?_, fun p c hc => ?_, fun c p hp => ?_⟩
  · rw [nestedIn_push]
    exact h.nodup p
  · rw [nestedIn_push] at hc
    obtain ⟨hbound, hp⟩ := h.child p c hc
    have hne : c ≠ kin.length := Nat.ne_of_lt (lt_of_parentIn hp)
    rw [parentIn_push, if_neg hne]
    exact ⟨by simp [hne, hbound], hp⟩
  · rw [parentIn_push] at hp
    rw [nestedIn_push]
    split at hp
    · rename_i hc
      subst hc
      exact ⟨hparent p hp, .inl List.mem_cons_self⟩
    · obtain ⟨hlt, hlisted⟩ := h.parent c p hp
      exact ⟨hlt, hlisted.imp_left (List.mem_cons_of_mem _)⟩

/-- An instance gets to know of pending instances that are nested in it. -/
theorem attach (h : IsForest (ns ++ pending) kin) (hnodup : ns.Nodup)
    (hapart : ∀ c ∈ ns, c ∉ pending) (hns : ∀ c ∈ ns, parentIn kin c = some p)
    (hparents : ∀ c, parentIn kin' c = parentIn kin c)
    (hnested : ∀ q, nestedIn kin' q = if p = q then nestedIn kin q ++ ns else nestedIn kin q) :
    IsForest pending kin' := by
  have hmem : ∀ {q c}, c ∈ nestedIn kin' q ↔ c ∈ nestedIn kin q ∨ (p = q ∧ c ∈ ns) := by
    intro q c
    rw [hnested]
    split <;> simp [*]
  refine ⟨fun q => ?_, fun q c hc => ?_, fun c q hq => ?_⟩
  · rw [hnested]
    split
    · refine List.nodup_append.2 ⟨h.nodup q, hnodup, ?_⟩
      rintro c hc d hd rfl
      exact (h.child q c hc).1 (List.mem_append_left _ hd)
    · exact h.nodup q
  · rw [hparents]
    rcases hmem.1 hc with hold | ⟨rfl, hnew⟩
    · obtain ⟨hbound, hq⟩ := h.child q c hold
      exact ⟨fun hpending => hbound (List.mem_append_right _ hpending), hq⟩
    · exact ⟨hapart c hnew, hns c hnew⟩
  · rw [hparents] at hq
    obtain ⟨hlt, hlisted⟩ := h.parent c q hq
    refine ⟨hlt, ?_⟩
    rcases hlisted with hpending | hlisted
    · rcases List.mem_append.1 hpending with hnew | hpending
      · have hsame : p = q := Option.some.inj ((hns c hnew).symm.trans hq)
        exact .inr (hmem.2 (.inr ⟨hsame, hnew⟩))
      · exact .inl hpending
    · exact .inr (hmem.2 (.inl hlisted))

theorem of_mem_iff {pending' : List Nat} (h : IsForest pending kin)
    (hsame : ∀ c, c ∈ pending' ↔ c ∈ pending) : IsForest pending' kin where
  nodup := h.nodup
  child p c hc := ⟨fun hpending => (h.child p c hc).1 ((hsame c).1 hpending), (h.child p c hc).2⟩
  parent c p hp := ⟨(h.parent c p hp).1, (h.parent c p hp).2.imp_left (hsame c).2⟩

/-- Who is nested in nobody need not be known to anybody. -/
theorem release (h : IsForest (ns ++ pending) kin) (hroots : ∀ c ∈ ns, parentIn kin c = none) :
    IsForest pending kin := by
  refine ⟨h.nodup, fun p c hc => ?_, fun c p hp => ?_⟩
  · obtain ⟨hbound, hp⟩ := h.child p c hc
    exact ⟨fun hpending => hbound (List.mem_append_right _ hpending), hp⟩
  · obtain ⟨hlt, hlisted⟩ := h.parent c p hp
    refine ⟨hlt, ?_⟩
    rcases hlisted with hpending | hlisted
    · rcases List.mem_append.1 hpending with hroot | hpending
      · rw [hroots c hroot] at hp
        cases hp
      · exact .inl hpending
    · exact .inr hlisted

end IsForest

end Kin

/-! ## Building -/

namespace World

variable {w v u : World} {parent : Option Nat} {n : Nat} {ns : List Nat}

/-- Some instances with one parent were built, with all that are nested in them. Nobody else is
pending among the new instances. -/
structure Founds (parent : Option Nat) (ns : List Nat) (w v : World) : Prop where
  length : w.kin.length ≤ v.kin.length
  kept : ∀ c, c < w.kin.length → v.kin[c]? = w.kin[c]?
  fresh : ∀ n ∈ ns, w.kin.length ≤ n ∧ n < v.kin.length
  nodup : ns.Nodup
  under : ∀ n ∈ ns, parentIn v.kin n = parent
  forest : ∀ pending, (∀ c ∈ pending, c < w.kin.length) →
    (∀ p, parent = some p → p < w.kin.length) → IsForest pending w.kin →
      IsForest (ns ++ pending) v.kin

namespace Founds

theorem nil (parent : Option Nat) (w : World) : Founds parent [] w w where
  length := Nat.le_refl _
  kept _ _ := rfl
  fresh _ h := by cases h
  nodup := List.nodup_nil
  under _ h := by cases h
  forest _ _ _ h := h

theorem cons (h : Founds parent [n] w v) (h' : Founds parent ns v u) :
    Founds parent (n :: ns) w u := by
  obtain ⟨hge, hlt⟩ := h.fresh n List.mem_cons_self
  refine ⟨Nat.le_trans h.length h'.length, fun c hc => ?_, fun m hm => ?_, ?_, fun m hm => ?_,
    fun pending hpending hparent hforest => ?_⟩
  · exact (h'.kept c (Nat.lt_of_lt_of_le hc h.length)).trans (h.kept c hc)
  · rcases List.mem_cons.1 hm with rfl | hm
    · exact ⟨hge, Nat.lt_of_lt_of_le hlt h'.length⟩
    · obtain ⟨hge', hlt'⟩ := h'.fresh m hm
      exact ⟨Nat.le_trans h.length hge', hlt'⟩
  · refine List.nodup_cons.2 ⟨fun hn => ?_, h'.nodup⟩
    have hge' := (h'.fresh n hn).1
    omega
  · rcases List.mem_cons.1 hm with rfl | hm
    · rw [parentIn, h'.kept m hlt]
      exact h.under m List.mem_cons_self
    · exact h'.under m hm
  · -- the first one is pending while the others are built
    have hfirst : IsForest (n :: pending) v.kin := h.forest pending hpending hparent hforest
    have hpending' : ∀ c ∈ n :: pending, c < v.kin.length := by
      intro c hc
      rcases List.mem_cons.1 hc with rfl | hc
      · exact hlt
      · exact Nat.lt_of_lt_of_le (hpending c hc) h.length
    have hparent' : ∀ p, parent = some p → p < v.kin.length := fun p hp =>
      Nat.lt_of_lt_of_le (hparent p hp) h.length
    refine (h'.forest (n :: pending) hpending' hparent' hfirst).of_mem_iff fun c => ?_
    simp only [List.mem_append, List.mem_cons, or_assoc]
    exact or_left_comm

/-- An instance is added, and then those nested in it. -/
theorem nest {children : List Nat} (hadd : v.kin = w.kin ++ [⟨parent, []⟩])
    (h : Founds (some w.kin.length) children v u) :
    Founds parent [w.kin.length] w (u.setNested w.kin.length children) := by
  have hlength : v.kin.length = w.kin.length + 1 := by rw [hadd, List.length_append]; rfl
  have hlt : w.kin.length < u.kin.length := Nat.lt_of_lt_of_le (by omega) h.length
  have hself : u.kin[w.kin.length]? = some ⟨parent, []⟩ := by
    rw [h.kept _ (by omega), hadd, getElem?_push, if_pos rfl]
  have hkin : (u.setNested w.kin.length children).kin =
      u.kin.modify w.kin.length fun k => { k with nested := children } :=
    kin_mapInstance u _ fun _ => rfl
  have hparents : ∀ c, parentIn (u.setNested w.kin.length children).kin c = parentIn u.kin c :=
    fun c => (congrArg (parentIn · c) hkin).trans (parentIn_modify u.kin _ c fun _ => rfl)
  refine ⟨?_, fun c hc => ?_, fun m hm => ?_, by simp, fun m hm => ?_,
    fun pending hpending hparent hforest => ?_⟩
  · rw [hkin, List.length_modify]
    exact Nat.le_of_lt hlt
  · rw [hkin, List.getElem?_modify_ne _ _ (Nat.ne_of_gt hc), h.kept c (by omega), hadd,
      List.getElem?_append_left hc]
  · rw [List.mem_singleton.1 hm, hkin, List.length_modify]
    exact ⟨Nat.le_refl _, hlt⟩
  · rw [List.mem_singleton.1 hm, hparents, parentIn, hself]
    rfl
  · -- with the new instance pending its nested ones are built, and then they are made known to it
    have hpush : IsForest (w.kin.length :: pending) v.kin := hadd ▸ hforest.push hparent
    have hpending' : ∀ c ∈ w.kin.length :: pending, c < v.kin.length := by
      intro c hc
      rcases List.mem_cons.1 hc with rfl | hc
      · omega
      · exact Nat.lt_trans (hpending c hc) (by omega)
    have hbelow : ∀ p, some w.kin.length = some p → p < v.kin.length := by
      intro p hp
      cases hp
      omega
    refine (h.forest _ hpending' hbelow hpush).attach h.nodup (fun c hc hin => ?_) h.under hparents
      fun q => ?_
    · have hge := (h.fresh c hc).1
      have hlt' := hpending' c hin
      omega
    · rw [hkin, nestedIn_modify hlt (g := fun _ => children) fun _ => rfl]
      split
      · rename_i hq
        rw [← hq, nestedIn, hself]
        rfl
      · rfl

end Founds

theorem addInstance_kin {g : Graph} {enclosing extent : Extent}
    (h : w.addInstance g enclosing parent = .ok (v, n, extent)) :
    v.kin = w.kin ++ [⟨parent, []⟩] ∧ n = w.kin.length := by
  unfold addInstance at h
  obtain ⟨memory, -, h⟩ := bind_eq_ok_iff.1 h
  obtain ⟨⟨memory', layers⟩, -, h⟩ := bind_eq_ok_iff.1 h
  cases h
  simp [kin, Instance.kin]

mutual

theorem founds_build {enclosing : Extent} {parent : Option Nat} {w v : World} {n : Nat} :
    ∀ {g : Graph}, build w enclosing parent g = .ok (v, n) → Founds parent [n] w v
  | ⟨name, isAbstract, locals, nested, states, initial, description⟩, hbuild => by
      rw [build] at hbuild
      obtain ⟨⟨u, m, extent⟩, hadd, hbuild⟩ := bind_eq_ok_iff.1 hbuild
      obtain ⟨⟨u', children⟩, hall, hbuild⟩ := bind_eq_ok_iff.1 hbuild
      cases hbuild
      obtain ⟨hkin, rfl⟩ := addInstance_kin hadd
      exact .nest hkin (founds_buildAll hall)

theorem founds_buildAll {enclosing : Extent} {parent : Option Nat} {w v : World}
    {ns : List Nat} :
    ∀ {gs : List Graph}, buildAll w enclosing parent gs = .ok (v, ns) → Founds parent ns w v
  | [], hbuild => by
      cases hbuild
      exact .nil parent w
  | g :: rest, hbuild => by
      rw [buildAll] at hbuild
      -- an abstract graph has no instance
      split at hbuild
      · exact founds_buildAll hbuild
      · obtain ⟨⟨u, m⟩, hfirst, hbuild⟩ := bind_eq_ok_iff.1 hbuild
        obtain ⟨⟨u', ms⟩, hlater, hbuild⟩ := bind_eq_ok_iff.1 hbuild
        cases hbuild
        exact (founds_build hfirst).cons (founds_buildAll hlater)

end

/-! ## Requests -/

theorem kin_start (w : World) (ns : List Nat) : (w.start ns).kin = w.kin := by
  have henqueue : ∀ (v : World) (n : Nat), (v.enqueue (.turn n)).kin = v.kin := fun _ _ => rfl
  have hregister : ∀ (v : World) (n : Nat), (v.register n).kin = v.kin := by
    intro v n
    unfold register
    split
    · rfl
    · exact kin_mapInstance_of_eq v n fun _ => rfl
  rw [start, part_foldl henqueue, part_foldl hregister]

/-- Whoever was built under a parent is made known to it. -/
theorem isForest_adopt (hforest : IsForest [] w.kin) (h : Founds parent [n] w v)
    (hparent : ∀ p, parent = some p → p < w.kin.length) : IsForest [] (v.adopt parent n).kin := by
  have hbuilt : IsForest ([n] ++ []) v.kin :=
    h.forest [] (fun _ hc => by cases hc) hparent hforest
  have hn := h.under n List.mem_cons_self
  cases parent with
  | none => exact hbuilt.release fun c hc => List.mem_singleton.1 hc ▸ hn
  | some p =>
      have hp : p < v.kin.length := Nat.lt_of_lt_of_le (hparent p rfl) h.length
      have hkin : (v.adopt (some p) n).kin = v.kin.modify p fun k =>
          { k with nested := if n ∈ k.nested then k.nested else k.nested ++ [n] } :=
        kin_mapInstance v p fun _ => rfl
      -- nobody has listed the new instance before
      have hunknown : n ∉ nestedIn v.kin p := fun hin =>
        (hbuilt.child p n hin).1 List.mem_cons_self
      refine hbuilt.attach h.nodup (fun _ _ hin => by cases hin)
        (fun c hc => List.mem_singleton.1 hc ▸ hn) (fun c => ?_) fun q => ?_
      · exact (congrArg (parentIn · c) hkin).trans (parentIn_modify v.kin p c fun _ => rfl)
      · rw [hkin, nestedIn_modify hp
          (g := fun nested => if n ∈ nested then nested else nested ++ [n]) fun _ => rfl]
        split
        · rename_i hq
          subst hq
          rw [if_neg hunknown]
        · rfl

end World

/-- The instance in which a new one is nested. -/
def Request.parent? : Request → Option Nat
  | .spawn _ parent => parent
  | .place _ _ parent => parent
  | _ => none

namespace World

variable {w₀ w v : World} {hs : List Happening} {r : Request}

/-- Nobody is nested in an instance that is not there. -/
def Nests (w : World) (r : Request) : Prop := ∀ p, r.parent? = some p → p < w.instances.length

theorem isForest_serve (hforest : IsForest [] w.kin) (hnests : w.Nests r) :
    IsForest [] (w.serve r).kin := by
  have hparent : ∀ p, r.parent? = some p → p < w.kin.length := fun p hp => by
    rw [kin, List.length_map]
    exact hnests p hp
  cases hmakes : r.makes with
  | false =>
      rw [kin_serve w hmakes]
      exact hforest
  | true =>
      cases r with
      | launch c =>
          simp only [serve]
          unfold launch
          split
          · exact hforest
          · split
            · exact hforest
            · rename_i memory _
              simp only
              split
              · exact hforest
              · rename_i built roots hbuild
                have hfounds := founds_buildAll hbuild
                -- roots are nested in nobody, so that nobody has to know of them
                have hbuilt : IsForest (roots ++ []) built.kin :=
                  hfounds.forest [] (fun _ hc => by cases hc) (fun _ hp => by cases hp) hforest
                rw [kin_start]
                exact hbuilt.release hfounds.under
      | spawn g parent =>
          simp only [serve]
          unfold spawn
          split
          · exact hforest
          · simp only
            split
            · exact hforest
            · rename_i hbuild
              rw [kin_start]
              exact isForest_adopt hforest (founds_build hbuild) hparent
      | place g enclosing parent =>
          simp only [serve]
          unfold place
          split
          · exact hforest
          · rename_i hbuild
            rw [kin_start]
            exact isForest_adopt hforest (founds_build hbuild) hparent
      | _ => cases hmakes

/-! ## Runs -/

/-- Runs in which new instances are nested in instances that are there. -/
inductive NestedRun (w₀ : World) : List Happening → World → Prop where
  | start : NestedRun w₀ [] w₀
  | step {hs : List Happening} {label : Option Happening} {w w' : World} :
      NestedRun w₀ hs w → Step w label w' → (∀ r, label = some (.asked r) → w.Nests r) →
      NestedRun w₀ (label.toList ++ hs) w'

namespace NestedRun

theorem run (h : NestedRun w₀ hs w) : Run w₀ hs w := by
  induction h with
  | start => exact .start
  | step _ hstep _ ih => exact ih.step hstep

/-- What an engine does on its own makes no instances. -/
theorem trans {hs' : List Happening} (h : NestedRun w₀ hs w) (h' : Run w hs' v)
    (hfree : ∀ r, .asked r ∉ hs') : NestedRun w₀ (hs' ++ hs) v := by
  induction h' with
  | start => exact h
  | step _ hstep ih =>
      rw [List.append_assoc]
      refine (ih fun r hr => hfree r (List.mem_append_right _ hr)).step hstep fun r hr => ?_
      exact absurd (List.mem_append_left _ (Option.mem_toList.2 hr)) (hfree r)

/-- A request is served until nothing is ready. -/
theorem serve (h : NestedRun w₀ hs w) (hnests : w.Nests r) (fuel : Nat) :
    NestedRun w₀ ((trace fuel (w.serve r)).1 ++ (.asked r :: hs)) (trace fuel (w.serve r)).2 := by
  have hserved : NestedRun w₀ (.asked r :: hs) (w.serve r) :=
    h.step (.ask w r) fun r' hr' => by
      cases hr'
      exact hnests
  exact hserved.trans (run_trace fuel _) (asked_notMem_trace fuel _)

/-- The instances of a run are a forest at any time. -/
theorem isForest (h : NestedRun w₀ hs w) (hnew : w₀.IsNew) : IsForest [] w.kin := by
  induction h with
  | start =>
      rw [kin, hnew.instances]
      exact .nil
  | @step _ label _ _ _ hstep hnests ih =>
      by_cases hasked : ∃ r, label = some (.asked r)
      · obtain ⟨r, rfl⟩ := hasked
        rw [hstep.eq_serve]
        exact isForest_serve ih (hnests r rfl)
      · rw [hstep.kin fun r hr => absurd ⟨r, hr⟩ hasked]
        exact ih

end NestedRun

end World

end Statechart
