import Statechart.Proofs.Engine.Visibility
import Statechart.Proofs.Engine.Views
import Statechart.Value.Decidable

/-!
# Privacy of variables

A step of an instance has to do with the persistent variables, with those of the instances that it
is nested in, and with its own. Whatever is in any other layer, the step comes to the same and
leaves the layer as it is.

- `World.Ignores`           : a layer is neither read nor changed
- `World.actor?`            : for whom the next step is taken
- `World.MayUse`            : the layers of an instance, and those around it
- `IsSited.isIn_of_mem`     : the next step looks at parts of the instance for which it is taken
- `World.isolation_of_run`  : what steps leave alone at any time of a run
-/

namespace Statechart

namespace World

variable {w v : World} {n m : Nat} {i j : Instance} {k : LayerId} {α : Type}

/-! ## The data of events -/

theorem high?_extent (h : w.IsSeparated) (hi : w.instance? n = some i) :
    i.extent.high? = some i.locals := by
  rw [h.extent_eq hi]
  exact List.getLast?_concat

theorem getElem?_inject {extent : Extent} {id : LayerId} (hhigh : extent.high? = some id)
    (hk : k ≠ id) (w : World) (n : Nat) (entry : String × Value) :
    (inject n extent w entry).memory.layers[k]? = w.memory.layers[k]? := by
  have hput := Extent.getElem?_put hhigh hk w.memory (dataName entry.1) entry.2
  unfold inject
  generalize extent.put w.memory (dataName entry.1) entry.2 = written at hput
  obtain ⟨memory, outcome⟩ := written
  cases outcome <;> exact hput

theorem getElem?_injectAll {extent : Extent} {id : LayerId} (hhigh : extent.high? = some id)
    (hk : k ≠ id) (w : World) (n : Nat) (data : List (String × Value)) :
    (data.foldl (inject n extent) w).memory.layers[k]? = w.memory.layers[k]? := by
  induction data generalizing w with
  | nil => rfl
  | cons entry rest ih =>
      calc (rest.foldl (inject n extent) (inject n extent w entry)).memory.layers[k]?
          = (inject n extent w entry).memory.layers[k]? := ih (inject n extent w entry)
        _ = w.memory.layers[k]? := getElem?_inject hhigh hk w n entry

/-- The data of an event becomes variables of the instance that takes it, and nothing else is
written. -/
theorem getElem?_react (h : w.IsSeparated) (hi : w.instance? n = some i) (hk : k ≠ i.locals)
    (e : Event) : (w.react n e).1.memory.layers[k]? = w.memory.layers[k]? := by
  have hhigh := high?_extent h hi
  unfold react
  rw [hi]
  simp only
  split
  · rfl
  · simp only [select]
    split
    · rename_i hselect
      exact (Prod.mk.inj hselect).1 ▸ rfl
    · rename_i hselect
      exact (Prod.mk.inj hselect).1 ▸ rfl
    · rename_i hselect
      obtain rfl := (Prod.mk.inj hselect).1
      exact getElem?_injectAll hhigh hk (World.remarks (w.remarks _) _) n e.data

/-! ## What is ignored -/

/-- Whatever is in a layer, something comes to the same and leaves the layer as it is. -/
structure Ignores (f : World → World × α) (w : World) (k : LayerId) : Prop where
  same : ∀ l, f (w.replace k l) = ((f w).1.replace k l, (f w).2)
  kept : (f w).1.memory.layers[k]? = w.memory.layers[k]?

/-- What does not read a layer does not write it. -/
theorem ignores_of_replace {f : World → World × α}
    (hsame : ∀ l, f (w.replace k l) = ((f w).1.replace k l, (f w).2))
    (hkinds : w.memory.kinds <+: (f w).1.memory.kinds) (hheld : k < w.memory.layers.length) :
    Ignores f w k where
  same := hsame
  kept := by
    have hthere : w.memory.layers[k]? = some w.memory.layers[k] := List.getElem?_eq_getElem hheld
    -- what was in the layer may be put there once more before the step, or after it
    have hself := congrArg Prod.fst (hsame w.memory.layers[k])
    rw [replace_self hthere] at hself
    rw [hself, hthere]
    exact List.getElem?_set_self (Memory.held_of_isPrefix hkinds hheld)

/-- The next step, and whether there is one. -/
def proceed (w : World) : World × Bool :=
  match w.step? with
  | some v => (v, true)
  | none => (w, false)

/-- For whom the next step is taken. -/
def actor? (w : World) : Option Party :=
  match w.current with
  | some t => some (.numbered t.number)
  | none =>
      match w.ready with
      | .turn n :: _ => some (.numbered n)
      | .timer id :: _ => (w.timerById? id).map (·.site.owner)
      | .job id :: _ => (w.jobById? id).map (·.site.owner)
      | [] => none

theorem proceed_ignores (hunseen : IsUnseen k w.sites) (htidy : w.status.IsTidy)
    (hheld : k < w.memory.layers.length) : Ignores proceed w k := by
  have hstep := replace_step? hunseen hheld
  refine ignores_of_replace (fun l => ?_) ?_ hheld
  · rw [proceed, hstep, proceed]
    cases w.step? <;> rfl
  · cases hgo : w.step? with
    | none =>
        simp only [proceed, hgo]
        exact List.prefix_rfl
    | some v =>
        simp only [proceed, hgo]
        exact ((Step.go hgo).changes htidy).isPrefix_kinds fun memory =>
          happening?_ne_asked w (.write memory)

/-! ## Where the next step is taken -/

/-- The next step looks at parts of the instance for which it is taken. -/
theorem IsSited.isIn_of_mem (h : w.IsSited) (htidy : w.status.IsTidy) {site : Site}
    (hsite : site ∈ w.sites) : ∃ n, w.actor? = some (.numbered n) ∧ site.IsIn w.placement n := by
  have hevent : ∀ n, site ∈ w.eventSites n → site.IsIn w.placement n := by
    intro n hin
    unfold eventSites at hin
    split at hin
    · rename_i i hi
      rcases List.mem_cons.1 hin with rfl | hin
      · exact machineSite_isIn hi
      · obtain ⟨state, -, rfl⟩ := Option.map_eq_some_iff.1 (Option.mem_toList.1 hin)
        exact stateSite_isIn hi state
    · cases hin
  cases hcurrent : w.current with
  | some t =>
      have hactor : w.actor? = some (.numbered t.number) := by simp only [actor?, hcurrent]
      refine ⟨t.number, hactor, ?_⟩
      simp only [sites, hcurrent] at hsite
      cases hwork : t.work with
      | nil =>
          rw [hwork] at hsite
          exact hevent t.number hsite
      | cons c rest =>
          rw [hwork] at hsite
          cases c with
          | act other action =>
              -- actions are done for the instance whose turn it is
              obtain rfl := List.mem_singleton.1 hsite
              have hin : Command.act site action ∈ t.work := hwork ▸ List.mem_cons_self
              obtain ⟨n, hn⟩ := h.work t hcurrent site action hin
              have howner := htidy.work t hcurrent site action hin
              obtain rfl := Party.numbered.inj (hn.1.symm.trans howner)
              exact hn
          | move step =>
              obtain ⟨i, hi⟩ := exists_of_current htidy hcurrent
              cases step with
              | change state => exact List.mem_singleton.1 hsite ▸ stateSite_isIn hi state
              | _ => cases hsite
  | none =>
      simp only [sites, hcurrent] at hsite
      simp only [actor?, hcurrent]
      cases hready : w.ready with
      | nil =>
          rw [hready] at hsite
          cases hsite
      | cons task rest =>
          rw [hready] at hsite
          cases task with
          | turn n => exact ⟨n, rfl, hevent n hsite⟩
          | timer id =>
              obtain ⟨timer, htimer, rfl⟩ := Option.map_eq_some_iff.1 (Option.mem_toList.1 hsite)
              obtain ⟨n, hn⟩ := h.timers timer (List.mem_of_find?_eq_some htimer)
              refine ⟨n, ?_, hn⟩
              simp only [htimer, Option.map_some, hn.1]
          | job id =>
              obtain ⟨job, hjob, rfl⟩ := Option.map_eq_some_iff.1 (Option.mem_toList.1 hsite)
              obtain ⟨n, hn⟩ := h.jobs job (List.mem_of_find?_eq_some hjob)
              refine ⟨n, ?_, hn⟩
              simp only [hjob, Option.map_some, hn.1]

/-! ## Whose variables are seen -/

/-- An instance may use the variables around it, its own, and those of its states. -/
def MayUse (w : World) (n : Nat) (k : LayerId) : Prop :=
  w.Surrounds n k ∨ ∃ i name, w.instance? n = some i ∧ (name, k) ∈ i.stateLayers

section Instances

variable (h : w.IsSeparated)

include h

theorem notMem_of_mem_stateLayers {name : String} (hi : w.instance? n = some i)
    (hk : (name, k) ∈ i.stateLayers) : i.locals ≠ k := by
  rintro rfl
  exact (List.nodup_cons.1 (h.nodup_ownLayers hi)).1 (List.mem_map_of_mem hk)

theorem ne_root_of_mem (hi : w.instance? n = some i) (hk : k ∈ i.ownLayers) : k ≠ w.root :=
  (h.own i.placement (List.mem_map_of_mem (List.mem_of_getElem? hi)) k hk).1

theorem stateName_unique {name name' : String} (hi : w.instance? n = some i)
    (hk : (name, k) ∈ i.stateLayers) (hk' : (name', k) ∈ i.stateLayers) : name = name' :=
  congrArg Prod.fst
    (List.inj_on_of_nodup_map (List.nodup_cons.1 (h.nodup_ownLayers hi)).2 hk hk' rfl)

theorem held_of_mem (hi : w.instance? n = some i) (hk : k ∈ i.ownLayers) :
    k < w.memory.layers.length := by
  have hkind := (h.own i.placement (List.mem_map_of_mem (List.mem_of_getElem? hi)) k hk).2
  have hlt := (List.getElem?_eq_some_iff.1 hkind).1
  rwa [Memory.kinds, List.length_map] at hlt

/-- The variables of an instance are around those that are nested in it. -/
theorem surrounds_locals_iff (hj : w.instance? m = some j) :
    w.Surrounds n j.locals ↔ w.Descends m n := by
  have hown : j.locals ∈ j.ownLayers := List.mem_cons_self
  refine ⟨fun hsurrounds => ?_, fun hway => .inr ⟨m, j, hway, hj, rfl⟩⟩
  rcases hsurrounds with hroot | ⟨m', j', hway, hj', hsame⟩
  · exact absurd hroot (ne_root_of_mem h hj hown)
  · have hown' : j.locals ∈ j'.ownLayers := hsame ▸ List.mem_cons_self
    exact h.eq_of_mem hj' hj hown' hown ▸ hway

/-- The variables of a state are around nobody. -/
theorem not_surrounds_of_mem {name : String} (hj : w.instance? m = some j)
    (hk : (name, k) ∈ j.stateLayers) : ¬ w.Surrounds n k := by
  have hown : k ∈ j.ownLayers := List.mem_cons_of_mem _ (List.mem_map_of_mem hk)
  rintro (hroot | ⟨m', j', -, hj', rfl⟩)
  · exact ne_root_of_mem h hj hown hroot
  · obtain rfl := h.eq_of_mem hj' hj List.mem_cons_self hown
    cases hj'.symm.trans hj
    exact notMem_of_mem_stateLayers h hj hk rfl

theorem mayUse_locals_iff (hj : w.instance? m = some j) :
    w.MayUse n j.locals ↔ w.Descends m n := by
  refine ⟨fun huse => ?_, fun hway => .inl ((surrounds_locals_iff h hj).2 hway)⟩
  rcases huse with hsurrounds | ⟨i, name, hi, hk⟩
  · exact (surrounds_locals_iff h hj).1 hsurrounds
  · have hown : j.locals ∈ i.ownLayers := List.mem_cons_of_mem _ (List.mem_map_of_mem hk)
    obtain rfl := h.eq_of_mem hi hj hown List.mem_cons_self
    cases hi.symm.trans hj
    exact absurd rfl (notMem_of_mem_stateLayers h hi hk)

theorem mayUse_state_iff {name : String} (hj : w.instance? m = some j)
    (hk : (name, k) ∈ j.stateLayers) : w.MayUse n k ↔ n = m := by
  have hown : ∀ {i : Instance} {name}, (name, k) ∈ i.stateLayers → k ∈ i.ownLayers :=
    fun hin => List.mem_cons_of_mem _ (List.mem_map_of_mem hin)
  refine ⟨fun huse => ?_, fun hsame => .inr ⟨j, name, hsame ▸ hj, hk⟩⟩
  rcases huse with hsurrounds | ⟨i, name', hi, hk'⟩
  · exact absurd hsurrounds (not_surrounds_of_mem h hj hk)
  · exact h.eq_of_mem hi hj (hown hk') (hown hk)

/-- What is seen at a site of an instance. -/
theorem mem_site {site : Site} (hsite : site.IsIn w.placement n)
    (hk : k ∈ site.extent.layers) :
    w.Surrounds n k ∨ ∃ i name, w.instance? n = some i ∧ site.scope = .state name ∧
      (name, k) ∈ i.stateLayers := by
  obtain ⟨-, q, hq, hextent⟩ := hsite
  rw [placement_getElem?] at hq
  obtain ⟨i, hi, rfl⟩ := Option.map_eq_some_iff.1 hq
  rw [hextent] at hk
  rcases Placement.mem_extentOf hk with hin | ⟨name, hscope, hin⟩
  · exact .inl ((h.mem_extent_iff hi).1 hin)
  · exact .inr ⟨i, name, hi, hscope, hin⟩

end Instances

/-- Instances beside each other are not nested in each other, nor is an instance in those that are
nested in it. -/
theorem not_descends_of_aside (hforest : IsForest [] w.kin) (hi : w.instance? n = some i)
    (hj : w.instance? m = some j) (hne : m ≠ n)
    (haside : i.parent = j.parent ∨ w.Descends n m) : ¬ w.Descends m n := by
  intro hway
  rcases haside with hsame | hbelow
  · cases hparent : i.parent with
    | none => exact hne (eq_of_descends_of_none hi hparent hway)
    | some p =>
        have hp : w.IsParent p m := ⟨j, hj, hsame.symm.trans hparent⟩
        exact hne (eq_of_siblings hforest hp ⟨i, hi, hparent⟩ hway .refl)
  · exact hne (eq_of_descends hforest hway hbelow)

/-! ## Isolation -/

/-- Instances keep their variables to themselves. -/
structure Isolates (w : World) : Prop where
  /-- The next step has nothing to do with variables that the instance, if it is one for which it is
  taken, may not use. -/
  step : ∀ k < w.memory.layers.length,
    (∀ n, w.actor? = some (.numbered n) → ¬ w.MayUse n k) → Ignores proceed w k
  /-- An instance has nothing to do with the states of another one. -/
  others : ∀ n m j name id, w.actor? = some (.numbered n) → w.instance? m = some j → m ≠ n →
    (name, id) ∈ j.stateLayers → Ignores proceed w id
  /-- It has nothing to do with the variables of an instance beside it or nested in it. -/
  kin : ∀ n m i j, w.actor? = some (.numbered n) → w.instance? n = some i →
    w.instance? m = some j → m ≠ n → i.parent = j.parent ∨ w.Descends n m →
      Ignores proceed w j.locals
  /-- What is done in a part of an instance has nothing to do with states that the part is not. -/
  scopes : ∀ n i name id, w.actor? = some (.numbered n) → w.instance? n = some i →
    (name, id) ∈ i.stateLayers → (∀ site ∈ w.sites, site.scope ≠ .state name) →
      Ignores proceed w id
  /-- An action is done for the instance whose turn it is; one of a state has nothing to do with the
  variables of another state. -/
  actions : ∀ t site action rest, w.current = some t → t.work = .act site action :: rest →
    site.owner = .numbered t.number ∧ ∀ i name id, w.instance? t.number = some i →
      (name, id) ∈ i.stateLayers → site.scope ≠ .state name → Ignores proceed w id
  /-- The data of an event is written only among the variables of the instance that takes it. -/
  data : ∀ n i e k, w.instance? n = some i → k ≠ i.locals →
    (w.react n e).1.memory.layers[k]? = w.memory.layers[k]?
  /-- A new instance is furnished without a look at anything but what is around its parent, and
  without a change of anything that was there. -/
  spawn : ∀ g parent k, (∀ p, parent = some p → p < w.instances.length) →
    k < w.memory.layers.length →
      (w.spawn g parent).1.memory.layers[k]? = w.memory.layers[k]? ∧
        (k ≠ w.root → (∀ p, parent = some p → ¬ w.Surrounds p k) →
          Ignores (fun u => u.spawn g parent) w k)
  /-- A collaboration is launched without a look at variables that are not persistent. -/
  launch : ∀ c k, k < w.memory.layers.length → k ≠ w.root → Ignores (fun u => u.launch c) w k

/-- A new instance is furnished without a look at anything but the enclosing scope and without a
change of anything that was there. It sees a new layer above that scope, and all new layers are its
own. -/
structure Furnishes (w : World) (g : Graph) (enclosing : Extent) (parent : Option Nat) : Prop where
  same : ∀ k < w.memory.layers.length, k ∉ enclosing.layers → ∀ l,
    (w.replace k l).addInstance g enclosing parent =
      (w.addInstance g enclosing parent).map fun built => (built.1.replace k l, built.2)
  kept : ∀ v n extent, w.addInstance g enclosing parent = .ok (v, n, extent) →
    ∀ k < w.memory.layers.length, v.memory.layers[k]? = w.memory.layers[k]?
  own : ∀ v n extent, w.addInstance g enclosing parent = .ok (v, n, extent) →
    extent = enclosing.extend w.memory.layers.length ∧
      ∃ i, v.instance? n = some i ∧ i.extent = extent ∧
        ∀ k, w.memory.layers.length ≤ k → k < v.memory.layers.length → k ∈ i.ownLayers

theorem furnishes (w : World) (g : Graph) (enclosing : Extent) (parent : Option Nat) :
    w.Furnishes g enclosing parent where
  same _ hk hunseen l := replace_addInstance hunseen hk l g parent
  kept v n extent hadd k hk := by
    obtain ⟨_, layers, rfl, -⟩ := (appends_addInstance hadd).1
    exact List.getElem?_append_left hk
  own v n extent hadd := by
    refine ⟨extent_addInstance hadd, ?_⟩
    obtain ⟨⟨added, layers, rfl, hgraphs, -, -, hplaces⟩, rfl, i, hi, -, -, hextent, -⟩ :=
      appends_addInstance hadd
    obtain ⟨only, rfl, -⟩ := List.map_eq_singleton_iff.1 hgraphs
    have honly : (w.instances ++ [only])[w.instances.length]? = some only :=
      List.getElem?_concat_length
    obtain rfl := Option.some.inj (honly.symm.trans hi)
    refine ⟨only, hi, hextent, fun k hge hlt => ?_⟩
    rw [List.flatMap_singleton] at hplaces
    rw [List.length_append] at hlt
    rw [hplaces]
    exact List.mem_range'_1.2 ⟨hge, hlt⟩

/-- Nothing that is there is changed by an instance that moves in. -/
theorem getElem?_spawn {g : Graph} {parent : Option Nat}
    (hparent : ∀ p, parent = some p → p < w.instances.length) (hk : k < w.memory.layers.length) :
    (w.spawn g parent).1.memory.layers[k]? = w.memory.layers[k]? := by
  cases hspawn : w.spawn g parent with
  | mk v outcome =>
      cases outcome with
      | error fault => rw [spawn_error hspawn]
      | ok n =>
          obtain ⟨-, ⟨_, layers, -, hmemory, -⟩, -⟩ := spawn_ok hparent hspawn
          have hbefore : (w.adopt parent n).memory = w.memory := by cases parent <;> rfl
          rw [hmemory, hbefore]
          exact List.getElem?_append_left hk

/-! ## Steps -/

section Steps

variable (h : w.IsSeparated)

include h

/-- What surrounds an instance is what those see that are nested in it. -/
theorem mem_enclosing {parent : Option Nat}
    (hparent : ∀ p, parent = some p → p < w.instances.length)
    (hk : k ∈ (w.enclosing parent).layers) :
    k = w.root ∨ ∃ p, parent = some p ∧ w.Surrounds p k := by
  cases parent with
  | none => exact .inl (List.mem_singleton.1 hk)
  | some p =>
      have hthere : p < w.instances.length := hparent p rfl
      have hp : w.instance? p = some w.instances[p] := List.getElem?_eq_getElem hthere
      rw [enclosing_of_instance? hp] at hk
      exact .inr ⟨p, rfl, (h.mem_extent_iff hp).1 hk⟩

theorem ignores_spawn (htidy : w.status.IsTidy) {g : Graph} {parent : Option Nat}
    (hparent : ∀ p, parent = some p → p < w.instances.length) (hk : k < w.memory.layers.length)
    (hroot : k ≠ w.root) (hnot : ∀ p, parent = some p → ¬ w.Surrounds p k) :
    Ignores (fun u => u.spawn g parent) w k := by
  have hkinds := ((Step.ask w (.spawn g parent)).changes htidy).isPrefix_kinds
    fun memory hlabel => by cases hlabel
  have hunseen : k ∉ (w.enclosing parent).layers := by
    intro hin
    rcases mem_enclosing h hparent hin with hsame | ⟨p, hp, hsurrounds⟩
    · exact hroot hsame
    · exact hnot p hp hsurrounds
  exact ignores_of_replace (fun l => replace_spawn hunseen hk l) hkinds hk

variable (hsited : w.IsSited) (htidy : w.status.IsTidy)

include hsited htidy

/-- The next step has to do with what surrounds the instance, and with the states that are parts of
it where something is done. -/
theorem proceed_ignores_of_notMem (hk : k < w.memory.layers.length)
    (hnot : ∀ n, w.actor? = some (.numbered n) → ¬ w.Surrounds n k ∧
      ∀ i name, w.instance? n = some i → (name, k) ∈ i.stateLayers →
        ∀ site ∈ w.sites, site.scope ≠ .state name) : Ignores proceed w k := by
  -- it is enough to look at the sites of the step, all of which are parts of the instance
  refine proceed_ignores (fun site hsite hin => ?_) htidy hk
  obtain ⟨n, hactor, hpart⟩ := hsited.isIn_of_mem htidy hsite
  obtain ⟨hsurrounds, hstates⟩ := hnot n hactor
  rcases mem_site h hpart hin with hsees | ⟨i, name, hi, hscope, hstate⟩
  · exact hsurrounds hsees
  · exact hstates i name hi hstate site hsite hscope

theorem proceed_ignores_of_not_mayUse (hk : k < w.memory.layers.length)
    (hnot : ∀ n, w.actor? = some (.numbered n) → ¬ w.MayUse n k) : Ignores proceed w k := by
  refine proceed_ignores_of_notMem h hsited htidy hk fun n hactor => ?_
  obtain ⟨hsurrounds, hstates⟩ := not_or.1 (hnot n hactor)
  exact ⟨hsurrounds, fun i name hi hin => absurd ⟨i, name, hi, hin⟩ hstates⟩

theorem proceed_ignores_state {name : String} (hactor : w.actor? = some (.numbered n))
    (hi : w.instance? n = some i) (hk : (name, k) ∈ i.stateLayers)
    (hscopes : ∀ site ∈ w.sites, site.scope ≠ .state name) : Ignores proceed w k := by
  have hown : k ∈ i.ownLayers := List.mem_cons_of_mem _ (List.mem_map_of_mem hk)
  refine proceed_ignores_of_notMem h hsited htidy (held_of_mem h hi hown) fun n' hactor' =>
    ⟨not_surrounds_of_mem h hi hk, fun i' name' hi' hk' => ?_⟩
  cases hactor.symm.trans hactor'
  cases hi.symm.trans hi'
  exact stateName_unique h hi hk hk' ▸ hscopes

theorem proceed_ignores_states {name : String} (hactor : w.actor? = some (.numbered n))
    (hj : w.instance? m = some j) (hne : m ≠ n) (hk : (name, k) ∈ j.stateLayers) :
    Ignores proceed w k := by
  have hown : k ∈ j.ownLayers := List.mem_cons_of_mem _ (List.mem_map_of_mem hk)
  refine proceed_ignores_of_not_mayUse h hsited htidy (held_of_mem h hj hown)
    fun n' hactor' huse => hne ?_
  cases hactor.symm.trans hactor'
  exact ((mayUse_state_iff h hj hk).1 huse).symm

theorem proceed_ignores_locals (hactor : w.actor? = some (.numbered n))
    (hj : w.instance? m = some j) (hway : ¬ w.Descends m n) : Ignores proceed w j.locals := by
  refine proceed_ignores_of_not_mayUse h hsited htidy (held_of_mem h hj List.mem_cons_self)
    fun n' hactor' huse => hway ?_
  cases hactor.symm.trans hactor'
  exact (mayUse_locals_iff h hj).1 huse

end Steps

section Runs

variable {memory : Memory} {root : LayerId} {c : Configuration} {services : Registry Float}
  {choices : Choices} {hs : List Happening}

/-- At any time of a run instances keep their variables to themselves, and so do instances that are
being built. -/
theorem isolation_of_run (hheld : root < memory.layers.length)
    (hrun : ServedRun (engine memory root c services choices) hs w) :
    w.Isolates ∧ ∀ u g enclosing parent, Furnishes u g enclosing parent := by
  have hnew := engine_isNew memory root c services choices
  have hseparated : w.IsSeparated := hrun.isSeparated hnew hheld
  have hsited : w.IsSited := hrun.isSited hnew (engine_isIdle memory root c services choices)
  have htidy := hrun.isTidy hnew
  have hforest := hrun.nestedRun.isForest hnew
  refine ⟨?_, furnishes⟩
  refine {
    step := fun k hk hnot => proceed_ignores_of_not_mayUse hseparated hsited htidy hk hnot
    others := fun n m j name id hactor hj hne hid =>
      proceed_ignores_states hseparated hsited htidy hactor hj hne hid
    kin := fun n m i j hactor hi hj hne haside =>
      proceed_ignores_locals hseparated hsited htidy hactor hj
        (not_descends_of_aside hforest hi hj hne haside)
    scopes := fun n i name id hactor hi hid hscopes =>
      proceed_ignores_state hseparated hsited htidy hactor hi hid hscopes
    actions := fun t site action rest hcurrent hwork => ?actions
    data := fun n i e k hi hk => getElem?_react hseparated hi hk e
    spawn := fun g parent k hparent hk =>
      ⟨getElem?_spawn hparent hk, ignores_spawn hseparated htidy hparent hk⟩
    launch := fun co k hk hroot => ?launch }
  case actions =>
    have hactor : w.actor? = some (.numbered t.number) := by simp only [actor?, hcurrent]
    refine ⟨htidy.work t hcurrent site action (hwork ▸ List.mem_cons_self), ?_⟩
    intro i name id hi hid hscope
    -- the only part in which anything is done is that of the action
    refine proceed_ignores_state hseparated hsited htidy hactor hi hid fun site' hsite => ?_
    simp only [sites, hcurrent, hwork, Command.sites] at hsite
    exact List.mem_singleton.1 hsite ▸ hscope
  case launch =>
    have hkinds := ((Step.ask w (.launch co)).changes htidy).isPrefix_kinds
      fun memory hlabel => by cases hlabel
    exact ignores_of_replace (fun l => replace_launch hroot.symm hk l co) hkinds hk

end Runs

/-! ### Sibling machines -/

/-- A machine that writes a variable of an enclosing machine, and one of its own. -/
def writerMachine : Description.Graph :=
  { name := "writer", isAbstract := false, locals := [⟨"local", .bool false⟩], nested := []
    states :=
      [{ name := "writing", isInitial := true, isTerminal := false
         entry := [.assign ⟨"shared", .bool true⟩, .assign ⟨"own", .bool true⟩], exit := []
         during := [], after := [], on := [], always := [], locals := [⟨"own", .bool false⟩] },
        { name := "other", isInitial := false, isTerminal := false, entry := [], exit := []
          during := [], after := [], on := [], always := []
          locals := [⟨"unused", .bool false⟩] }] }

/-- Two such machines are nested in it. -/
def enclosingMachine : Description.Graph :=
  { leafMachine with
    name := "enclosing", locals := [⟨"shared", .bool false⟩, ⟨"own", .bool false⟩]
    nested := [writerMachine, { writerMachine with name := "sibling" }] }

def enclosingGraph : Graph := .ofBuilt true enclosingMachine (by decide +kernel)

def siblingMachines : Collaboration := ⟨"siblings", [], [enclosingGraph], ""⟩

/-- The part of an instance in which its next action is done. -/
def nextScope? (t : Turn) : Option Scope :=
  match t.work with
  | .act site _ :: _ => some site.scope
  | _ => none

theorem exists_of_nextScope? {t : Turn} {scope : Scope} (h : nextScope? t = some scope) :
    ∃ site action rest, t.work = .act site action :: rest ∧ site.scope = scope := by
  unfold nextScope? at h
  split at h
  · rename_i site action rest hwork
    exact ⟨site, action, rest, hwork, Option.some.inj h⟩
  · cases h

/-- The first of them is about to write the shared variable. -/
def writingWorld : World := (trace 8 (bare.serve (.launch siblingMachines))).2

theorem writingWorld_run : ∃ hs, ServedRun bare hs writingWorld := by
  have hbuilt : ∀ g ∈ siblingMachines.machines, ∃ strict, g.IsBuilt strict := by
    intro g hg
    rw [List.mem_singleton.1 hg]
    exact ⟨true, Graph.ofBuilt_isBuilt true enclosingMachine _⟩
  have hlaunched := ServedRun.start.step (.ask bare (.launch siblingMachines)) fun r hr => by
    cases hr
    exact .launch hbuilt
  exact ⟨_, hlaunched.trans (run_trace 8 _) (asked_notMem_trace 8 _)⟩

theorem writingWorld_layers :
    writingWorld.instances.map (fun i => (i.parent, i.locals, i.stateLayers)) =
      [(none, 1, [("waiting", 2)]), (some 0, 3, [("writing", 4), ("other", 5)]),
        (some 0, 6, [("writing", 7), ("other", 8)])] := by
  decide +kernel

/-- The shared variable is written, and what the sibling and the other state of the writer declare
has nothing to do with it. -/
theorem writingWorld_isolation :
    (writingWorld.memory.get 1 "shared").toOption = some (.bool false) ∧
      (writingWorld.proceed.1.memory.get 1 "shared").toOption = some (.bool true) ∧
      (∀ k ∈ [6, 7, 8], Ignores proceed writingWorld k) ∧ Ignores proceed writingWorld 5 := by
  obtain ⟨hs, hrun⟩ := writingWorld_run
  have hheld : 0 < bare.memory.layers.length := by decide
  obtain ⟨hisolates, -⟩ := isolation_of_run hheld hrun
  have hlayers : ∀ n : Nat, (writingWorld.instance? n).map
      (fun i => (i.parent, i.locals, i.stateLayers)) =
        [(none, 1, [("waiting", 2)]), (some 0, 3, [("writing", 4), ("other", 5)]),
          (some 0, 6, [("writing", 7), ("other", 8)])][n]? := by
    intro n
    rw [← writingWorld_layers, List.getElem?_map]
    rfl
  obtain ⟨writer, hwriter, hwriterAt⟩ := Option.map_eq_some_iff.1 (hlayers 1)
  obtain ⟨sibling, hsibling, hsiblingAt⟩ := Option.map_eq_some_iff.1 (hlayers 2)
  simp only [Prod.mk.injEq] at hwriterAt hsiblingAt
  have hacting : writingWorld.current.any (fun t =>
      decide (t.number = 1 ∧ nextScope? t = some (.state "writing"))) = true := by decide +kernel
  obtain ⟨t, hcurrent, hacts⟩ := (Option.any_eq_true _ _).1 hacting
  obtain ⟨hturn, hscope⟩ := of_decide_eq_true hacts
  have hactor : writingWorld.actor? = some (.numbered 1) := by
    simp only [actor?, hcurrent, hturn]
  refine ⟨by decide +kernel, by decide +kernel, fun k hk => ?_, ?_⟩
  · rcases List.mem_cons.1 hk with rfl | hk
    · -- the sibling is nested in the same machine
      rw [← hsiblingAt.2.1]
      exact hisolates.kin 1 2 writer sibling hactor hwriter hsibling (by decide)
        (.inl (hwriterAt.1.trans hsiblingAt.1.symm))
    · rcases List.mem_cons.1 hk with rfl | hk
      · exact hisolates.others 1 2 sibling "writing" 7 hactor hsibling (by decide)
          (hsiblingAt.2.2 ▸ by decide)
      · obtain rfl := List.mem_singleton.1 hk
        exact hisolates.others 1 2 sibling "other" 8 hactor hsibling (by decide)
          (hsiblingAt.2.2 ▸ by decide)
  · -- the action is one of another state
    obtain ⟨site, action, rest, hwork, hscoped⟩ := exists_of_nextScope? hscope
    obtain ⟨-, hstates⟩ := hisolates.actions t site action rest hcurrent hwork
    refine hstates writer "other" 5 (hturn ▸ hwriter) (hwriterAt.2.2 ▸ by decide) ?_
    rw [hscoped]
    decide

end World

end Statechart
