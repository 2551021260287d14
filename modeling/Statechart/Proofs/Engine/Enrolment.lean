import Statechart.Proofs.Engine.InstanceTrees

/-!
# Enrolment

Launching a collaboration and spawning an instance build first, and make known to the engine what
was built only when all of it was. Until then only persistent variables are written.

- `World.Enrols`         : instances of some graphs were added, and the engine knows them
- `World.enrols_start`   : by starting what was built
- `World.launch_ok`, `World.launch_error` : what launching does, and what it does if it fails
- `World.spawn_ok`, `World.spawn_error`   : the same for one graph
-/

namespace Statechart

/-- The engine knows the instance, and it waits for its first turn. -/
structure Instance.IsEnrolled (i : Instance) : Prop where
  phase : i.phase = .created
  isRegistered : i.isRegistered = true
  states : i.stateLayers.map (·.1) = i.graph.states.map (·.name)

def Instance.enrolled (i : Instance) : Instance := { i with isRegistered := true }

theorem Instance.IsUnstarted.enrolled {i : Instance} (h : i.IsUnstarted) : i.enrolled.IsEnrolled :=
  ⟨h.phase, rfl, h.states⟩

namespace World

variable {w v u : World} {g : Graph} {gs : List Graph} {parent : Option Nat} {n : Nat}
  {ns : List Nat}

/-- Instances of some graphs were added after those that were there, the engine knows them, and each
has layers of its own that are new. -/
def Enrols (gs : List Graph) (w v : World) : Prop :=
  ∃ added layers, v.instances = w.instances ++ added ∧
    v.memory = ⟨w.memory.layers ++ layers, w.memory.backing⟩ ∧ v.root = w.root ∧
    added.map (·.graph) = gs ∧ (∀ i ∈ added, i.IsEnrolled) ∧ (∀ l ∈ layers, l.isMemory = true) ∧
    added.flatMap Instance.ownLayers = List.range' w.memory.layers.length layers.length

theorem Enrols.length (h : Enrols gs w v) :
    v.instances.length = w.instances.length + gs.length := by
  obtain ⟨added, layers, hinstances, -, -, rfl, -⟩ := h
  rw [hinstances, List.length_append, List.length_map]

/-! ## Starting -/

theorem instances_register (w : World) (n : Nat) :
    (w.register n).instances = w.instances.modify n Instance.enrolled := by
  unfold register
  split
  · rename_i hnone
    exact (List.modify_eq_self (List.getElem?_eq_none_iff.1 hnone)).symm
  · rfl

/-- Of a list of instances the last ones become known. -/
theorem instances_registerAll {before added : List Instance}
    (h : w.instances = before ++ added) :
    ((List.range' before.length added.length).foldl register w).instances =
      before ++ added.map Instance.enrolled := by
  induction added generalizing w before with
  | nil => exact h
  | cons i rest ih =>
      have hfirst : (w.register before.length).instances = (before ++ [i.enrolled]) ++ rest := by
        rw [instances_register, h, modify_append (Nat.le_refl _), Nat.sub_self,
          List.append_assoc]
        rfl
      have hlater := ih hfirst
      rw [List.length_append, List.length_singleton, List.append_assoc] at hlater
      rw [List.length_cons, List.range'_succ, List.foldl_cons, hlater]
      rfl

theorem instances_start (w : World) (ns : List Nat) :
    (w.start ns).instances = (ns.foldl register w).instances := by
  have henqueue : ∀ (u : World) (n : Nat), (u.enqueue (.turn n)).instances = u.instances :=
    fun _ _ => rfl
  rw [start, part_foldl henqueue]

/-- Starting makes instances known, subscribes them, and queues their turns. -/
theorem exists_start (w : World) (ns : List Nat) :
    ∃ instances bus ready, w.start ns = { w with instances, bus, ready } := by
  have hfold : ∀ {f : World → Nat → World},
      (∀ u n, ∃ instances bus ready, f u n = { u with instances, bus, ready }) →
        ∀ u, ∃ instances bus ready, ns.foldl f u = { u with instances, bus, ready } := by
    intro f hf
    induction ns with
    | nil => exact fun u => ⟨u.instances, u.bus, u.ready, rfl⟩
    | cons n rest ih =>
        intro u
        obtain ⟨instances, bus, ready, hfirst⟩ := hf u n
        rw [List.foldl_cons, hfirst]
        exact ih _
  have hregister : ∀ (u : World) (n : Nat),
      ∃ instances bus ready, u.register n = { u with instances, bus, ready } := by
    intro u n
    unfold register
    split
    · exact ⟨u.instances, u.bus, u.ready, rfl⟩
    · exact ⟨_, _, u.ready, rfl⟩
  obtain ⟨instances, bus, ready, hknown⟩ := hfold hregister w
  have hqueued := hfold (fun u n => ⟨u.instances, u.bus, _, rfl⟩) (ns.foldl register w)
    (f := fun u n => u.enqueue (.turn n))
  rw [hknown] at hqueued
  rw [start, hknown]
  exact hqueued

theorem Appends.builtSince (h : Appends gs w v) :
    v.builtSince w.instances.length = List.range' w.instances.length gs.length := by
  rw [World.builtSince, h.length, List.range_eq_range', List.drop_range', Nat.zero_add,
    Nat.mul_one, Nat.add_sub_cancel_left]

/-- What was built becomes known when it is started. -/
theorem Appends.start (h : Appends gs w v) :
    Enrols gs w (v.start (v.builtSince w.instances.length)) ∧
      ∀ k : Nat, (v.start (v.builtSince w.instances.length)).instances[k]?.map Instance.place =
        v.instances[k]?.map Instance.place := by
  rw [h.builtSince]
  obtain ⟨instances, bus, ready, hstart⟩ := exists_start v
    (List.range' w.instances.length gs.length)
  obtain ⟨added, layers, rfl, rfl, hunstarted, hlayers, hplaces⟩ := h
  rw [List.length_map] at hstart ⊢
  have hknown := instances_registerAll (w := { w with
    memory := ⟨w.memory.layers ++ layers, w.memory.backing⟩
    instances := w.instances ++ added }) rfl
  rw [← instances_start] at hknown
  refine ⟨⟨added.map Instance.enrolled, layers, hknown, ?_, ?_, ?_, ?_, hlayers, ?_⟩, fun k => ?_⟩
  · rw [hstart]
  · rw [hstart]
  · rw [List.map_map]
    rfl
  · intro j hj
    obtain ⟨i, hi, rfl⟩ := List.mem_map.1 hj
    exact (hunstarted i hi).enrolled
  · rw [List.flatMap_map]
    exact hplaces
  · -- being known has nothing to do with where an instance is
    rw [hknown, List.getElem?_append, List.getElem?_append]
    split
    · rfl
    · rw [List.getElem?_map, Option.map_map]
      rfl

theorem Appends.remark (h : Appends gs w v) (r : Remark) :
    Appends gs (w.remark r) (v.remark r) := by
  obtain ⟨added, layers, rfl, hadded⟩ := h
  exact ⟨added, layers, rfl, hadded⟩

/-- A parent that was there before may be told earlier. -/
theorem Appends.adopt (h : Appends gs w v) (hparent : ∀ p, parent = some p → p < w.instances.length)
    (n : Nat) : Appends gs (w.adopt parent n) (v.adopt parent n) := by
  cases parent with
  | none => exact h
  | some p =>
      obtain ⟨added, layers, rfl, hadded⟩ := h
      refine ⟨added, layers, ?_, hadded⟩
      simp only [World.adopt, mapInstance, modify_append_of_lt (hparent p rfl)]

/-! ## Launching -/

/-- Persistent variables were created at most. -/
structure Establishes (w : World) (memory : Memory) : Prop where
  keeps : w.memory.Keeps memory
  kinds : memory.kinds = w.memory.kinds
  kept : ∀ id, id ≠ w.root → memory.layers[id]? = w.memory.layers[id]?

theorem Establishes.refl (w : World) : w.Establishes w.memory :=
  ⟨.refl _, rfl, fun _ _ => rfl⟩

/-- Persistent variables are created in their own layer. -/
theorem getElem?_layers_establish {root id : LayerId} (hid : id ≠ root) (extent : Extent)
    (m : Memory) (declared : List Variable) :
    (establish root extent m declared).1.layers[id]? = m.layers[id]? := by
  induction declared generalizing m with
  | nil => rfl
  | cons v rest ih =>
      simp only [establish]
      split
      · rfl
      · rename_i name value _
        have hcreate := Memory.getElem?_create (m := m) hid name value
        -- whether the variable is new, exists or cannot be created
        split
        · rename_i m' _ hm'
          rw [hm'] at hcreate
          exact (ih m').trans hcreate
        · rename_i m' _ hm'
          rw [hm'] at hcreate
          exact (ih m').trans hcreate
        · rename_i hm'
          rw [hm'] at hcreate
          exact hcreate

theorem establishes_establish (w : World) (extent : Extent) (declared : List Variable) :
    w.Establishes (establish w.root extent w.memory declared).1 :=
  ⟨Memory.isStable_keeps.establish w.root extent w.memory declared,
    Memory.isStable_kinds.establish w.root extent w.memory declared,
    fun _ hid => getElem?_layers_establish hid extent w.memory declared⟩

/-- A launch that fails writes persistent variables at most. -/
theorem launch_error {c : Collaboration} {fault : EngineFault}
    (h : w.launch c = (v, .error fault)) :
    ∃ memory, w.Establishes memory ∧ v = { w with memory } := by
  have hestablished := establishes_establish w w.rootExtent c.persistent
  unfold launch at h
  split at h
  · cases h
    exact ⟨w.memory, .refl w, rfl⟩
  · split at h
    · rename_i memory _ hmemory
      rw [hmemory] at hestablished
      cases h
      exact ⟨memory, hestablished, rfl⟩
    · rename_i memory hmemory
      rw [hmemory] at hestablished
      simp only at h
      split at h
      · cases h
        exact ⟨memory, hestablished, rfl⟩
      · cases h

/-- A launch that succeeds starts one instance of every graph that is not abstract. -/
theorem launch_ok {c : Collaboration} (h : w.launch c = (v, .ok ns)) :
    ∃ memory, w.Establishes memory ∧ Enrols (rosterOf c.machines) { w with memory } v ∧
      ns = List.range' w.instances.length (rosterOf c.machines).length ∧
      ∃ roots, AreInstanceTrees v.instances none w.rootExtent c.machines roots w.instances.length
        v.instances.length := by
  have hestablished := establishes_establish w w.rootExtent c.persistent
  unfold launch at h
  split at h
  · cases h
  · split at h
    · cases h
    · rename_i memory hmemory
      rw [hmemory] at hestablished
      simp only at h
      split at h
      · cases h
      · rename_i built roots hbuild
        cases h
        obtain ⟨happends, htrees⟩ := appends_buildAll hbuild
        obtain ⟨henrols, hplaces⟩ := Appends.start (happends.remark _)
        have hlength := henrols.length.trans happends.length.symm
        refine ⟨memory, hestablished, henrols, happends.builtSince, roots, ?_⟩
        exact hlength ▸ htrees.congr fun k _ _ => hplaces k

/-! ## Spawning -/

/-- The variables that an instance sees that is nested in another one, or in none. -/
def enclosing (w : World) (parent : Option Nat) : Extent :=
  match parent.bind w.instance? with
  | some i => i.extent
  | none => w.rootExtent

theorem length_adopt (w : World) (parent : Option Nat) (n : Nat) :
    (w.adopt parent n).instances.length = w.instances.length := by
  cases parent with
  | none => rfl
  | some p => exact List.length_modify ..

/-- A spawn that fails changes nothing. -/
theorem spawn_error {fault : EngineFault} (h : w.spawn g parent = (v, .error fault)) : v = w := by
  unfold spawn at h
  split at h
  · cases h
    rfl
  · simp only at h
    split at h
    · cases h
      rfl
    · cases h

/-- A spawn that succeeds starts an instance of the graph and those nested in it, and tells its
parent. -/
theorem spawn_ok (hparent : ∀ p, parent = some p → p < w.instances.length)
    (h : w.spawn g parent = (v, .ok n)) :
    n = w.instances.length ∧ Enrols g.roster (w.adopt parent n) v ∧
      IsInstanceTree v.instances parent (w.enclosing parent) g n v.instances.length := by
  unfold spawn at h
  split at h
  · cases h
  · simp only at h
    split at h
    · cases h
    · rename_i built m hbuild
      cases h
      obtain ⟨happends, rfl, htree⟩ := appends_build hbuild
      have hbefore := length_adopt w parent w.instances.length
      -- the new instances are the same whether their parent was told before or after
      have htold := happends.adopt hparent w.instances.length
      have hsince := htold.builtSince
      rw [hbefore, ← happends.builtSince] at hsince
      obtain ⟨henrols, hplaces⟩ := htold.start
      rw [hbefore, hsince] at henrols hplaces
      have hlength := henrols.length
      rw [hbefore, ← happends.length] at hlength
      refine ⟨rfl, henrols, hlength ▸ htree.congr fun k hk _ => (hplaces k).trans ?_⟩
      cases parent with
      | none => rfl
      | some p =>
          have hne : p ≠ k := Nat.ne_of_lt (Nat.lt_of_lt_of_le (hparent p rfl) hk)
          rw [World.adopt, mapInstance, List.getElem?_modify_ne _ _ hne]

end World

end Statechart
