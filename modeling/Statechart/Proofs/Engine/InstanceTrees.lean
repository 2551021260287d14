import Statechart.Proofs.Engine.EventData
import Statechart.Proofs.Engine.Kinship

/-!
# Trees of instances

What building makes of a graph: one instance for it and for every graph nested in it, but for what
is abstract and what is nested in something abstract. They are numbered depth first, and each has
layers of its own that nobody had before, one for itself and one for each of its states.

- `Graph.roster`          : the graphs of which instances are made
- `Instance.ownLayers`    : the layers of an instance and of its states
- `IsInstanceTree`        : who is nested in whom, and which variables each of them sees
- `World.Appends`         : instances of some graphs were added, with their layers
- `World.appends_build`, `World.isInstanceTree_build` : what building does
-/

namespace Statechart

/-! ## Rosters -/

mutual

/-- The graphs of which instances are made for a graph, depth first: the graph itself, and those
nested in it that are not abstract and not nested in an abstract one. -/
def Graph.roster : Graph → List Graph
  | ⟨name, isAbstract, locals, nested, states, initial, description⟩ =>
      ⟨name, isAbstract, locals, nested, states, initial, description⟩ :: rosterOf nested

def rosterOf : List Graph → List Graph
  | [] => []
  | g :: rest => if g.isAbstract then rosterOf rest else g.roster ++ rosterOf rest

end

/-! ## Trees -/

namespace Instance

/-- The layer of its own variables, and those of the variables of its states. -/
def ownLayers (i : Instance) : List LayerId := i.locals :: i.stateLayers.map (·.2)

/-- An instance as it is built. -/
def unstarted (g : Graph) (parent : Option Nat) (enclosing : Extent) (locals : LayerId)
    (stateLayers : List (String × LayerId)) : Instance :=
  { graph := g, parent, nested := [], extent := enclosing.extend locals, locals, stateLayers
    active := none, inbox := [], phase := .created, isParked := false, isCancelled := false
    isRegistered := false, deadline := none }

/-- It waits for its first turn, and nobody knows it. -/
structure IsUnstarted (i : Instance) : Prop where
  phase : i.phase = .created
  isRegistered : i.isRegistered = false
  states : i.stateLayers.map (·.1) = i.graph.states.map (·.name)

end Instance

mutual

/-- The instances from `n` up to `next` are those of a graph and of the graphs nested in it. -/
def IsInstanceTree (is : List Instance) (parent : Option Nat) (enclosing : Extent) :
    Graph → Nat → Nat → Prop
  | ⟨name, isAbstract, locals, nested, states, initial, description⟩, n, next =>
      ∃ i, is[n]? = some i ∧
        i.graph = ⟨name, isAbstract, locals, nested, states, initial, description⟩ ∧
        i.parent = parent ∧ i.extent = enclosing.extend i.locals ∧
        AreInstanceTrees is (some n) i.extent nested i.nested (n + 1) next

/-- The same for graphs with one parent, one after the other; abstract ones are passed over. -/
def AreInstanceTrees (is : List Instance) (parent : Option Nat) (enclosing : Extent) :
    List Graph → List Nat → Nat → Nat → Prop
  | [], ns, n, next => ns = [] ∧ next = n
  | g :: rest, ns, n, next =>
      if g.isAbstract then AreInstanceTrees is parent enclosing rest ns n next
      else ∃ middle others, ns = n :: others ∧ IsInstanceTree is parent enclosing g n middle ∧
        AreInstanceTrees is parent enclosing rest others middle next

end

/-- What of an instance a tree is made of. -/
def Instance.place (i : Instance) : Graph × Extent × LayerId × Kin :=
  (i.graph, i.extent, i.locals, i.kin)

mutual

theorem IsInstanceTree.lt {is : List Instance} {parent : Option Nat} {enclosing : Extent}
    {n next : Nat} : ∀ {g : Graph}, IsInstanceTree is parent enclosing g n next → n < next
  | ⟨_, _, _, nested, _, _, _⟩, h => by
      rw [IsInstanceTree] at h
      obtain ⟨i, -, -, -, -, hnested⟩ := h
      exact hnested.le

theorem AreInstanceTrees.le {is : List Instance} {parent : Option Nat} {enclosing : Extent}
    {ns : List Nat} {n next : Nat} :
    ∀ {gs : List Graph}, AreInstanceTrees is parent enclosing gs ns n next → n ≤ next
  | [], h => by
      rw [AreInstanceTrees] at h
      exact Nat.le_of_eq h.2.symm
  | g :: rest, h => by
      rw [AreInstanceTrees] at h
      split at h
      · exact h.le
      · obtain ⟨middle, others, -, hfirst, hlater⟩ := h
        exact Nat.le_trans (Nat.le_of_lt hfirst.lt) hlater.le

end

mutual

/-- A tree is one as long as its own instances are in their places. -/
theorem IsInstanceTree.congr {is js : List Instance} {parent : Option Nat} {enclosing : Extent}
    {n next : Nat} (hsame : ∀ k, n ≤ k → k < next → js[k]?.map Instance.place =
      is[k]?.map Instance.place) :
    ∀ {g : Graph}, IsInstanceTree is parent enclosing g n next →
      IsInstanceTree js parent enclosing g n next
  | ⟨name, isAbstract, locals, nested, states, initial, description⟩, h => by
      have hlt := h.lt
      rw [IsInstanceTree] at h ⊢
      obtain ⟨i, hi, hgraph, hparent, hextent, hnested⟩ := h
      have hplace := hsame n (Nat.le_refl n) hlt
      rw [hi, Option.map_some] at hplace
      obtain ⟨j, hj, hij⟩ := Option.map_eq_some_iff.1 hplace
      simp only [Instance.place, Prod.mk.injEq, Instance.kin, Kin.mk.injEq] at hij
      obtain ⟨hgraph', hextent', hlocals', hparent', hnested'⟩ := hij
      refine ⟨j, hj, hgraph'.trans hgraph, hparent'.trans hparent, ?_, ?_⟩
      · rw [hextent', hlocals', hextent]
      · rw [hextent', hnested']
        exact hnested.congr fun k hk => hsame k (Nat.le_of_succ_le hk)

theorem AreInstanceTrees.congr {is js : List Instance} {parent : Option Nat} {enclosing : Extent}
    {ns : List Nat} {n next : Nat} (hsame : ∀ k, n ≤ k → k < next →
      js[k]?.map Instance.place = is[k]?.map Instance.place) :
    ∀ {gs : List Graph}, AreInstanceTrees is parent enclosing gs ns n next →
      AreInstanceTrees js parent enclosing gs ns n next
  | [], h => by
      rw [AreInstanceTrees] at h ⊢
      exact h
  | g :: rest, h => by
      rw [AreInstanceTrees] at h ⊢
      split at h
      · rename_i habstract
        rw [if_pos habstract]
        exact h.congr hsame
      · rename_i hconcrete
        rw [if_neg hconcrete]
        obtain ⟨middle, others, hns, hfirst, hlater⟩ := h
        refine ⟨middle, others, hns, hfirst.congr fun k hk hlt => ?_, hlater.congr fun k hk => ?_⟩
        · exact hsame k hk (Nat.lt_of_lt_of_le hlt hlater.le)
        · exact hsame k (Nat.le_trans (Nat.le_of_lt hfirst.lt) hk)

end

/-! ## Declarations -/

namespace World

/-- Variables that are declared in the last layer, which is in memory, are created there. -/
theorem declare_last {ls : List Layer} {t : Table Value} {b : Backing} {extent : Extent}
    {declared : List Variable} {m : Memory}
    (h : declare ls.length extent ⟨ls ++ [.memory t], b⟩ declared = .ok m) :
    ∃ t', m = ⟨ls ++ [.memory t'], b⟩ := by
  induction declared generalizing t with
  | nil =>
      cases h
      exact ⟨t, rfl⟩
  | cons v rest ih =>
      simp only [declare] at h
      split at h
      · cases h
      · rename_i name value _
        have hlast : (⟨ls ++ [.memory t], b⟩ : Memory).layers[ls.length]? = some (.memory t) :=
          List.getElem?_concat_length
        rw [Memory.create_memory hlast] at h
        split at h
        · rename_i m' _ hcreate
          split at hcreate
          · cases hcreate
          · cases hcreate
            rw [List.set_append_right _ _ (Nat.le_refl _), Nat.sub_self] at h
            exact ih h
        · cases h

/-- Every state gets a layer of its own. -/
theorem declareStates_layers {extent : Extent} {states : List State} {m m' : Memory}
    {stateLayers : List (String × LayerId)}
    (h : declareStates extent m states = .ok (m', stateLayers)) :
    ∃ layers, m' = ⟨m.layers ++ layers, m.backing⟩ ∧ (∀ l ∈ layers, l.isMemory = true) ∧
      stateLayers.map (·.1) = states.map (·.name) ∧
      stateLayers.map (·.2) = List.range' m.layers.length layers.length := by
  induction states generalizing m stateLayers with
  | nil =>
      cases h
      exact ⟨[], by rw [List.append_nil], fun l hl => (by cases hl), rfl, rfl⟩
  | cons state rest ih =>
      simp only [declareStates] at h
      obtain ⟨m₁, hdeclare, h⟩ := bind_eq_ok_iff.1 h
      obtain ⟨⟨m₂, others⟩, hrest, h⟩ := bind_eq_ok_iff.1 h
      cases h
      obtain ⟨t, rfl⟩ := declare_last hdeclare
      obtain ⟨layers, rfl, hmemory, hnames, hplaces⟩ := ih hrest
      refine ⟨.memory t :: layers, ?_, ?_, ?_, ?_⟩
      · rw [List.append_assoc, List.singleton_append]
      · rintro l hl
        rcases List.mem_cons.1 hl with rfl | hl
        · rfl
        · exact hmemory l hl
      · rw [List.map_cons, List.map_cons, hnames]
      · rw [List.map_cons, hplaces, List.length_append, List.length_cons, List.length_cons,
          List.length_nil, List.range'_succ]
        rfl

end World

/-! ## Building -/

theorem modify_append_of_lt {α : Type} {as bs : List α} {n : Nat} (h : n < as.length) (f : α → α) :
    (as ++ bs).modify n f = as.modify n f ++ bs := by
  induction as generalizing n with
  | nil => cases h
  | cons a rest ih =>
      cases n with
      | zero => rfl
      | succ n =>
          rw [List.cons_append, List.modify_succ_cons, ih (Nat.lt_of_succ_lt_succ h),
            List.modify_succ_cons, List.cons_append]

theorem modify_append {α : Type} {as bs : List α} {n : Nat} (h : as.length ≤ n) (f : α → α) :
    (as ++ bs).modify n f = as ++ bs.modify (n - as.length) f := by
  induction as generalizing n with
  | nil => rfl
  | cons a rest ih =>
      obtain ⟨k, rfl⟩ := Nat.exists_eq_add_one_of_ne_zero (Nat.ne_zero_of_lt h)
      rw [List.cons_append, List.modify_succ_cons, ih (Nat.le_of_succ_le_succ h),
        List.length_cons, Nat.add_sub_add_right, List.cons_append]

namespace World

variable {w v u : World} {g : Graph} {gs : List Graph} {enclosing extent : Extent}
  {parent : Option Nat} {n : Nat} {ns : List Nat}

/-- Instances of some graphs were added, each with layers of its own, and nothing else changed. -/
def Appends (gs : List Graph) (w v : World) : Prop :=
  ∃ added layers, v = { w with
      memory := ⟨w.memory.layers ++ layers, w.memory.backing⟩
      instances := w.instances ++ added } ∧
    added.map (·.graph) = gs ∧ (∀ i ∈ added, i.IsUnstarted) ∧ (∀ l ∈ layers, l.isMemory = true) ∧
    added.flatMap Instance.ownLayers = List.range' w.memory.layers.length layers.length

namespace Appends

theorem refl (w : World) : Appends [] w w :=
  ⟨[], [], by simp, rfl, fun i hi => (by cases hi), fun l hl => (by cases hl), rfl⟩

theorem trans {gs' : List Graph} (h : Appends gs w v) (h' : Appends gs' v u) :
    Appends (gs ++ gs') w u := by
  obtain ⟨added, layers, rfl, hgraphs, hunstarted, hmemory, hplaces⟩ := h
  obtain ⟨added', layers', rfl, hgraphs', hunstarted', hmemory', hplaces'⟩ := h'
  refine ⟨added ++ added', layers ++ layers', ?_, ?_, ?_, ?_, ?_⟩
  · simp only [List.append_assoc]
  · rw [List.map_append, hgraphs, hgraphs']
  · exact fun i hi => (List.mem_append.1 hi).elim (hunstarted i) (hunstarted' i)
  · exact fun l hl => (List.mem_append.1 hl).elim (hmemory l) (hmemory' l)
  · rw [List.flatMap_append, hplaces, hplaces', List.length_append, List.length_append,
      ← List.range'_append_1]

theorem length (h : Appends gs w v) : v.instances.length = w.instances.length + gs.length := by
  obtain ⟨added, layers, rfl, rfl, -⟩ := h
  rw [List.length_append, List.length_map]

/-- Instances that were there are still there. -/
theorem getElem? (h : Appends gs w v) {k : Nat} (hk : k < w.instances.length) :
    v.instances[k]? = w.instances[k]? := by
  obtain ⟨added, layers, rfl, -⟩ := h
  exact List.getElem?_append_left hk

/-- An added instance gets to know those nested in it. -/
theorem setNested (h : Appends gs w v) (hn : w.instances.length ≤ n) (nested : List Nat) :
    Appends gs w (v.setNested n nested) := by
  obtain ⟨added, layers, rfl, hgraphs, hunstarted, hmemory, hplaces⟩ := h
  generalize hk : n - w.instances.length = k
  have hmap : ∀ {α : Type} (part : Instance → α), (∀ i, part { i with nested } = part i) →
      (added.modify k fun i => { i with nested }).map part = added.map part := by
    intro α part hpart
    rw [map_modify (g := id) added k hpart, List.modify_id]
  refine ⟨added.modify k fun i => { i with nested }, layers, ?_, ?_, fun i hi => ?_, hmemory, ?_⟩
  · simp only [World.setNested, mapInstance, modify_append hn, hk]
  · rw [hmap _ fun _ => rfl, hgraphs]
  · obtain ⟨m, hm⟩ := List.mem_iff_getElem?.1 hi
    rw [List.getElem?_modify] at hm
    obtain ⟨j, hj, hij⟩ := Option.map_eq_some_iff.1 hm
    obtain ⟨hphase, hknown, hstates⟩ := hunstarted j (List.mem_of_getElem? hj)
    split at hij
    · cases hij
      exact ⟨hphase, hknown, hstates⟩
    · cases hij
      exact ⟨hphase, hknown, hstates⟩
  · rw [List.flatMap_def, hmap _ fun _ => rfl, ← List.flatMap_def, hplaces]

end Appends

theorem appends_addInstance (h : w.addInstance g enclosing parent = .ok (v, n, extent)) :
    Appends [g] w v ∧ n = w.instances.length ∧ ∃ i, v.instances[n]? = some i ∧ i.graph = g ∧
      i.parent = parent ∧ i.extent = extent ∧ extent = enclosing.extend i.locals := by
  unfold addInstance at h
  obtain ⟨m₁, hdeclare, h⟩ := bind_eq_ok_iff.1 h
  obtain ⟨⟨m₂, stateLayers⟩, hstates, h⟩ := bind_eq_ok_iff.1 h
  cases h
  obtain ⟨t, rfl⟩ := declare_last hdeclare
  obtain ⟨layers, rfl, hmemory, hnames, hplaces⟩ := declareStates_layers hstates
  refine ⟨⟨[.unstarted g parent enclosing w.memory.layers.length stateLayers], .memory t :: layers,
    ?_, rfl, fun i hi => ?_, fun l hl => ?_, ?_⟩, rfl, _, List.getElem?_concat_length, rfl, rfl,
    rfl, rfl⟩
  · simp only [List.append_assoc, List.singleton_append]
    rfl
  · cases List.mem_singleton.1 hi
    exact ⟨rfl, rfl, hnames⟩
  · rcases List.mem_cons.1 hl with rfl | hl
    · rfl
    · exact hmemory l hl
  · have hown : Instance.ownLayers (.unstarted g parent enclosing w.memory.layers.length
        stateLayers) = w.memory.layers.length :: stateLayers.map (·.2) := rfl
    rw [List.flatMap_singleton, hown, hplaces, List.length_cons, List.range'_succ,
      List.length_append]
    rfl

mutual

theorem appends_build {enclosing : Extent} {parent : Option Nat} {w v : World} {n : Nat} :
    ∀ {g : Graph}, build w enclosing parent g = .ok (v, n) →
      Appends g.roster w v ∧ n = w.instances.length ∧
        IsInstanceTree v.instances parent enclosing g n v.instances.length
  | ⟨name, isAbstract, locals, nested, states, initial, description⟩, hbuild => by
      rw [build] at hbuild
      obtain ⟨⟨u, m, extent⟩, hadd, hbuild⟩ := bind_eq_ok_iff.1 hbuild
      obtain ⟨⟨u', children⟩, hall, hbuild⟩ := bind_eq_ok_iff.1 hbuild
      cases hbuild
      obtain ⟨hown, rfl, i, hi, hgraph, hparent, hextent, henclosing⟩ := appends_addInstance hadd
      obtain ⟨hnested, htrees⟩ := appends_buildAll hall
      have hlength : u.instances.length = w.instances.length + 1 := hown.length
      have hlt : w.instances.length < u.instances.length := by omega
      have hself : (u'.setNested w.instances.length children).instances[w.instances.length]? =
          some { i with nested := children } := by
        have hthere : u'.instance? w.instances.length = some i :=
          (hnested.getElem? hlt).trans hi
        exact instance?_mapInstance_self (fun i => { i with nested := children }) hthere
      refine ⟨?_, rfl, ?_⟩
      · exact (hown.trans hnested).setNested (Nat.le_refl _) children
      · rw [IsInstanceTree]
        refine ⟨_, hself, hgraph, hparent, hextent.trans henclosing, ?_⟩
        have hafter : (u'.setNested w.instances.length children).instances.length =
            u'.instances.length := List.length_modify ..
        rw [hafter]
        rw [hlength] at htrees
        simp only [hextent]
        -- only the instance itself is told, which is none of those below it
        refine htrees.congr fun k hk _ => ?_
        rw [World.setNested, mapInstance, List.getElem?_modify_ne _ _ (by omega)]

theorem appends_buildAll {enclosing : Extent} {parent : Option Nat} {w v : World}
    {ns : List Nat} :
    ∀ {gs : List Graph}, buildAll w enclosing parent gs = .ok (v, ns) →
      Appends (rosterOf gs) w v ∧
        AreInstanceTrees v.instances parent enclosing gs ns w.instances.length v.instances.length
  | [], hbuild => by
      cases hbuild
      rw [rosterOf, AreInstanceTrees]
      exact ⟨.refl w, rfl, rfl⟩
  | g :: rest, hbuild => by
      rw [buildAll] at hbuild
      rw [rosterOf, AreInstanceTrees]
      -- an abstract graph has no instance
      split at hbuild
      · rename_i habstract
        rw [if_pos habstract, if_pos habstract]
        exact appends_buildAll hbuild
      · rename_i hconcrete
        rw [if_neg hconcrete, if_neg hconcrete]
        obtain ⟨⟨u, m⟩, hfirst, hbuild⟩ := bind_eq_ok_iff.1 hbuild
        obtain ⟨⟨u', ms⟩, hlater, hbuild⟩ := bind_eq_ok_iff.1 hbuild
        cases hbuild
        obtain ⟨happends, rfl, htree⟩ := appends_build hfirst
        obtain ⟨happends', htrees⟩ := appends_buildAll hlater
        refine ⟨happends.trans happends', u.instances.length, ms, rfl, ?_, htrees⟩
        -- those built later do not get in the way
        exact htree.congr fun k _ hk => by rw [happends'.getElem? hk]

end

end World

end Statechart
