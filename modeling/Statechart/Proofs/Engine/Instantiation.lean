import Statechart.Proofs.Engine.Placement

/-!
# Instantiation is all or nothing

A collaboration that cannot be launched, or a graph of which no instance can be made, leaves
nothing behind but persistent variables. Otherwise there is one instance of every graph that is to
have one, with variables of its own, and they are nested in each other as the graphs are.

- `World.Refuses`            : nothing came of it
- `World.Instantiates`       : instances of some graphs were made
- `World.instantiation_of_run` : launching and spawning at any time of a run
-/

namespace Statechart

namespace Memory

variable {m m' : Memory} {id : LayerId}

theorem exists_table (hkind : m.kinds[id]? = some true) :
    ∃ t, m.layers[id]? = some (.memory t) := by
  rw [kinds, List.getElem?_map] at hkind
  obtain ⟨l, hl, hmemory⟩ := Option.map_eq_some_iff.1 hkind
  cases l with
  | memory t => exact ⟨t, hl⟩
  | durable space => cases hmemory
  | unreachable reason => cases hmemory

/-- What is kept in memory does not depend on the store. -/
theorem get_of_memory (hkind : m.kinds[id]? = some true)
    (hsame : m'.layers[id]? = m.layers[id]?) (name : String) :
    m'.get id name = m.get id name := by
  obtain ⟨t, ht⟩ := exists_table hkind
  rw [get, get, hsame, ht]
  rfl

end Memory

namespace World

/-- Persistent variables may have been created, but that is all: the instances, whom they listen to
and what they have nested in them are as they were, and so are all their variables. -/
structure Refuses (w v : World) : Prop where
  rest : v = { w with memory := v.memory }
  persistent : w.memory.Keeps v.memory
  locals : ∀ i ∈ w.instances, ∀ id ∈ i.ownLayers, ∀ name,
    v.memory.get id name = w.memory.get id name

/-- Instances of some graphs were added, all layers belong to one instance each, and every instance
lists those nested in it. -/
structure Instantiates (gs : List Graph) (w v : World) : Prop where
  enrols : Enrols gs w v
  apart : (v.instances.flatMap Instance.ownLayers).Nodup
  nested : ∀ n i, v.instance? n = some i → i.nested.Nodup ∧ ∀ c, c ∈ i.nested ↔ v.IsParent n c

section Instances

variable {w v : World} {gs : List Graph}

theorem instantiates (henrols : Enrols gs w v) (hseparated : v.IsSeparated)
    (hforest : IsForest [] v.kin) : Instantiates gs w v where
  enrols := henrols
  apart := by
    have hapart := hseparated.apart
    rw [placement, List.flatMap_map] at hapart
    exact hapart
  nested n i hi := by
    have hnodup := hforest.nodup n
    rw [nestedIn_kin hi] at hnodup
    exact ⟨hnodup, fun c => mem_nested_iff hforest hi⟩

/-- Persistent variables have nothing to do with those of instances. -/
theorem refuses_of_establishes {memory : Memory} (hseparated : w.IsSeparated)
    (h : w.Establishes memory) : w.Refuses { w with memory } where
  rest := rfl
  persistent := h.keeps
  locals i hi id hid name := by
    obtain ⟨hne, hkind⟩ := hseparated.own i.placement (List.mem_map_of_mem hi) id hid
    exact Memory.get_of_memory hkind (h.kept id hne) name

/-- A parent does not know of a new instance before it is told. -/
theorem Enrols.instance?_adopt {parent : Option Nat} (hforest : IsForest [] w.kin)
    (h : Enrols gs (w.adopt parent w.instances.length) v) (p : Nat) (i : Instance)
    (hp : parent = some p) (hi : w.instance? p = some i) :
    v.instance? p = some { i with nested := i.nested ++ [w.instances.length] } := by
  obtain ⟨added, layers, hinstances, -⟩ := h
  subst hp
  have hunknown : w.instances.length ∉ i.nested := by
    intro hin
    rw [← nestedIn_kin hi] at hin
    have hlt := lt_of_parentIn (hforest.child p _ hin).2
    rw [kin, List.length_map] at hlt
    exact Nat.lt_irrefl _ hlt
  have htold : (w.adopt (some p) w.instances.length).instance? p =
      some { i with nested := i.nested ++ [w.instances.length] } := by
    have hself := instance?_mapInstance_self (fun i => { i with
      nested := if w.instances.length ∈ i.nested then i.nested
        else i.nested ++ [w.instances.length] }) hi
    rw [if_neg hunknown] at hself
    exact hself
  rw [instance?, hinstances]
  exact (List.getElem?_append_left (List.getElem?_eq_some_iff.1 htold).1).trans htold

end Instances

section Engines

variable {memory : Memory} {root : LayerId} {c : Configuration} {services : Registry Float}
  {choices : Choices} {hs : List Happening} {w : World}

/-- At any time of a run, a collaboration is launched as a whole or not at all, and so is a graph
with those nested in it. If not, only persistent variables may be new. Otherwise there is one new
instance for every graph that is neither abstract nor nested in an abstract one, or, of a spawned
graph, one in any case; each sees its parent's variables and a layer of its own, knows whom it is
nested in, and lists those nested in it in the order of their graphs. A parent that is given lists
the new instance after those that it had. -/
theorem instantiation_of_run (hheld : root < memory.layers.length)
    (hrun : ServedRun (engine memory root c services choices) hs w) :
    (∀ co v fault, w.launch co = (v, .error fault) → w.Refuses v) ∧
    (∀ co v ns, w.launch co = (v, .ok ns) →
      ns = List.range' w.instances.length (rosterOf co.machines).length ∧
      (∃ persistent, w.Establishes persistent ∧
        Instantiates (rosterOf co.machines) { w with memory := persistent } v) ∧
      ∃ roots, AreInstanceTrees v.instances none w.rootExtent co.machines roots w.instances.length
        v.instances.length) ∧
    (∀ g parent v fault, w.spawn g parent = (v, .error fault) → v = w) ∧
    ∀ g parent v n, (∀ p, parent = some p → p < w.instances.length) →
      w.spawn g parent = (v, .ok n) →
        n = w.instances.length ∧ Instantiates g.roster (w.adopt parent n) v ∧
        IsInstanceTree v.instances parent (w.enclosing parent) g n v.instances.length ∧
        ∀ p i, parent = some p → w.instance? p = some i →
          v.instance? p = some { i with nested := i.nested ++ [n] } := by
  have hnew := engine_isNew memory root c services choices
  have hseparated : w.IsSeparated := hrun.isSeparated hnew hheld
  have hforest := hrun.nestedRun.isForest hnew
  refine ⟨fun co v fault h => ?_, fun co v ns h => ?_, fun g parent v fault h => spawn_error h,
    fun g parent v n hparent h => ?_⟩
  · obtain ⟨memory, hestablished, rfl⟩ := launch_error h
    exact refuses_of_establishes hseparated hestablished
  · obtain ⟨persistent, hestablished, henrols, hns, htrees⟩ := launch_ok h
    obtain rfl : (w.launch co).1 = v := congrArg Prod.fst h
    refine ⟨hns, ⟨persistent, hestablished, ?_⟩, htrees⟩
    exact instantiates henrols (isSeparated_launch hseparated co)
      (isForest_serve (r := .launch co) hforest fun p hp => by cases hp)
  · obtain ⟨rfl, henrols, htree⟩ := spawn_ok hparent h
    have htold := henrols.instance?_adopt hforest
    obtain rfl : (w.spawn g parent).1 = v := congrArg Prod.fst h
    have hgrown := isForest_serve (r := .spawn g parent) hforest hparent
    exact ⟨rfl, instantiates henrols (isSeparated_spawn hseparated hparent) hgrown, htree,
      htold⟩

end Engines

/-! ### A collaboration -/

def childMachine : Description.Graph :=
  { leafMachine with name := "child", locals := [⟨"amount", .number .zero⟩] }

/-- No instance is made of it when it is nested in another one, nor of what is nested in it. -/
def abstractMachine : Description.Graph :=
  { leafMachine with
    name := "abstract", isAbstract := true, nested := [{ leafMachine with name := "hidden" }] }

def parentMachine : Description.Graph :=
  { leafMachine with
    name := "parent"
    locals := [⟨"size", .number .zero⟩]
    nested := [childMachine, abstractMachine, middleMachine] }

/-- No instance can be made of it, as a name is declared twice. -/
def doubledMachine : Description.Graph :=
  { leafMachine with name := "doubled", locals := [⟨"value", .null⟩, ⟨"value", .null⟩] }

def parentGraph : Graph := .ofBuilt true parentMachine (by decide +kernel)

def abstractGraph : Graph := .ofBuilt true abstractMachine (by decide +kernel)

def doubledGraph : Graph := .ofBuilt true doubledMachine (by decide +kernel)

def persistentCount : Variable := ⟨"count", .ofLiteral (.number .zero)⟩

def nestedCollaboration : Collaboration :=
  ⟨"collaboration", [persistentCount], [parentGraph, abstractGraph], ""⟩

/-- Instances could be made of the machines before the last one. -/
def doubledCollaboration : Collaboration :=
  ⟨"doubled", [persistentCount], [parentGraph, doubledGraph], ""⟩

def launchedWorld : World := settled bare (.launch nestedCollaboration)

theorem launchedWorld_run : ∃ hs, ServedRun bare hs launchedWorld := by
  have hbuilt : ∀ g ∈ nestedCollaboration.machines, ∃ strict, g.IsBuilt strict := by
    intro g hg
    simp only [nestedCollaboration, List.mem_cons, List.not_mem_nil, or_false] at hg
    rcases hg with rfl | rfl
    · exact ⟨true, Graph.ofBuilt_isBuilt true parentMachine _⟩
    · exact ⟨true, Graph.ofBuilt_isBuilt true abstractMachine _⟩
  have hlaunched := ServedRun.start.step (.ask bare (.launch nestedCollaboration)) fun r hr => by
    cases hr
    exact .launch hbuilt
  exact ⟨_, hlaunched.trans (run_trace 40 _) (asked_notMem_trace 40 _)⟩

/-- Four of the graphs have instances. If one has a name that is declared twice, there are none. An
abstract machine can be nested in the first instance later, which then knows of it. -/
theorem launchedWorld_instantiation :
    (∃ v, bare.launch nestedCollaboration = (v, .ok [0, 1, 2, 3]) ∧
      v.instances.map (fun i => (i.graph.name, i.parent, i.nested)) =
        [("parent", none, [1, 2]), ("child", some 0, []), ("middle", some 0, [3]),
          ("leaf", some 2, [])] ∧
      (v.instances.flatMap Instance.ownLayers).Nodup) ∧
    (∃ v fault, launchedWorld.launch doubledCollaboration = (v, .error fault) ∧
      launchedWorld.Refuses v) ∧
    ∃ v i, launchedWorld.spawn abstractGraph (some 0) = (v, .ok 4) ∧ v.instance? 0 = some i ∧
      i.nested = [1, 2, 4] ∧ (v.instance? 4).map (fun i => (i.graph.name, i.nested)) =
        some ("abstract", [5]) := by
  obtain ⟨hs, hrun⟩ := launchedWorld_run
  have hheld : 0 < bare.memory.layers.length := by decide
  refine ⟨?_, ?_, ?_⟩
  · have hok : (bare.launch nestedCollaboration).2.toOption = some [0, 1, 2, 3] := by decide +kernel
    cases hlaunch : bare.launch nestedCollaboration with
    | mk v outcome =>
        rw [hlaunch] at hok
        cases outcome with
        | error fault => cases hok
        | ok ns =>
            have hstart : ServedRun bare [] bare := .start
            obtain ⟨-, hlaunched, -⟩ := instantiation_of_run hheld hstart
            obtain ⟨-, ⟨persistent, -, hinstances⟩, -⟩ :=
              hlaunched nestedCollaboration v ns hlaunch
            have hseen : (bare.launch nestedCollaboration).1.instances.map
                (fun i => (i.graph.name, i.parent, i.nested)) =
                  [("parent", none, [1, 2]), ("child", some 0, []), ("middle", some 0, [3]),
                    ("leaf", some 2, [])] := by decide +kernel
            rw [hlaunch] at hseen
            cases hok
            exact ⟨v, rfl, hseen, hinstances.apart⟩
  · have herror : (launchedWorld.launch doubledCollaboration).2.toOption.isNone = true := by
      decide +kernel
    cases hlaunch : launchedWorld.launch doubledCollaboration with
    | mk v outcome =>
        rw [hlaunch] at herror
        cases outcome with
        | ok ns => cases herror
        | error fault =>
            exact ⟨v, fault, rfl,
              (instantiation_of_run hheld hrun).1 doubledCollaboration v fault hlaunch⟩
  · have hok : (launchedWorld.spawn abstractGraph (some 0)).2.toOption = some 4 := by
      decide +kernel
    have hnested : (launchedWorld.instance? 0).map (·.nested) = some [1, 2] := by decide +kernel
    obtain ⟨i, hi, hbefore⟩ := Option.map_eq_some_iff.1 hnested
    have hseen : ((launchedWorld.spawn abstractGraph (some 0)).1.instance? 4).map
        (fun i => (i.graph.name, i.nested)) = some ("abstract", [5]) := by decide +kernel
    cases hspawn : launchedWorld.spawn abstractGraph (some 0) with
    | mk v outcome =>
        rw [hspawn] at hok hseen
        cases outcome with
        | error fault => cases hok
        | ok n =>
            have hthere : 0 < launchedWorld.instances.length :=
              (List.getElem?_eq_some_iff.1 hi).1
            obtain ⟨-, -, -, hspawned⟩ := instantiation_of_run hheld hrun
            obtain ⟨-, -, -, htold⟩ := hspawned abstractGraph (some 0) v n
              (fun p hp => by cases hp; exact hthere) hspawn
            cases hok
            exact ⟨v, _, rfl, htold 0 i rfl hi, by rw [hbefore]; rfl, hseen⟩

end World

end Statechart
