import Statechart.Proofs.Engine.Enrolment
import Statechart.Proofs.Engine.Stopping

/-!
# Where the variables of instances are

Every instance has a layer of its own and one for each of its states. No two instances share one,
and none of them is that of the persistent variables. What an instance sees outside of its states is
what the instance sees that it is nested in, and its own layer above.

- `AreSeparated`             : instances with layers of their own above those of their parents
- `AreSeparated.append`      : there are new instances
- `World.ServedRun`          : runs in which the engine is asked for what it offers
- `ServedRun.isSeparated`    : the instances of such a run
-/

namespace Statechart

def Placement.ownLayers (q : Placement) : List LayerId := q.locals :: q.stateLayers.map (·.2)

/-- The variables that whoever is nested in an instance sees, or the persistent ones alone. -/
def enclosingOf (root : LayerId) (qs : List Placement) (parent : Option Nat) : Extent :=
  match parent.bind (qs[·]?) with
  | some q => q.extent
  | none => Extent.empty.extend root

/-- The layers of instances are their own, in memory, and above those of their parents. -/
structure AreSeparated (root : LayerId) (kinds : List Bool) (qs : List Placement) : Prop where
  held : root < kinds.length
  below : ∀ (n : Nat) (q : Placement), qs[n]? = some q →
    q.extent = (enclosingOf root qs q.parent).extend q.locals
  older : ∀ (n : Nat) (q : Placement) (p : Nat), qs[n]? = some q → q.parent = some p → p < n
  own : ∀ q ∈ qs, ∀ id ∈ q.ownLayers, id ≠ root ∧ kinds[id]? = some true
  apart : (qs.flatMap Placement.ownLayers).Nodup
  states : ∀ q ∈ qs, q.stateLayers.map (·.1) = q.graph.states.map (·.name)

section Lists

variable {root : LayerId} {kinds more : List Bool} {qs added : List Placement}

theorem enclosingOf_append {parent : Option Nat} (h : ∀ p, parent = some p → p < qs.length) :
    enclosingOf root (qs ++ added) parent = enclosingOf root qs parent := by
  cases parent with
  | none => rfl
  | some p =>
      have hsame : (qs ++ added)[p]? = qs[p]? := List.getElem?_append_left (h p rfl)
      simp only [enclosingOf, Option.bind_some, hsame]

namespace AreSeparated

theorem nil (h : root < kinds.length) : AreSeparated root kinds [] where
  held := h
  below n q hq := by cases hq
  older n q p hq := by cases hq
  own q hq := by cases hq
  apart := List.nodup_nil
  states q hq := by cases hq

/-- Layers may be added, and that of the persistent variables may be another one. -/
theorem of_kinds {kinds' : List Bool} (h : AreSeparated root kinds qs)
    (hlength : kinds.length ≤ kinds'.length)
    (hkinds : ∀ id, id ≠ root → kinds[id]? = some true → kinds'[id]? = some true) :
    AreSeparated root kinds' qs :=
  { h with
    held := Nat.lt_of_lt_of_le h.held hlength
    own := fun q hq id hid =>
      ⟨(h.own q hq id hid).1, hkinds id (h.own q hq id hid).1 (h.own q hq id hid).2⟩ }

/-- New instances move into layers that nobody had before. -/
theorem append (h : AreSeparated root kinds qs)
    (hbelow : ∀ (n : Nat) (q : Placement), qs.length ≤ n → (qs ++ added)[n]? = some q →
      q.extent = (enclosingOf root (qs ++ added) q.parent).extend q.locals ∧
        ∀ p, q.parent = some p → p < n)
    (hlayers : added.flatMap Placement.ownLayers = List.range' kinds.length more.length)
    (hmore : ∀ b ∈ more, b = true)
    (hstates : ∀ q ∈ added, q.stateLayers.map (·.1) = q.graph.states.map (·.name)) :
    AreSeparated root (kinds ++ more) (qs ++ added) := by
  have hfresh : ∀ q ∈ added, ∀ id ∈ q.ownLayers,
      kinds.length ≤ id ∧ id < kinds.length + more.length := by
    intro q hq id hid
    have hin : id ∈ List.range' kinds.length more.length :=
      hlayers ▸ List.mem_flatMap.2 ⟨q, hq, hid⟩
    exact List.mem_range'_1.1 hin
  have hsettled : ∀ q ∈ qs, ∀ id ∈ q.ownLayers, id < kinds.length := fun q hq id hid =>
    (List.getElem?_eq_some_iff.1 (h.own q hq id hid).2).1
  refine ⟨?_, fun n q hq => ?_, fun n q p hq hp => ?_, fun q hq id hid => ?_, ?_, fun q hq => ?_⟩
  · rw [List.length_append]
    exact Nat.lt_of_lt_of_le h.held (Nat.le_add_right _ _)
  · by_cases hold : n < qs.length
    · -- parents are older, so that those who were there see what they saw
      rw [List.getElem?_append_left hold] at hq
      rw [enclosingOf_append fun p hp => Nat.lt_trans (h.older n q p hq hp) hold]
      exact h.below n q hq
    · exact (hbelow n q (Nat.le_of_not_lt hold) hq).1
  · by_cases hold : n < qs.length
    · rw [List.getElem?_append_left hold] at hq
      exact h.older n q p hq hp
    · exact (hbelow n q (Nat.le_of_not_lt hold) hq).2 p hp
  · rcases List.mem_append.1 hq with hq | hq
    · obtain ⟨hne, hkind⟩ := h.own q hq id hid
      exact ⟨hne, (List.getElem?_append_left (hsettled q hq id hid)).trans hkind⟩
    · obtain ⟨hge, hlt⟩ := hfresh q hq id hid
      refine ⟨Nat.ne_of_gt (Nat.lt_of_lt_of_le h.held hge), ?_⟩
      have hbound : id - kinds.length < more.length := Nat.sub_lt_left_of_lt_add hge hlt
      rw [List.getElem?_append_right hge, List.getElem?_eq_getElem hbound]
      exact congrArg some (hmore _ (List.getElem_mem hbound))
  · rw [List.flatMap_append]
    refine List.nodup_append.2 ⟨h.apart, hlayers ▸ List.nodup_range', ?_⟩
    rintro id hold _ hnew rfl
    obtain ⟨q, hq, hid⟩ := List.mem_flatMap.1 hold
    obtain ⟨q', hq', hid'⟩ := List.mem_flatMap.1 hnew
    exact absurd (hsettled q hq id hid) (Nat.not_lt.2 (hfresh q' hq' id hid').1)
  · exact (List.mem_append.1 hq).elim (h.states q) (hstates q)

end AreSeparated

end Lists

/-! ## Trees of instances -/

/-- An instance is nested in an older one of its tree, or in the parent of all of them. -/
def IsNested (is : List Instance) (parent : Option Nat) (enclosing : Extent) (first n : Nat)
    (i : Instance) : Prop :=
  (i.parent = parent ∧ i.extent = enclosing.extend i.locals) ∨
    ∃ p j, i.parent = some p ∧ first ≤ p ∧ p < n ∧ is[p]? = some j ∧
      i.extent = j.extent.extend i.locals

mutual

theorem IsInstanceTree.isNested {is : List Instance} {parent : Option Nat} {enclosing : Extent}
    {first next n : Nat} {i : Instance} (hfirst : first ≤ n) (hnext : n < next)
    (hi : is[n]? = some i) : ∀ {g : Graph}, IsInstanceTree is parent enclosing g first next →
      IsNested is parent enclosing first n i
  | ⟨name, isAbstract, locals, nested, states, initial, description⟩, h => by
      rw [IsInstanceTree] at h
      obtain ⟨j, hj, -, hparent, hextent, hnested⟩ := h
      rcases Nat.eq_or_lt_of_le hfirst with rfl | hlt
      · cases hi.symm.trans hj
        exact .inl ⟨hparent, hextent⟩
      · rcases hnested.isNested hlt hnext hi with ⟨hp, he⟩ | ⟨p, k, hp, hge, hle, hk, he⟩
        · exact .inr ⟨first, j, hp, Nat.le_refl _, hlt, hj, he⟩
        · exact .inr ⟨p, k, hp, Nat.le_of_succ_le hge, hle, hk, he⟩

theorem AreInstanceTrees.isNested {is : List Instance} {parent : Option Nat} {enclosing : Extent}
    {ns : List Nat} {first next n : Nat} {i : Instance} (hfirst : first ≤ n) (hnext : n < next)
    (hi : is[n]? = some i) : ∀ {gs : List Graph},
      AreInstanceTrees is parent enclosing gs ns first next → IsNested is parent enclosing first n i
  | [], h => by
      rw [AreInstanceTrees] at h
      have hlt := Nat.lt_of_le_of_lt hfirst hnext
      rw [h.2] at hlt
      exact absurd hlt (Nat.lt_irrefl _)
  | g :: rest, h => by
      rw [AreInstanceTrees] at h
      split at h
      · exact h.isNested hfirst hnext hi
      · obtain ⟨middle, others, -, hown, hlater⟩ := h
        by_cases hmiddle : n < middle
        · exact hown.isNested hfirst hmiddle hi
        · rcases hlater.isNested (Nat.le_of_not_lt hmiddle) hnext hi with hroot |
            ⟨p, k, hp, hge, hle, hk, he⟩
          · exact .inl hroot
          · exact .inr ⟨p, k, hp, Nat.le_trans (Nat.le_of_lt hown.lt) hge, hle, hk, he⟩

end

namespace World

variable {w v : World} {parent : Option Nat} {gs : List Graph} {n : Nat} {i : Instance}
  {label : Option Happening} {r : Request}

def placement (w : World) : List Placement := w.instances.map Instance.placement

theorem placement_getElem? (w : World) (n : Nat) :
    w.placement[n]? = (w.instance? n).map Instance.placement := List.getElem?_map

theorem enclosing_eq (w : World) (parent : Option Nat) :
    w.enclosing parent = enclosingOf w.root w.placement parent := by
  have hfound : parent.bind (w.placement[·]?) =
      (parent.bind w.instance?).map Instance.placement := by
    rw [Option.map_bind]
    exact congrArg parent.bind (funext fun p => w.placement_getElem? p)
  rw [enclosing, enclosingOf, hfound]
  cases parent.bind w.instance? <;> rfl

/-- The instances have layers of their own above those of their parents. -/
def IsSeparated (w : World) : Prop := AreSeparated w.root w.memory.kinds w.placement

namespace IsSeparated

theorem of_eq (h : w.IsSeparated) (hroot : v.root = w.root) (hplacement : v.placement = w.placement)
    (hlength : w.memory.kinds.length ≤ v.memory.kinds.length)
    (hkinds : ∀ id, id ≠ w.root → w.memory.kinds[id]? = some true →
      v.memory.kinds[id]? = some true) : v.IsSeparated := by
  rw [IsSeparated, hroot, hplacement]
  exact h.of_kinds hlength hkinds

/-- New instances move in, nested in one that was there before or in none. -/
theorem enrols (h : w.IsSeparated) (parent : Option Nat) (henrols : Enrols gs w v)
    (hparent : ∀ p, parent = some p → p < w.instances.length)
    (hnested : ∀ n i, w.instances.length ≤ n → v.instance? n = some i →
      IsNested v.instances parent (w.enclosing parent) w.instances.length n i) :
    v.IsSeparated := by
  obtain ⟨added, layers, hinstances, hmemory, hroot, -, henrolled, hlayers, hplaces⟩ := henrols
  have hplacement : v.placement = w.placement ++ added.map Instance.placement := by
    rw [placement, hinstances, List.map_append, placement]
  have hkinds : v.memory.kinds = w.memory.kinds ++ layers.map Layer.isMemory := by
    rw [hmemory, Memory.kinds, List.map_append, Memory.kinds]
  have hlength : w.placement.length = w.instances.length := List.length_map _
  rw [IsSeparated, hroot, hplacement, hkinds]
  refine AreSeparated.append h (fun n q hn hq => ?_) ?_ (fun b hb => ?_) fun q hq => ?_
  · rw [hlength] at hn
    rw [← hplacement] at hq ⊢
    rw [placement_getElem?] at hq
    obtain ⟨i, hi, rfl⟩ := Option.map_eq_some_iff.1 hq
    rcases hnested n i hn hi with ⟨hp, he⟩ | ⟨p, j, hp, -, hlt, hj, he⟩
    · have hsame : enclosingOf w.root v.placement parent = w.enclosing parent := by
        rw [enclosing_eq, hplacement, enclosingOf_append fun p hp => hlength ▸ hparent p hp]
      have hi : i.placement.parent = parent := hp
      rw [hi, hsame]
      exact ⟨he, fun p hp => Nat.lt_of_lt_of_le (hparent p hp) hn⟩
    · have hi : i.placement.parent = some p := hp
      have hthere : v.placement[p]? = some j.placement := by
        rw [placement_getElem?, instance?, hj, Option.map_some]
      rw [hi, enclosingOf, Option.bind_some, hthere]
      refine ⟨he, fun p' hp' => ?_⟩
      cases hp'
      exact hlt
  · rw [List.flatMap_map, Memory.kinds, List.length_map, List.length_map]
    exact hplaces
  · obtain ⟨l, hl, rfl⟩ := List.mem_map.1 hb
    exact hlayers l hl
  · obtain ⟨i, hi, rfl⟩ := List.mem_map.1 hq
    exact (henrolled i hi).states

end IsSeparated

/-! ## Requests -/

/-- What an engine can be asked for: instances of built graphs, nested in instances that are there
or in none. In between others may write the persistent variables. -/
inductive Serves (w : World) : Request → Prop where
  | launch {c : Collaboration} : (∀ g ∈ c.machines, ∃ strict, g.IsBuilt strict) →
      Serves w (.launch c)
  | spawn {g : Graph} {parent : Option Nat} : (∃ strict, g.IsBuilt strict) →
      (∀ p, parent = some p → p < w.instances.length) → Serves w (.spawn g parent)
  | offer (p : Party) (e : Event) : Serves w (.offer p e)
  | send (source : Party) (e : Event) : Serves w (.send source e)
  | cancel (n : Nat) : Serves w (.cancel n)
  | shutDown : Serves w .shutDown
  | write (l : Layer) (b : Backing) : Serves w (.write ⟨w.memory.layers.set w.root l, b⟩)
  | respond (id : Nat) (response : Response) : Serves w (.respond id response)

theorem Serves.isBuilt (h : w.Serves r) : r.IsBuilt := by
  cases h with
  | launch hbuilt => exact hbuilt
  | spawn hbuilt => exact hbuilt
  | _ => trivial

theorem Serves.nests (h : w.Serves r) : w.Nests r := by
  intro p hp
  cases h with
  | spawn hbuilt hparent => exact hparent p hp
  | _ => cases hp

theorem isSeparated_launch (h : w.IsSeparated) (c : Collaboration) :
    (w.launch c).1.IsSeparated := by
  have hestablished : ∀ {memory}, w.Establishes memory → ({ w with memory } : World).IsSeparated :=
    fun hmemory => h.of_eq rfl rfl (Nat.le_of_eq (congrArg List.length hmemory.kinds).symm)
      fun id _ hid => (congrArg (·[id]?) hmemory.kinds).trans hid
  cases hlaunch : w.launch c with
  | mk v outcome =>
      cases outcome with
      | error fault =>
          obtain ⟨memory, hmemory, rfl⟩ := launch_error hlaunch
          exact hestablished hmemory
      | ok ns =>
          obtain ⟨memory, hmemory, henrols, -, roots, htrees⟩ := launch_ok hlaunch
          refine (hestablished hmemory).enrols none henrols (fun p hp => by cases hp)
            fun n i hn hi => htrees.isNested hn ?_ hi
          exact (List.getElem?_eq_some_iff.1 hi).1

theorem placement_mapInstance {f : Instance → Instance} (w : World) (n : Nat)
    (h : ∀ i, (f i).placement = i.placement) : (w.mapInstance n f).placement = w.placement := by
  rw [placement, mapInstance, map_modify (g := id) w.instances n h, List.modify_id, placement]

theorem placement_adopt (w : World) (parent : Option Nat) (n : Nat) :
    (w.adopt parent n).placement = w.placement := by
  cases parent with
  | none => rfl
  | some p =>
      exact placement_mapInstance w p fun _ => rfl

theorem isSeparated_spawn (h : w.IsSeparated) {g : Graph}
    (hparent : ∀ p, parent = some p → p < w.instances.length) :
    (w.spawn g parent).1.IsSeparated := by
  cases hspawn : w.spawn g parent with
  | mk v outcome =>
      cases outcome with
      | error fault =>
          obtain rfl := spawn_error hspawn
          exact h
      | ok n =>
          obtain ⟨rfl, henrols, htree⟩ := spawn_ok hparent hspawn
          have hlength := length_adopt w parent w.instances.length
          have hmemory : (w.adopt parent w.instances.length).memory = w.memory := by
            cases parent <;> rfl
          have hroot : (w.adopt parent w.instances.length).root = w.root := by
            cases parent <;> rfl
          have hplacement := placement_adopt w parent w.instances.length
          have htold : (w.adopt parent w.instances.length).IsSeparated :=
            h.of_eq hroot hplacement (Nat.le_of_eq (by rw [hmemory])) fun id _ hid => hmemory ▸ hid
          have hsees :
              (w.adopt parent w.instances.length).enclosing parent = w.enclosing parent := by
            rw [enclosing_eq, enclosing_eq, hroot, hplacement]
          refine htold.enrols parent henrols (fun p hp => ?_) fun n i hn hi => ?_
          · rw [hlength]
            exact hparent p hp
          · rw [hlength] at hn ⊢
            rw [hsees]
            exact htree.isNested hn (List.getElem?_eq_some_iff.1 hi).1 hi

/-! ## Steps -/

theorem Step.lasts (hstep : Step w label v) : w.Lasts v := by
  cases hstep with
  | ask r => exact (Receives.serve (n := 0) w r).lasts
  | jump time => exact (Receives.jump (n := 0) w time).lasts
  | wait time => exact (Receives.wait (n := 0) w time).lasts
  | go hgo =>
      unfold step? at hgo
      split at hgo
      · rename_i t hcurrent
        cases hgo
        exact (receives_resume hcurrent (Nat.ne_add_one t.number)).lasts
      · rename_i hfree
        split at hgo
        · rename_i task rest _
          cases hgo
          cases task with
          | turn n =>
              exact (receives_beginTurn (w := { w with ready := rest }) hfree
                (Nat.ne_add_one n)).lasts
          | timer id =>
              exact (Receives.of_passes (n := 0) (.runTimer { w with ready := rest } id)).lasts
          | job id => exact (Receives.runJob (n := 0) { w with ready := rest } id).lasts
        · cases hgo

/-- Nobody moves. -/
theorem Step.placement (hstep : Step w label v)
    (hmakes : ∀ r, label = some (.asked r) → r.makes = false) : v.placement = w.placement := by
  refine List.ext_getElem? fun n => ?_
  rw [placement_getElem?, placement_getElem?]
  cases hi : w.instance? n with
  | none =>
      have hkin := congrArg (·[n]?) (hstep.kin hmakes)
      simp only [kin_getElem?, hi, Option.map_none, Option.map_eq_none_iff] at hkin
      rw [hkin]
  | some i =>
      obtain ⟨-, j, hj, hreacts⟩ := hstep.reacts hi
      rw [hj, Option.map_some, Option.map_some, hreacts.kept.1]

end World

/-- A step of its own, or what an engine is asked for, adds layers at most. -/
theorem Topology.Change.isPrefix_kinds {s s' : Topology} {label : Option Happening}
    (h : s.Change label s') (hown : ∀ memory, label ≠ some (.asked (.write memory))) :
    s.kinds <+: s'.kinds := by
  cases h with
  | stay => exact List.prefix_rfl
  | begin => exact List.prefix_rfl
  | strand => exact List.prefix_rfl
  | @dismiss n p hp =>
      have hkinds : (s.dismiss n).kinds = s.kinds := by rw [dismiss_eq hp]
      exact hkinds ▸ List.prefix_rfl
  | found hgrows =>
      obtain ⟨added, kin, more, rfl, -⟩ := hgrows
      rw [kinds_enrolAll]
      exact ⟨more, rfl⟩
  | write memory hlabel => exact absurd hlabel (hown memory)

namespace World

variable {w₀ w v : World} {hs : List Happening} {label : Option Happening}

theorem Step.isSeparated (hstep : Step w label v) (htidy : w.status.IsTidy)
    (hserves : ∀ r, label = some (.asked r) → w.Serves r) (h : w.IsSeparated) : v.IsSeparated := by
  -- unless somebody writes or makes instances, nobody moves
  have hstays : (∀ r, label = some (.asked r) → r.makes = false) →
      (∀ memory, label ≠ some (.asked (.write memory))) → v.IsSeparated := by
    intro hmakes hown
    obtain ⟨more, hmore⟩ := (hstep.changes htidy).isPrefix_kinds hown
    have hkinds : v.memory.kinds = w.memory.kinds ++ more := hmore.symm
    refine h.of_eq hstep.lasts.root (hstep.placement hmakes) ?_ fun id _ hid => ?_
    · rw [hkinds, List.length_append]
      exact Nat.le_add_right _ _
    · rw [hkinds]
      exact (List.getElem?_append_left (List.getElem?_eq_some_iff.1 hid).1).trans hid
  by_cases hasked : ∃ r, label = some (.asked r)
  · obtain ⟨r, rfl⟩ := hasked
    cases hserves r rfl with
    | launch hbuilt =>
        rw [hstep.eq_serve]
        exact isSeparated_launch h _
    | spawn hbuilt hparent =>
        rw [hstep.eq_serve]
        exact isSeparated_spawn h hparent
    | write l b =>
        rw [hstep.eq_serve]
        refine h.of_eq rfl rfl ?_ fun id hid hkind => ?_
        · simp [serve, Memory.kinds]
        · simp only [serve, Memory.kinds, List.getElem?_map] at hkind ⊢
          rw [List.getElem?_set_ne (Ne.symm hid)]
          exact hkind
    | offer p e => exact hstays (fun r hr => by cases hr; rfl) fun memory hm => by cases hm
    | send source e => exact hstays (fun r hr => by cases hr; rfl) fun memory hm => by cases hm
    | cancel n => exact hstays (fun r hr => by cases hr; rfl) fun memory hm => by cases hm
    | shutDown => exact hstays (fun r hr => by cases hr; rfl) fun memory hm => by cases hm
    | respond id response =>
        exact hstays (fun r hr => by cases hr; rfl) fun memory hm => by cases hm
  · exact hstays (fun r hr => absurd ⟨r, hr⟩ hasked) fun memory hm => hasked ⟨_, hm⟩

/-! ## Runs -/

/-- Runs in which an engine is asked for what it offers. -/
inductive ServedRun (w₀ : World) : List Happening → World → Prop where
  | start : ServedRun w₀ [] w₀
  | step {hs : List Happening} {label : Option Happening} {w w' : World} :
      ServedRun w₀ hs w → Step w label w' → (∀ r, label = some (.asked r) → w.Serves r) →
      ServedRun w₀ (label.toList ++ hs) w'

namespace ServedRun

theorem nestedRun (h : ServedRun w₀ hs w) : NestedRun w₀ hs w := by
  induction h with
  | start => exact .start
  | step _ hstep hserves ih => exact ih.step hstep fun r hr => (hserves r hr).nests

theorem isBuilt (h : ServedRun w₀ hs w) : ∀ r, .asked r ∈ hs → r.IsBuilt := by
  induction h with
  | start => exact fun r hr => by cases hr
  | step _ _ hserves ih =>
      intro r hr
      rcases List.mem_append.1 hr with hr | hr
      · exact (hserves r (Option.mem_toList.1 hr)).isBuilt
      · exact ih r hr

/-- What an engine does on its own is not asked for. -/
theorem trans {hs' : List Happening} (h : ServedRun w₀ hs w) (h' : Run w hs' v)
    (hfree : ∀ r, .asked r ∉ hs') : ServedRun w₀ (hs' ++ hs) v := by
  induction h' with
  | start => exact h
  | step _ hstep ih =>
      rw [List.append_assoc]
      refine (ih fun r hr => hfree r (List.mem_append_right _ hr)).step hstep fun r hr => ?_
      exact absurd (List.mem_append_left _ (Option.mem_toList.2 hr)) (hfree r)

/-- The instances of a run have layers of their own above those of their parents. -/
theorem isSeparated (h : ServedRun w₀ hs w) (hnew : w₀.IsNew)
    (hheld : w₀.root < w₀.memory.layers.length) : w.IsSeparated := by
  induction h with
  | start =>
      rw [IsSeparated, placement, hnew.instances]
      exact .nil (by rw [Memory.kinds, List.length_map]; exact hheld)
  | step hbefore hstep hserves ih =>
      exact hstep.isSeparated (hbefore.nestedRun.run.isTidy hnew.isTidy hbefore.isBuilt) hserves ih

end ServedRun

end World

end Statechart
