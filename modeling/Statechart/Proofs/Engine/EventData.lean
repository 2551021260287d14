import Statechart.Proofs.Engine.Registry

/-!
# What guards and actions see of an event

The data of an event is put down twice: for the guards in a layer of its own, where the first value
of a name stays, and for the actions among the variables of the instance, where the last one stays.

- `World.guardLookup_dataName` : what guards see
- `World.resolve_injected`     : what actions see
- `Topology.Change.hasOwnLayer` : the variables of an instance are always on top, and in memory
- `World.data_of_run`          : both, for every event that is taken in a run
-/

namespace Statechart

/-- The last value of a name, where `dataValue?` is the first. -/
def Event.lastValue? (e : Event) (name : String) : Option Value := valueOf? name e.data.reverse

/-- What is found in the highest layer is not looked for in others. -/
theorem Extent.resolve_of_high {e : Extent} {m : Memory} {id : LayerId} {name : String}
    {value : Value} (hhigh : e.high? = some id) (hget : m.get id name = .ok value) :
    e.resolve m name = .ok (some value) := by
  obtain ⟨lower, hlower⟩ : ∃ lower, e.layers = lower ++ [id] :=
    List.getLast?_eq_some_iff.1 hhigh
  have hdownward : e.downward = id :: lower.reverse := by
    simp [Extent.downward, hlower]
  simp only [Extent.resolve, hdownward, Extent.resolveIn, hget]

namespace World

theorem dataName_injective : Function.Injective dataName := by
  intro name other h
  have hlists := congrArg String.toList h
  simp only [dataName, String.toList_append] at hlists
  exact String.toList_inj.1 (List.append_cancel_left hlists)

/-! ## Guards -/

/-- Of data with one name the first counts. -/
theorem get?_dataTable (data : List (String × Value)) (name : String) :
    (dataTable data).get? (dataName name) = valueOf? name data := by
  -- what is in the table stays there
  have hfrom : ∀ t : Table Value,
      (data.foldl (fun t entry =>
        if t.contains (dataName entry.1) then t else t.insert (dataName entry.1) entry.2) t).get?
          (dataName name) = (t.get? (dataName name)).or (valueOf? name data) := by
    induction data with
    | nil => simp [valueOf?]
    | cons head rest ih =>
        intro t
        rw [List.foldl_cons, ih, valueOf?]
        by_cases hname : head.1 = name
        · subst hname
          cases hthere : t.get? (dataName head.1) <;> simp [Table.contains, hthere]
        · have hne : dataName head.1 ≠ dataName name := fun heq => hname (dataName_injective heq)
          rw [if_neg hname]
          split
          · rfl
          · rw [Table.get?_insert, if_neg hne]
  exact hfrom .empty

theorem guardLookup_dataName (m : Memory) (extent : Extent) {e : Event} {name : String}
    {value : Value} (h : e.dataValue? name = some value) :
    guardLookup m extent e (dataName name) = .ok (some value) := by
  have hget : (m.add (.memory (dataTable e.data))).1.get m.layers.length (dataName name) =
      .ok value := by
    refine Memory.get_eq_ok_iff.2 ⟨.memory (dataTable e.data), by simp [Memory.add], ?_⟩
    rw [Layer.get, get?_dataTable, show valueOf? name e.data = some value from h]
  exact Extent.resolve_of_high List.getLast?_concat hget

/-! ## Actions -/

end World

namespace Memory

variable {m : Memory} {id : LayerId} {t : Table Value}

theorem set_self {l : Layer} (hl : m.layers[id]? = some l) :
    (⟨m.layers.set id l, m.backing⟩ : Memory) = m := by
  obtain ⟨hlt, rfl⟩ := List.getElem?_eq_some_iff.1 hl
  rw [List.set_getElem_self]

theorem assign_memory (ht : m.layers[id]? = some (.memory t)) (name : String) (value : Value) :
    m.assign id name value =
      if t.contains name then
        (⟨m.layers.set id (.memory (t.insert name value)), m.backing⟩, .ok value.encodedSize)
      else (m, .error (.notFound name)) := by
  simp only [assign, ht, Layer.assign]
  split
  · rfl
  · rw [set_self ht]

theorem create_memory (ht : m.layers[id]? = some (.memory t)) (name : String) (value : Value) :
    m.create id name value =
      if t.contains name then (m, .error (.exists name))
      else
        (⟨m.layers.set id (.memory (t.insert name value)), m.backing⟩,
          .ok value.encodedSize) := by
  simp only [create, ht, Layer.create]
  split
  · rw [set_self ht]
  · rfl

/-- In memory a variable is put into the highest layer whether or not it is there. -/
theorem put_memory {e : Extent} (hhigh : e.high? = some id)
    (ht : m.layers[id]? = some (.memory t)) (name : String) (value : Value) :
    e.put m name value =
      (⟨m.layers.set id (.memory (t.insert name value)), m.backing⟩, .ok value.encodedSize) := by
  cases hthere : t.contains name <;>
    simp [Extent.put, hhigh, assign_memory ht, create_memory ht, hthere]

end Memory

namespace World

theorem layers_inject {n : Nat} {extent : Extent} {id : LayerId} {w : World} {t : Table Value}
    (hhigh : extent.high? = some id) (ht : w.memory.layers[id]? = some (.memory t))
    (entry : String × Value) :
    (inject n extent w entry).memory.layers[id]? =
      some (.memory (t.insert (dataName entry.1) entry.2)) := by
  rw [inject, Memory.put_memory hhigh ht]
  exact List.getElem?_set_self (List.getElem?_eq_some_iff.1 ht).1

/-- Of data with one name the last counts, and data that was there before is replaced. -/
theorem layers_injectAll {n : Nat} {extent : Extent} {id : LayerId}
    (hhigh : extent.high? = some id) (data : List (String × Value)) {w : World} {t : Table Value}
    (ht : w.memory.layers[id]? = some (.memory t)) :
    ∃ t', (data.foldl (inject n extent) w).memory.layers[id]? = some (.memory t') ∧
      ∀ name, t'.get? (dataName name) =
        (valueOf? name data.reverse).or (t.get? (dataName name)) := by
  induction data generalizing w t with
  | nil => exact ⟨t, ht, fun _ => rfl⟩
  | cons head rest ih =>
      obtain ⟨t', ht', hget⟩ := ih (layers_inject (n := n) hhigh ht head)
      refine ⟨t', ht', fun name => (hget name).trans ?_⟩
      rw [List.reverse_cons, valueOf?_append, Option.or_assoc, Table.get?_insert]
      by_cases hname : head.1 = name
      · simp [hname, valueOf?]
      · have hne : dataName head.1 ≠ dataName name := fun heq => hname (dataName_injective heq)
        simp [hname, hne, valueOf?]

theorem resolve_injected {n : Nat} {extent : Extent} {id : LayerId} {w : World}
    {t : Table Value} {data : List (String × Value)} {name : String} {value : Value}
    (hhigh : extent.high? = some id) (ht : w.memory.layers[id]? = some (.memory t))
    (h : valueOf? name data.reverse = some value) :
    extent.resolve (data.foldl (inject n extent) w).memory (dataName name) = .ok (some value) := by
  obtain ⟨t', ht', hget⟩ := layers_injectAll (n := n) hhigh data ht
  refine Extent.resolve_of_high hhigh (Memory.get_eq_ok_iff.2 ⟨_, ht', ?_⟩)
  rw [Layer.get, hget name, h]
  rfl

/-! ## Events that are taken -/

/-- A transition was chosen by what the guards see, and then the data was put down. -/
theorem react_transit {w w' : World} {n : Nat} {i : Instance} {e : Event} {selected : Selected}
    (hi : w.instance? n = some i) (h : w.react n e = (w', .ok [.move (.transit selected)])) :
    ∃ state v, i.active = some state ∧
      selectTransition state.name e.name (state.onEvent e.name)
        (guardLookup w.memory (i.stateExtent state) e) = .ok (some selected) ∧
      w' = e.data.foldl (inject n i.extent) v ∧ v.memory = w.memory := by
  unfold react at h
  rw [hi] at h
  cases hactive : i.active with
  | none =>
      simp only [hactive] at h
      cases h
  | some state =>
      simp only [hactive, select, remarks] at h
      cases hchoice : selectTransition state.name e.name (state.onEvent e.name)
        (guardLookup w.memory (i.stateExtent state) e) with
      | error fault =>
          rw [hchoice] at h
          cases h
      | ok follow =>
          rw [hchoice] at h
          cases follow with
          | none => cases h
          | some other =>
              cases h
              exact ⟨state, _, rfl, hchoice, rfl, rfl⟩

/-- Guards see the first value of a name in the data of an event, actions the last one. -/
theorem data_of_react {w w' : World} {n : Nat} {i : Instance} {t : Table Value} {e : Event}
    {selected : Selected} (hi : w.instance? n = some i) (hhigh : i.extent.high? = some i.locals)
    (ht : w.memory.layers[i.locals]? = some (.memory t))
    (h : w.react n e = (w', .ok [.move (.transit selected)])) :
    ∃ state, i.active = some state ∧
      selectTransition state.name e.name (state.onEvent e.name)
        (guardLookup w.memory (i.stateExtent state) e) = .ok (some selected) ∧
      ∀ name ∈ e.data.map (·.1), ∃ first last,
        e.dataValue? name = some first ∧ e.lastValue? name = some last ∧
        guardLookup w.memory (i.stateExtent state) e (dataName name) = .ok (some first) ∧
        i.extent.resolve w'.memory (dataName name) = .ok (some last) := by
  obtain ⟨state, v, hactive, hchoice, rfl, hmemory⟩ := react_transit hi h
  rw [← hmemory] at ht
  refine ⟨state, hactive, hchoice, fun name hname => ?_⟩
  have hreverse : name ∈ e.data.reverse.map (·.1) := by
    rw [List.map_reverse]
    exact List.mem_reverse.2 hname
  obtain ⟨first, hfirst⟩ := Option.isSome_iff_exists.1 (isSome_valueOf? hname)
  obtain ⟨last, hlast⟩ := Option.isSome_iff_exists.1 (isSome_valueOf? hreverse)
  exact ⟨first, last, hfirst, hlast, guardLookup_dataName _ _ hfirst,
    resolve_injected hhigh ht hlast⟩

end World

/-! ## Where the variables of an instance are -/

namespace Topology

variable {s s' : Topology} {n : Nat} {p : Profile} {label : Option Happening}

/-- Every instance has its own variables on top, in memory. -/
def HasOwnLayer (s : Topology) : Prop :=
  ∀ (n : Nat) (p : Profile), s.profiles[n]? = some p → p.HasOwnLayer s.kinds

theorem HasOwnLayer.modify {f : Profile → Profile} (h : s.HasOwnLayer)
    (hprofiles : s'.profiles = s.profiles.modify n f) (hkinds : s'.kinds = s.kinds)
    (hf : ∀ p kinds, p.HasOwnLayer kinds → (f p).HasOwnLayer kinds) : s'.HasOwnLayer := by
  intro m q hq
  rw [hprofiles, List.getElem?_modify] at hq
  obtain ⟨q', hq', rfl⟩ := Option.map_eq_some_iff.1 hq
  rw [hkinds]
  split
  · exact hf q' _ (h m q' hq')
  · exact h m q' hq'

/-- New instances come with their own layer. -/
theorem HasOwnLayer.grows (h : s.HasOwnLayer) (hgrows : s.Grows s') : s'.HasOwnLayer := by
  obtain ⟨added, kin, more, rfl, hadded⟩ := hgrows
  intro m q hq
  by_cases hold : m < s.profiles.length
  · exact (h m q ((List.getElem?_append_left hold).symm.trans hq)).append more
  · have hnew := (List.getElem?_append_right (Nat.le_of_not_lt hold)).symm.trans hq
    exact (hadded q (List.mem_of_getElem? hnew)).2.2

theorem kinds_enrolAll (ns : List Nat) (s : Topology) : (ns.foldl enrol s).kinds = s.kinds := by
  have henrol : ∀ (s : Topology) (n : Nat), (s.enrol n).kinds = s.kinds := by
    intro s n
    unfold enrol
    split <;> rfl
  induction ns generalizing s with
  | nil => rfl
  | cons n rest ih => rw [List.foldl_cons, ih, henrol]

/-- All changes but those of somebody else leave the variables of instances in place. -/
theorem Change.hasOwnLayer (h : s.Change label s') (hlayer : s.HasOwnLayer)
    (hown : ∀ memory, label ≠ some (.asked (.write memory))) : s'.HasOwnLayer := by
  cases h with
  | stay => exact hlayer
  | begin => exact hlayer.modify rfl rfl fun _ _ hp => ⟨hp.high, hp.isMemory⟩
  | strand => exact hlayer.modify rfl rfl fun _ _ hp => ⟨hp.high, hp.isMemory⟩
  | dismiss hp =>
      rw [dismiss_eq hp]
      exact hlayer.modify rfl rfl fun _ _ hp => ⟨hp.high, hp.isMemory⟩
  | found hgrows =>
      have hbuilt := hlayer.grows hgrows
      intro m q hq
      rw [profiles_enrolAll] at hq
      obtain ⟨q', hq', rfl⟩ := Option.map_eq_some_iff.1 hq
      rw [kinds_enrolAll]
      split
      · exact ⟨(hbuilt m q' hq').high, (hbuilt m q' hq').isMemory⟩
      · exact hbuilt m q' hq'
  | write memory hlabel => exact absurd hlabel (hown memory)

end Topology

namespace World

variable {w₀ w w' : World} {hs : List Happening} {n : Nat} {i : Instance} {e : Event}
  {selected : Selected}

theorem Run.hasOwnLayer (hrun : Run w₀ hs w) (hnew : w₀.IsNew)
    (hbuilt : ∀ r, .asked r ∈ hs → r.IsBuilt)
    (hown : ∀ memory, .asked (.write memory) ∉ hs) : w.topology.HasOwnLayer := by
  induction hrun with
  | start =>
      intro m q hq
      rw [topology_profiles_getElem?, instance?, hnew.instances] at hq
      cases hq
  | @step _ label _ _ hbefore hstep ih =>
      obtain ⟨-, hold⟩ := isBuilt_of_toList hbuilt
      have hlayer := ih hold fun memory hm => hown memory (List.mem_append_right _ hm)
      refine (hstep.changes (hbefore.isTidy hnew.isTidy hold)).hasOwnLayer hlayer ?_
      rintro memory rfl
      exact hown memory (by simp)

/-- The own variables of an instance of a run. -/
theorem Run.exists_table (hrun : Run w₀ hs w) (hnew : w₀.IsNew)
    (hbuilt : ∀ r, .asked r ∈ hs → r.IsBuilt) (hown : ∀ memory, .asked (.write memory) ∉ hs)
    (hi : w.instance? n = some i) :
    ∃ t, i.extent.high? = some i.locals ∧ w.memory.layers[i.locals]? = some (.memory t) := by
  obtain ⟨hhigh, hmemory⟩ := hrun.hasOwnLayer hnew hbuilt hown n i.profile (profile_of_instance? hi)
  obtain ⟨l, hl, hkind⟩ := Option.map_eq_some_iff.1 (List.getElem?_map.symm.trans hmemory)
  cases l with
  | memory t => exact ⟨t, hhigh, hl⟩
  | durable space => cases hkind
  | unreachable reason => cases hkind

/-- In a run in which nobody else writes variables, the guards of a transition that is taken on an
event see the first value of every name in its data, and the actions the last one. -/
theorem data_of_run (hnew : w₀.IsNew) (hbuilt : ∀ r, .asked r ∈ hs → r.IsBuilt)
    (hown : ∀ memory, .asked (.write memory) ∉ hs) (hrun : Run w₀ hs w)
    (hi : w.instance? n = some i) (h : w.react n e = (w', .ok [.move (.transit selected)])) :
    ∃ state, i.active = some state ∧
      selectTransition state.name e.name (state.onEvent e.name)
        (guardLookup w.memory (i.stateExtent state) e) = .ok (some selected) ∧
      ∀ name ∈ e.data.map (·.1), ∃ first last,
        e.dataValue? name = some first ∧ e.lastValue? name = some last ∧
        guardLookup w.memory (i.stateExtent state) e (dataName name) = .ok (some first) ∧
        i.extent.resolve w'.memory (dataName name) = .ok (some last) := by
  obtain ⟨t, hhigh, ht⟩ := hrun.exists_table hnew hbuilt hown hi
  exact data_of_react hi hhigh ht h

/-! ### A trial -/

/-- A latch that is caught by an event that carries the right number. -/
def latch : Description.Graph :=
  { name := "latch", isAbstract := false, locals := [], nested := []
    states :=
      [{ name := "free", isInitial := true, isTerminal := false, entry := [], exit := []
         during := [], after := [], on := [⟨"go", ⟨some "caught", ["$x == 1"], [], none⟩⟩]
         always := [], locals := [] },
        { name := "caught", isInitial := false, isTerminal := false, entry := [], exit := []
          during := [], after := [], on := [], always := [], locals := [] }] }

def latchRequests : List Request := [.place (.ofBuilt true latch (by decide +kernel)) .empty none]

/-- The latch is free. -/
def latchFree : List Happening × World := attend 20 bare latchRequests

theorem latch_isBuilt : ∀ r, .asked r ∈ latchFree.1 → r.IsBuilt := by
  intro r hr
  cases List.mem_singleton.1 (mem_of_asked_attend hr)
  exact ⟨true, Graph.ofBuilt_isBuilt true latch _⟩

theorem latch_unwritten : ∀ memory, .asked (.write memory) ∉ latchFree.1 := by
  intro memory hr
  cases List.mem_singleton.1 (mem_of_asked_attend hr)

/-- The right number, and another one of the same name. -/
def twice : Event := ⟨"go", .internal, [("x", .ofInt 1), ("x", .ofInt 2)]⟩

/-- The one transition that a reaction consists of. -/
def transit? : Except EngineFault (List Command) → Option Selected
  | .ok [.move (.transit selected)] => some selected
  | _ => none

theorem eq_of_transit? {reaction : World × Except EngineFault (List Command)}
    (h : transit? reaction.2 = some selected) :
    reaction = (reaction.1, .ok [.move (.transit selected)]) := by
  obtain ⟨v, result⟩ := reaction
  unfold transit? at h
  split at h
  · rename_i hresult
    cases h
    exact congrArg (Prod.mk v) hresult
  · cases h

/-- The latch is caught by the right number. -/
theorem latch_reacts :
    ∃ i w' selected, latchFree.2.instance? 0 = some i ∧
      latchFree.2.react 0 twice = (w', .ok [.move (.transit selected)]) := by
  have hthere : (latchFree.2.instance? 0).isSome = true := by decide +kernel
  have htransit : (transit? (latchFree.2.react 0 twice).2).isSome = true := by decide +kernel
  obtain ⟨i, hi⟩ := Option.isSome_iff_exists.1 hthere
  obtain ⟨selected, hselected⟩ := Option.isSome_iff_exists.1 htransit
  exact ⟨i, _, selected, hi, eq_of_transit? hselected⟩

theorem latch_data :
    ∃ i state w' selected, Run bare latchFree.1 latchFree.2 ∧
      latchFree.2.instance? 0 = some i ∧ i.active = some state ∧
      latchFree.2.react 0 twice = (w', .ok [.move (.transit selected)]) ∧
      guardLookup latchFree.2.memory (i.stateExtent state) twice "$x" = .ok (some (.ofInt 1)) ∧
      i.extent.resolve w'.memory "$x" = .ok (some (.ofInt 2)) := by
  obtain ⟨i, w', selected, hi, hreact⟩ := latch_reacts
  have hrun : Run bare latchFree.1 latchFree.2 := run_attend 20 bare latchRequests
  obtain ⟨state, hactive, -, hdata⟩ :=
    data_of_run bare_isNew latch_isBuilt latch_unwritten hrun hi hreact
  obtain ⟨first, last, hfirst, hlast, hguards, hactions⟩ := hdata "x" List.mem_cons_self
  cases hfirst
  cases hlast
  exact ⟨i, state, w', selected, hrun, hi, hactive, hreact, hguards, hactions⟩

/-- Guards and actions do not see the same of an event that carries a name twice. -/
theorem latch_differs :
    ¬ ∀ (hs : List Happening) (w w' : World) (n : Nat) (i : Instance) (state : State) (e : Event)
        (selected : Selected) (name : String),
      Run bare hs w → w.instance? n = some i → i.active = some state →
        w.react n e = (w', .ok [.move (.transit selected)]) → name ∈ e.data.map (·.1) →
          guardLookup w.memory (i.stateExtent state) e (dataName name) =
            i.extent.resolve w'.memory (dataName name) := by
  intro hsame
  obtain ⟨i, w', selected, hi, hreact⟩ := latch_reacts
  have hrun : Run bare latchFree.1 latchFree.2 := run_attend 20 bare latchRequests
  obtain ⟨t, hhigh, ht⟩ := hrun.exists_table bare_isNew latch_isBuilt latch_unwritten hi
  obtain ⟨state, hactive, -, hdata⟩ := data_of_react hi hhigh ht hreact
  obtain ⟨first, last, hfirst, hlast, hguards, hactions⟩ := hdata "x" List.mem_cons_self
  have heq := hsame _ _ w' 0 i state twice selected "x" hrun hi hactive hreact List.mem_cons_self
  rw [hguards, hactions] at heq
  cases hfirst
  cases hlast
  have hone : Value.ofInt 1 = Value.ofInt 2 := Option.some.inj (Except.ok.inj heq)
  cases hone

end World

end Statechart
