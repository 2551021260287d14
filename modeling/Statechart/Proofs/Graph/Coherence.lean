import Statechart.Graph.Build
import Statechart.Proofs.Success

/-!
# What building promises of a graph

A graph that was built can be run without looking at its description again: transitions lead to its
own states, and the timers of a state differ in name.

- `Graph.IsBuilt`        : a graph comes from a description
- `Graph.IsCoherent`     : the promises
- `Graph.IsBuilt.isCoherent`, `Graph.IsBuilt.nested` : they are kept, also for nested graphs
- `Graph.IsBuilt.length_onEvent_le` : what strictness adds
-/

namespace Statechart

/-! ## Transitions -/

/-- Both targets are among the states. -/
def Transition.LeadsInto (t : Transition) (states : List String) : Prop :=
  ∀ isElse target, t.targetFor isElse = some target → target ∈ states

theorem Transition.leadsInto_of_build {states : List String} {event : Option String}
    {d : Description.Transition} {t : Transition} (h : Transition.build states event d = .ok t) :
    t.LeadsInto states := by
  unfold Transition.build at h
  split at h
  · cases h
  · rename_i hnone
    obtain ⟨guards, -, h⟩ := bind_eq_ok_iff.1 h
    obtain ⟨actions, -, h⟩ := bind_eq_ok_iff.1 h
    cases h
    intro isElse target htarget
    rw [List.find?_eq_none] at hnone
    have hmem : target ∈ d.target.toList ++ d.otherwise.toList := by
      cases isElse with
      | true => exact List.mem_append_right _ (by simpa [targetFor] using htarget)
      | false => exact List.mem_append_left _ (by simpa [targetFor] using htarget)
    simpa using hnone target hmem

theorem Transition.event_of_build {states : List String} {event : Option String}
    {d : Description.Transition} {t : Transition} (h : Transition.build states event d = .ok t) :
    t.event = event := by
  unfold Transition.build at h
  split at h
  · cases h
  · obtain ⟨guards, -, h⟩ := bind_eq_ok_iff.1 h
    obtain ⟨actions, -, h⟩ := bind_eq_ok_iff.1 h
    cases h
    rfl

/-! ## States -/

namespace State

theorem nodup_of_buildAfter {state : String} {timers built : List Timeout}
    {ds : List Description.Action} (h : buildAfter state timers ds = .ok built)
    (hnodup : (timers.map (·.name)).Nodup) : (built.map (·.name)).Nodup := by
  -- the timers built so far differ in name, and every further one is compared with all of them
  induction ds generalizing timers with
  | nil =>
      cases h
      exact hnodup
  | cons d rest ih =>
      rw [buildAfter] at h
      obtain ⟨action, -, h⟩ := bind_eq_ok_iff.1 h
      split at h
      · rename_i timer
        split at h
        · cases h
        · rename_i hany
          refine ih h ?_
          rw [List.map_append, List.nodup_append]
          refine ⟨hnodup, by simp, ?_⟩
          intro name hname other hother heq
          simp only [List.map_cons, List.map_nil, List.mem_singleton] at hother
          obtain ⟨t, ht, rfl⟩ := List.mem_map.1 hname
          exact hany (List.any_eq_true.2 ⟨t, ht, beq_iff_eq.2 (heq.trans hother)⟩)
      · cases h

/-- Transitions on events lead into the states; in strict mode they have different events. -/
theorem on_of_buildOn {strict : Bool} {states : List String} {state : String}
    {before built : List Transition} {ds : List Description.Trigger}
    (h : buildOn strict states state before ds = .ok built)
    (hinto : ∀ t ∈ before, t.LeadsInto states)
    (hstrict : strict = true → (before.map (·.event)).Nodup) :
    (∀ t ∈ built, t.LeadsInto states) ∧ (strict = true → (built.map (·.event)).Nodup) := by
  -- both properties are carried by the transitions built so far
  induction ds generalizing before with
  | nil =>
      cases h
      exact ⟨hinto, hstrict⟩
  | cons d rest ih =>
      rw [buildOn] at h
      split at h
      · cases h
      · obtain ⟨t, ht, h⟩ := bind_eq_ok_iff.1 h
        split at h
        · cases h
        · rename_i hrepeated
          refine ih h ?_ fun heq => ?_
          · intro t' ht'
            rcases List.mem_append.1 ht' with hin | hin
            · exact hinto t' hin
            · rw [List.mem_singleton.1 hin]
              exact Transition.leadsInto_of_build ht
          · rw [List.map_append, List.nodup_append]
            refine ⟨hstrict heq, by simp, ?_⟩
            intro event hmem other hother hsame
            simp only [List.map_cons, List.map_nil, List.mem_singleton] at hother
            obtain ⟨t', ht', rfl⟩ := List.mem_map.1 hmem
            have hevent : t'.event = some d.event := by
              rw [hsame, hother, Transition.event_of_build ht]
            -- strictness has looked for a transition on the same event
            refine hrepeated ?_
            rw [heq, Bool.true_and, List.any_eq_true]
            exact ⟨t', ht', beq_iff_eq.2 hevent⟩

/-- What building promises of a state among others. -/
structure IsCoherent (s : State) (states : List String) : Prop where
  on : ∀ t ∈ s.on, t.LeadsInto states
  always : ∀ t ∈ s.always, t.LeadsInto states
  after : (s.after.map (·.name)).Nodup

theorem of_build {strict : Bool} {states : List String} {d : Description.State} {s : State}
    (h : State.build strict states d = .ok s) :
    s.IsCoherent states ∧ s.name = d.name ∧ s.isInitial = d.isInitial ∧
      (strict = true → (s.on.map (·.event)).Nodup) := by
  unfold State.build at h
  obtain ⟨after, hafter, h⟩ := bind_eq_ok_iff.1 h
  obtain ⟨on, hon, h⟩ := bind_eq_ok_iff.1 h
  obtain ⟨always, halways, h⟩ := bind_eq_ok_iff.1 h
  obtain ⟨entry, -, h⟩ := bind_eq_ok_iff.1 h
  obtain ⟨exit, -, h⟩ := bind_eq_ok_iff.1 h
  obtain ⟨during, -, h⟩ := bind_eq_ok_iff.1 h
  obtain ⟨locals, -, h⟩ := bind_eq_ok_iff.1 h
  cases h
  obtain ⟨hinto, hevents⟩ := on_of_buildOn hon (by simp) fun _ => List.nodup_nil
  refine ⟨⟨hinto, fun t ht => ?_, nodup_of_buildAfter hafter List.nodup_nil⟩, rfl, rfl, hevents⟩
  obtain ⟨d', -, hbuild⟩ := exists_of_mapM halways t ht
  exact Transition.leadsInto_of_build hbuild

end State

/-! ## Graphs -/

namespace Graph

/-- A graph comes from a description. -/
def IsBuilt (strict : Bool) (g : Graph) : Prop := ∃ d, Graph.build strict d = .ok g

/-- What building promises of a graph. -/
structure IsCoherent (g : Graph) : Prop where
  initial : g.initial ∈ g.states
  states : ∀ s ∈ g.states, s.IsCoherent (g.states.map (·.name))

theorem build_inv {strict : Bool} {d : Description.Graph} {g : Graph}
    (h : Graph.build strict d = .ok g) :
    d.states.mapM (State.build strict (d.states.map (·.name))) = .ok g.states ∧
      buildGraphs strict d.nested = .ok g.nested ∧
      g.states.find? (·.isInitial) = some g.initial := by
  obtain ⟨name, isAbstract, locals, states, nested⟩ := d
  rw [Graph.build] at h
  obtain ⟨-, -, h⟩ := bind_eq_ok_iff.1 h
  obtain ⟨built, hstates, h⟩ := bind_eq_ok_iff.1 h
  obtain ⟨declared, -, h⟩ := bind_eq_ok_iff.1 h
  obtain ⟨graphs, hgraphs, h⟩ := bind_eq_ok_iff.1 h
  split at h
  · rename_i initial hinitial
    cases h
    exact ⟨hstates, hgraphs, hinitial⟩
  · cases h

theorem exists_of_buildGraphs {strict : Bool} {ds : List Description.Graph} {gs : List Graph}
    (h : buildGraphs strict ds = .ok gs) : ∀ g ∈ gs, g.IsBuilt strict := by
  induction ds generalizing gs with
  | nil =>
      cases h
      exact fun _ hg => absurd hg List.not_mem_nil
  | cons d rest ih =>
      rw [buildGraphs] at h
      obtain ⟨g, hg, h⟩ := bind_eq_ok_iff.1 h
      obtain ⟨others, hothers, h⟩ := bind_eq_ok_iff.1 h
      cases h
      intro graph hgraph
      rcases List.mem_cons.1 hgraph with rfl | hgraph
      · exact ⟨d, hg⟩
      · exact ih hothers graph hgraph

/-- The graph of a description that can be built. -/
def ofBuilt (strict : Bool) (d : Description.Graph)
    (h : (Graph.build strict d).toOption.isSome) : Graph :=
  (Graph.build strict d).toOption.get h

theorem ofBuilt_isBuilt (strict : Bool) (d : Description.Graph)
    (h : (Graph.build strict d).toOption.isSome) : (ofBuilt strict d h).IsBuilt strict := by
  have hok : ∀ (x : Except ModelFault Graph) (hx : x.toOption.isSome),
      x = .ok (x.toOption.get hx) := by
    intro x hx
    cases x with
    | ok g => rfl
    | error fault => cases hx
  exact ⟨d, hok _ h⟩

namespace IsBuilt

variable {strict : Bool} {g : Graph}

theorem nested (h : g.IsBuilt strict) : ∀ inner ∈ g.nested, inner.IsBuilt strict := by
  obtain ⟨d, hd⟩ := h
  exact exists_of_buildGraphs (build_inv hd).2.1

theorem isCoherent (h : g.IsBuilt strict) : g.IsCoherent := by
  obtain ⟨d, hd⟩ := h
  obtain ⟨hstates, -, hinitial⟩ := build_inv hd
  -- targets were looked up in the description, states are looked up in the graph
  have hnames : g.states.map (·.name) = d.states.map (·.name) :=
    map_of_mapM (fun _ _ hs => (State.of_build hs).2.1) hstates
  refine ⟨List.mem_of_find?_eq_some hinitial, fun s hs => ?_⟩
  obtain ⟨d', -, hbuild⟩ := exists_of_mapM hstates s hs
  rw [hnames]
  exact (State.of_build hbuild).1

/-- A strictly built state has at most one transition on an event. -/
theorem length_onEvent_le (h : g.IsBuilt true) {s : State} (hs : s ∈ g.states) (event : String) :
    (s.onEvent event).length ≤ 1 := by
  obtain ⟨d, hd⟩ := h
  obtain ⟨d', -, hbuild⟩ := exists_of_mapM (build_inv hd).1 s hs
  have hnodup : (s.on.map (·.event)).Nodup := (State.of_build hbuild).2.2.2 rfl
  have hcount : (s.on.map (·.event)).count (some event) ≤ 1 := by
    rw [hnodup.count]
    split <;> omega
  rw [List.count, List.countP_map, List.countP_eq_length_filter] at hcount
  exact hcount

end IsBuilt

theorem exists_state?_of_mem {g : Graph} {name : String} (h : name ∈ g.states.map (·.name)) :
    ∃ s ∈ g.states, g.state? name = some s := by
  obtain ⟨s, hs, rfl⟩ := List.mem_map.1 h
  have hsome : (g.state? s.name).isSome := by
    rw [state?, List.find?_isSome]
    exact ⟨s, hs, beq_self_eq_true _⟩
  obtain ⟨found, hfound⟩ := Option.isSome_iff_exists.1 hsome
  exact ⟨found, List.mem_of_find?_eq_some hfound, hfound⟩

end Graph

/-- The graphs of a collaboration that was built. -/
theorem Collaboration.isBuilt_of_build {strict : Bool} {d : Description.Collaboration}
    {c : Collaboration} (h : Collaboration.build strict d = .ok c) :
    ∀ g ∈ c.machines, g.IsBuilt strict := by
  unfold Collaboration.build at h
  split at h
  · cases h
  · obtain ⟨persistent, -, h⟩ := bind_eq_ok_iff.1 h
    obtain ⟨machines, hmachines, h⟩ := bind_eq_ok_iff.1 h
    split at h
    · cases h
    · cases h
      exact Graph.exists_of_buildGraphs hmachines

end Statechart
