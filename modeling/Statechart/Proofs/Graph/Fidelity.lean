import Mathlib.Data.List.Forall2
import Statechart.Proofs.Graph.Validity

/-!
# Graphs as described

What is built holds what was described, item by item in the order of declaration, and is found under
the names of the description.

- `Description.Action.Describes`, `Description.State.Describes`, `Description.Graph.Describes`
- `Graph.trees`                           : the graphs that a search by name goes through
- `Description.Graph.IndexedBy`           : what the lookups of a graph return
- `Description.Collaboration.IndexedBy`   : the same for a collaboration and all its graphs
- `Collaboration.build_accepts_and_indexes` : building accepts what is valid and indexes it
-/

namespace Statechart

open List (Forall₂)

/-! ## Descriptions and what they stand for -/

namespace Description

/-- Text stands for the expression it is parsed to, any other value for itself. -/
inductive ValueDescribes : Value → Expression → Prop where
  | parsed {source : String} {e : Expression} :
      Expression.parse source = .ok e → ValueDescribes (.text source) e
  | constant {v : Value} : (∀ source, v ≠ .text source) → ValueDescribes v (.ofLiteral v)

structure Variable.Describes (d : Variable) (v : Statechart.Variable) : Prop where
  name : v.name = d.name
  value : ValueDescribes d.value v.value

structure Event.Describes (d : Event) (e : EventTemplate) : Prop where
  name : e.name = d.name
  channel : e.channel = d.channel
  data : Forall₂ Variable.Describes d.data e.data

inductive Action.Describes : Action → Statechart.Action → Prop where
  | assign {d : Variable} {v : Statechart.Variable} : d.Describes v →
      Describes (.assign d) (.assign v)
  | create {d : Variable} {v : Statechart.Variable} (persistent : Bool) : d.Describes v →
      Describes (.create d persistent) (.create v persistent)
  | invoke {input : List Variable} {done : List Event} {call : Invocation} :
      Forall₂ Variable.Describes input call.input → Forall₂ Event.Describes done call.done →
      Describes (.invoke call.service call.isLocal input call.output done) (.invoke call)
  | choose {value : Value} {e : Expression} {ds : List (Value × Action)}
      {cases : List (Expression × Statechart.Action)} : ValueDescribes value e →
      Forall₂ (fun d c => ValueDescribes d.1 c.1) ds cases →
      Forall₂ (fun d c => Describes d.2 c.2) ds cases →
      Describes (.choose value ds) (.choose e cases)
  | raise {d : Event} {e : EventTemplate} : d.Describes e → Describes (.raise d) (.raise e)
  | timeout {delay : Value} {d : Event} {timer : Timeout} : ValueDescribes delay timer.delay →
      d.Describes timer.event → Describes (.timeout timer.name delay (.raise d)) (.timeout timer)
  | resetTimeout (timeout : String) : Describes (.resetTimeout timeout) (.resetTimeout timeout)

/-- A transition waits for the event under which it is described, or for none. -/
structure Transition.Describes (event : Option String) (d : Transition)
    (t : Statechart.Transition) : Prop where
  event : t.event = event
  target : t.target = d.target
  otherwise : t.otherwise = d.otherwise
  guards : Forall₂ (fun guard e => Expression.parse guard = .ok e) d.guards t.guards
  actions : Forall₂ Action.Describes d.actions t.actions

def Trigger.Describes (d : Trigger) (t : Statechart.Transition) : Prop :=
  d.transition.Describes (some d.event) t

structure State.Describes (d : State) (s : Statechart.State) : Prop where
  name : s.name = d.name
  isInitial : s.isInitial = d.isInitial
  isTerminal : s.isTerminal = d.isTerminal
  entry : Forall₂ Action.Describes d.entry s.entry
  exit : Forall₂ Action.Describes d.exit s.exit
  during : Forall₂ Action.Describes d.during s.during
  after : Forall₂ (fun a timer => a.Describes (.timeout timer)) d.after s.after
  locals : Forall₂ Variable.Describes d.locals s.locals
  on : Forall₂ Trigger.Describes d.on s.on
  always : Forall₂ (Transition.Describes none) d.always s.always

inductive Graph.Describes : Graph → Statechart.Graph → Prop where
  | intro {d : Graph} {g : Statechart.Graph} : g.name = d.name → g.isAbstract = d.isAbstract →
      Forall₂ Variable.Describes d.locals g.locals → Forall₂ State.Describes d.states g.states →
      g.description = d → Forall₂ Describes d.nested g.nested → Describes d g

/-! ## Lookups -/

/-- What the lookups of a graph return: what was declared, and nothing for other names. -/
structure Graph.IndexedBy (d : Graph) (g : Statechart.Graph) : Prop where
  state : ∀ s ∈ d.states, ∃ built, g.state? s.name = some built ∧ s.Describes built
  initial : ∃ s ∈ d.states, s.isInitial = true ∧ g.state? s.name = some g.initial ∧
    s.Describes g.initial
  onTransitions : ∀ s ∈ d.states, ∀ event,
    Forall₂ Trigger.Describes (s.on.filter (·.event == event)) (g.onTransitions s.name event)
  alwaysTransitions : ∀ s ∈ d.states,
    Forall₂ (Transition.Describes none) s.always (g.alwaysTransitions s.name)
  elsewhere : ∀ name ∉ d.states.map (·.name), g.state? name = none ∧
    (∀ event, g.onTransitions name event = []) ∧ g.alwaysTransitions name = []

structure Collaboration.IndexedBy (d : Collaboration) (c : Statechart.Collaboration) : Prop where
  name : c.name = d.name
  checksum : c.checksum = d.checksum
  persistent : Forall₂ Variable.Describes d.persistent c.persistent
  machines : Forall₂ Graph.Describes d.machines c.machines
  graph : ∀ g ∈ d.graphs, ∃ built, c.find? g.name = some built ∧ g.Describes built ∧
    g.IndexedBy built
  elsewhere : ∀ name ∉ d.graphs.map (·.name), c.find? name = none

end Description

/-! ## Lists in step -/

section InStep

variable {ε α β γ : Type}

theorem forall₂_of_mapM {f : α → Except ε β} {R : α → β → Prop}
    (hf : ∀ a b, f a = .ok b → R a b) :
    ∀ {as : List α} {bs : List β}, as.mapM f = .ok bs → Forall₂ R as bs
  | [], _, h => by
      cases h
      exact .nil
  | a :: rest, bs, h => by
      rw [List.mapM_cons] at h
      rcases bind_eq_ok_iff.1 h with ⟨b, hb, h⟩
      rcases bind_eq_ok_iff.1 h with ⟨others, hothers, h⟩
      cases h
      exact .cons (hf a b hb) (forall₂_of_mapM hf hothers)

/-- The first item of a key stands where the key was described. -/
theorem exists_find?_of_forall₂ [DecidableEq γ] {R : α → β → Prop} {before : α → γ}
    {after : β → γ} (hkey : ∀ a b, R a b → after b = before a) {as : List α} {bs : List β}
    (h : Forall₂ R as bs) (hnodup : (as.map before).Nodup) :
    ∀ a ∈ as, ∃ b, bs.find? (fun b => after b == before a) = some b ∧ R a b := by
  induction h with
  | nil =>
      intro a ha
      cases ha
  | @cons first b rest bs hfirst _ ih =>
      rw [List.map_cons, List.nodup_cons] at hnodup
      rcases hnodup with ⟨hnew, hrest⟩
      intro a ha
      rcases List.mem_cons.1 ha with rfl | ha
      · have hhit : (after b == before a) = true := beq_iff_eq.2 (hkey a b hfirst)
        exact ⟨b, List.find?_cons_of_pos hhit, hfirst⟩
      · -- the first key occurs no further, so this one is not passed over
        have hmiss : ¬ (after b == before a) = true := by
          intro heq
          have hsame : before first = before a :=
            (hkey first b hfirst).symm.trans (beq_iff_eq.1 heq)
          exact hnew (hsame ▸ List.mem_map.2 ⟨a, ha, rfl⟩)
        rcases ih hrest a ha with ⟨found, hfound, hR⟩
        refine ⟨found, ?_, hR⟩
        rw [List.find?_cons_of_neg (p := fun b => after b == before a) hmiss]
        exact hfound

theorem find?_eq_none_of_forall₂ [DecidableEq γ] {R : α → β → Prop} {before : α → γ}
    {after : β → γ} (hkey : ∀ a b, R a b → after b = before a) {as : List α} {bs : List β}
    (h : Forall₂ R as bs) {key : γ} (hkeys : key ∉ as.map before) :
    bs.find? (fun b => after b == key) = none := by
  induction h with
  | nil => rfl
  | @cons a b rest bs hab _ ih =>
      rw [List.map_cons, List.mem_cons, not_or] at hkeys
      have hmiss : ¬ (after b == key) = true := by
        intro heq
        exact hkeys.1 ((beq_iff_eq.1 heq).symm.trans (hkey a b hab))
      rw [List.find?_cons_of_neg (p := fun b => after b == key) hmiss]
      exact ih hkeys.2

end InStep

/-! ## Actions -/

open Description (ValueDescribes)

theorem Expression.describes_of_ofValue {v : Value} {e : Expression}
    (h : Expression.ofValue v = .ok e) : ValueDescribes v e := by
  cases v with
  | text source =>
      rw [Expression.ofValue] at h
      split at h
      · rename_i found hparse
        cases h
        exact .parsed hparse
      · cases h
  | _ =>
      cases h
      refine .constant ?_
      intro source hne
      cases hne

theorem Variable.describes_of_build {d : Description.Variable} {v : Variable}
    (h : Variable.build d = .ok v) : d.Describes v := by
  unfold Variable.build at h
  split at h
  · cases h
  · rcases bind_eq_ok_iff.1 h with ⟨value, hvalue, h⟩
    cases h
    exact ⟨rfl, Expression.describes_of_ofValue hvalue⟩

theorem EventTemplate.describes_of_build {d : Description.Event} {e : EventTemplate}
    (h : EventTemplate.build d = .ok e) : d.Describes e := by
  unfold EventTemplate.build at h
  split at h
  · cases h
  · rcases bind_eq_ok_iff.1 h with ⟨data, hdata, h⟩
    cases h
    exact ⟨rfl, rfl, forall₂_of_mapM (fun _ _ => Variable.describes_of_build) hdata⟩

mutual

theorem Action.describes_of_build :
    ∀ {d : Description.Action} {a : Action}, Action.build d = .ok a → d.Describes a
  | .assign declared, a, h => by
      rw [Action.build] at h
      rcases bind_eq_ok_iff.1 h with ⟨v, hv, h⟩
      cases h
      exact .assign (Variable.describes_of_build hv)
  | .create declared persistent, a, h => by
      rw [Action.build] at h
      rcases bind_eq_ok_iff.1 h with ⟨v, hv, h⟩
      cases h
      exact .create persistent (Variable.describes_of_build hv)
  | .invoke service isLocal input output done, a, h => by
      rw [Action.build] at h
      rcases bind_eq_ok_iff.1 h with ⟨declared, hinput, h⟩
      rcases bind_eq_ok_iff.1 h with ⟨events, hdone, h⟩
      cases h
      have hdeclared := forall₂_of_mapM (fun _ _ => Variable.describes_of_build) hinput
      have hevents := forall₂_of_mapM (fun _ _ => EventTemplate.describes_of_build) hdone
      let call : Invocation := ⟨service, isLocal, declared, output, events⟩
      exact @Description.Action.Describes.invoke input done call hdeclared hevents
  | .choose value cases, a, h => by
      rw [Action.build] at h
      rcases bind_eq_ok_iff.1 h with ⟨e, he, h⟩
      rcases bind_eq_ok_iff.1 h with ⟨built, hbuilt, h⟩
      cases h
      have hcases := describes_of_buildCases hbuilt
      exact .choose (Expression.describes_of_ofValue he) hcases.1 hcases.2
  | .raise event, a, h => by
      rw [Action.build] at h
      rcases bind_eq_ok_iff.1 h with ⟨e, he, h⟩
      cases h
      exact .raise (EventTemplate.describes_of_build he)
  | .timeout name delay action, a, h => by
      rw [Action.build] at h
      split at h
      · cases h
      · rcases bind_eq_ok_iff.1 h with ⟨inner, hinner, h⟩
        have hraised := Action.describes_of_build hinner
        split at h
        · rename_i event
          rcases bind_eq_ok_iff.1 h with ⟨e, he, h⟩
          cases h
          cases hraised with
          | raise hevent =>
              let timer : Timeout := ⟨name, e, event⟩
              have hdelay := Expression.describes_of_ofValue he
              exact @Description.Action.Describes.timeout delay _ timer hdelay hevent
        · cases h
  | .resetTimeout timeout, a, h => by
      cases h
      exact .resetTimeout timeout

theorem describes_of_buildCases :
    ∀ {ds : List (Value × Description.Action)} {cases : List (Expression × Action)},
      buildCases ds = .ok cases →
        Forall₂ (fun d c => ValueDescribes d.1 c.1) ds cases ∧
          Forall₂ (fun d c => d.2.Describes c.2) ds cases
  | [], cases, h => by
      cases h
      exact ⟨.nil, .nil⟩
  | (value, action) :: rest, cases, h => by
      rw [buildCases] at h
      rcases bind_eq_ok_iff.1 h with ⟨e, he, h⟩
      rcases bind_eq_ok_iff.1 h with ⟨a, ha, h⟩
      rcases bind_eq_ok_iff.1 h with ⟨others, hothers, h⟩
      cases h
      have hrest := describes_of_buildCases hothers
      exact ⟨.cons (Expression.describes_of_ofValue he) hrest.1,
        .cons (Action.describes_of_build ha) hrest.2⟩

end

/-! ## States -/

theorem Transition.describes_of_build {states : List String} {event : Option String}
    {d : Description.Transition} {t : Transition} (h : Transition.build states event d = .ok t) :
    d.Describes event t := by
  unfold Transition.build at h
  split at h
  · cases h
  · rcases bind_eq_ok_iff.1 h with ⟨guards, hguards, h⟩
    rcases bind_eq_ok_iff.1 h with ⟨actions, hactions, h⟩
    cases h
    refine ⟨rfl, rfl, rfl, ?_, forall₂_of_mapM (fun _ _ => Action.describes_of_build) hactions⟩
    refine forall₂_of_mapM (fun guard e hguard => ?_) hguards
    cases Expression.describes_of_ofValue hguard with
    | parsed hparse => exact hparse
    | constant hne => exact absurd rfl (hne guard)

namespace State

theorem describes_of_buildAfter {state : String} {timers built : List Timeout}
    {ds : List Description.Action} (h : buildAfter state timers ds = .ok built) :
    ∃ later, built = timers ++ later ∧
      Forall₂ (fun d timer => d.Describes (.timeout timer)) ds later := by
  induction ds generalizing timers with
  | nil =>
      cases h
      exact ⟨[], (List.append_nil _).symm, .nil⟩
  | cons d rest ih =>
      rw [buildAfter] at h
      rcases bind_eq_ok_iff.1 h with ⟨action, haction, h⟩
      have hdescribes := Action.describes_of_build haction
      split at h
      · rename_i timer
        split at h
        · cases h
        · rcases ih h with ⟨later, rfl, hlater⟩
          exact ⟨timer :: later, by simp, .cons hdescribes hlater⟩
      · cases h

theorem describes_of_buildOn {strict : Bool} {states : List String} {state : String}
    {before built : List Transition} {ds : List Description.Trigger}
    (h : buildOn strict states state before ds = .ok built) :
    ∃ later, built = before ++ later ∧ Forall₂ Description.Trigger.Describes ds later := by
  induction ds generalizing before with
  | nil =>
      cases h
      exact ⟨[], (List.append_nil _).symm, .nil⟩
  | cons d rest ih =>
      rw [buildOn] at h
      split at h
      · cases h
      · rcases bind_eq_ok_iff.1 h with ⟨t, ht, h⟩
        have hdescribes : d.Describes t := Transition.describes_of_build ht
        split at h
        · cases h
        · rcases ih h with ⟨later, rfl, hlater⟩
          exact ⟨t :: later, by simp, .cons hdescribes hlater⟩

theorem describes_of_build {strict : Bool} {states : List String} {d : Description.State}
    {s : State} (h : State.build strict states d = .ok s) : d.Describes s := by
  have hactions : ∀ {ds : List Description.Action} {as : List Action},
      ds.mapM Action.build = .ok as → Forall₂ Description.Action.Describes ds as :=
    forall₂_of_mapM fun _ _ => Action.describes_of_build
  unfold State.build at h
  rcases bind_eq_ok_iff.1 h with ⟨after, hafter, h⟩
  rcases bind_eq_ok_iff.1 h with ⟨on, hon, h⟩
  rcases bind_eq_ok_iff.1 h with ⟨always, halways, h⟩
  rcases bind_eq_ok_iff.1 h with ⟨entry, hentry, h⟩
  rcases bind_eq_ok_iff.1 h with ⟨exit, hexit, h⟩
  rcases bind_eq_ok_iff.1 h with ⟨during, hduring, h⟩
  rcases bind_eq_ok_iff.1 h with ⟨locals, hlocals, h⟩
  cases h
  rcases describes_of_buildAfter hafter with ⟨timers, rfl, htimers⟩
  rcases describes_of_buildOn hon with ⟨transitions, rfl, htransitions⟩
  exact
    { name := rfl, isInitial := rfl, isTerminal := rfl
      entry := hactions hentry, exit := hactions hexit, during := hactions hduring
      after := htimers
      locals := forall₂_of_mapM (fun _ _ => Variable.describes_of_build) hlocals
      on := htransitions
      always := forall₂_of_mapM (fun _ _ => Transition.describes_of_build) halways }

/-- The transitions on an event are those declared for it. -/
theorem describes_onEvent {d : Description.State} {s : State} (h : d.Describes s)
    (event : String) :
    Forall₂ Description.Trigger.Describes (d.on.filter (·.event == event)) (s.onEvent event) := by
  refine List.rel_filter (fun t built ht => ?_) h.on
  have hevent : (built.event == some event) = (t.event == event) := by
    rw [ht.event]
    rfl
  exact iff_of_eq (congrArg (· = true) hevent.symm)

end State

/-! ## Graphs -/

mutual

theorem Graph.describes_of_build {strict : Bool} :
    ∀ {d : Description.Graph} {g : Graph}, Graph.build strict d = .ok g → d.Describes g
  | ⟨name, isAbstract, locals, states, nested⟩, g, h => by
      rw [Graph.build] at h
      rcases bind_eq_ok_iff.1 h with ⟨_, -, h⟩
      rcases bind_eq_ok_iff.1 h with ⟨built, hstates, h⟩
      rcases bind_eq_ok_iff.1 h with ⟨declared, hlocals, h⟩
      rcases bind_eq_ok_iff.1 h with ⟨graphs, hgraphs, h⟩
      split at h
      · cases h
        exact .intro rfl rfl (forall₂_of_mapM (fun _ _ => Variable.describes_of_build) hlocals)
          (forall₂_of_mapM (fun _ _ => State.describes_of_build) hstates) rfl
          (describes_of_buildGraphs hgraphs)
      · cases h

theorem describes_of_buildGraphs {strict : Bool} :
    ∀ {ds : List Description.Graph} {gs : List Graph}, buildGraphs strict ds = .ok gs →
      Forall₂ Description.Graph.Describes ds gs
  | [], gs, h => by
      cases h
      exact .nil
  | d :: rest, gs, h => by
      rw [buildGraphs] at h
      rcases bind_eq_ok_iff.1 h with ⟨g, hg, h⟩
      rcases bind_eq_ok_iff.1 h with ⟨others, hothers, h⟩
      cases h
      exact .cons (Graph.describes_of_build hg) (describes_of_buildGraphs hothers)

end

theorem Description.Graph.mem_tree (d : Description.Graph) : d ∈ d.tree := by
  cases d
  exact List.mem_cons_self

/-- A built graph finds its own states, and the transitions that were declared for them. -/
theorem Graph.indexedBy_of_build {strict : Bool} {d : Description.Graph} {g : Graph}
    (h : Graph.build strict d = .ok g) : d.IndexedBy g := by
  have hvalid := Graph.succeeds_build.1 ⟨g, h⟩ d d.mem_tree
  rcases Graph.build_inv h with ⟨hbuilt, -, hinitial⟩
  have hstates := forall₂_of_mapM (fun _ _ hs => hs) hbuilt
  have hname : ∀ s built, State.build strict (d.states.map (·.name)) s = .ok built →
      built.name = s.name := fun _ _ hs => (State.describes_of_build hs).name
  have hfind : ∀ s ∈ d.states, ∃ built, g.state? s.name = some built ∧
      State.build strict (d.states.map (·.name)) s = .ok built :=
    exists_find?_of_forall₂ hname hstates hvalid.names
  have hnone : ∀ name ∉ d.states.map (·.name), g.state? name = none := fun _ hout =>
    find?_eq_none_of_forall₂ hname hstates hout
  refine ⟨?state, ?initial, ?onTransitions, ?alwaysTransitions, ?elsewhere⟩
  case state =>
    intro s hs
    rcases hfind s hs with ⟨built, hfound, hbuild⟩
    exact ⟨built, hfound, State.describes_of_build hbuild⟩
  case initial =>
    -- what is found under the name of the initial state was built from the same description
    rcases exists_of_mapM hbuilt g.initial (List.mem_of_find?_eq_some hinitial) with
      ⟨s, hs, hsame⟩
    rcases hfind s hs with ⟨built, hfound, hbuild⟩
    cases hsame.symm.trans hbuild
    have hdescribes := State.describes_of_build hsame
    have hfirst : g.initial.isInitial = true := List.find?_some hinitial
    exact ⟨s, hs, hdescribes.isInitial.symm.trans hfirst, hfound, hdescribes⟩
  case onTransitions =>
    intro s hs event
    rcases hfind s hs with ⟨built, hfound, hbuild⟩
    rw [Graph.onTransitions, hfound]
    exact State.describes_onEvent (State.describes_of_build hbuild) event
  case alwaysTransitions =>
    intro s hs
    rcases hfind s hs with ⟨built, hfound, hbuild⟩
    rw [Graph.alwaysTransitions, hfound]
    exact (State.describes_of_build hbuild).always
  case elsewhere =>
    intro name hout
    refine ⟨hnone name hout, fun event => ?_, ?_⟩
    · rw [Graph.onTransitions, hnone name hout]
    · rw [Graph.alwaysTransitions, hnone name hout]

/-! ## Graphs by name -/

mutual

/-- A graph and those nested in it at any depth, outer graphs before inner ones. -/
def Graph.tree : Graph → List Graph
  | ⟨name, isAbstract, locals, nested, states, initial, description⟩ =>
      ⟨name, isAbstract, locals, nested, states, initial, description⟩ :: Graph.trees nested

def Graph.trees : List Graph → List Graph
  | [] => []
  | g :: rest => g.tree ++ Graph.trees rest

end

mutual

theorem Graph.search_eq_find? (name : String) :
    ∀ g : Graph, g.search name = g.tree.find? (·.name == name)
  | ⟨own, isAbstract, locals, nested, states, initial, description⟩ => by
      rw [Graph.search, Graph.tree, List.find?_cons]
      split
      · rename_i hown
        simp only [beq_iff_eq.2 hown]
      · rename_i hown
        simp only [beq_eq_false_iff_ne.2 hown]
        exact searchAll_eq_find? name nested

theorem searchAll_eq_find? (name : String) :
    ∀ gs : List Graph, searchAll name gs = (Graph.trees gs).find? (·.name == name)
  | [] => rfl
  | g :: rest => by
      have hfirst := Graph.search_eq_find? name g
      have hrest := searchAll_eq_find? name rest
      rw [searchAll, Graph.trees, List.find?_append, ← hfirst, ← hrest]
      cases g.search name with
      | some found => rfl
      | none => rfl

end

mutual

/-- Every graph of the tree was built from the description in its place. -/
theorem Graph.forall₂_tree {strict : Bool} :
    ∀ {d : Description.Graph} {g : Graph}, Graph.build strict d = .ok g →
      Forall₂ (fun d g => Graph.build strict d = .ok g) d.tree g.tree
  | ⟨name, isAbstract, locals, states, nested⟩, ⟨_, _, _, graphs, _, _, _⟩, h => by
      have hnested := Graph.forall₂_trees (Graph.build_inv h).2.1
      rw [Description.Graph.tree, Graph.tree]
      exact .cons h hnested

theorem Graph.forall₂_trees {strict : Bool} :
    ∀ {ds : List Description.Graph} {gs : List Graph}, buildGraphs strict ds = .ok gs →
      Forall₂ (fun d g => Graph.build strict d = .ok g) (Description.trees ds) (Graph.trees gs)
  | [], gs, h => by
      cases h
      exact .nil
  | d :: rest, gs, h => by
      rw [buildGraphs] at h
      rcases bind_eq_ok_iff.1 h with ⟨g, hg, h⟩
      rcases bind_eq_ok_iff.1 h with ⟨others, hothers, h⟩
      cases h
      rw [Description.trees, Graph.trees]
      exact List.rel_append (Graph.forall₂_tree hg) (Graph.forall₂_trees hothers)

end

/-! ## Collaborations -/

namespace Collaboration

theorem indexedBy_of_build {strict : Bool} {d : Description.Collaboration} {c : Collaboration}
    (h : Collaboration.build strict d = .ok c) : d.IndexedBy c := by
  have hnames := (succeeds_build.1 ⟨c, h⟩).names
  unfold Collaboration.build at h
  split at h
  · cases h
  · rcases bind_eq_ok_iff.1 h with ⟨persistent, hpersistent, h⟩
    rcases bind_eq_ok_iff.1 h with ⟨machines, hmachines, h⟩
    split at h
    · cases h
    · cases h
      have hgraphs := Graph.forall₂_trees hmachines
      have hname : ∀ gd g, Graph.build strict gd = .ok g → g.name = gd.name := by
        intro gd g hbuild
        cases Graph.describes_of_build hbuild with
        | intro hname => exact hname
      refine ⟨rfl, rfl, forall₂_of_mapM (fun _ _ => Variable.describes_of_build) hpersistent,
        describes_of_buildGraphs hmachines, ?_, ?_⟩
      · intro gd hgd
        rcases exists_find?_of_forall₂ hname hgraphs hnames gd hgd with ⟨g, hfound, hbuild⟩
        refine ⟨g, ?_, Graph.describes_of_build hbuild, Graph.indexedBy_of_build hbuild⟩
        exact (searchAll_eq_find? gd.name machines).trans hfound
      · intro name hout
        exact (searchAll_eq_find? name machines).trans
          (find?_eq_none_of_forall₂ hname hgraphs hout)

/-- Building accepts the valid descriptions and no others, and what it builds finds under every
name what was declared under it, in the order of declaration. -/
theorem build_accepts_and_indexes (strict : Bool) (d : Description.Collaboration) :
    (Succeeds (Collaboration.build strict d) ↔ d.IsValid strict) ∧
      ∀ c, Collaboration.build strict d = .ok c → d.IndexedBy c :=
  ⟨succeeds_build, fun _ => indexedBy_of_build⟩

/-- A lamp with a dimmer nested in it. -/
def lamp : Description.Collaboration where
  name := "home"
  persistent := [⟨"level", .text "1 + 2"⟩]
  machines := [
    { name := "lamp", isAbstract := false, locals := []
      states := [
        { name := "off", isInitial := true, isTerminal := false, entry := [], exit := []
          during := []
          after := [.timeout "idle" (.text "5 * 100") (.raise ⟨"tick", .internal, []⟩)]
          on := [
            ⟨"press", some "on", ["level > 0"], [.assign ⟨"level", .text "level - 1"⟩], some "off"⟩]
          always := [], locals := [] },
        { name := "on", isInitial := false, isTerminal := true, entry := [], exit := []
          during := [], after := [], on := [], always := [], locals := [] }]
      nested := [
        { name := "dimmer", isAbstract := false, locals := []
          states := [
            { name := "dim", isInitial := true, isTerminal := false, entry := [], exit := []
              during := [], after := [], on := [], always := [], locals := [] }]
          nested := [] }] }]

theorem build_accepts_and_indexes_lamp :
    ∃ c, Collaboration.build true lamp = .ok c ∧ lamp.IndexedBy c := by
  have hok : (Collaboration.build true lamp).toOption.isSome = true := by decide +kernel
  cases hbuild : Collaboration.build true lamp with
  | ok c => exact ⟨c, rfl, (build_accepts_and_indexes true lamp).2 c hbuild⟩
  | error fault =>
      rw [hbuild] at hok
      cases hok

end Collaboration

end Statechart
