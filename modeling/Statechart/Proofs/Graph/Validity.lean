import Mathlib.Data.List.Nodup
import Mathlib.Data.Option.Basic
import Statechart.Proofs.Graph.Coherence

/-!
# Valid descriptions

What a description has to be like, said without building anything, and that building accepts these
descriptions and no others.

- `Description.Action.IsValid`        : names are there, expressions parse, timeouts wrap a raise
- `Description.State.IsValid`         : a state among others
- `Description.Graph.IsValid`         : one graph, without those nested in it
- `Description.Collaboration.graphs`  : the graphs of the whole tree
- `Description.Collaboration.IsValid` : all of them are valid and differ in name
- `Collaboration.succeeds_build`      : building accepts what is valid
-/

namespace Statechart

/-! ## Valid descriptions -/

namespace Description

/-- Text has to be an expression; any other value is a constant. -/
def Parses (v : Value) : Prop :=
  ∀ source, v = .text source → ∃ e, Expression.parse source = .ok e

structure Variable.IsValid (d : Variable) : Prop where
  name : d.name ≠ ""
  value : Parses d.value

structure Event.IsValid (d : Event) : Prop where
  name : d.name ≠ ""
  data : ∀ v ∈ d.data, v.IsValid

inductive Action.IsValid : Action → Prop where
  | assign {declared : Variable} : declared.IsValid → IsValid (.assign declared)
  | create {declared : Variable} (persistent : Bool) :
      declared.IsValid → IsValid (.create declared persistent)
  | invoke {input : List Variable} {done : List Event} (service : String) (isLocal : Bool)
      (output : List String) : (∀ v ∈ input, v.IsValid) → (∀ e ∈ done, e.IsValid) →
      IsValid (.invoke service isLocal input output done)
  | choose {value : Value} {cases : List (Value × Action)} : Parses value →
      (∀ c ∈ cases, Parses c.1) → (∀ c ∈ cases, IsValid c.2) → IsValid (.choose value cases)
  | raise {event : Event} : event.IsValid → IsValid (.raise event)
  /-- A timeout has a name and wraps a raise. -/
  | timeout {name : String} {delay : Value} {event : Event} : name ≠ "" → Parses delay →
      event.IsValid → IsValid (.timeout name delay (.raise event))
  | resetTimeout (timeout : String) : IsValid (.resetTimeout timeout)

/-- The name of a timeout. -/
def Action.timerName? : Action → Option String
  | .timeout name _ _ => some name
  | _ => none

/-- A transition of a graph with the given states. -/
structure Transition.IsValid (states : List String) (d : Transition) : Prop where
  target : ∀ name, d.target = some name → name ∈ states
  otherwise : ∀ name, d.otherwise = some name → name ∈ states
  guards : ∀ guard ∈ d.guards, Parses (.text guard)
  actions : ∀ a ∈ d.actions, a.IsValid

structure State.IsValid (strict : Bool) (states : List String) (d : State) : Prop where
  entry : ∀ a ∈ d.entry, a.IsValid
  exit : ∀ a ∈ d.exit, a.IsValid
  during : ∀ a ∈ d.during, a.IsValid
  after : ∀ a ∈ d.after, a.IsValid ∧ a.timerName?.isSome
  timers : (d.after.filterMap (·.timerName?)).Nodup
  on : ∀ t ∈ d.on, t.event ≠ "" ∧ t.transition.IsValid states
  events : strict = true → (d.on.map (·.event)).Nodup
  always : ∀ t ∈ d.always, t.IsValid states
  locals : ∀ v ∈ d.locals, v.IsValid

/-- The graph alone; those nested in it are not looked at. -/
structure Graph.IsValid (strict : Bool) (d : Graph) : Prop where
  name : d.name ≠ ""
  nonempty : d.states ≠ []
  names : (d.states.map (·.name)).Nodup
  initial : d.states.countP (·.isInitial) = 1
  states : ∀ s ∈ d.states, s.IsValid strict (d.states.map (·.name))
  locals : ∀ v ∈ d.locals, v.IsValid

mutual

/-- A graph and those nested in it at any depth, outer graphs before inner ones. -/
def Graph.tree : Graph → List Graph
  | ⟨name, isAbstract, locals, states, nested⟩ =>
      ⟨name, isAbstract, locals, states, nested⟩ :: trees nested

def trees : List Graph → List Graph
  | [] => []
  | d :: rest => d.tree ++ trees rest

end

def Collaboration.graphs (d : Collaboration) : List Graph := trees d.machines

structure Collaboration.IsValid (strict : Bool) (d : Collaboration) : Prop where
  name : d.name ≠ ""
  persistent : ∀ v ∈ d.persistent, v.IsValid
  graphs : ∀ g ∈ d.graphs, g.IsValid strict
  names : (d.graphs.map (·.name)).Nodup

end Description

/-! ## Actions -/

@[simp]
theorem not_succeeds_refuse (fault : DefinitionFault) :
    ¬ Succeeds (refuse fault : Except ModelFault α) := by
  rintro ⟨a, h⟩
  cases h

open Description (Parses)

theorem Expression.succeeds_ofValue {v : Value} : Succeeds (Expression.ofValue v) ↔ Parses v := by
  cases v with
  | text source =>
      simp only [Expression.ofValue, Parses, Value.text.injEq]
      cases hparse : Expression.parse source with
      | ok e =>
          constructor
          · rintro _ _ rfl
            exact ⟨e, hparse⟩
          · intro _
            exact ⟨e, rfl⟩
      | error fault =>
          constructor
          · rintro ⟨e, h⟩
            cases h
          · intro h
            rcases h source rfl with ⟨e, he⟩
            cases hparse.symm.trans he
  | _ =>
      constructor
      · intro _ source h
        cases h
      · intro _
        exact succeeds_ok _

theorem Variable.succeeds_build {d : Description.Variable} :
    Succeeds (Variable.build d) ↔ d.IsValid := by
  unfold Variable.build
  split
  · rename_i hname
    exact ⟨fun h => absurd h (not_succeeds_refuse _), fun h => absurd hname h.name⟩
  · rename_i hname
    rw [succeeds_bind_ok, Expression.succeeds_ofValue]
    exact ⟨fun h => ⟨hname, h⟩, fun h => h.value⟩

theorem EventTemplate.succeeds_build {d : Description.Event} :
    Succeeds (EventTemplate.build d) ↔ d.IsValid := by
  unfold EventTemplate.build
  split
  · rename_i hname
    exact ⟨fun h => absurd h (not_succeeds_refuse _), fun h => absurd hname h.name⟩
  · rename_i hname
    rw [succeeds_bind_ok, succeeds_mapM]
    constructor
    · intro h
      exact ⟨hname, fun v hv => Variable.succeeds_build.1 (h v hv)⟩
    · intro h v hv
      exact Variable.succeeds_build.2 (h.data v hv)

/-- What is built is a timer, a raise, or anything else just as it was described. -/
theorem Action.kind_of_build {d : Description.Action} {a : Action} (h : Action.build d = .ok a) :
    a.timeout?.map (·.name) = d.timerName? ∧ ((∃ e, a = .raise e) ↔ ∃ e, d = .raise e) := by
  cases d with
  | assign declared =>
      rw [Action.build] at h
      rcases bind_eq_ok_iff.1 h with ⟨v, -, h⟩
      cases h
      exact ⟨rfl, by simp⟩
  | create declared persistent =>
      rw [Action.build] at h
      rcases bind_eq_ok_iff.1 h with ⟨v, -, h⟩
      cases h
      exact ⟨rfl, by simp⟩
  | invoke service isLocal input output done =>
      rw [Action.build] at h
      rcases bind_eq_ok_iff.1 h with ⟨inputs, -, h⟩
      rcases bind_eq_ok_iff.1 h with ⟨events, -, h⟩
      cases h
      exact ⟨rfl, by simp⟩
  | choose value cases =>
      rw [Action.build] at h
      rcases bind_eq_ok_iff.1 h with ⟨e, -, h⟩
      rcases bind_eq_ok_iff.1 h with ⟨built, -, h⟩
      cases h
      exact ⟨rfl, by simp⟩
  | raise event =>
      rw [Action.build] at h
      rcases bind_eq_ok_iff.1 h with ⟨e, -, h⟩
      cases h
      exact ⟨rfl, by simp⟩
  | timeout name delay action =>
      rw [Action.build] at h
      split at h
      · cases h
      · rcases bind_eq_ok_iff.1 h with ⟨inner, -, h⟩
        split at h
        · rcases bind_eq_ok_iff.1 h with ⟨e, -, h⟩
          cases h
          exact ⟨rfl, by simp⟩
        · cases h
  | resetTimeout timeout =>
      cases h
      exact ⟨rfl, by simp⟩

mutual

theorem Action.succeeds_build :
    ∀ {d : Description.Action}, Succeeds (Action.build d) ↔ d.IsValid
  | .assign declared => by
      rw [Action.build, succeeds_bind_ok, Variable.succeeds_build]
      exact ⟨.assign, fun | .assign h => h⟩
  | .create declared persistent => by
      rw [Action.build, succeeds_bind_ok, Variable.succeeds_build]
      exact ⟨.create persistent, fun | .create _ h => h⟩
  | .invoke service isLocal input output done => by
      rw [Action.build, succeeds_bind_of fun _ _ => succeeds_bind_ok, succeeds_mapM, succeeds_mapM]
      simp only [Variable.succeeds_build, EventTemplate.succeeds_build]
      exact ⟨fun h => .invoke service isLocal output h.1 h.2, fun | .invoke _ _ _ h h' => ⟨h, h'⟩⟩
  | .choose value cases => by
      rw [Action.build, succeeds_bind_of fun _ _ => succeeds_bind_ok, Expression.succeeds_ofValue,
        succeeds_buildCases]
      constructor
      · rintro ⟨hvalue, hcases⟩
        exact .choose hvalue (fun c hc => (hcases c hc).1) fun c hc => (hcases c hc).2
      · intro h
        cases h with
        | choose hvalue hparse hvalid => exact ⟨hvalue, fun c hc => ⟨hparse c hc, hvalid c hc⟩⟩
  | .raise event => by
      rw [Action.build, succeeds_bind_ok, EventTemplate.succeeds_build]
      exact ⟨.raise, fun | .raise h => h⟩
  | .timeout name delay action => by
      have hinner : Succeeds (Action.build action) ↔ action.IsValid := Action.succeeds_build
      rw [Action.build]
      split
      · rename_i hname
        refine ⟨fun h => absurd h (not_succeeds_refuse _), ?_⟩
        intro h
        cases h with
        | timeout hnamed _ _ => exact absurd hname hnamed
      · rename_i hname
        rw [succeeds_bind]
        constructor
        · rintro ⟨a, ha, hrest⟩
          -- only a raise is accepted inside a timeout
          split at hrest
          · rename_i built
            rcases (Action.kind_of_build ha).2.1 ⟨built, rfl⟩ with ⟨event, rfl⟩
            have hdelay := Expression.succeeds_ofValue.1 (succeeds_bind_ok.1 hrest)
            cases hinner.1 ⟨_, ha⟩ with
            | raise hevent => exact .timeout hname hdelay hevent
          · exact absurd hrest (not_succeeds_refuse _)
        · intro h
          cases h with
          | timeout _ hdelay hevent =>
              rcases hinner.2 (.raise hevent) with ⟨a, ha⟩
              rcases (Action.kind_of_build ha).2.2 ⟨_, rfl⟩ with ⟨built, rfl⟩
              exact ⟨_, ha, succeeds_bind_ok.2 (Expression.succeeds_ofValue.2 hdelay)⟩
  | .resetTimeout timeout => by
      exact ⟨fun _ => .resetTimeout timeout, fun _ => succeeds_ok _⟩

theorem succeeds_buildCases :
    ∀ {cases : List (Value × Description.Action)},
      Succeeds (buildCases cases) ↔ ∀ c ∈ cases, Parses c.1 ∧ c.2.IsValid
  | [] => by
      exact ⟨fun _ c hc => absurd hc List.not_mem_nil, fun _ => succeeds_ok _⟩
  | (value, action) :: rest => by
      have haction : Succeeds (Action.build action) ↔ action.IsValid := Action.succeeds_build
      have hrest := @succeeds_buildCases rest
      rw [buildCases,
        succeeds_bind_of fun _ _ => succeeds_bind_of fun _ _ => succeeds_bind_ok,
        Expression.succeeds_ofValue, haction, hrest, List.forall_mem_cons, and_assoc]

end

/-! ## Transitions and states -/

theorem Transition.succeeds_build {states : List String} {event : Option String}
    {d : Description.Transition} :
    Succeeds (Transition.build states event d) ↔ d.IsValid states := by
  have htargets : (∀ name ∈ d.target.toList ++ d.otherwise.toList, states.contains name) ↔
      (∀ name, d.target = some name → name ∈ states) ∧
        ∀ name, d.otherwise = some name → name ∈ states := by
    simp only [List.mem_append, Option.mem_toList, List.contains_iff_mem, or_imp, forall_and]
  unfold Transition.build
  split
  · rename_i name hname
    refine ⟨fun h => absurd h (not_succeeds_refuse _), ?_⟩
    intro h
    have hin := htargets.2 ⟨h.target, h.otherwise⟩ name (List.mem_of_find?_eq_some hname)
    have hout := List.find?_some hname
    simp only [hin, Bool.not_true, Bool.false_eq_true] at hout
  · rename_i hnone
    have hin : ∀ name ∈ d.target.toList ++ d.otherwise.toList, states.contains name := by
      intro name hname
      simpa using List.find?_eq_none.1 hnone name hname
    rcases htargets.1 hin with ⟨htarget, hotherwise⟩
    rw [succeeds_bind_of fun _ _ => succeeds_bind_ok, succeeds_mapM, succeeds_mapM]
    simp only [Expression.succeeds_ofValue, Action.succeeds_build]
    exact ⟨fun h => ⟨htarget, hotherwise, h.1, h.2⟩, fun h => ⟨h.guards, h.actions⟩⟩

namespace State

/-- Timers are accepted as long as they are new among those before them. -/
theorem succeeds_buildAfter {state : String} {timers : List Timeout}
    {ds : List Description.Action} (hnodup : (timers.map (·.name)).Nodup) :
    Succeeds (buildAfter state timers ds) ↔
      (∀ d ∈ ds, d.IsValid ∧ d.timerName?.isSome) ∧
        (timers.map (·.name) ++ ds.filterMap (·.timerName?)).Nodup := by
  -- the names so far are on the left of those that are still to come
  induction ds generalizing timers with
  | nil => simp [buildAfter, hnodup]
  | cons d rest ih =>
      rw [buildAfter, succeeds_bind]
      constructor
      · rintro ⟨a, ha, hrest⟩
        have hkind := (Action.kind_of_build ha).1
        have hvalid : d.IsValid := Action.succeeds_build.1 ⟨a, ha⟩
        split at hrest
        · rename_i timer
          have hname : d.timerName? = some timer.name := hkind.symm
          split at hrest
          · exact absurd hrest (not_succeeds_refuse _)
          · rename_i hany
            have hnew : ((timers ++ [timer]).map (·.name)).Nodup := by
              rw [List.map_append, List.nodup_append]
              refine ⟨hnodup, by simp, ?_⟩
              intro name hin other hother heq
              rcases List.mem_map.1 hin with ⟨t, ht, rfl⟩
              have hsame : t.name = timer.name := by simpa [heq] using hother
              exact hany (List.any_eq_true.2 ⟨t, ht, beq_iff_eq.2 hsame⟩)
            rcases (ih hnew).1 hrest with ⟨hall, hnames⟩
            refine ⟨List.forall_mem_cons.2 ⟨⟨hvalid, by simp [hname]⟩, hall⟩, ?_⟩
            simpa [List.filterMap_cons, hname] using hnames
        · exact absurd hrest (not_succeeds_refuse _)
      · rintro ⟨hall, hnames⟩
        rcases List.forall_mem_cons.1 hall with ⟨⟨hvalid, hsome⟩, hlater⟩
        rcases Action.succeeds_build.2 hvalid with ⟨a, ha⟩
        rcases Option.isSome_iff_exists.1 hsome with ⟨name, hname⟩
        have hkind := (Action.kind_of_build ha).1
        rw [hname] at hkind
        rcases Option.map_eq_some_iff.1 hkind with ⟨timer, htimer, rfl⟩
        refine ⟨a, ha, ?_⟩
        cases a with
        | timeout own =>
            cases htimer
            have hapart : (timers.map (·.name) ++
                timer.name :: rest.filterMap (·.timerName?)).Nodup := by
              simpa [List.filterMap_cons, hname] using hnames
            have hnew : ¬ (timers.any fun t => t.name == timer.name) = true := by
              intro hany
              rcases List.any_eq_true.1 hany with ⟨t, ht, heq⟩
              have hin : timer.name ∈ timers.map (·.name) :=
                List.mem_map.2 ⟨t, ht, beq_iff_eq.1 heq⟩
              exact (List.nodup_append.1 hapart).2.2 _ hin _ List.mem_cons_self rfl
            have hnext : ((timers ++ [timer]).map (·.name) ++
                rest.filterMap (·.timerName?)).Nodup := by
              simpa using hapart
            simp only [if_neg hnew]
            exact (ih (List.nodup_append.1 hnext).1).2 ⟨hlater, hnext⟩
        | _ => cases htimer

/-- Transitions on events are accepted if, in strict mode, their events are new among those before
them. -/
theorem succeeds_buildOn {strict : Bool} {states : List String} {state : String}
    {before : List Transition} {ds : List Description.Trigger}
    (hnodup : strict = true → (before.map (·.event)).Nodup) :
    Succeeds (buildOn strict states state before ds) ↔
      (∀ d ∈ ds, d.event ≠ "" ∧ d.transition.IsValid states) ∧
        (strict = true → (before.map (·.event) ++ ds.map fun d => some d.event).Nodup) := by
  induction ds generalizing before with
  | nil => simpa [buildOn] using hnodup
  | cons d rest ih =>
      rw [buildOn]
      split
      · rename_i hempty
        refine ⟨fun h => absurd h (not_succeeds_refuse _), ?_⟩
        rintro ⟨hall, -⟩
        exact absurd hempty (hall d List.mem_cons_self).1
      · rename_i hnamed
        rw [succeeds_bind]
        have hrepeated : (strict && before.any fun t => t.event == some d.event) = true ↔
            strict = true ∧ some d.event ∈ before.map (·.event) := by
          rw [Bool.and_eq_true, List.any_eq_true]
          simp only [beq_iff_eq, List.mem_map]
        constructor
        · rintro ⟨t, ht, hrest⟩
          have hvalid := Transition.succeeds_build.1 ⟨t, ht⟩
          have hevent := Transition.event_of_build ht
          split at hrest
          · exact absurd hrest (not_succeeds_refuse _)
          · rename_i hnew
            rw [hrepeated] at hnew
            have hnext : strict = true → ((before ++ [t]).map (·.event)).Nodup := by
              intro hstrict
              rw [List.map_append, List.nodup_append]
              refine ⟨hnodup hstrict, by simp, ?_⟩
              intro event hin other hother heq
              have hsame : event = some d.event := by simpa [heq, hevent] using hother
              exact hnew ⟨hstrict, hsame ▸ hin⟩
            rcases (ih hnext).1 hrest with ⟨hall, hevents⟩
            refine ⟨List.forall_mem_cons.2 ⟨⟨hnamed, hvalid⟩, hall⟩, ?_⟩
            simpa [hevent] using hevents
        · rintro ⟨hall, hevents⟩
          rcases List.forall_mem_cons.1 hall with ⟨⟨-, hvalid⟩, hlater⟩
          rcases Transition.succeeds_build.2 hvalid with ⟨t, ht⟩
          have hevent := Transition.event_of_build ht
          refine ⟨t, ht, ?_⟩
          have hnew : ¬ (strict && before.any fun t => t.event == some d.event) = true := by
            rw [hrepeated]
            rintro ⟨hstrict, hin⟩
            exact (List.nodup_append.1 (hevents hstrict)).2.2 _ hin _ List.mem_cons_self rfl
          have hnext : strict = true →
              ((before ++ [t]).map (·.event) ++ rest.map fun d => some d.event).Nodup := by
            intro hstrict
            simpa [hevent] using hevents hstrict
          rw [if_neg hnew]
          exact (ih fun hstrict => (List.nodup_append.1 (hnext hstrict)).1).2 ⟨hlater, hnext⟩

theorem succeeds_build {strict : Bool} {states : List String} {d : Description.State} :
    Succeeds (State.build strict states d) ↔ d.IsValid strict states := by
  have hafter := @succeeds_buildAfter d.name [] d.after
    List.nodup_nil
  have hon := @succeeds_buildOn strict states d.name [] d.on fun _ => List.nodup_nil
  have hevents : (d.on.map fun t => some t.event).Nodup ↔ (d.on.map (·.event)).Nodup := by
    have hmap : (d.on.map fun t => some t.event) = (d.on.map (·.event)).map some := by simp
    rw [hmap]
    exact List.nodup_map_iff (Option.some_injective _)
  simp only [List.map_nil, List.nil_append] at hafter hon
  unfold State.build
  rw [succeeds_bind_of fun _ _ => succeeds_bind_of fun _ _ => succeeds_bind_of fun _ _ =>
      succeeds_bind_of fun _ _ => succeeds_bind_of fun _ _ => succeeds_bind_of fun _ _ =>
        succeeds_bind_ok,
    hafter, hon, hevents, succeeds_mapM, succeeds_mapM, succeeds_mapM, succeeds_mapM,
    succeeds_mapM]
  simp only [Transition.succeeds_build, Action.succeeds_build, Variable.succeeds_build]
  constructor
  · rintro ⟨⟨hafter, htimers⟩, ⟨hon, hevents⟩, halways, hentry, hexit, hduring, hlocals⟩
    exact ⟨hentry, hexit, hduring, hafter, htimers, hon, hevents, halways, hlocals⟩
  · intro h
    exact ⟨⟨h.after, h.timers⟩, ⟨h.on, h.events⟩, h.always, h.entry, h.exit, h.during, h.locals⟩

end State

/-! ## Graphs -/

theorem firstRepeated?_eq_none_iff {α : Type} [BEq α] [LawfulBEq α] {seen items : List α} :
    firstRepeated? seen items = none ↔ (∀ a ∈ items, a ∉ seen) ∧ items.Nodup := by
  induction items generalizing seen with
  | nil => simp [firstRepeated?]
  | cons a rest ih =>
      rw [firstRepeated?]
      split
      · rename_i hseen
        have hin : a ∈ seen := List.contains_iff_mem.1 hseen
        constructor
        · intro h
          cases h
        · rintro ⟨hnew, -⟩
          exact absurd hin (hnew a List.mem_cons_self)
      · rename_i hseen
        have hout : a ∉ seen := fun h => hseen (List.contains_iff_mem.2 h)
        rw [ih, List.forall_mem_cons, List.nodup_cons]
        simp only [List.mem_cons, not_or]
        constructor
        · rintro ⟨hall, hnodup⟩
          have hnotMem : a ∉ rest := fun h => (hall a h).1 rfl
          exact ⟨⟨hout, fun b hb => (hall b hb).2⟩, hnotMem, hnodup⟩
        · rintro ⟨⟨-, hall⟩, hnotMem, hnodup⟩
          exact ⟨fun b hb => ⟨fun heq => hnotMem (heq ▸ hb), hall b hb⟩, hnodup⟩

namespace Graph

theorem succeeds_checkStates {graph : String} {states : List Description.State} :
    Succeeds (checkStates graph states) ↔
      graph ≠ "" ∧ states ≠ [] ∧ (states.map (·.name)).Nodup ∧
        states.countP (·.isInitial) = 1 := by
  have hrepeated : firstRepeated? [] (states.map (·.name)) = none ↔
      (∀ name ∈ states.map (·.name), name ∉ ([] : List String)) ∧ (states.map (·.name)).Nodup :=
    firstRepeated?_eq_none_iff
  have hcount : states.countP (·.isInitial) = (states.filter (·.isInitial)).length :=
    List.countP_eq_length_filter
  unfold checkStates
  split
  · rename_i hname
    exact ⟨fun h => absurd h (not_succeeds_refuse _), fun h => absurd hname h.1⟩
  · rename_i hname
    split
    · rename_i hempty
      refine ⟨fun h => absurd h (not_succeeds_refuse _), ?_⟩
      rintro ⟨-, hstates, -⟩
      exact absurd (List.isEmpty_iff.1 hempty) hstates
    · rename_i hempty
      have hstates : states ≠ [] := fun h => hempty (List.isEmpty_iff.2 h)
      cases hfirst : firstRepeated? [] (states.map (·.name)) with
      | some state =>
          refine ⟨fun h => absurd h (not_succeeds_refuse _), ?_⟩
          rintro ⟨-, -, hnames, -⟩
          have hnone := hrepeated.2 ⟨fun _ _ => List.not_mem_nil, hnames⟩
          cases hfirst.symm.trans hnone
      | none =>
          have hnames := (hrepeated.1 hfirst).2
          -- one initial state is right, none and several are told apart
          simp only
          split
          · rename_i hone
            exact ⟨fun _ => ⟨hname, hstates, hnames, hcount.trans hone⟩, fun _ => succeeds_ok ()⟩
          · rename_i hzero
            refine ⟨fun h => absurd h (not_succeeds_refuse _), ?_⟩
            rintro ⟨-, -, -, hone⟩
            omega
          · rename_i count hone _
            refine ⟨fun h => absurd h (not_succeeds_refuse _), ?_⟩
            rintro ⟨-, -, -, hinitial⟩
            exact absurd (hcount.symm.trans hinitial) hone

/-- Among the states that were built there is an initial one if there was one described. -/
theorem isSome_find?_initial {strict : Bool} {names : List String}
    {ds : List Description.State} {states : List State}
    (h : ds.mapM (State.build strict names) = .ok states)
    (hinitial : ds.countP (·.isInitial) = 1) : (states.find? (·.isInitial)).isSome = true := by
  have hkept : states.map (·.isInitial) = ds.map (·.isInitial) :=
    map_of_mapM (fun _ _ hs => (State.of_build hs).2.2.1) h
  have hpos : 0 < ds.countP (·.isInitial) := by omega
  rcases List.countP_pos_iff.1 hpos with ⟨d, hd, hfirst⟩
  have hin : true ∈ states.map (·.isInitial) := by
    rw [hkept]
    exact List.mem_map.2 ⟨d, hd, hfirst⟩
  rcases List.mem_map.1 hin with ⟨s, hs, heq⟩
  exact List.find?_isSome.2 ⟨s, hs, heq⟩

end Graph

mutual

theorem Graph.succeeds_build {strict : Bool} :
    ∀ {d : Description.Graph},
      Succeeds (Graph.build strict d) ↔ ∀ g ∈ d.tree, g.IsValid strict
  | ⟨name, isAbstract, locals, states, nested⟩ => by
      have hnested := @succeeds_buildGraphs strict nested
      rw [Description.Graph.tree, List.forall_mem_cons, ← hnested, Graph.build,
        succeeds_bind_of (p := (∀ s ∈ states, s.IsValid strict (states.map (·.name))) ∧
          (∀ v ∈ locals, v.IsValid) ∧ Succeeds (buildGraphs strict nested)),
        Graph.succeeds_checkStates]
      · constructor
        · rintro ⟨⟨hname, hstates, hnames, hinitial⟩, hall, hlocals, hinner⟩
          exact ⟨⟨hname, hstates, hnames, hinitial, hall, hlocals⟩, hinner⟩
        · rintro ⟨h, hinner⟩
          exact ⟨⟨h.name, h.nonempty, h.names, h.initial⟩, h.states, h.locals, hinner⟩
      · intro _ hcheck
        rcases Graph.succeeds_checkStates.1 ⟨_, hcheck⟩ with ⟨-, -, -, hinitial⟩
        refine (succeeds_bind_of fun built hbuilt => succeeds_bind_of fun _ _ =>
          succeeds_bind_of (p := True) fun _ _ => ?_).trans ?_
        · rcases Option.isSome_iff_exists.1 (Graph.isSome_find?_initial hbuilt hinitial) with
            ⟨initial, hfind⟩
          rw [hfind]
          exact ⟨fun _ => trivial, fun _ => succeeds_ok _⟩
        rw [succeeds_mapM, succeeds_mapM, and_true]
        simp only [State.succeeds_build, Variable.succeeds_build]

theorem succeeds_buildGraphs {strict : Bool} :
    ∀ {ds : List Description.Graph},
      Succeeds (buildGraphs strict ds) ↔ ∀ g ∈ Description.trees ds, g.IsValid strict
  | [] => by
      exact ⟨fun _ g hg => absurd hg List.not_mem_nil, fun _ => succeeds_ok _⟩
  | d :: rest => by
      have hfirst := @Graph.succeeds_build strict d
      have hrest := @succeeds_buildGraphs strict rest
      rw [buildGraphs, succeeds_bind_of fun _ _ => succeeds_bind_ok, hfirst, hrest,
        Description.trees, List.forall_mem_append]

end

/-! ## Collaborations -/

mutual

/-- Names are compared from last to first, which finds the same repetitions. -/
theorem Graph.perm_backwardNames {strict : Bool} :
    ∀ {d : Description.Graph} {g : Graph}, Graph.build strict d = .ok g →
      g.backwardNames.Perm (d.tree.map (·.name))
  | ⟨name, isAbstract, locals, states, nested⟩, g, h => by
      rw [Graph.build] at h
      rcases bind_eq_ok_iff.1 h with ⟨_, -, h⟩
      rcases bind_eq_ok_iff.1 h with ⟨built, -, h⟩
      rcases bind_eq_ok_iff.1 h with ⟨declared, -, h⟩
      rcases bind_eq_ok_iff.1 h with ⟨graphs, hgraphs, h⟩
      have hnested := perm_allBackwardNames hgraphs
      split at h
      · cases h
        rw [Graph.backwardNames, Description.Graph.tree, List.map_cons]
        exact hnested.cons name
      · cases h

theorem perm_allBackwardNames {strict : Bool} :
    ∀ {ds : List Description.Graph} {gs : List Graph}, buildGraphs strict ds = .ok gs →
      (allBackwardNames gs).Perm ((Description.trees ds).map (·.name))
  | [], gs, h => by
      cases h
      exact .nil
  | d :: rest, gs, h => by
      rw [buildGraphs] at h
      rcases bind_eq_ok_iff.1 h with ⟨g, hg, h⟩
      rcases bind_eq_ok_iff.1 h with ⟨others, hothers, h⟩
      cases h
      have hfirst := Graph.perm_backwardNames hg
      have hrest := perm_allBackwardNames hothers
      rw [allBackwardNames, Description.trees, List.map_append]
      exact (hrest.append hfirst).trans List.perm_append_comm

end

/-- A collaboration is built from what is valid, and from nothing else. -/
theorem Collaboration.succeeds_build {strict : Bool} {d : Description.Collaboration} :
    Succeeds (Collaboration.build strict d) ↔ d.IsValid strict := by
  unfold Collaboration.build
  split
  · rename_i hname
    exact ⟨fun h => absurd h (not_succeeds_refuse _), fun h => absurd hname h.name⟩
  · rename_i hname
    refine (succeeds_bind_of fun _ _ => succeeds_bind_of (p := (d.graphs.map (·.name)).Nodup)
      fun machines hmachines => ?_).trans ?_
    · have hperm := (perm_allBackwardNames hmachines).nodup_iff
      have hnone : firstRepeated? [] (allBackwardNames machines) = none ↔
          (∀ name ∈ allBackwardNames machines, name ∉ ([] : List String)) ∧
            (allBackwardNames machines).Nodup := firstRepeated?_eq_none_iff
      cases hfirst : firstRepeated? [] (allBackwardNames machines) with
      | some name =>
          refine ⟨fun h => absurd h (not_succeeds_refuse _), ?_⟩
          intro hnodup
          have heq := hnone.2 ⟨fun _ _ => List.not_mem_nil, hperm.2 hnodup⟩
          cases hfirst.symm.trans heq
      | none => exact ⟨fun _ => hperm.1 (hnone.1 hfirst).2, fun _ => succeeds_ok _⟩
    rw [succeeds_mapM, succeeds_buildGraphs]
    simp only [Variable.succeeds_build]
    constructor
    · rintro ⟨hpersistent, hgraphs, hnames⟩
      exact ⟨hname, hpersistent, hgraphs, hnames⟩
    · intro h
      exact ⟨h.persistent, h.graphs, h.names⟩

end Statechart
