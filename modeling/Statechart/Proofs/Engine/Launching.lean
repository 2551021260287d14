import Statechart.Proofs.Engine.Instantiation
import Statechart.Proofs.Graph.Fidelity

/-!
# Which machines can be launched

Where all variables begin with literals, nothing can go wrong when they are evaluated. What can is
that a name is declared twice among the variables of one graph or of one state. Descriptions are
not checked for that, so that it is found when the machines are launched.

- `Expr.isLiteral`         : literals, and lists of them
- `Graph.redeclared?`      : the first name that is declared twice in one place
- `World.outcomeOf_declare`, `World.outcomeOf_addInstance` : what becomes of declared variables
- `World.outcome_of_launch` : what becomes of a launch
- `World.not_launches_of_build` : that a description was accepted is not enough
-/

namespace Statechart

/-! ## Literals -/

mutual

/-- Values that are written down, and lists of such. -/
def Expr.isLiteral : Expr → Bool
  | .literal _ => true
  | .list items => areLiterals items
  | .variable _ _ => false
  | .unary _ _ => false
  | .binary _ _ _ => false

def areLiterals : List Expr → Bool
  | [] => true
  | item :: rest => item.isLiteral && areLiterals rest

end

mutual

/-- A literal has its value wherever it stands. -/
theorem Expr.exists_eval : ∀ {e : Expr}, e.isLiteral = true →
    ∃ value, ∀ find, e.eval find = .ok value
  | .literal value, _ => ⟨value, fun _ => by rw [Expr.eval]⟩
  | .list items, h => by
      rw [Expr.isLiteral] at h
      obtain ⟨values, hvalues⟩ := exists_evalItems h
      exact ⟨.list values, fun find => by rw [Expr.eval, hvalues]; rfl⟩
  | .variable root path, h => by rw [Expr.isLiteral] at h; cases h
  | .unary op operand, h => by rw [Expr.isLiteral] at h; cases h
  | .binary op left right, h => by rw [Expr.isLiteral] at h; cases h

theorem exists_evalItems : ∀ {items : List Expr}, areLiterals items = true →
    ∃ values, ∀ find, evalItems find items = .ok values
  | [], _ => ⟨[], fun _ => by rw [evalItems]⟩
  | item :: rest, h => by
      rw [areLiterals, Bool.and_eq_true] at h
      obtain ⟨value, hvalue⟩ := Expr.exists_eval h.1
      obtain ⟨values, hvalues⟩ := exists_evalItems h.2
      exact ⟨value :: values, fun find => by rw [evalItems, hvalue, hvalues]; rfl⟩

end

namespace Variable

def isLiteral (v : Variable) : Bool := v.value.tree.isLiteral

theorem exists_evaluate {v : Variable} (h : v.isLiteral = true) :
    ∃ value, ∀ find, v.evaluate find = .ok (v.name, value) := by
  obtain ⟨value, hvalue⟩ := Expr.exists_eval h
  refine ⟨value, fun find => ?_⟩
  rw [evaluate, Expression.evaluate, hvalue]
  rfl

end Variable

namespace Graph

/-- All variables of the graph and of its states begin with literals. -/
def hasLiterals (g : Graph) : Bool :=
  g.locals.all (·.isLiteral) && g.states.all fun s => s.locals.all (·.isLiteral)

/-- The first name that is declared twice, among the variables of the graph or of one state. -/
def redeclared? (g : Graph) : Option String :=
  (firstRepeated? [] (g.locals.map (·.name))).or
    (g.states.findSome? fun s => firstRepeated? [] (s.locals.map (·.name)))

end Graph

/-- What follows from a name that is declared twice. -/
def verdict : Option String → Except EngineFault Unit
  | some name => .error (.model (.context (.exists name)))
  | none => .ok ()

/-- First the one, then the other. -/
theorem outcomeOf_bind {α β : Type} {x : Except EngineFault α} {f : α → Except EngineFault β}
    {first : Option String} (later : Option String) (hfirst : outcomeOf x = verdict first)
    (hlater : ∀ a, x = .ok a → outcomeOf (f a) = verdict later) :
    outcomeOf (x >>= f) = verdict (first.or later) := by
  cases x with
  | error fault =>
      cases first with
      | none => cases hfirst
      | some name => exact hfirst
  | ok a =>
      cases first with
      | none => exact hlater a rfl
      | some name => cases hfirst

/-- What cannot fail does not count. -/
theorem outcomeOf_bind_of_ok {α β : Type} (x : Except EngineFault α)
    {f : α → Except EngineFault β} (hf : ∀ a, outcomeOf (f a) = .ok ()) :
    outcomeOf (x >>= f) = outcomeOf x := by
  cases x with
  | error fault => rfl
  | ok a => exact hf a

namespace World

variable {w v : World} {g : Graph} {gs : List Graph} {extent enclosing : Extent}
  {parent : Option Nat}

/-! ## Declarations -/

/-- Literals are declared in a layer of its own up to the first name that is there already. -/
theorem outcomeOf_declare {ls : List Layer} {b : Backing} {declared : List Variable}
    (hliteral : declared.all (·.isLiteral) = true) {t : Table Value} {seen : List String}
    (hseen : ∀ name, t.contains name = seen.contains name) :
    outcomeOf (declare ls.length extent ⟨ls ++ [.memory t], b⟩ declared) =
      verdict (firstRepeated? seen (declared.map (·.name))) := by
  induction declared generalizing t seen with
  | nil => rfl
  | cons v rest ih =>
      rw [List.all_cons, Bool.and_eq_true] at hliteral
      obtain ⟨value, hvalue⟩ := Variable.exists_evaluate hliteral.1
      have hlast : (⟨ls ++ [.memory t], b⟩ : Memory).layers[ls.length]? = some (.memory t) :=
        List.getElem?_concat_length
      rw [declare, hvalue, List.map_cons, firstRepeated?, ← hseen v.name]
      simp only [Memory.create_memory hlast]
      cases hthere : t.contains v.name with
      | true => rfl
      | false =>
          simp only [Bool.false_eq_true, if_false]
          rw [List.set_append_right _ _ (Nat.le_refl _), Nat.sub_self]
          refine ih hliteral.2 fun name => ?_
          rw [Table.contains_insert, hseen, List.contains_cons]
          exact congrArg (· || seen.contains name) (decide_eq_decide.2 eq_comm)

theorem outcomeOf_declare_add (m : Memory) (extent : Extent) {declared : List Variable}
    (hliteral : declared.all (·.isLiteral) = true) :
    outcomeOf (declare m.layers.length extent (m.add (.memory .empty)).1 declared) =
      verdict (firstRepeated? [] (declared.map (·.name))) :=
  outcomeOf_declare hliteral fun _ => rfl

/-- The same for the states, each in a layer of its own. -/
theorem outcomeOf_declareStates {m : Memory} {states : List State}
    (hliteral : (states.all fun s => s.locals.all (·.isLiteral)) = true) :
    outcomeOf (declareStates extent m states) =
      verdict (states.findSome? fun s => firstRepeated? [] (s.locals.map (·.name))) := by
  induction states generalizing m with
  | nil => rfl
  | cons s rest ih =>
      rw [List.all_cons, Bool.and_eq_true] at hliteral
      have hown := outcomeOf_declare_add m (extent.extend m.layers.length) hliteral.1
      rw [declareStates, List.findSome?_cons]
      refine (outcomeOf_bind (rest.findSome? fun s => firstRepeated? [] (s.locals.map (·.name)))
        hown fun m' _ => ?_).trans ?_
      · exact (outcomeOf_bind_of_ok _ fun _ => rfl).trans (ih hliteral.2)
      · cases firstRepeated? [] (s.locals.map (·.name)) <;> rfl

/-- An instance can be built if no name is declared twice. -/
theorem outcomeOf_addInstance (hliteral : g.hasLiterals = true) :
    outcomeOf (w.addInstance g enclosing parent) = verdict g.redeclared? := by
  rw [Graph.hasLiterals, Bool.and_eq_true] at hliteral
  have hown := outcomeOf_declare_add w.memory (enclosing.extend w.memory.layers.length) hliteral.1
  unfold addInstance
  refine outcomeOf_bind _ hown fun m _ => ?_
  exact (outcomeOf_bind_of_ok _ fun _ => rfl).trans (outcomeOf_declareStates hliteral.2)

/-! ## Building -/

mutual

theorem outcomeOf_build {w : World} {enclosing : Extent} {parent : Option Nat} :
    ∀ {g : Graph}, (∀ g' ∈ g.roster, g'.hasLiterals = true) →
      outcomeOf (build w enclosing parent g) = verdict (g.roster.findSome? Graph.redeclared?)
  | ⟨name, isAbstract, locals, nested, states, initial, description⟩, hliteral => by
      rw [Graph.roster] at hliteral ⊢
      rw [build, List.findSome?_cons]
      refine (outcomeOf_bind ((rosterOf nested).findSome? Graph.redeclared?)
        (outcomeOf_addInstance (hliteral _ List.mem_cons_self)) fun added _ => ?_).trans ?_
      · exact (outcomeOf_bind_of_ok _ fun _ => rfl).trans
          (outcomeOf_buildAll fun g' hg' => hliteral g' (List.mem_cons_of_mem _ hg'))
      · generalize Graph.redeclared? _ = first
        cases first <;> rfl

theorem outcomeOf_buildAll {w : World} {enclosing : Extent} {parent : Option Nat} :
    ∀ {gs : List Graph}, (∀ g ∈ rosterOf gs, g.hasLiterals = true) →
      outcomeOf (buildAll w enclosing parent gs) =
        verdict ((rosterOf gs).findSome? Graph.redeclared?)
  | [], _ => by
      rw [buildAll, rosterOf]
      rfl
  | g :: rest, hliteral => by
      rw [rosterOf] at hliteral ⊢
      rw [buildAll]
      -- an abstract graph has no instance
      split at hliteral
      · rename_i habstract
        rw [if_pos habstract, if_pos habstract]
        exact outcomeOf_buildAll hliteral
      · rename_i hconcrete
        rw [if_neg hconcrete, if_neg hconcrete, List.findSome?_append]
        refine outcomeOf_bind _ (outcomeOf_build fun g' hg' =>
          hliteral g' (List.mem_append_left _ hg')) fun built _ => ?_
        exact (outcomeOf_bind_of_ok _ fun _ => rfl).trans
          (outcomeOf_buildAll fun g' hg' => hliteral g' (List.mem_append_right _ hg'))

end

/-! ## Launching -/

/-- Literals can be made persistent variables in memory, whether or not they are there. -/
theorem establish_literal (root : LayerId) (extent : Extent) {m : Memory}
    {declared : List Variable} (hliteral : declared.all (·.isLiteral) = true)
    (hroot : m.kinds[root]? = some true) :
    ∃ m', establish root extent m declared = (m', .ok ()) := by
  induction declared generalizing m with
  | nil => exact ⟨m, rfl⟩
  | cons v rest ih =>
      rw [List.all_cons, Bool.and_eq_true] at hliteral
      obtain ⟨value, hvalue⟩ := Variable.exists_evaluate hliteral.1
      obtain ⟨t, ht⟩ := Memory.exists_table hroot
      rw [establish, hvalue]
      simp only [Memory.create_memory ht]
      cases t.contains v.name with
      | true => exact ih hliteral.2 hroot
      | false =>
          refine ih hliteral.2 ?_
          have hkind : (Layer.memory (t.insert v.name value)).isMemory =
              (Layer.memory t).isMemory := rfl
          exact (congrArg (·[root]?) (Memory.kinds_set ht hkind m.backing)).trans hroot

/-- Where all variables begin with literals and persistent variables are kept in memory, a launch
fails at the first name that is declared twice in one place, and succeeds if there is none. -/
theorem outcome_of_launch {c : Collaboration} (hrunning : w.isShutDown = false)
    (hroot : w.memory.kinds[w.root]? = some true)
    (hpersistent : c.persistent.all (·.isLiteral) = true)
    (hliteral : ∀ g ∈ rosterOf c.machines, g.hasLiterals = true) :
    outcomeOf (w.launch c).2 = verdict ((rosterOf c.machines).findSome? Graph.redeclared?) := by
  obtain ⟨memory, hmemory⟩ := establish_literal w.root w.rootExtent hpersistent hroot
  have hbuild := @outcomeOf_buildAll { w with memory } w.rootExtent none c.machines hliteral
  rw [← hbuild]
  have hopen : ¬ w.isShutDown = true := Bool.eq_false_iff.1 hrunning
  rw [launch, if_neg hopen, hmemory]
  simp only
  split
  · rename_i hbuilt
    exact (congrArg outcomeOf hbuilt).symm
  · rename_i hbuilt
    exact (congrArg outcomeOf hbuilt).symm

/-! ### A name that is declared twice -/

/-- One collaboration can be launched. The other one cannot, as a name is declared twice. -/
theorem launch_outcomes :
    outcomeOf (bare.launch nestedCollaboration).2 = .ok () ∧
      outcomeOf (bare.launch doubledCollaboration).2 =
        .error (.model (.context (.exists "value"))) := by
  have hrunning : bare.isShutDown = false := rfl
  have hroot : bare.memory.kinds[bare.root]? = some true := rfl
  have hpersistent : [persistentCount].all (·.isLiteral) = true := by decide +kernel
  have hcollaboration : (rosterOf nestedCollaboration.machines).all (·.hasLiterals) = true := by
    decide +kernel
  have hdoubled : (rosterOf doubledCollaboration.machines).all (·.hasLiterals) = true := by
    decide +kernel
  have hnone : (rosterOf nestedCollaboration.machines).findSome? Graph.redeclared? = none := by
    decide +kernel
  have hvalue :
      (rosterOf doubledCollaboration.machines).findSome? Graph.redeclared? = some "value" := by
    decide +kernel
  refine ⟨?_, ?_⟩
  · rw [outcome_of_launch hrunning hroot hpersistent (List.all_eq_true.1 hcollaboration), hnone]
    rfl
  · rw [outcome_of_launch hrunning hroot hpersistent (List.all_eq_true.1 hdoubled), hvalue]
    rfl

def doubledDescription : Description.Collaboration :=
  { name := "doubled", persistent := [], machines := [doubledMachine] }

/-- A machine that declares a name twice is accepted, and cannot be launched. -/
theorem not_launches_of_build :
    ¬ ∀ (strict : Bool) (d : Description.Collaboration) (c : Collaboration) (w : World),
      Collaboration.build strict d = .ok c → c.persistent.all (·.isLiteral) = true →
        (∀ g ∈ Graph.trees c.machines, g.hasLiterals = true) → w.isShutDown = false →
          w.memory.layers[w.root]? = some (.memory .empty) → ∃ v ns, w.launch c = (v, .ok ns) := by
  intro hall
  have hthis : (Collaboration.build true doubledDescription).toOption.any (fun c =>
      c.persistent.all (·.isLiteral) && (Graph.trees c.machines).all (·.hasLiterals) &&
        (bare.launch c).2.toOption.isNone) = true := by decide +kernel
  cases hbuild : Collaboration.build true doubledDescription with
  | error fault =>
      rw [hbuild] at hthis
      cases hthis
  | ok c =>
      rw [hbuild] at hthis
      simp only [Except.toOption, Option.any_some, Bool.and_eq_true] at hthis
      obtain ⟨⟨hpersistent, hliteral⟩, hfails⟩ := hthis
      obtain ⟨v, ns, hok⟩ := hall true doubledDescription c bare hbuild hpersistent
        (List.all_eq_true.1 hliteral) rfl rfl
      rw [hok] at hfails
      cases hfails

end World

end Statechart
