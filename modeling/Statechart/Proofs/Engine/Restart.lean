import Statechart.Proofs.Engine.Declarations
import Statechart.Proofs.Engine.Run

/-!
# Persistent variables over restarts

A collaboration that is launched over variables of an earlier run finds them as they were left.
Initial values are evaluated all the same, so that one of them can still make the launch fail.

- `World.establish_of_contains` : what is declared and exists is evaluated and left as it is
- `World.launch_keeps`          : a launch changes no variable that exists
- `World.restart_keeps`         : both together
-/

namespace Statechart

namespace World

/-! ## Declarations that exist -/

/-- All declared variables are in a layer. -/
def AreEstablished (m : Memory) (root : LayerId) (declared : List Variable) : Prop :=
  ∀ v ∈ declared, m.contains root v.name = true

/-- Evaluates initial values in order, up to the first fault. -/
def evaluateAll (find : Lookup) : List Variable → Except EngineFault Unit
  | [] => .ok ()
  | v :: rest =>
      match v.value.evaluate find with
      | .ok _ => evaluateAll find rest
      | .error fault => .error (.model fault)

theorem evaluateAll_eq_ok_iff {find : Lookup} {declared : List Variable} :
    evaluateAll find declared = .ok () ↔
      ∀ v ∈ declared, ∃ value, v.value.evaluate find = .ok value := by
  induction declared with
  | nil => simp [evaluateAll]
  | cons v rest ih => cases hvalue : v.value.evaluate find <;> simp [evaluateAll, hvalue, ih]

/-- Where all declared variables exist, their initial values are evaluated and given up. -/
theorem establish_of_contains {m : Memory} {root : LayerId} {declared : List Variable}
    (h : AreEstablished m root declared) (extent : Extent) :
    establish root extent m declared = (m, evaluateAll (extent.lookup m) declared) := by
  induction declared with
  | nil => rfl
  | cons v rest ih =>
      have hrest := ih fun u hu => h u (List.mem_cons_of_mem _ hu)
      have hexists := Memory.create_of_contains (h v List.mem_cons_self)
      cases hvalue : v.value.evaluate (extent.lookup m) with
      | error fault => simp [establish, evaluateAll, Variable.evaluate, bind, Except.bind, hvalue]
      | ok value =>
          simp [establish, evaluateAll, Variable.evaluate, bind, Except.bind, hvalue, hexists,
            hrest]

/-! ## Launching -/

/-- Building takes no variable away. -/
theorem isStable_memory : IsStable (fun _ => True) fun w w' => w.memory.Keeps w'.memory where
  nested _ _ _ _ := trivial
  refl w := .refl w.memory
  trans := .trans
  addInstance h _ := Memory.isStable_keeps.addInstance Memory.keeps_add h
  setNested w _ _ := .refl w.memory

theorem memory_register (w : World) (n : Nat) : (w.register n).memory = w.memory := by
  unfold register
  split <;> rfl

theorem memory_start (w : World) (ns : List Nat) : (w.start ns).memory = w.memory := by
  have henqueue : ∀ (v : World) (n : Nat), (v.enqueue (.turn n)).memory = v.memory :=
    fun _ _ => rfl
  rw [start, part_foldl henqueue, part_foldl memory_register]

/-- A launch, also one that fails, changes no variable that exists. -/
theorem launch_keeps (w : World) (c : Collaboration) : w.memory.Keeps (w.launch c).1.memory := by
  have hestablish := Memory.isStable_keeps.establish w.root w.rootExtent w.memory c.persistent
  unfold launch
  split
  · exact .refl _
  · split
    · rename_i memory _ hmemory
      rw [hmemory] at hestablish
      exact hestablish
    · rename_i memory hmemory
      rw [hmemory] at hestablish
      simp only
      split
      · exact hestablish
      · rename_i built _ hbuild
        simp only [memory_start]
        have hbuilt : memory.Keeps built.memory :=
          isStable_memory.buildAll hbuild fun _ _ => trivial
        exact hestablish.trans hbuilt

/-- Over variables of an earlier run a launch changes none of them. Where all declared variables
exist, establishing them changes nothing at all, and fails only by an initial value that cannot be
evaluated. -/
theorem restart_keeps (w : World) (c : Collaboration) :
    w.memory.Keeps (w.launch c).1.memory ∧
      (AreEstablished w.memory w.root c.persistent →
        (establish w.root w.rootExtent w.memory c.persistent).1 = w.memory ∧
          ((establish w.root w.rootExtent w.memory c.persistent).2 = .ok () ↔
            ∀ v ∈ c.persistent, ∃ value,
              v.value.evaluate (w.rootExtent.lookup w.memory) = .ok value)) := by
  refine ⟨w.launch_keeps c, fun h => ?_⟩
  rw [establish_of_contains h]
  exact ⟨rfl, evaluateAll_eq_ok_iff⟩

/-! ## A restart that fails -/

/-- An engine over a number and a text that an earlier run has left. -/
def leftover : World :=
  { bare with
    memory := { bare.memory with
      layers := [.memory (.ofList [("v", .ofInt 5), ("w", .text "x")])] } }

/-- The text was declared as a number. -/
def base : Variable := ⟨"w", .ofLiteral (.ofInt 1)⟩

/-- The number was declared as one less than it. -/
def less : Variable :=
  ⟨"v", ⟨"w - 1", .binary (.arith .subtract) (.variable "w" []) (.literal (.ofInt 1))⟩⟩

theorem leftover_keeps :
    AreEstablished leftover.memory 0 [base] ∧
      (establish 0 leftover.rootExtent leftover.memory [base]).2 = .ok () ∧
      (leftover.launch ⟨"system", [base], [], ""⟩).1.memory.get 0 "w" = .ok (.text "x") := by
  have h : AreEstablished leftover.memory 0 [base] := by
    intro v hv
    cases List.mem_singleton.1 hv
    rfl
  obtain ⟨hkeeps, hestablish⟩ := leftover.restart_keeps ⟨"system", [base], [], ""⟩
  refine ⟨h, (hestablish h).2.2 fun v hv => ?_, hkeeps 0 "w" (.text "x") rfl⟩
  cases List.mem_singleton.1 hv
  exact ⟨.ofInt 1, rfl⟩

/-- An initial value that nobody needs any more cannot be evaluated over the text. -/
theorem leftover_fails :
    AreEstablished leftover.memory 0 [base, less] ∧
      (leftover.launch ⟨"system", [base, less], [], ""⟩).2 =
        .error (.model (.evaluation "w - 1" (.notNumbers .subtract .text .number))) := by
  refine ⟨fun v hv => ?_, rfl⟩
  rcases List.mem_cons.1 hv with rfl | hv
  · rfl
  · cases List.mem_singleton.1 hv
    rfl

end World

end Statechart
