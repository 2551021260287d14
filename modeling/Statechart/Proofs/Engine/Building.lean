import Statechart.Proofs.Engine.Frame
import Statechart.Proofs.Graph.Coherence

/-!
# What building leaves alone

Building an instance, launching a collaboration and spawning an instance add instances that wait
for their first turn, and change nothing else on the other side of the world.

- `World.Grows`          : instances were added, all of them new
- `World.IsStable`       : a relation of worlds that holds along built instances
- `IsStable.build`       : an instance and those nested in it
- `World.launch_grows`, `World.spawn_grows`
-/

namespace Statechart

/-- An instance that waits for its first turn. -/
structure Control.IsNew (c : Control) : Prop where
  active : c.active = none
  phase : c.phase = .created

namespace World

variable {P : Graph → Prop}

/-- Instances of graphs with a property were added, all of them new. -/
def Grows (P : Graph → Prop) (w w' : World) : Prop :=
  ∃ added, w'.core = { w.core with controls := w.controls ++ added } ∧
    ∀ c ∈ added, c.IsNew ∧ P c.graph

namespace Grows

theorem of_core {w w' : World} (h : w'.core = w.core) : Grows P w w' :=
  ⟨[], by simpa [core] using h, by simp⟩

theorem refl (w : World) : Grows P w w := of_core rfl

theorem trans {w₁ w₂ w₃ : World} (h : Grows P w₁ w₂) (h' : Grows P w₂ w₃) : Grows P w₁ w₃ := by
  obtain ⟨added, hcore, hadded⟩ := h
  obtain ⟨added', hcore', hadded'⟩ := h'
  refine ⟨added ++ added', ?_, fun c hc => ?_⟩
  · have hcontrols : w₂.controls = w₁.controls ++ added := congrArg Core.controls hcore
    rw [hcore', hcore, hcontrols, List.append_assoc]
  · rcases List.mem_append.1 hc with hin | hin
    · exact hadded c hin
    · exact hadded' c hin

theorem of_core_right {w₁ w₂ w₃ : World} (h : Grows P w₁ w₂) (hcore : w₃.core = w₂.core) :
    Grows P w₁ w₃ :=
  h.trans (of_core hcore)

end Grows

theorem addInstance_grows {w w' : World} {g : Graph} {enclosing extent : Extent}
    {parent : Option Nat} {n : Nat}
    (h : w.addInstance g enclosing parent = .ok (w', n, extent)) (hg : P g) : Grows P w w' := by
  unfold addInstance at h
  obtain ⟨memory, -, h⟩ := bind_eq_ok_iff.1 h
  obtain ⟨⟨memory', layers⟩, -, h⟩ := bind_eq_ok_iff.1 h
  cases h
  refine ⟨[⟨g, none, .created⟩], ?_, ?_⟩
  · simp [core, controls, Instance.control]
  · simpa using ⟨⟨rfl, rfl⟩, hg⟩

theorem setNested_core (w : World) (n : Nat) (nested : List Nat) :
    (w.setNested n nested).core = w.core :=
  core_mapInstance w n fun _ => rfl

/-! ## Building -/

/-- The relation holds between a world and what building instances makes of it, for graphs with a
property that passes to the nested ones. -/
structure IsStable (P : Graph → Prop) (R : World → World → Prop) : Prop where
  nested : ∀ g, P g → ∀ inner ∈ g.nested, P inner
  refl : ∀ w, R w w
  trans : ∀ {w₁ w₂ w₃}, R w₁ w₂ → R w₂ w₃ → R w₁ w₃
  addInstance : ∀ {w w' g enclosing extent parent n},
    w.addInstance g enclosing parent = .ok (w', n, extent) → P g → R w w'
  setNested : ∀ w n nested, R w (w.setNested n nested)

namespace IsStable

variable {R : World → World → Prop}

mutual

/-- An instance of a graph, and those nested in it. -/
theorem build (h : IsStable P R) {w w' : World} {enclosing : Extent} {parent : Option Nat}
    {n : Nat} :
    ∀ {g : Graph}, World.build w enclosing parent g = .ok (w', n) → P g → R w w'
  | ⟨name, isAbstract, locals, nested, states, initial, description⟩, hbuild, hg => by
      rw [World.build] at hbuild
      obtain ⟨⟨v, m, extent⟩, hadd, hbuild⟩ := bind_eq_ok_iff.1 hbuild
      obtain ⟨⟨u, children⟩, hall, hbuild⟩ := bind_eq_ok_iff.1 hbuild
      cases hbuild
      have hown : R w v := h.addInstance hadd hg
      have hnested : R v u := h.buildAll hall (h.nested _ hg)
      exact h.trans (h.trans hown hnested) (h.setNested u _ children)

theorem buildAll (h : IsStable P R) {w w' : World} {enclosing : Extent} {parent : Option Nat}
    {ns : List Nat} :
    ∀ {gs : List Graph}, World.buildAll w enclosing parent gs = .ok (w', ns) →
      (∀ g ∈ gs, P g) → R w w'
  | [], hbuild, _ => by
      cases hbuild
      exact h.refl _
  | g :: rest, hbuild, hgs => by
      have hrest : ∀ g ∈ rest, P g := fun g hg => hgs g (List.mem_cons_of_mem _ hg)
      rw [World.buildAll] at hbuild
      -- an abstract graph has no instance
      split at hbuild
      · exact h.buildAll hbuild hrest
      · obtain ⟨⟨v, m⟩, hfirst, hbuild⟩ := bind_eq_ok_iff.1 hbuild
        obtain ⟨⟨u, ms⟩, hlater, hbuild⟩ := bind_eq_ok_iff.1 hbuild
        cases hbuild
        exact h.trans (h.build hfirst (hgs g List.mem_cons_self)) (h.buildAll hlater hrest)

end

end IsStable

/-- Building adds new instances only. -/
theorem isStable_grows (hP : ∀ g, P g → ∀ inner ∈ g.nested, P inner) :
    IsStable P (Grows P) where
  nested := hP
  refl := .refl
  trans := .trans
  addInstance := addInstance_grows
  setNested w n nested := .of_core (setNested_core w n nested)

/-! ## Launching and spawning -/

theorem launch_grows (hP : ∀ g, P g → ∀ inner ∈ g.nested, P inner) (w : World)
    {c : Collaboration} (hc : ∀ g ∈ c.machines, P g) : Grows P w (w.launch c).1 := by
  unfold launch
  split
  · exact .refl w
  · split
    · exact .of_core rfl
    · rename_i memory _
      simp only
      split
      · exact .of_core rfl
      · rename_i built _ hbuild
        refine ((Grows.of_core rfl).trans ((isStable_grows hP).buildAll hbuild hc)).of_core_right ?_
        rw [core_start]
        rfl

/-- Makes the instance of a graph over variables of any kind, and starts it. -/
def place (w : World) (g : Graph) (enclosing : Extent) (parent : Option Nat) : World :=
  match build w enclosing parent g with
  | .error _ => w
  | .ok (built, n) => (built.adopt parent n).start (built.builtSince w.instances.length)

/-- A built instance that is made known to its parent and started. -/
theorem start_grows (hP : ∀ g, P g → ∀ inner ∈ g.nested, P inner) {w built : World} {g : Graph}
    {enclosing : Extent} {parent : Option Nat} {n : Nat}
    (hbuild : build w enclosing parent g = .ok (built, n)) (hg : P g) (ns : List Nat) :
    Grows P w ((built.adopt parent n).start ns) := by
  refine ((isStable_grows hP).build hbuild hg).of_core_right ?_
  rw [core_start, core_adopt]

theorem place_grows (hP : ∀ g, P g → ∀ inner ∈ g.nested, P inner) (w : World) {g : Graph}
    (enclosing : Extent) (parent : Option Nat) (hg : P g) :
    Grows P w (w.place g enclosing parent) := by
  unfold place
  split
  · exact .refl w
  · rename_i hbuild
    exact start_grows hP hbuild hg _

theorem spawn_grows (hP : ∀ g, P g → ∀ inner ∈ g.nested, P inner) (w : World) {g : Graph}
    (parent : Option Nat) (hg : P g) : Grows P w (w.spawn g parent).1 := by
  unfold spawn
  split
  · exact .refl w
  · simp only
    split
    · exact .refl w
    · rename_i hbuild
      exact start_grows hP hbuild hg _

end World

end Statechart
