import Statechart.Context.Extent
import Statechart.Proofs.Context.Access

/-!
# What writes leave alone

Creating a variable and adding a layer take nothing away: what could be read can still be read, and
has the value that it had. No write changes where a layer keeps its variables.

- `Backing.Keeps`, `Memory.Keeps`  : every value that was there is there
- `Memory.keeps_create`, `Memory.keeps_add`
- `Memory.create_of_contains`      : creating a variable that exists changes nothing at all
- `Memory.kinds`                   : which layers keep their variables in memory
- `Extent.kinds_assign`, `Extent.kinds_create`, `Extent.kinds_put`
- `Memory.getElem?_create`, `Memory.getElem?_assign`, `Extent.getElem?_put` : the other layers
-/

namespace Statechart

/-! ## The store -/

/-- Every value of the store is still there. -/
def Backing.Keeps (b b' : Backing) : Prop :=
  ∀ key value, b.store.get? key = some value → b'.store.get? key = some value

theorem Backing.keeps_commit_create (b : Backing) (key name : String) (value : Value) :
    b.Keeps (Layer.commit b (.create key value) name).1 := by
  intro own old hold
  rw [Layer.commit_eq]
  split
  · rename_i hfree
    split
    · -- the new key is none of the old ones
      have hne : key ≠ own := by
        rintro rfl
        have hin : b.store.contains key = true := congrArg Option.isSome hold
        cases hin.symm.trans hfree
      have hsame := Change.get?_result (.create key value) b.store.table own
      exact (hsame.trans (if_neg hne)).trans hold
    · exact hold
  · exact hold

/-! ## Layers -/

namespace Layer

theorem get_of_keeps {b b' : Backing} (h : b.Keeps b') {l : Layer} {name : String} {value : Value}
    (hget : l.get b name = .ok value) : l.get b' name = .ok value := by
  cases l with
  | memory table => exact hget
  | durable space =>
      simp only [get] at hget ⊢
      cases hold : b.store.get? (key space name) with
      | none =>
          rw [hold] at hget
          cases hget
      | some old =>
          rw [hold] at hget
          rw [h _ _ hold]
          exact hget
  | unreachable reason => cases hget

theorem keeps_create (b : Backing) (l : Layer) (name : String) (value : Value) :
    b.Keeps (l.create b name value).2.1 := by
  cases l with
  | memory table =>
      simp only [create]
      split <;> exact fun _ _ h => h
  | durable space => exact b.keeps_commit_create (key space name) name value
  | unreachable reason => exact fun _ _ h => h

theorem get_create {b : Backing} {l : Layer} {name : String} {value : Value}
    (h : l.get b name = .ok value) (other : String) (new : Value) :
    (l.create b other new).1.get (l.create b other new).2.1 name = .ok value := by
  cases l with
  | memory table =>
      simp only [create]
      split
      · exact h
      · rename_i hfree
        simp only [get] at h ⊢
        cases hold : table.get? name with
        | none =>
            rw [hold] at h
            cases h
        | some old =>
            have hne : other ≠ name := by
              rintro rfl
              simp [Table.contains, hold] at hfree
            rw [Table.get?_insert, if_neg hne]
            exact h
  | durable space => exact get_of_keeps (keeps_create b (.durable space) other new) h
  | unreachable reason => cases h

/-- A variable that exists cannot be created, and nothing changes. -/
theorem create_of_contains {b : Backing} {l : Layer} {name : String}
    (h : l.contains b name = true) (value : Value) :
    l.create b name value = (l, b, .error (.exists name)) := by
  cases l with
  | memory table =>
      have hin : table.contains name = true := h
      simp only [create, hin, if_true]
  | durable space =>
      have hin : b.store.contains (key space name) = true := h
      simp [create, commit_eq, Change.key, Change.replaces, Change.refusal, hin, faultOf]
  | unreachable reason => cases h

end Layer

/-! ## Values of a memory -/

namespace Memory

/-- Every value of every layer is still there. -/
def Keeps (m m' : Memory) : Prop :=
  ∀ id name value, m.get id name = .ok value → m'.get id name = .ok value

protected theorem Keeps.refl (m : Memory) : m.Keeps m := fun _ _ _ h => h

protected theorem Keeps.trans {m₁ m₂ m₃ : Memory} (h : m₁.Keeps m₂) (h' : m₂.Keeps m₃) :
    m₁.Keeps m₃ :=
  fun id name value hget => h' id name value (h id name value hget)

theorem get_eq_ok_iff {m : Memory} {id : LayerId} {name : String} {value : Value} :
    m.get id name = .ok value ↔
      ∃ l, m.layers[id]? = some l ∧ l.get m.backing name = .ok value := by
  unfold get
  cases m.layers[id]? with
  | none => simp
  | some l => simp

theorem keeps_add (m : Memory) (l : Layer) : m.Keeps (m.add l).1 := by
  intro id name value h
  obtain ⟨old, hold, hget⟩ := get_eq_ok_iff.1 h
  refine get_eq_ok_iff.2 ⟨old, ?_, hget⟩
  exact (List.getElem?_append_left (List.getElem?_eq_some_iff.1 hold).1).trans hold

theorem keeps_create (m : Memory) (id : LayerId) (name : String) (value : Value) :
    m.Keeps (m.create id name value).1 := by
  intro own old value' h
  obtain ⟨l, hl, hget⟩ := get_eq_ok_iff.1 h
  unfold create
  cases hat : m.layers[id]? with
  | none => exact h
  | some target =>
      by_cases hown : id = own
      · subst hown
        obtain rfl : target = l := Option.some.inj (hat.symm.trans hl)
        refine get_eq_ok_iff.2 ⟨_, ?_, Layer.get_create hget name value⟩
        exact List.getElem?_set_self (List.getElem?_eq_some_iff.1 hl).1
      · refine get_eq_ok_iff.2 ⟨l, ?_, Layer.get_of_keeps (Layer.keeps_create _ _ _ _) hget⟩
        exact (List.getElem?_set_ne hown).trans hl

theorem create_of_contains {m : Memory} {id : LayerId} {name : String}
    (h : m.contains id name = true) (value : Value) :
    m.create id name value = (m, .error (.exists name)) := by
  unfold contains at h
  unfold create
  cases hat : m.layers[id]? with
  | none =>
      rw [hat] at h
      cases h
  | some l =>
      rw [hat] at h
      obtain ⟨hlt, rfl⟩ := List.getElem?_eq_some_iff.1 hat
      simp [Layer.create_of_contains h value]

end Memory

/-! ## Kinds of layers -/

/-- Whether the variables are kept in memory. -/
def Layer.isMemory : Layer → Bool
  | .memory _ => true
  | .durable _ => false
  | .unreachable _ => false

theorem Layer.isMemory_create (l : Layer) (b : Backing) (name : String) (value : Value) :
    (l.create b name value).1.isMemory = l.isMemory := by
  cases l with
  | memory table =>
      simp only [create]
      split <;> rfl
  | durable space => rfl
  | unreachable reason => rfl

theorem Layer.isMemory_assign (l : Layer) (b : Backing) (name : String) (value : Value) :
    (l.assign b name value).1.isMemory = l.isMemory := by
  cases l with
  | memory table =>
      simp only [assign]
      split <;> rfl
  | durable space => rfl
  | unreachable reason => rfl

namespace Memory

def kinds (m : Memory) : List Bool := m.layers.map Layer.isMemory

/-- A layer in place of one of its kind. -/
theorem kinds_set {m : Memory} {id : LayerId} {l l' : Layer} (hl : m.layers[id]? = some l)
    (hkind : l'.isMemory = l.isMemory) (b : Backing) :
    kinds ⟨m.layers.set id l', b⟩ = m.kinds := by
  obtain ⟨hlt, rfl⟩ := List.getElem?_eq_some_iff.1 hl
  refine List.ext_getElem? fun other => ?_
  simp only [kinds, List.getElem?_map, List.getElem?_set]
  split
  · rename_i heq
    subst heq
    simp [hkind, hlt]
  · rfl

theorem kinds_create (m : Memory) (id : LayerId) (name : String) (value : Value) :
    (m.create id name value).1.kinds = m.kinds := by
  unfold create
  split
  · rename_i l hl
    exact kinds_set hl (l.isMemory_create m.backing name value) _
  · rfl

theorem kinds_assign (m : Memory) (id : LayerId) (name : String) (value : Value) :
    (m.assign id name value).1.kinds = m.kinds := by
  unfold assign
  split
  · rename_i l hl
    exact kinds_set hl (l.isMemory_assign m.backing name value) _
  · rfl

theorem kinds_add (m : Memory) (l : Layer) : (m.add l).1.kinds = m.kinds ++ [l.isMemory] := by
  simp [kinds, add]

/-! ### Other layers -/

section Others

variable {m : Memory} {id other : LayerId}

theorem getElem?_create (h : other ≠ id) (name : String) (value : Value) :
    (m.create id name value).1.layers[other]? = m.layers[other]? := by
  unfold create
  split
  · exact List.getElem?_set_ne h.symm
  · rfl

theorem getElem?_assign (h : other ≠ id) (name : String) (value : Value) :
    (m.assign id name value).1.layers[other]? = m.layers[other]? := by
  unfold assign
  split
  · exact List.getElem?_set_ne h.symm
  · rfl

end Others

end Memory

namespace Extent

theorem kinds_assign (m : Memory) (e : Extent) (name : String) (value : Value) :
    (e.assign m name value).1.kinds = m.kinds := by
  unfold assign
  generalize e.downward = ids
  induction ids generalizing m with
  | nil => rfl
  | cons id rest ih =>
      have hfirst := m.kinds_assign id name value
      simp only [assignIn]
      -- only where the variable is not found the next layer is tried
      split
      · rename_i hassign
        rw [hassign] at hfirst
        exact hfirst
      · rename_i hassign
        rw [hassign] at hfirst
        exact (ih _).trans hfirst
      · rename_i hassign
        rw [hassign] at hfirst
        exact hfirst

theorem kinds_create (m : Memory) (e : Extent) (name : String) (value : Value)
    (persistent : Bool) : (e.create m name value persistent).1.kinds = m.kinds := by
  unfold create
  split
  · rfl
  · exact m.kinds_create _ name value

theorem kinds_put (m : Memory) (e : Extent) (name : String) (value : Value) :
    (e.put m name value).1.kinds = m.kinds := by
  unfold put
  split
  · rfl
  · rename_i id _
    have hfirst := m.kinds_assign id name value
    split
    · rename_i m' _ hassign
      rw [hassign] at hfirst
      exact (m'.kinds_create id name value).trans hfirst
    · exact hfirst

/-- A variable is put into the highest layer. -/
theorem getElem?_put {e : Extent} {id other : LayerId} (hhigh : e.high? = some id)
    (h : other ≠ id) (m : Memory) (name : String) (value : Value) :
    (e.put m name value).1.layers[other]? = m.layers[other]? := by
  have hassign := Memory.getElem?_assign (m := m) h name value
  unfold put
  rw [hhigh]
  simp only
  split
  · rename_i m' _ hfirst
    rw [hfirst] at hassign
    exact (Memory.getElem?_create h name value).trans hassign
  · exact hassign

end Extent

end Statechart
