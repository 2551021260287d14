import Statechart.Proofs.Context.Writes

/-!
# What assignments come to

An assignment is made in the highest layer that has the variable, and from then on the name stands
for the new value. It is refused if no layer has the variable, and cut short by a layer that cannot
be reached or cannot be written.

- `Layer.assign_cases`   : an assignment to one layer
- `Memory.IsReachable`   : a layer that can be read and written
- `Memory.assign_cases`  : an assignment to one layer of a memory
- `Extent.assign_cases`  : an assignment to a stack of layers
-/

namespace Statechart

/-! ## Layers -/

namespace Layer

/-- A layer that can be read and written. -/
def isReachable (b : Backing) : Layer → Bool
  | .memory _ => true
  | .durable _ => b.disk.isPresent
  | .unreachable _ => false

variable {b : Backing} {l : Layer} {name : String} {value : Value}

/-- A variable that a layer has is found there. -/
theorem get_ne_notFound {b : Backing} {l : Layer} {name : String} (h : l.contains b name = true) :
    l.get b name ≠ .error (.notFound name) := by
  intro hnone
  cases l with
  | memory table =>
      obtain ⟨value, hvalue⟩ := Option.isSome_iff_exists.1 h
      simp only [get, hvalue] at hnone
      cases hnone
  | durable space =>
      obtain ⟨value, hvalue⟩ := Option.isSome_iff_exists.1 h
      simp only [get, Store.get?, hvalue] at hnone
      cases hnone
  | unreachable reason => cases h

theorem assign_durable (b : Backing) (space name : String) (value : Value) :
    (durable space).assign b name value =
      if b.store.contains (key space name) = true then
        if b.disk.isPresent = true then
          (.durable space, b.saved (b.store.table.insert (key space name) value),
            .ok value.encodedSize)
        else (.durable space, b, .error (.backend (.storage (.io .notFound))))
      else (.durable space, b, .error (.notFound name)) := by
  cases hin : b.store.contains (key space name) with
  | true =>
      cases hdisk : b.disk.isPresent <;>
        simp [assign, commit_eq, Change.key, Change.replaces, Change.result, Change.value?,
          Change.written, hin, hdisk]
  | false =>
      simp [assign, commit_eq, Change.key, Change.replaces, Change.refusal, hin, faultOf]

/-- A variable is assigned where it is, is not found, or the layer is out of reach. -/
theorem assign_cases (b : Backing) (l : Layer) (name : String) (value : Value) :
    (l.contains b name = true ∧ (l.assign b name value).2.2 = .ok value.encodedSize ∧
      (l.assign b name value).1.get (l.assign b name value).2.1 name = .ok value) ∨
    (l.contains b name = false ∧ l.get b name = .error (.notFound name) ∧
      l.assign b name value = (l, b, .error (.notFound name))) ∨
    (l.isReachable b = false ∧
      ∃ fault, l.assign b name value = (l, b, .error (.backend fault))) := by
  cases l with
  | memory table =>
      cases hin : table.contains name with
      | true => exact .inl ⟨hin, by simp [assign, hin], by simp [assign, hin, get]⟩
      | false =>
          have hnone : table.get? name = none := by simpa [Table.contains] using hin
          exact .inr (.inl ⟨hin, by simp [get, hnone], by simp [assign, hin]⟩)
  | unreachable reason => exact .inr (.inr ⟨rfl, _, rfl⟩)
  | durable space =>
      rw [assign_durable]
      by_cases hin : b.store.contains (key space name) = true
      · rw [if_pos hin]
        -- a change is made only if it can be written
        by_cases hdisk : b.disk.isPresent = true
        · rw [if_pos hdisk]
          refine .inl ⟨hin, rfl, ?_⟩
          simp [get, Backing.saved, Store.get?]
        · rw [if_neg hdisk]
          exact .inr (.inr ⟨Bool.eq_false_iff.2 hdisk, _, rfl⟩)
      · rw [if_neg hin]
        have hnone : b.store.get? (key space name) = none := by
          simpa [Store.contains, Store.get?, Table.contains] using hin
        exact .inr (.inl ⟨Bool.eq_false_iff.2 hin, by simp [get, hnone], rfl⟩)

/-- A variable that another layer does not have is not there after an assignment either. -/
theorem get_of_assign {b : Backing} {l other : Layer} {name : String} {value : Value}
    (hin : l.contains b name = true) (hnone : other.get b name = .error (.notFound name)) :
    other.get (l.assign b name value).2.1 name = .error (.notFound name) := by
  cases other with
  | memory table => exact hnone
  | unreachable reason => exact hnone
  | durable space =>
      cases l with
      | memory table =>
          simp only [assign]
          split <;> exact hnone
      | unreachable reason => exact hnone
      | durable own =>
          -- a namespace that has the variable is none that does not
          have hne : key own name ≠ key space name := by
            intro heq
            have hthere : (durable space).contains b name = true := by
              rw [contains, ← heq]
              exact hin
            exact get_ne_notFound hthere hnone
          have hthere : b.store.contains (key own name) = true := hin
          rw [assign_durable, if_pos hthere]
          split
          · simp only [get, Backing.saved, Store.get?, Table.get?_insert, if_neg hne]
            exact hnone
          · exact hnone

end Layer

/-! ## Memories -/

namespace Memory

/-- A layer that is there and can be read and written. -/
def IsReachable (m : Memory) (id : LayerId) : Prop :=
  ∃ l, m.layers[id]? = some l ∧ l.isReachable m.backing = true

theorem assign_of_layer {m : Memory} {id : LayerId} {l : Layer} (hl : m.layers[id]? = some l)
    (name : String) (value : Value) :
    m.assign id name value = (⟨m.layers.set id (l.assign m.backing name value).1,
      (l.assign m.backing name value).2.1⟩, (l.assign m.backing name value).2.2) := by
  simp only [assign, hl]

/-- A variable that another layer does not have is not there after an assignment either. -/
theorem get_of_assign {m : Memory} {id other : LayerId} {l : Layer} {name : String} {value : Value}
    (hl : m.layers[id]? = some l) (hin : l.contains m.backing name = true)
    (hother : m.get other name = .error (.notFound name)) :
    (m.assign id name value).1.get other name = .error (.notFound name) := by
  rw [assign_of_layer hl]
  by_cases hown : id = other
  · -- the layer has the variable
    subst hown
    simp only [get, hl] at hother
    exact absurd hother (Layer.get_ne_notFound hin)
  · simp only [get, List.getElem?_set_ne hown] at hother ⊢
    cases hat : m.layers[other]? with
    | none =>
        rw [hat] at hother
        exact hother
    | some l' =>
        rw [hat] at hother
        exact Layer.get_of_assign hin hother

/-- A variable is assigned where it is, is not found, or the layer is out of reach. -/
theorem assign_cases (m : Memory) (id : LayerId) (name : String) (value : Value) :
    (m.contains id name = true ∧ (∃ written, (m.assign id name value).2 = .ok written) ∧
      (m.assign id name value).1.get id name = .ok value ∧
      ∀ other, m.get other name = .error (.notFound name) →
        (m.assign id name value).1.get other name = .error (.notFound name)) ∨
    (m.contains id name = false ∧ m.get id name = .error (.notFound name) ∧
      m.assign id name value = (m, .error (.notFound name))) ∨
    (¬ m.IsReachable id ∧ ∃ fault, m.assign id name value = (m, .error (.backend fault))) := by
  cases hl : m.layers[id]? with
  | none =>
      -- a layer that is not there is out of reach
      refine .inr (.inr ⟨?_, _, by simp only [assign, hl]; rfl⟩)
      rintro ⟨l, hsome, -⟩
      cases hl.symm.trans hsome
  | some l =>
      have hassign := assign_of_layer hl name value
      obtain ⟨hlt, rfl⟩ := List.getElem?_eq_some_iff.1 hl
      have hcontains : m.contains id name = m.layers[id].contains m.backing name := by
        simp only [contains, hl]
      rcases Layer.assign_cases m.backing m.layers[id] name value with ⟨hin, hok, hget⟩ |
        ⟨hout, hnone, hsame⟩ | ⟨hreach, fault, hsame⟩
      · refine .inl ⟨hcontains.trans hin, ⟨_, by rw [hassign]; exact hok⟩, ?_,
          fun other hother => get_of_assign hl hin hother⟩
        rw [hassign]
        simp only [get, List.getElem?_set_self hlt]
        exact hget
      · refine .inr (.inl ⟨hcontains.trans hout, ?_, ?_⟩)
        · simp only [get, hl]
          exact hnone
        · rw [hassign, hsame, List.set_getElem_self]
      · refine .inr (.inr ⟨?_, fault, ?_⟩)
        · rintro ⟨l, hsome, hyes⟩
          obtain rfl := Option.some.inj (hl.symm.trans hsome)
          cases hreach.symm.trans hyes
        · rw [hassign, hsame, List.set_getElem_self]

end Memory

/-! ## Extents -/

namespace Extent

theorem assignIn_cases (m : Memory) (name : String) (value : Value) (ids : List LayerId) :
    ((∃ written, (assignIn name value m ids).2 = .ok written) ∧
      resolveIn (assignIn name value m ids).1 name ids = .ok (some value) ∧
      ∀ other, m.get other name = .error (.notFound name) →
        (assignIn name value m ids).1.get other name = .error (.notFound name)) ∨
    (assignIn name value m ids = (m, .error (.notFound name)) ∧
      ∀ id ∈ ids, m.contains id name = false) ∨
    ((∃ id ∈ ids, ¬ m.IsReachable id) ∧
      ∃ fault, assignIn name value m ids = (m, .error (.backend fault))) := by
  -- on the layers from above, as far as the search goes
  induction ids with
  | nil => exact .inr (.inl ⟨rfl, fun _ h => absurd h List.not_mem_nil⟩)
  | cons id rest ih =>
      rcases m.assign_cases id name value with ⟨hin, ⟨written, hok⟩, hget, hothers⟩ |
        ⟨hout, hnone, hassign⟩ | ⟨hreach, fault, hassign⟩
      · have hdone : assignIn name value m (id :: rest) =
            ((m.assign id name value).1, .ok written) := by
          cases hassign : m.assign id name value with
          | mk m' outcome =>
              rw [hassign] at hok
              simp only at hok
              simp only [assignIn, hassign, hok]
        rw [hdone]
        exact .inl ⟨⟨written, rfl⟩, by simp only [resolveIn, hget], hothers⟩
      · -- the next layer is tried, and this one stays without the variable
        have hnext : assignIn name value m (id :: rest) = assignIn name value m rest := by
          simp only [assignIn, hassign]
        rw [hnext]
        rcases ih with ⟨hok, hresolve, hothers⟩ | ⟨hmissing, hall⟩ | ⟨⟨far, hfar, hreach⟩, hfault⟩
        · refine .inl ⟨hok, ?_, hothers⟩
          simp only [resolveIn, hothers id hnone]
          exact hresolve
        · refine .inr (.inl ⟨hmissing, fun other hother => ?_⟩)
          rcases List.mem_cons.1 hother with rfl | hother
          · exact hout
          · exact hall other hother
        · exact .inr (.inr ⟨⟨far, List.mem_cons_of_mem _ hfar, hreach⟩, hfault⟩)
      · -- the search ends here, whatever is below
        refine .inr (.inr ⟨⟨id, List.mem_cons_self, hreach⟩, fault, ?_⟩)
        simp only [assignIn, hassign]

/-- A variable is assigned, and its name stands for the value; it is in no layer; or a layer is out
of reach. -/
theorem assign_cases (m : Memory) (e : Extent) (name : String) (value : Value) :
    ((∃ written, (e.assign m name value).2 = .ok written) ∧
      e.resolve (e.assign m name value).1 name = .ok (some value)) ∨
    (e.assign m name value = (m, .error (.notFound name)) ∧
      ∀ id ∈ e.layers, m.contains id name = false) ∨
    ((∃ id ∈ e.layers, ¬ m.IsReachable id) ∧
      ∃ fault, e.assign m name value = (m, .error (.backend fault))) := by
  have hdown : ∀ id, id ∈ e.downward ↔ id ∈ e.layers := fun id => List.mem_reverse
  rcases assignIn_cases m name value e.downward with ⟨hok, hresolve, -⟩ | ⟨hmissing, hall⟩ |
    ⟨⟨id, hid, hreach⟩, hfault⟩
  · exact .inl ⟨hok, hresolve⟩
  · exact .inr (.inl ⟨hmissing, fun id hid => hall id ((hdown id).2 hid)⟩)
  · exact .inr (.inr ⟨⟨id, (hdown id).1 hid, hreach⟩, hfault⟩)

end Extent

end Statechart
