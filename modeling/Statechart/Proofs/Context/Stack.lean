import Statechart.Proofs.Context.Assignment

/-!
# Reads and writes of a stack

A stack of layers that share no variable is read and written by one search. A write either changes
one variable of one layer, or nothing at all; which of them is told by what the layers answer when
they are read.

- `Layer.assign_eq`, `Layer.create_eq`   : the writes of one layer, by what reading it gives
- `Memory.Sets`                          : one variable of one layer of an extent has a new value
- `Extent.IsStack`                       : layers that share no variable
- `Extent.ReadsFrom`                     : the layer in which a name is found
- `Extent.assign_of_resolve`, `Extent.put_of_high`, `Extent.create_of_get`
- `Extent.writes_agree`                  : the three of them
-/

namespace Statechart

/-! ## One layer -/

namespace Layer

/-- A layer whose changes can be saved, if they have to be. -/
def Saves (b : Backing) (l : Layer) : Prop :=
  ∀ space, l = .durable space → b.disk.isPresent = true

/-- The layer and the backing with a value under a name, new or not. -/
def withValue (b : Backing) (l : Layer) (name : String) (value : Value) : Layer × Backing :=
  match l with
  | .memory table => (.memory (table.insert name value), b)
  | .durable space => (l, b.saved (b.store.table.insert (key space name) value))
  | .unreachable _ => (l, b)

variable {b : Backing} {l : Layer}

/-- A name has a value, has none, or the layer does not answer. -/
theorem get_cases (b : Backing) (l : Layer) (name : String) :
    (∃ value, l.get b name = .ok value) ∨ l.get b name = .error (.notFound name) ∨
      ∃ fault, l.get b name = .error (.backend fault) := by
  cases l with
  | memory table =>
      cases hget : table.get? name with
      | some value => exact .inl ⟨value, by simp only [get, hget]⟩
      | none => exact .inr (.inl (by simp only [get, hget]))
  | durable space =>
      cases hget : b.store.get? (key space name) with
      | some value => exact .inl ⟨value, by simp only [get, hget]⟩
      | none => exact .inr (.inl (by simp only [get, hget]))
  | unreachable reason => exact .inr (.inr ⟨_, rfl⟩)

/-- A variable is assigned if it can be read; otherwise the fault is that of reading it. -/
theorem assign_eq (h : l.Saves b) (name : String) (value : Value) :
    l.assign b name value =
      match l.get b name with
      | .ok _ =>
          ((l.withValue b name value).1, (l.withValue b name value).2, .ok value.encodedSize)
      | .error fault => (l, b, .error fault) := by
  cases l with
  | memory table =>
      cases hget : table.get? name <;> simp [assign, get, Table.contains, hget, withValue]
  | durable space =>
      rw [assign_durable, h space rfl]
      cases hget : b.store.get? (key space name) with
      | none =>
          have hin : b.store.contains (key space name) = false := congrArg Option.isSome hget
          simp [get, hget, hin]
      | some old =>
          have hin : b.store.contains (key space name) = true := congrArg Option.isSome hget
          simp [get, hget, hin, withValue]
  | unreachable reason => rfl

/-- A variable is created if it is not found; otherwise it exists, or the fault is that of reading
it. -/
theorem create_eq (h : l.Saves b) (name : String) (value : Value) :
    l.create b name value =
      match l.get b name with
      | .ok _ => (l, b, .error (.exists name))
      | .error (.notFound _) =>
          ((l.withValue b name value).1, (l.withValue b name value).2, .ok value.encodedSize)
      | .error fault => (l, b, .error fault) := by
  cases l with
  | memory table =>
      cases hget : table.get? name <;> simp [create, get, Table.contains, hget, withValue]
  | durable space =>
      cases hget : b.store.get? (key space name) with
      | none =>
          have hin : b.store.contains (key space name) = false := congrArg Option.isSome hget
          simp [create, commit_eq, Change.key, Change.replaces, Change.result, Change.value?,
            Change.written, get, hget, hin, h space rfl, withValue]
      | some old =>
          have hin : b.store.contains (key space name) = true := congrArg Option.isSome hget
          simp [create_of_contains (l := .durable space) hin, get, hget]
  | unreachable reason => rfl

/-- Layers none of whose variables is one of the other. -/
def AreApart : Layer → Layer → Prop
  | .durable space, .durable other => ∀ name own, key space name ≠ key other own
  | _, _ => True

/-- In its own layer the name has the value, and all others are as before. -/
theorem get_withValue (hreach : ∀ reason, l ≠ .unreachable reason) (name own : String)
    (value : Value) :
    (l.withValue b name value).1.get (l.withValue b name value).2 own =
      if name = own then .ok value else l.get b own := by
  cases l with
  | memory table =>
      simp only [withValue, get, Table.get?_insert]
      by_cases hname : name = own <;> simp only [hname, if_true, if_false]
  | durable space =>
      simp only [withValue, get, Backing.saved, Store.get?, Table.get?_insert, key_eq_key_iff]
      by_cases hname : name = own <;> simp only [hname, if_true, if_false]
  | unreachable reason => exact absurd rfl (hreach reason)

/-- A layer that is apart does not notice. -/
theorem get_withValue_of_apart {other : Layer} (h : l.AreApart other) (name own : String)
    (value : Value) : other.get (l.withValue b name value).2 own = other.get b own := by
  cases l with
  | memory table => rfl
  | unreachable reason => rfl
  | durable space =>
      cases other with
      | memory table => rfl
      | unreachable reason => rfl
      | durable space' =>
          simp only [withValue, get, Backing.saved, Store.get?, Table.get?_insert,
            if_neg (h name own)]

theorem list_withValue_of_apart {other : Layer} (h : l.AreApart other) (name : String)
    (value : Value) : other.list (l.withValue b name value).2 = other.list b := by
  cases l with
  | memory table => rfl
  | unreachable reason => rfl
  | durable space =>
      cases other with
      | memory table => rfl
      | unreachable reason => rfl
      | durable space' =>
          have hscan : (b.store.table.insert (key space name) value).scan (key space' "") =
              b.store.table.scan (key space' "") := by
            refine Table.scan_congr fun own hown => ?_
            obtain ⟨own, rfl⟩ := isPrefix_iff_exists_key.1 hown
            rw [Table.get?_insert, if_neg (h name own)]
          simp only [withValue, list, Backing.saved, Store.scan, hscan]

end Layer

/-! ## The layers of an extent -/

namespace Memory

/-- The memory with a value under a name of a layer, new or not. -/
def withValue (m : Memory) (id : LayerId) (name : String) (value : Value) : Memory :=
  match m.layers[id]? with
  | some l => ⟨m.layers.set id (l.withValue m.backing name value).1,
      (l.withValue m.backing name value).2⟩
  | none => m

/-- A layer that is there, and whose changes can be saved if they have to be. -/
def Saves (m : Memory) (id : LayerId) : Prop :=
  ∃ l, m.layers[id]? = some l ∧ l.Saves m.backing

variable {m : Memory} {id : LayerId}

theorem get_cases (h : m.Saves id) (name : String) :
    (∃ value, m.get id name = .ok value) ∨ m.get id name = .error (.notFound name) ∨
      ∃ fault, m.get id name = .error (.backend fault) := by
  obtain ⟨l, hl, -⟩ := h
  simp only [get, hl]
  exact l.get_cases m.backing name

theorem assign_eq (h : m.Saves id) (name : String) (value : Value) :
    m.assign id name value =
      match m.get id name with
      | .ok _ => (m.withValue id name value, .ok value.encodedSize)
      | .error fault => (m, .error fault) := by
  obtain ⟨l, hl, hsaves⟩ := h
  obtain ⟨hlt, rfl⟩ := List.getElem?_eq_some_iff.1 hl
  simp only [assign, get, withValue, hl, Layer.assign_eq hsaves]
  split <;> simp

theorem create_eq (h : m.Saves id) (name : String) (value : Value) :
    m.create id name value =
      match m.get id name with
      | .ok _ => (m, .error (.exists name))
      | .error (.notFound _) => (m.withValue id name value, .ok value.encodedSize)
      | .error fault => (m, .error fault) := by
  obtain ⟨l, hl, hsaves⟩ := h
  obtain ⟨hlt, rfl⟩ := List.getElem?_eq_some_iff.1 hl
  simp only [create, get, withValue, hl, Layer.create_eq hsaves]
  split <;> simp

/-- From one memory to another, one variable of one layer of an extent has got a value; all other
variables of the layers are as they were. -/
structure Sets (m m' : Memory) (e : Extent) (id : LayerId) (name : String) (value : Value) :
    Prop where
  get_self : m'.get id name = .ok value
  get_own : ∀ own, own ≠ name → m'.get id own = m.get id own
  get_other : ∀ other ∈ e.layers, other ≠ id → ∀ own, m'.get other own = m.get other own
  list_other : ∀ other ∈ e.layers, other ≠ id → m'.list other = m.list other

end Memory

namespace Extent

/-- Layers that share no variable: each occurs once, is there, and is apart from the others; what is
written to the durable ones can be saved. -/
structure IsStack (e : Extent) (m : Memory) : Prop where
  ne_nil : e.layers ≠ []
  nodup : e.layers.Nodup
  saves : ∀ id ∈ e.layers, m.Saves id
  apart : ∀ id ∈ e.layers, ∀ other ∈ e.layers, id ≠ other → ∀ l l',
    m.layers[id]? = some l → m.layers[other]? = some l' → l.AreApart l'

/-- The layer in which a name is found: all layers above it answer that they do not have it. -/
def ReadsFrom (e : Extent) (m : Memory) (name : String) (id : LayerId) (value : Value) : Prop :=
  ∃ lower upper, e.layers = lower ++ id :: upper ∧ m.get id name = .ok value ∧
    ∀ above ∈ upper, m.get above name = .error (.notFound name)

variable {e : Extent} {m : Memory}

/-- A value that is put where a layer of the stack answers is all that changes. -/
theorem IsStack.sets (h : e.IsStack m) {id : LayerId} (hid : id ∈ e.layers) {name : String}
    (hanswers : ∀ fault, m.get id name ≠ .error (.backend fault)) (value : Value) :
    m.Sets (m.withValue id name value) e id name value := by
  obtain ⟨l, hl, -⟩ := h.saves id hid
  have hreach : ∀ reason, l ≠ .unreachable reason := by
    rintro reason rfl
    exact hanswers _ (by simp only [Memory.get, hl]; rfl)
  have hlt : id < m.layers.length := (List.getElem?_eq_some_iff.1 hl).1
  have hself : ∀ own, (m.withValue id name value).get id own =
      if name = own then .ok value else m.get id own := by
    intro own
    simp only [Memory.get, Memory.withValue, hl, List.getElem?_set_self hlt]
    exact Layer.get_withValue hreach name own value
  refine ⟨(hself name).trans (if_pos rfl), fun own hne => (hself own).trans (if_neg hne.symm),
    fun other hother hne own => ?_, fun other hother hne => ?_⟩
  · obtain ⟨l', hl', -⟩ := h.saves other hother
    simp only [Memory.get, Memory.withValue, hl, List.getElem?_set_ne hne.symm, hl']
    have hapart := h.apart id hid other hother hne.symm l l' hl hl'
    exact Layer.get_withValue_of_apart hapart name own value
  · obtain ⟨l', hl', -⟩ := h.saves other hother
    simp only [Memory.list, Memory.withValue, hl, List.getElem?_set_ne hne.symm, hl']
    have hapart := h.apart id hid other hother hne.symm l l' hl hl'
    exact Layer.list_withValue_of_apart hapart name value

/-! ## Reading -/

theorem resolveIn_append {m : Memory} {name : String} {above below : List LayerId}
    (h : ∀ id ∈ above, m.get id name = .error (.notFound name)) :
    resolveIn m name (above ++ below) = resolveIn m name below := by
  induction above with
  | nil => rfl
  | cons id rest ih =>
      simp only [List.cons_append, resolveIn, h id List.mem_cons_self]
      exact ih fun other hother => h other (List.mem_cons_of_mem _ hother)

/-- What is read from a layer is what the name stands for. -/
theorem ReadsFrom.resolve {name : String} {id : LayerId} {value : Value}
    (h : e.ReadsFrom m name id value) : e.resolve m name = .ok (some value) := by
  obtain ⟨lower, upper, hlayers, hget, habove⟩ := h
  have hdown : e.downward = upper.reverse ++ (id :: lower.reverse) := by
    simp [downward, hlayers]
  rw [Extent.resolve, hdown,
    resolveIn_append fun above hin => habove above (List.mem_reverse.1 hin)]
  simp only [resolveIn, hget]

/-! ## Assigning -/

/-- The search for a variable to assign ends where the search for its value ends. -/
theorem assignIn_eq {m : Memory} {ids : List LayerId} (h : ∀ id ∈ ids, m.Saves id) (name : String)
    (value : Value) :
    (∃ old above id below, resolveIn m name ids = .ok (some old) ∧ ids = above ++ id :: below ∧
      m.get id name = .ok old ∧ (∀ other ∈ above, m.get other name = .error (.notFound name)) ∧
      assignIn name value m ids = (m.withValue id name value, .ok value.encodedSize)) ∨
    (resolveIn m name ids = .ok none ∧ assignIn name value m ids = (m, .error (.notFound name))) ∨
    ∃ fault, resolveIn m name ids = .error (.backend fault) ∧
      assignIn name value m ids = (m, .error (.backend fault)) := by
  induction ids with
  | nil => exact .inr (.inl ⟨rfl, rfl⟩)
  | cons id rest ih =>
      have hid := h id List.mem_cons_self
      have hassign := Memory.assign_eq hid name value
      rcases Memory.get_cases hid name with ⟨old, hget⟩ | hget | ⟨fault, hget⟩
      · rw [hget] at hassign
        exact .inl ⟨old, [], id, rest, by simp only [resolveIn, hget], rfl, hget,
          fun _ hin => absurd hin List.not_mem_nil, by simp only [assignIn, hassign]⟩
      · -- this layer is passed over on both sides
        rw [hget] at hassign
        simp only [resolveIn, assignIn, hget, hassign]
        rcases ih fun other hother => h other (List.mem_cons_of_mem _ hother) with
          ⟨old, above, id', below, hresolve, hids, hold, habove, hdone⟩ | hnone | hfault
        · refine .inl ⟨old, id :: above, id', below, hresolve, by rw [hids, List.cons_append], hold,
            fun other hother => ?_, hdone⟩
          rcases List.mem_cons.1 hother with rfl | hother
          · exact hget
          · exact habove other hother
        · exact .inr (.inl hnone)
        · exact .inr (.inr hfault)
      · rw [hget] at hassign
        exact .inr (.inr ⟨fault, by simp only [resolveIn, hget], by simp only [assignIn, hassign]⟩)

/-- A variable is assigned where it is read from, and its name then stands for the new value. -/
theorem assign_of_resolve (h : e.IsStack m) {name : String} {old : Value}
    (hold : e.resolve m name = .ok (some old)) (value : Value) :
    ∃ id m', e.ReadsFrom m name id old ∧ e.assign m name value = (m', .ok value.encodedSize) ∧
      m.Sets m' e id name value ∧ e.resolve m' name = .ok (some value) := by
  have hsaves : ∀ id ∈ e.downward, m.Saves id := fun id hid => h.saves id (List.mem_reverse.1 hid)
  rcases assignIn_eq hsaves name value with
    ⟨old', above, id, below, hresolve, hids, hget, habove, hassign⟩ | ⟨hresolve, -⟩ |
    ⟨fault, hresolve, -⟩
  · obtain rfl : old' = old := by
      rw [Extent.resolve, hresolve] at hold
      simpa using hold
    have hlayers : e.layers = below.reverse ++ id :: above.reverse := by
      rw [← List.reverse_reverse e.layers]
      show e.downward.reverse = _
      simp [hids]
    have hid : id ∈ e.layers := by simp [hlayers]
    have hsets : m.Sets (m.withValue id name value) e id name value :=
      h.sets hid (fun fault hfault => by rw [hget] at hfault; cases hfault) value
    have hreads : e.ReadsFrom m name id old' :=
      ⟨_, _, hlayers, hget, fun above' hin => habove above' (List.mem_reverse.1 hin)⟩
    suffices hagain : e.ReadsFrom (m.withValue id name value) name id value from
      ⟨id, _, hreads, hassign, hsets, hagain.resolve⟩
    -- the layers above are others, so that they still do not have the name
    refine ⟨_, _, hlayers, hsets.get_self, fun above' hin => ?_⟩
    have hne : above' ≠ id := by
      rintro rfl
      have hnodup := h.nodup
      rw [hlayers] at hnodup
      exact (List.nodup_cons.1 (List.nodup_append.1 hnodup).2.1).1 hin
    rw [hsets.get_other above' (by simp [hlayers, List.mem_reverse.1 hin]) hne]
    exact habove above' (List.mem_reverse.1 hin)
  · rw [Extent.resolve, hresolve] at hold
    cases hold
  · rw [Extent.resolve, hresolve] at hold
    cases hold

/-- Where nothing is read nothing is assigned, for the same reason. -/
theorem assign_of_not_resolve (h : e.IsStack m) (name : String) (value : Value) :
    (e.resolve m name = .ok none → e.assign m name value = (m, .error (.notFound name))) ∧
      ∀ fault, e.resolve m name = .error fault →
        (∃ cause, fault = .backend cause) ∧ e.assign m name value = (m, .error fault) := by
  have hsaves : ∀ id ∈ e.downward, m.Saves id := fun id hid => h.saves id (List.mem_reverse.1 hid)
  unfold Extent.resolve Extent.assign
  rcases assignIn_eq hsaves name value with ⟨old, -, -, -, hresolve, -⟩ | ⟨hresolve, hassign⟩ |
    ⟨cause, hresolve, hassign⟩
  · rw [hresolve]
    exact ⟨nofun, nofun⟩
  · rw [hresolve]
    exact ⟨fun _ => hassign, nofun⟩
  · rw [hresolve]
    refine ⟨nofun, fun fault heq => ?_⟩
    cases heq
    exact ⟨⟨cause, rfl⟩, hassign⟩

/-! ## Putting and creating -/

theorem IsStack.exists_high (h : e.IsStack m) :
    ∃ lower id, e.high? = some id ∧ e.layers = lower ++ [id] := by
  obtain ⟨lower, id, hlayers⟩ := (List.eq_nil_or_concat e.layers).resolve_left h.ne_nil
  rw [List.concat_eq_append] at hlayers
  exact ⟨lower, id, by simp [high?, hlayers], hlayers⟩

/-- A variable is put into the highest layer, which has it then, or which cannot be reached. -/
theorem put_of_high (h : e.IsStack m) (name : String) (value : Value) :
    ∃ id, e.high? = some id ∧
      ((∀ reason, m.layers[id]? ≠ some (.unreachable reason)) →
        ∃ m', e.put m name value = (m', .ok value.encodedSize) ∧
          m.Sets m' e id name value ∧ e.resolve m' name = .ok (some value)) ∧
      ∀ reason, m.layers[id]? = some (.unreachable reason) →
        e.put m name value = (m, .error (.backend (.unavailable reason))) := by
  obtain ⟨lower, id, hhigh, hlayers⟩ := h.exists_high
  have hid : id ∈ e.layers := by simp [hlayers]
  refine ⟨id, hhigh, fun hreach => ?_, fun reason hfar => ?_⟩
  · have hanswers : ∀ fault, m.get id name ≠ .error (.backend fault) := by
      intro fault hfault
      obtain ⟨l, hl, -⟩ := h.saves id hid
      simp only [Memory.get, hl] at hfault
      cases l with
      | memory table => simp only [Layer.get] at hfault; split at hfault <;> cases hfault
      | durable space => simp only [Layer.get] at hfault; split at hfault <;> cases hfault
      | unreachable reason => exact hreach reason hl
    have hsets := h.sets hid hanswers value
    have hreads : e.ReadsFrom (m.withValue id name value) name id value :=
      ⟨lower, [], hlayers, hsets.get_self, fun _ hin => absurd hin List.not_mem_nil⟩
    refine ⟨m.withValue id name value, ?_, hsets, hreads.resolve⟩
    have hassign := Memory.assign_eq (h.saves id hid) name value
    have hcreate := Memory.create_eq (h.saves id hid) name value
    unfold put
    rcases Memory.get_cases (h.saves id hid) name with ⟨old, hget⟩ | hget | ⟨fault, hget⟩
    · rw [hget] at hassign
      simp only [hhigh, hassign]
    · rw [hget] at hassign hcreate
      simp only [hhigh, hassign, hcreate]
    · exact absurd hget (hanswers fault)
  · simp only [put, hhigh, Memory.assign_eq (h.saves id hid), Memory.get, hfar, Layer.get]

/-- A variable is created in one layer alone, unless this layer has it or cannot be reached. -/
theorem create_of_get (h : e.IsStack m) (name : String) (value : Value) (persistent : Bool) :
    ∃ id, (if persistent then e.low? else e.high?) = some id ∧
      (∀ taken, (e.create m name value persistent).2 = .error (.exists taken) ↔
        taken = name ∧ ∃ old, m.get id name = .ok old) ∧
      (m.get id name = .error (.notFound name) →
        ∃ m', e.create m name value persistent = (m', .ok value.encodedSize) ∧
          m.Sets m' e id name value) ∧
      (m.get id name ≠ .error (.notFound name) → (e.create m name value persistent).1 = m) := by
  obtain ⟨id, hid, hmem⟩ :
      ∃ id, (if persistent then e.low? else e.high?) = some id ∧ id ∈ e.layers := by
    cases persistent with
    | true =>
        obtain ⟨id, rest, hlayers⟩ := List.exists_cons_of_ne_nil h.ne_nil
        exact ⟨id, by simp [low?, hlayers], by simp [hlayers]⟩
    | false =>
        obtain ⟨lower, id, hhigh, hlayers⟩ := h.exists_high
        exact ⟨id, hhigh, by simp [hlayers]⟩
  have hcreate := Memory.create_eq (h.saves id hmem) name value
  refine ⟨id, hid, ?_⟩
  simp only [create, hid]
  rcases Memory.get_cases (h.saves id hmem) name with ⟨old, hget⟩ | hget | ⟨fault, hget⟩
  · rw [hget] at hcreate ⊢
    simp [hcreate, eq_comm]
  · have hsets := h.sets hmem (fun fault hfault => by rw [hget] at hfault; cases hfault) value
    rw [hget] at hcreate ⊢
    simp [hcreate, hsets]
  · rw [hget] at hcreate ⊢
    simp [hcreate]

/-- A variable can be assigned if and only if it can be read, where it is read from, and is then
read back; if it cannot, nothing changes, for the reason that reading gives. The highest layer
alone is put into, the lowest or highest alone created in, and only what exists there cannot be
created. -/
theorem writes_agree (h : e.IsStack m) (name : String) (value : Value) :
    ((∃ written, (e.assign m name value).2 = .ok written) ↔
      ∃ old, e.resolve m name = .ok (some old)) ∧
    (∀ old, e.resolve m name = .ok (some old) →
      ∃ id m', e.ReadsFrom m name id old ∧ e.assign m name value = (m', .ok value.encodedSize) ∧
        m.Sets m' e id name value ∧ e.resolve m' name = .ok (some value)) ∧
    (e.resolve m name = .ok none → e.assign m name value = (m, .error (.notFound name))) ∧
    (∀ fault, e.resolve m name = .error fault →
      (∃ cause, fault = .backend cause) ∧ e.assign m name value = (m, .error fault)) ∧
    (∃ id, e.high? = some id ∧
      ((∀ reason, m.layers[id]? ≠ some (.unreachable reason)) →
        ∃ m', e.put m name value = (m', .ok value.encodedSize) ∧
          m.Sets m' e id name value ∧ e.resolve m' name = .ok (some value)) ∧
      ∀ reason, m.layers[id]? = some (.unreachable reason) →
        e.put m name value = (m, .error (.backend (.unavailable reason)))) ∧
    ∀ persistent, ∃ id, (if persistent then e.low? else e.high?) = some id ∧
      (∀ taken, (e.create m name value persistent).2 = .error (.exists taken) ↔
        taken = name ∧ ∃ old, m.get id name = .ok old) ∧
      (m.get id name = .error (.notFound name) →
        ∃ m', e.create m name value persistent = (m', .ok value.encodedSize) ∧
          m.Sets m' e id name value) ∧
      (m.get id name ≠ .error (.notFound name) → (e.create m name value persistent).1 = m) := by
  obtain ⟨hnone, hfault⟩ := assign_of_not_resolve h name value
  refine ⟨⟨fun ⟨written, hwritten⟩ => ?_, fun ⟨old, hold⟩ => ?_⟩,
    fun old hold => assign_of_resolve h hold value, hnone, hfault, put_of_high h name value,
    create_of_get h name value⟩
  · -- any other outcome of reading is an error of the assignment
    cases hresolve : e.resolve m name with
    | error fault =>
        rw [(hfault fault hresolve).2] at hwritten
        cases hwritten
    | ok found =>
        cases found with
        | none =>
            rw [hnone hresolve] at hwritten
            cases hwritten
        | some old => exact ⟨old, rfl⟩
  · obtain ⟨id, m', -, hassign, -⟩ := assign_of_resolve h hold value
    exact ⟨_, congrArg Prod.snd hassign⟩

end Extent

/-! ### Three layers -/

/-- A layer out of reach, a namespace that has `v`, and an empty layer in memory. -/
def Memory.shelf : Memory :=
  ⟨[.unreachable "store offline", .durable "s", .memory .empty],
    ⟨⟨"", false, Table.empty.insert "s/v" .null⟩, .fresh⟩⟩

theorem Extent.isStack_shelf : (⟨[0, 1, 2]⟩ : Extent).IsStack Memory.shelf where
  ne_nil := by decide
  nodup := by decide
  saves := by
    intro id hid
    obtain rfl | rfl | rfl : id = 0 ∨ id = 1 ∨ id = 2 := by simpa using hid
    · exact ⟨_, rfl, nofun⟩
    · exact ⟨_, rfl, fun _ _ => rfl⟩
    · exact ⟨_, rfl, nofun⟩
  apart := by
    intro id hid other hother hne l l' hl hl'
    -- two of them cannot both be durable
    obtain rfl | rfl | rfl : id = 0 ∨ id = 1 ∨ id = 2 := by simpa using hid
    all_goals
      obtain rfl | rfl | rfl : other = 0 ∨ other = 1 ∨ other = 2 := by simpa using hother
      all_goals cases hl; cases hl'; trivial

/-- `v` is assigned below the layer that does not have it; `w` is not found, since the search ends
where a layer cannot be reached. -/
theorem Extent.writes_agree_shelf :
    let e : Extent := ⟨[0, 1, 2]⟩
    e.IsStack Memory.shelf ∧ e.resolve Memory.shelf "v" = .ok (some .null) ∧
      (∃ id m', e.ReadsFrom Memory.shelf "v" id .null ∧
        e.assign Memory.shelf "v" (.bool true) = (m', .ok 4) ∧
        Memory.shelf.Sets m' e id "v" (.bool true) ∧ e.resolve m' "v" = .ok (some (.bool true))) ∧
      e.assign Memory.shelf "w" .null =
        (Memory.shelf, .error (.backend (.unavailable "store offline"))) :=
  ⟨isStack_shelf, rfl, (writes_agree isStack_shelf "v" (.bool true)).2.1 _ rfl,
    ((writes_agree isStack_shelf "w" .null).2.2.2.1 _ rfl).2⟩

end Statechart
