import Statechart.Table.Lemmas
import Statechart.Value.Shape

/-!
# Values proper

The canonical form of a value is the value without the accidents of its text: the order of fields,
and fields that a later one of the same name replaces.

- `depth_lt_of_mem_list`, `depth_lt_of_mem_record` : members are nested less deeply
- `itemsDepth_le_iff`, `fieldsDepth_le_iff` : bounds on the nesting of members
- `Value.memberInduction`       : from the members of a value to the value
- `Value.HasDistinctNames`      : no record in the value repeats a name
- `Value.canonical_canonical`   : a canonical form is its own
- `Value.canonical_of_perm`     : the order of fields is lost
- `Value.canonical_record_perm` : nothing but the order is lost where no name is repeated
-/

namespace Statechart

/-! ## Members -/

theorem depth_lt_of_mem_list {item : Value} {items : List Value} (h : item ∈ items) :
    item.depth < (Value.list items).depth := by
  suffices hle : item.depth ≤ itemsDepth items by
    rw [Value.depth]
    omega
  induction items with
  | nil => cases h
  | cons head rest ih =>
      rw [itemsDepth]
      rcases List.mem_cons.1 h with rfl | h
      · exact Nat.le_max_left _ _
      · exact Nat.le_trans (ih h) (Nat.le_max_right _ _)

theorem depth_lt_of_mem_record {field : String × Value} {fields : List (String × Value)}
    (h : field ∈ fields) : field.2.depth < (Value.record fields).depth := by
  suffices hle : field.2.depth ≤ fieldsDepth fields by
    rw [Value.depth]
    omega
  induction fields with
  | nil => cases h
  | cons head rest ih =>
      rw [fieldsDepth]
      rcases List.mem_cons.1 h with rfl | h
      · exact Nat.le_max_left _ _
      · exact Nat.le_trans (ih h) (Nat.le_max_right _ _)

/-- Containers are nested as deeply as their members, and once more. -/
theorem fieldsDepth_le_iff {fields : List (String × Value)} {bound : Nat} :
    fieldsDepth fields ≤ bound ↔ ∀ field ∈ fields, field.2.depth ≤ bound := by
  induction fields with
  | nil => simp [fieldsDepth]
  | cons head rest ih => rw [fieldsDepth, Nat.max_le, ih, List.forall_mem_cons]

theorem itemsDepth_le_iff {items : List Value} {bound : Nat} :
    itemsDepth items ≤ bound ↔ ∀ item ∈ items, item.depth ≤ bound := by
  induction items with
  | nil => simp [itemsDepth]
  | cons head rest ih => rw [itemsDepth, Nat.max_le, ih, List.forall_mem_cons]

namespace Value

@[elab_as_elim]
theorem memberInduction {motive : Value → Prop} (null : motive .null)
    (bool : ∀ b, motive (.bool b)) (number : ∀ n, motive (.number n))
    (text : ∀ s, motive (.text s))
    (list : ∀ items, (∀ item ∈ items, motive item) → motive (.list items))
    (record : ∀ fields : List (String × Value),
      (∀ field ∈ fields, motive field.2) → motive (.record fields)) :
    ∀ v, motive v
  | .null => null
  | .bool b => bool b
  | .number n => number n
  | .text s => text s
  | .list items =>
      list items fun item _ => memberInduction null bool number text list record item
  | .record fields =>
      record fields fun field _ => memberInduction null bool number text list record field.2
termination_by v => v.depth
decreasing_by
  · exact depth_lt_of_mem_list ‹_›
  · exact depth_lt_of_mem_record ‹_›

/-- No record in the value repeats a name. -/
inductive HasDistinctNames : Value → Prop where
  | null : HasDistinctNames .null
  | bool (b : Bool) : HasDistinctNames (.bool b)
  | number (n : Number) : HasDistinctNames (.number n)
  | text (s : String) : HasDistinctNames (.text s)
  | list {items : List Value} (members : ∀ item ∈ items, HasDistinctNames item) :
      HasDistinctNames (.list items)
  | record {fields : List (String × Value)} (names : (fields.map (·.1)).Nodup)
      (members : ∀ field ∈ fields, HasDistinctNames field.2) : HasDistinctNames (.record fields)

end Value

/-! ## Canonical forms -/

/-- The fields with the canonical forms of their values, still in their order. -/
def canonicalMembers (fields : List (String × Value)) : List (String × Value) :=
  fields.map fun field => (field.1, field.2.canonical)

@[simp]
theorem map_fst_canonicalMembers (fields : List (String × Value)) :
    (canonicalMembers fields).map (·.1) = fields.map (·.1) := by
  simp [canonicalMembers, Function.comp_def]

theorem canonicalItems_eq (items : List Value) :
    canonicalItems items = items.map Value.canonical := by
  induction items with
  | nil => rfl
  | cons item rest ih => rw [canonicalItems, ih, List.map_cons]

theorem canonicalFields_eq (fields : List (String × Value)) (t : Table Value) :
    canonicalFields fields t.entries =
      ((canonicalMembers fields).foldl (fun t entry => t.insert entry.1 entry.2) t).entries := by
  induction fields generalizing t with
  | nil => rfl
  | cons head rest ih => exact ih (t.insert head.1 head.2.canonical)

namespace Value

@[simp]
theorem canonical_list (items : List Value) :
    (Value.list items).canonical = .list (items.map canonical) := by
  rw [canonical, canonicalItems_eq]

theorem canonical_record (fields : List (String × Value)) :
    (Value.record fields).canonical = .record (Table.ofList (canonicalMembers fields)).entries :=
  congrArg Value.record (canonicalFields_eq fields Table.empty)

theorem canonical_canonical (v : Value) : v.canonical.canonical = v.canonical := by
  induction v using memberInduction with
  | null => rfl
  | bool b => rfl
  | number n => rfl
  | text s => rfl
  | list items ih =>
      rw [canonical_list, canonical_list, List.map_map]
      exact congrArg Value.list (List.map_congr_left ih)
  | record fields ih =>
      have hmembers : canonicalMembers (Table.ofList (canonicalMembers fields)).entries =
          (Table.ofList (canonicalMembers fields)).entries := by
        refine (List.map_congr_left (g := id) fun entry hentry => ?_).trans (List.map_id _)
        obtain ⟨field, hfield, rfl⟩ := List.mem_map.1 (Table.mem_of_mem_ofList hentry)
        exact Prod.ext rfl (ih field hfield)
      rw [canonical_record, canonical_record, hmembers, Table.ofList_entries]

/-- A canonical form keeps no containers that were not there. -/
theorem depth_canonical_le (v : Value) : v.canonical.depth ≤ v.depth := by
  induction v using memberInduction with
  | null => exact Nat.le_refl _
  | bool b => exact Nat.le_refl _
  | number n => exact Nat.le_refl _
  | text s => exact Nat.le_refl _
  | list items ih =>
      rw [canonical_list, depth, depth, Nat.add_le_add_iff_right, itemsDepth_le_iff]
      intro item hitem
      obtain ⟨item, hmem, rfl⟩ := List.mem_map.1 hitem
      exact Nat.le_trans (ih item hmem) (itemsDepth_le_iff.1 (Nat.le_refl _) item hmem)
  | record fields ih =>
      rw [canonical_record, depth, depth, Nat.add_le_add_iff_right, fieldsDepth_le_iff]
      intro entry hentry
      obtain ⟨field, hfield, rfl⟩ := List.mem_map.1 (Table.mem_of_mem_ofList hentry)
      exact Nat.le_trans (ih field hfield) (fieldsDepth_le_iff.1 (Nat.le_refl _) field hfield)

theorem hasDistinctNames_canonical (v : Value) : v.canonical.HasDistinctNames := by
  induction v using memberInduction with
  | null => exact .null
  | bool b => exact .bool b
  | number n => exact .number n
  | text s => exact .text s
  | list items ih =>
      rw [canonical_list]
      refine .list fun item hitem => ?_
      obtain ⟨item, hmem, rfl⟩ := List.mem_map.1 hitem
      exact ih item hmem
  | record fields ih =>
      rw [canonical_record]
      refine .record (Table.inOrder _).nodup_names fun entry hentry => ?_
      obtain ⟨field, hfield, rfl⟩ := List.mem_map.1 (Table.mem_of_mem_ofList hentry)
      exact ih field hfield

/-! ## The order of fields -/

/-- The order of fields is lost. -/
theorem canonical_of_perm {fields others : List (String × Value)} (hperm : fields.Perm others)
    (hnames : (fields.map (·.1)).Nodup) :
    (Value.record fields).canonical = (Value.record others).canonical := by
  rw [canonical_record, canonical_record, canonicalMembers, Table.ofList_of_perm (hperm.map _)]
  · rfl
  · rwa [← canonicalMembers, map_fst_canonicalMembers]

/-- Nothing but the order is lost where no name is repeated. -/
theorem canonical_record_perm {fields : List (String × Value)}
    (hnames : (fields.map (·.1)).Nodup) :
    (Table.ofList (canonicalMembers fields)).entries.Perm (canonicalMembers fields) :=
  Table.entries_ofList_perm (by rwa [map_fst_canonicalMembers])

end Value
end Statechart
