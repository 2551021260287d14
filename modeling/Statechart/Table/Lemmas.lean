import Statechart.Table

/-!
# Look-ups in tables

What every operation does to `get?`, and that a table is what its look-ups are.

- `valueOf?_append`, `valueOf?_filter`      : look-ups in lists of entries
- `get?_insert`, `get?_erase`, `get?_empty` : one equation for each operation
- `get?_ofList`, `entries_ofList_perm`      : the table of a list without repeated names
- `mem_entries_iff`                         : the entries are the names that are found
- `Table.ext_get?`                          : tables with the same look-ups are equal
-/

namespace Statechart

/-! ## Entries -/

theorem valueOf?_insertEntry (name key : String) (value : α) (entries : List (String × α)) :
    valueOf? key (insertEntry name value entries) =
      if name = key then some value else valueOf? key entries := by
  induction entries with
  | nil => simp [insertEntry, valueOf?]
  | cons head rest ih =>
      obtain ⟨own, old⟩ := head
      simp only [insertEntry]
      split
      · simp [valueOf?]
      · split
        · rename_i heq
          subst heq
          by_cases h : name = key <;> simp [valueOf?, h]
        · rename_i hne
          by_cases hown : own = key
          · have hname : name ≠ key := fun h => hne (h.trans hown.symm)
            simp [valueOf?, hown, hname]
          · simp [valueOf?, hown, ih]

theorem valueOf?_eraseEntry (name key : String) (entries : List (String × α)) :
    valueOf? key (eraseEntry name entries) =
      if name = key then none else valueOf? key entries := by
  induction entries with
  | nil => simp [eraseEntry, valueOf?]
  | cons head rest ih =>
      obtain ⟨own, old⟩ := head
      simp only [eraseEntry] at ih ⊢
      by_cases hown : own = name
      · subst hown
        by_cases hkey : own = key
        · simpa [valueOf?, hkey] using ih
        · simpa [valueOf?, hkey] using ih
      · by_cases hkey : own = key
        · subst hkey
          have hname : name ≠ own := fun h => hown h.symm
          simp [valueOf?, hown, hname]
        · simp [valueOf?, hown, hkey, ih]

theorem mem_of_valueOf?_eq_some {name : String} {value : α} {entries : List (String × α)}
    (h : valueOf? name entries = some value) : (name, value) ∈ entries := by
  induction entries with
  | nil => simp [valueOf?] at h
  | cons head rest ih =>
      obtain ⟨own, old⟩ := head
      simp only [valueOf?] at h
      split at h
      · rename_i heq
        subst heq
        simp only [Option.some.injEq] at h
        simp [h]
      · exact List.mem_cons_of_mem _ (ih h)

theorem InOrder.valueOf?_eq_some {name : String} {value : α} {entries : List (String × α)}
    (h : InOrder entries) (hmem : (name, value) ∈ entries) :
    valueOf? name entries = some value := by
  induction entries with
  | nil => simp at hmem
  | cons head rest ih =>
      obtain ⟨own, old⟩ := head
      obtain ⟨hhead, hrest⟩ := List.pairwise_cons.1 h
      rcases List.mem_cons.1 hmem with heq | hmem
      · simp_all [valueOf?]
      · have hlt : own < name := hhead _ hmem
        have hne : own ≠ name := fun heq => Std.lt_irrefl (heq ▸ hlt)
        simp [valueOf?, hne, ih hrest hmem]

theorem valueOf?_append (entries others : List (String × α)) (name : String) :
    valueOf? name (entries ++ others) = (valueOf? name entries).or (valueOf? name others) := by
  induction entries with
  | nil => rfl
  | cons head rest ih =>
      simp only [List.cons_append, valueOf?]
      split
      · rfl
      · exact ih

theorem valueOf?_eq_none_iff {entries : List (String × α)} {name : String} :
    valueOf? name entries = none ↔ name ∉ entries.map (·.1) := by
  induction entries with
  | nil => simp [valueOf?]
  | cons head rest ih =>
      simp only [valueOf?, List.map_cons, List.mem_cons, not_or]
      split
      · rename_i heq
        simp [heq]
      · rename_i hne
        simp [ih, Ne.symm hne]

theorem isSome_valueOf? {entries : List (String × α)} {name : String}
    (h : name ∈ entries.map (·.1)) : (valueOf? name entries).isSome = true := by
  cases hvalue : valueOf? name entries with
  | none => exact absurd h (valueOf?_eq_none_iff.1 hvalue)
  | some value => rfl

/-- Entries of other names may be left out. -/
theorem valueOf?_filter {name : String} {keeps : String × α → Bool}
    (h : ∀ value, keeps (name, value) = true) (entries : List (String × α)) :
    valueOf? name (entries.filter keeps) = valueOf? name entries := by
  induction entries with
  | nil => rfl
  | cons head rest ih =>
      obtain ⟨own, old⟩ := head
      by_cases hown : own = name
      · subst hown
        simp [h, valueOf?]
      · rw [List.filter_cons]
        split <;> simp [valueOf?, hown, ih]

/-- Where no name is repeated any entry is the one that is found. -/
theorem valueOf?_eq_some_iff {entries : List (String × α)} (h : (entries.map (·.1)).Nodup)
    {name : String} {value : α} :
    valueOf? name entries = some value ↔ (name, value) ∈ entries := by
  refine ⟨mem_of_valueOf?_eq_some, fun hmem => ?_⟩
  induction entries with
  | nil => cases hmem
  | cons head rest ih =>
      obtain ⟨hhead, hrest⟩ := List.nodup_cons.1 h
      rcases List.mem_cons.1 hmem with rfl | hmem
      · simp [valueOf?]
      · have hne : head.1 ≠ name := by
          rintro rfl
          exact hhead (List.mem_map.2 ⟨_, hmem, rfl⟩)
        rw [valueOf?, if_neg hne]
        exact ih hrest hmem

/-- Entries in order have different names. -/
theorem InOrder.nodup_names {entries : List (String × α)} (h : InOrder entries) :
    (entries.map (·.1)).Nodup := by
  refine List.pairwise_map.2 (h.imp fun hlt heq => ?_)
  rw [heq] at hlt
  exact Std.lt_irrefl hlt

theorem nodup_of_nodup_names {entries : List (String × α)} (h : (entries.map (·.1)).Nodup) :
    entries.Nodup :=
  (List.pairwise_map.1 h).imp fun hne heq => hne (congrArg (·.1) heq)

/-- Two lists in order with the same members are equal. -/
theorem InOrder.eq_of_mem_iff {entries others : List (String × α)} (h : InOrder entries)
    (h' : InOrder others) (hmem : ∀ entry, entry ∈ entries ↔ entry ∈ others) :
    entries = others := by
  induction entries generalizing others with
  | nil =>
      cases others with
      | nil => rfl
      | cons head rest => simpa using (hmem head).2 List.mem_cons_self
  | cons head rest ih =>
      cases others with
      | nil => simpa using (hmem head).1 List.mem_cons_self
      | cons head' rest' =>
          obtain ⟨hhead, hrest⟩ := List.pairwise_cons.1 h
          obtain ⟨hhead', hrest'⟩ := List.pairwise_cons.1 h'
          have heq : head = head' := by
            rcases List.mem_cons.1 ((hmem head).1 List.mem_cons_self) with heq | hin
            · exact heq
            · rcases List.mem_cons.1 ((hmem head').2 List.mem_cons_self) with heq | hin'
              · exact heq.symm
              · exact absurd (String.lt_trans (hhead' _ hin) (hhead _ hin')) (Std.lt_irrefl)
          subst heq
          congr 1
          refine ih hrest hrest' fun entry => ⟨fun hin => ?_, fun hin => ?_⟩
          · rcases List.mem_cons.1 ((hmem entry).1 (List.mem_cons_of_mem _ hin)) with heq | hin'
            · exact absurd (heq ▸ hhead _ hin) Std.lt_irrefl
            · exact hin'
          · rcases List.mem_cons.1 ((hmem entry).2 (List.mem_cons_of_mem _ hin)) with heq | hin'
            · exact absurd (heq ▸ hhead' _ hin) Std.lt_irrefl
            · exact hin'

/-! ## Tables -/

namespace Table

@[simp]
theorem get?_empty (name : String) : (empty : Table α).get? name = none := rfl

theorem get?_insert (t : Table α) (name key : String) (value : α) :
    (t.insert name value).get? key = if name = key then some value else t.get? key :=
  valueOf?_insertEntry name key value t.entries

theorem get?_erase (t : Table α) (name key : String) :
    (t.erase name).get? key = if name = key then none else t.get? key :=
  valueOf?_eraseEntry name key t.entries

@[simp]
theorem get?_insert_self (t : Table α) (name : String) (value : α) :
    (t.insert name value).get? name = some value := by
  simp [get?_insert]

@[simp]
theorem get?_erase_self (t : Table α) (name : String) : (t.erase name).get? name = none := by
  simp [get?_erase]

theorem contains_insert (t : Table α) (name key : String) (value : α) :
    (t.insert name value).contains key = (decide (name = key) || t.contains key) := by
  unfold contains
  rw [get?_insert]
  split <;> simp_all

theorem mem_entries_iff {t : Table α} {name : String} {value : α} :
    (name, value) ∈ t.entries ↔ t.get? name = some value :=
  ⟨t.inOrder.valueOf?_eq_some, mem_of_valueOf?_eq_some⟩

/-- Of a list without repeated names a table has the values of the list. -/
theorem get?_ofList {entries : List (String × α)} (h : (entries.map (·.1)).Nodup)
    (name : String) : (ofList entries).get? name = valueOf? name entries := by
  -- the entries that are still to come win over those that are there
  have hfrom : ∀ t : Table α,
      (entries.foldl (fun t entry => t.insert entry.1 entry.2) t).get? name =
        (valueOf? name entries).or (t.get? name) := by
    induction entries with
    | nil => exact fun t => rfl
    | cons head rest ih =>
        intro t
        obtain ⟨hhead, hrest⟩ := List.nodup_cons.1 h
        rw [List.foldl_cons, ih hrest, get?_insert, valueOf?]
        by_cases hname : head.1 = name
        · subst hname
          simp [valueOf?_eq_none_iff.2 hhead]
        · simp [hname]
  rw [ofList, hfrom, get?_empty, Option.or_none]

theorem ext_get? {t u : Table α} (h : ∀ name, t.get? name = u.get? name) : t = u := by
  have hentries : t.entries = u.entries :=
    t.inOrder.eq_of_mem_iff u.inOrder fun (name, value) => by
      rw [mem_entries_iff, mem_entries_iff, h]
  cases t
  cases u
  simp_all

theorem mem_ofList {entries : List (String × α)} (h : (entries.map (·.1)).Nodup)
    {entry : String × α} : entry ∈ (ofList entries).entries ↔ entry ∈ entries := by
  obtain ⟨name, value⟩ := entry
  rw [mem_entries_iff, get?_ofList h, valueOf?_eq_some_iff h]

/-- Nothing but the order is lost of a list without repeated names. -/
theorem entries_ofList_perm {entries : List (String × α)} (h : (entries.map (·.1)).Nodup) :
    (ofList entries).entries.Perm entries :=
  (List.perm_ext_iff_of_nodup (nodup_of_nodup_names (ofList entries).inOrder.nodup_names)
    (nodup_of_nodup_names h)).2 fun _ => mem_ofList h

/-- The order of a list without repeated names is lost. -/
theorem ofList_of_perm {entries others : List (String × α)} (hperm : entries.Perm others)
    (h : (entries.map (·.1)).Nodup) : ofList entries = ofList others := by
  have hentries : (ofList entries).entries = (ofList others).entries :=
    (ofList entries).inOrder.eq_of_mem_iff (ofList others).inOrder fun entry => by
      rw [mem_ofList h, mem_ofList ((hperm.map _).nodup_iff.1 h), hperm.mem_iff]
  exact ext_get? fun name => by rw [get?, get?, hentries]

theorem ofList_entries (t : Table α) : ofList t.entries = t :=
  ext_get? fun name => get?_ofList t.inOrder.nodup_names name

/-- Of repeated names a table keeps one. -/
theorem mem_of_mem_ofList {entries : List (String × α)} {entry : String × α}
    (h : entry ∈ (ofList entries).entries) : entry ∈ entries := by
  suffices hfrom : ∀ t : Table α,
      entry ∈ (entries.foldl (fun t entry => t.insert entry.1 entry.2) t).entries →
        entry ∈ t.entries ∨ entry ∈ entries from
    (hfrom empty h).resolve_left List.not_mem_nil
  clear h
  induction entries with
  | nil => exact fun t h => .inl h
  | cons head rest ih =>
      intro t h
      rcases ih (t.insert head.1 head.2) h with h | h
      · rcases mem_insertEntry h with rfl | h
        · exact .inr List.mem_cons_self
        · exact .inl h
      · exact .inr (List.mem_cons_of_mem _ h)

end Table

end Statechart
