import Statechart.Table.Lemmas

/-!
# What a scan finds

Names are in bytewise order, so the names that begin with a text stand side by side, and no name
below the text is one of them. A scan, which stops at the first other name, finds all of them.

- `beginsWith_iff`         : a name begins with a text
- `Table.exists_cut`       : a scan is cut out of the table in one piece
- `Table.scan_eq_filter`   : a scan finds what a search of the whole table finds
- `Table.mem_scan_iff`     : its members
- `Table.scan_congr`       : it depends on the names with the text alone
-/

namespace Statechart

/-! ## Texts at the beginning of others -/

/-- No text is below one of its beginnings. -/
theorem not_lt_of_isPrefix {stem name : List Char} (h : stem <+: name) : ¬ name < stem := by
  induction stem generalizing name with
  | nil => exact List.not_lt_nil name
  | cons c rest ih =>
      obtain ⟨after, rfl⟩ := h
      intro hlt
      rcases List.cons_lt_cons_iff.1 hlt with hc | ⟨-, hrest⟩
      · exact Std.lt_irrefl hc
      · exact ih (List.prefix_append rest after) hrest

/-- Between a text and what begins with it everything begins with it. -/
theorem isPrefix_of_between {stem name later : List Char} (hlater : stem <+: later)
    (hstem : ¬ name < stem) (hlt : name < later) : stem <+: name := by
  induction stem generalizing name later with
  | nil => exact List.nil_prefix
  | cons c rest ih =>
      obtain ⟨after, rfl⟩ := hlater
      cases name with
      | nil => exact absurd (List.nil_lt_cons c rest) hstem
      | cons d others =>
          -- the first letters agree, since either order of them is excluded
          rcases List.cons_lt_cons_iff.1 hlt with hdc | ⟨rfl, hothers⟩
          · exact absurd (List.cons_lt_cons_iff.2 (.inl hdc)) hstem
          · have hrest : ¬ others < rest := fun h =>
              hstem (List.cons_lt_cons_iff.2 (.inr ⟨rfl, h⟩))
            exact (List.cons_prefix_cons).2
              ⟨rfl, ih (List.prefix_append rest after) hrest hothers⟩

namespace Table

theorem beginsWith_iff {stem name : String} :
    beginsWith stem name = true ↔ stem.toList <+: name.toList :=
  List.isPrefixOf_iff_prefix

/-! ## Scans -/

/-- What holds of a name only if it holds of all earlier ones fails from its first failure on. -/
theorem eq_false_of_mem_dropWhile {entries : List (String × α)} {p : String × α → Bool}
    (h : InOrder entries)
    (hp : ∀ a ∈ entries, ∀ b ∈ entries, a.1 < b.1 → p b = true → p a = true) :
    ∀ entry ∈ entries.dropWhile p, p entry = false := by
  induction entries with
  | nil =>
      intro entry hin
      cases hin
  | cons head rest ih =>
      obtain ⟨hhead, hrest⟩ := List.pairwise_cons.1 h
      cases hfirst : p head with
      | true =>
          rw [List.dropWhile_cons_of_pos hfirst]
          exact ih hrest fun a ha b hb =>
            hp a (List.mem_cons_of_mem _ ha) b (List.mem_cons_of_mem _ hb)
      | false =>
          rw [List.dropWhile_cons_of_neg (Bool.eq_false_iff.1 hfirst)]
          intro entry hin
          rcases List.mem_cons.1 hin with rfl | hin
          · exact hfirst
          · refine Bool.eq_false_iff.2 fun hentry => ?_
            rw [hp head List.mem_cons_self entry (List.mem_cons_of_mem _ hin)
              (hhead entry hin) hentry] at hfirst
            cases hfirst

theorem beginsWith_eq_false_of_lt {stem name : String} (h : name < stem) :
    beginsWith stem name = false :=
  Bool.eq_false_iff.2 fun hbegins => not_lt_of_isPrefix (beginsWith_iff.1 hbegins) h

/-- A scan is cut out of the table in one piece: before it are the names below the text, after it
those above the text that do not begin with it. -/
theorem exists_cut (t : Table α) (stem : String) :
    ∃ below above, t.entries = below ++ t.scan stem ++ above ∧
      (∀ entry ∈ below, entry.1 < stem) ∧
      ∀ entry ∈ above, stem < entry.1 ∧ beginsWith stem entry.1 = false := by
  obtain ⟨entries, h⟩ := t
  have hlater : ∀ entry ∈ entries.dropWhile (fun entry => decide (entry.1 < stem)),
      ¬ entry.1 < stem := by
    intro entry hin
    refine of_decide_eq_false (eq_false_of_mem_dropWhile h (fun a _ b _ hab hb => ?_) entry hin)
    exact decide_eq_true (String.lt_trans hab (of_decide_eq_true hb))
  have hrest : InOrder (entries.dropWhile fun entry => decide (entry.1 < stem)) :=
    List.Pairwise.sublist (List.dropWhile_sublist _) h
  refine ⟨entries.takeWhile fun entry => decide (entry.1 < stem),
    (entries.dropWhile fun entry => decide (entry.1 < stem)).dropWhile
      fun entry => beginsWith stem entry.1, ?_, fun entry hin => ?_, fun entry hin => ?_⟩
  · rw [scan, List.append_assoc, List.takeWhile_append_dropWhile, List.takeWhile_append_dropWhile]
  · exact of_decide_eq_true (List.all_eq_true.1 List.all_takeWhile entry hin)
  · -- a later name that began with the text would have none between itself and the text
    have hnot : beginsWith stem entry.1 = false := by
      refine eq_false_of_mem_dropWhile hrest (fun a ha b _ hab hb => ?_) entry hin
      exact beginsWith_iff.2 (isPrefix_of_between (beginsWith_iff.1 hb) (hlater a ha) hab)
    refine ⟨?_, hnot⟩
    rcases Std.lt_trichotomy stem entry.1 with habove | rfl | hbelow
    · exact habove
    · rw [beginsWith_iff.2 List.prefix_rfl] at hnot
      cases hnot
    · exact absurd hbelow (hlater entry (List.dropWhile_subset _ hin))

theorem scan_eq_filter (t : Table α) (stem : String) :
    t.scan stem = t.entries.filter fun entry => beginsWith stem entry.1 := by
  obtain ⟨below, above, hcut, hbelow, habove⟩ := t.exists_cut stem
  have hscan : ∀ entry ∈ t.scan stem, beginsWith stem entry.1 = true :=
    List.all_eq_true.1 List.all_takeWhile
  have hnone : ∀ entry ∈ below, ¬ beginsWith stem entry.1 = true := fun entry hin =>
    Bool.eq_false_iff.1 (beginsWith_eq_false_of_lt (hbelow entry hin))
  have hnone' : ∀ entry ∈ above, ¬ beginsWith stem entry.1 = true := fun entry hin =>
    Bool.eq_false_iff.1 (habove entry hin).2
  rw [hcut, List.filter_append, List.filter_append, List.filter_eq_self.2 hscan,
    List.filter_eq_nil_iff.2 hnone, List.filter_eq_nil_iff.2 hnone', List.nil_append,
    List.append_nil]

theorem mem_scan_iff {t : Table α} {stem name : String} {value : α} :
    (name, value) ∈ t.scan stem ↔ stem.toList <+: name.toList ∧ t.get? name = some value := by
  rw [scan_eq_filter, List.mem_filter, mem_entries_iff, beginsWith_iff]
  exact And.comm

/-- Two tables that agree on the names that begin with a text have the same scan. -/
theorem scan_congr {t u : Table α} {stem : String}
    (h : ∀ name, stem.toList <+: name.toList → t.get? name = u.get? name) :
    t.scan stem = u.scan stem := by
  have hmem : ∀ entry, entry ∈ t.scan stem ↔ entry ∈ u.scan stem := by
    intro (name, value)
    rw [mem_scan_iff, mem_scan_iff]
    exact and_congr_right fun hstem => by rw [h name hstem]
  rw [scan_eq_filter, scan_eq_filter] at hmem ⊢
  exact InOrder.eq_of_mem_iff (t.inOrder.filter _) (u.inOrder.filter _) hmem

end Table

end Statechart
