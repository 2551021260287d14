import Statechart.Proofs.Context.Interchange
import Statechart.Context.Extent

/-!
# Flattened extents

Whatever can be seen through an extent, put into one flat record, is as good as the extent: every
name stands for the same, and so does every expression.

- `Memory.get_of_list`        : a layer answers for what it lists
- `Extent.visibleIn_spec`     : what is seen so far, and in the layers still to come
- `Extent.flattens`           : the record, its names and the expressions
-/

namespace Statechart

/-! ## Layers -/

theorem Memory.get_of_list {m : Memory} {id : LayerId} {entries : List (String × Value)}
    (h : m.list id = .ok entries) :
    (entries.map (·.1)).Nodup ∧ ∀ name, m.get id name =
      match valueOf? name entries with
      | some value => .ok value
      | none => .error (.notFound name) := by
  unfold list at h
  cases hl : m.layers[id]? with
  | none =>
      rw [hl] at h
      cases h
  | some l =>
      rw [hl] at h
      obtain ⟨t, rfl, hget⟩ := Layer.exists_table_of_list h
      refine ⟨t.inOrder.nodup_names, fun name => ?_⟩
      simp only [get, hl, hget]
      rfl

/-! ## Stacks of layers -/

namespace Extent

/-- What was seen stays; any other name is read from the layers still to come. -/
theorem visibleIn_spec {m : Memory} {ids : List LayerId}
    (h : ∀ id ∈ ids, ∃ entries, m.list id = .ok entries) {seen : List (String × Value)}
    (hseen : (seen.map (·.1)).Nodup) :
    ∃ out, visibleIn m ids seen = .ok out ∧ (out.map (·.1)).Nodup ∧ ∀ name,
      (∀ value, valueOf? name seen = some value → valueOf? name out = some value) ∧
      (valueOf? name seen = none → resolveIn m name ids = .ok (valueOf? name out)) := by
  induction ids generalizing seen with
  | nil => exact ⟨seen, rfl, hseen, fun name => ⟨fun _ => id, fun hnone => by rw [hnone]; rfl⟩⟩
  | cons id rest ih =>
      obtain ⟨entries, hlist⟩ := h id List.mem_cons_self
      obtain ⟨hnodup, hget⟩ := Memory.get_of_list hlist
      let fresh := entries.filter fun entry => (valueOf? entry.1 seen).isNone
      have hnames : ((seen ++ fresh).map (·.1)).Nodup := by
        rw [List.map_append]
        refine List.nodup_append.2 ⟨hseen, hnodup.sublist (List.filter_sublist.map _), ?_⟩
        rintro name hname own hown rfl
        obtain ⟨entry, hentry, rfl⟩ := List.mem_map.1 hown
        have hnone := Option.isNone_iff_eq_none.1 (List.mem_filter.1 hentry).2
        exact valueOf?_eq_none_iff.1 hnone hname
      obtain ⟨out, hout, hdistinct, hspec⟩ :=
        ih (fun other hother => h other (List.mem_cons_of_mem _ hother)) hnames
      refine ⟨out, by simp only [visibleIn, hlist]; exact hout, hdistinct, fun name => ⟨?_, ?_⟩⟩
      · intro value hvalue
        exact (hspec name).1 value (by rw [valueOf?_append, hvalue, Option.some_or])
      · intro hnone
        have hboth : valueOf? name (seen ++ fresh) = valueOf? name entries := by
          rw [valueOf?_append, hnone, Option.none_or]
          exact valueOf?_filter (fun _ => by simp [hnone]) entries
        simp only [resolveIn, hget]
        cases hentry : valueOf? name entries with
        | some value => rw [(hspec name).1 value (hboth.trans hentry)]
        | none => exact (hspec name).2 (hboth.trans hentry)

/-- An extent whose layers can all be listed shows every name once, with what the name stands for;
every expression has the same value, or fails alike, in the extent and in the record of what is
shown. -/
theorem flattens (m : Memory) (e : Extent)
    (h : ∀ id ∈ e.layers, ∃ entries, m.list id = .ok entries) :
    ∃ entries, e.visible m = .ok entries ∧ (entries.map (·.1)).Nodup ∧
      (∀ name value, (name, value) ∈ entries ↔ e.resolve m name = .ok (some value)) ∧
      ∀ x : Expression, x.evaluate (e.lookup m) =
        x.evaluate (Lookup.ofFields (Table.ofList entries).entries) := by
  have hdown : ∀ id ∈ e.downward, ∃ entries, m.list id = .ok entries := fun id hid =>
    h id (List.mem_reverse.1 hid)
  have hnil : (([] : List (String × Value)).map (·.1)).Nodup := List.nodup_nil
  obtain ⟨entries, hvisible, hnodup, hspec⟩ := visibleIn_spec hdown hnil
  have hresolve : ∀ name, e.resolve m name = .ok (valueOf? name entries) := fun name =>
    (hspec name).2 rfl
  have hlookup : e.lookup m = Lookup.ofFields (Table.ofList entries).entries := by
    funext name
    exact (hresolve name).trans (congrArg Except.ok (Table.get?_ofList hnodup name).symm)
  refine ⟨entries, hvisible, hnodup, fun name value => ?_, fun x => by rw [hlookup]⟩
  rw [hresolve, Except.ok.injEq, valueOf?_eq_some_iff hnodup]

/-! ### A shadow -/

/-- A namespace with `v` and `w`, and a layer in memory with another `v`. -/
def shadowed : Memory :=
  ⟨[.durable "s", .memory (Table.empty.insert "v" (.bool true))],
    ⟨⟨"", false, (Table.empty.insert "s/v" .null).insert "s/w" .null⟩, .fresh⟩⟩

theorem flattens_shadowed :
    (∀ id ∈ [0, 1], ∃ entries, shadowed.list id = .ok entries) ∧
      ∃ entries, (⟨[0, 1]⟩ : Extent).visible shadowed = .ok entries ∧
        (entries.map (·.1)).Nodup ∧
        (∀ name value, (name, value) ∈ entries ↔
          (⟨[0, 1]⟩ : Extent).resolve shadowed name = .ok (some value)) ∧
        ∀ x : Expression, x.evaluate ((⟨[0, 1]⟩ : Extent).lookup shadowed) =
          x.evaluate (Lookup.ofFields (Table.ofList entries).entries) := by
  have hlist : ∀ id ∈ [0, 1], ∃ entries, shadowed.list id = .ok entries := by
    intro id hid
    obtain rfl | rfl : id = 0 ∨ id = 1 := by simpa using hid
    · exact ⟨_, rfl⟩
    · exact ⟨_, rfl⟩
  exact ⟨hlist, flattens shadowed ⟨[0, 1]⟩ hlist⟩

example : (⟨[0, 1]⟩ : Extent).visible shadowed = .ok [("v", .bool true), ("w", .null)] := by rfl

end Extent

end Statechart
