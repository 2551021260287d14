import Mathlib.Data.List.Perm.Subperm
import Statechart.Proofs.Value.Canonical
import Statechart.Proofs.Value.Comparison

/-!
# Equality of values

Values are equal that have equal members under the same indices and names, and in the end equal
numbers. Whether equality is passed on thus depends on the numbers alone.

- `equal_list_iff`, `equal_record_iff` : members that are equal
- `Value.Clashes`                      : different signed whole numbers that share a double
- `Value.equal_self`, `Value.equal_symm` : equality is reflexive and symmetric
- `Value.equal_iff_of_chain`           : and transitive, unless the ends clash
-/

namespace Statechart

/-! ## Members -/

/-- Two members that are both missing, or both there and equal. -/
abbrev EqualMembers : Option Value → Option Value → Prop :=
  Option.Rel fun (u v : Value) => u.equal v = true

theorem equalItems_iff {items others : List Value} :
    equalItems items others = true ↔ ∀ i : Nat, EqualMembers items[i]? others[i]? := by
  induction items generalizing others with
  | nil =>
      cases others with
      | nil => exact iff_of_true rfl fun _ => .none
      | cons other others => exact iff_of_false nofun fun h => nomatch h 0
  | cons item rest ih =>
      cases others with
      | nil => exact iff_of_false nofun fun h => nomatch h 0
      | cons other others =>
          rw [equalItems, Bool.and_eq_true, ih]
          constructor
          · rintro ⟨hhead, hrest⟩ (_ | i)
            · exact .some hhead
            · exact hrest i
          · intro h
            refine ⟨?_, fun i => h (i + 1)⟩
            cases h 0 with
            | some hhead => exact hhead

theorem equalFields_iff {fields others : List (String × Value)} :
    equalFields fields others = true ↔
      ∀ field ∈ fields, ∃ other, valueOf? field.1 others = some other ∧
        field.2.equal other = true := by
  induction fields with
  | nil => exact iff_of_true rfl nofun
  | cons head rest ih =>
      obtain ⟨name, value⟩ := head
      rw [equalFields, Bool.and_eq_true, ih, List.forall_mem_cons]
      refine and_congr_left' ?_
      cases hother : valueOf? name others with
      | none => exact iff_of_false nofun nofun
      | some other =>
          constructor
          · exact fun h => ⟨other, rfl, h⟩
          · rintro ⟨_, ⟨⟩, h⟩
            exact h

namespace Value

theorem equal_list_iff {items others : List Value} :
    (list items).equal (list others) = true ↔
      ∀ i : Nat, EqualMembers items[i]? others[i]? := by
  rw [equal, equalItems_iff]

section Records

variable {fields others : List (String × Value)}

/-- As many names on both sides, and all of the one side on the other: the same names. -/
theorem names_perm (hfields : (fields.map (·.1)).Nodup) (hlength : fields.length = others.length)
    (hmem : ∀ field ∈ fields, field.1 ∈ others.map (·.1)) :
    (fields.map (·.1)).Perm (others.map (·.1)) := by
  have hsubset : fields.map (·.1) ⊆ others.map (·.1) := by
    intro name hname
    obtain ⟨field, hfield, rfl⟩ := List.mem_map.1 hname
    exact hmem field hfield
  refine (List.subperm_of_subset hfields hsubset).perm_of_length_le ?_
  rw [List.length_map, List.length_map, hlength]

/-- Although only the fields of one side are looked for on the other. -/
theorem equal_record_iff (hfields : (fields.map (·.1)).Nodup)
    (hothers : (others.map (·.1)).Nodup) :
    (record fields).equal (record others) = true ↔
      ∀ name, EqualMembers (valueOf? name fields) (valueOf? name others) := by
  rw [equal, Bool.and_eq_true, beq_iff_eq, equalFields_iff]
  constructor
  · rintro ⟨hlength, hfound⟩ name
    have hperm := names_perm hfields hlength fun field hfield => by
      obtain ⟨other, hother, -⟩ := hfound field hfield
      exact List.mem_map_of_mem (f := (·.1)) (mem_of_valueOf?_eq_some hother)
    cases hvalue : valueOf? name fields with
    | none =>
        rw [valueOf?_eq_none_iff, hperm.mem_iff, ← valueOf?_eq_none_iff] at hvalue
        rw [hvalue]
        exact .none
    | some value =>
        obtain ⟨other, hother, hequal⟩ := hfound _ (mem_of_valueOf?_eq_some hvalue)
        rw [hother]
        exact .some hequal
  · intro h
    have hfound : ∀ field ∈ fields, ∃ other, valueOf? field.1 others = some other ∧
        field.2.equal other = true := by
      rintro ⟨name, value⟩ hfield
      have hname := h name
      rw [(valueOf?_eq_some_iff hfields).2 hfield] at hname
      generalize valueOf? name others = found at hname
      cases hname with
      | some hequal => exact ⟨_, rfl, hequal⟩
    refine ⟨?_, hfound⟩
    have hmem : ∀ name, name ∈ fields.map (·.1) ↔ name ∈ others.map (·.1) := by
      intro name
      rw [← not_iff_not, ← valueOf?_eq_none_iff, ← valueOf?_eq_none_iff]
      have hname := h name
      generalize valueOf? name fields = value at *
      generalize valueOf? name others = other at *
      cases hname with
      | some _ => exact iff_of_false nofun nofun
      | none => exact iff_of_true rfl rfl
    have hlength := ((List.perm_ext_iff_of_nodup hfields hothers).2 hmem).length_eq
    rwa [List.length_map, List.length_map] at hlength

end Records

/-! ## Reflexivity and symmetry -/

section Families

variable {ι : Type} {f g h : ι → Option Value}

theorem equalMembers_self (hself : ∀ i u, f i = some u → u.equal u = true) (i : ι) :
    EqualMembers (f i) (f i) := by
  cases hi : f i with
  | none => exact .none
  | some u => exact .some (hself i u hi)

theorem equalMembers_symm
    (hsymm : ∀ i u v, f i = some u → g i = some v → u.equal v = true → v.equal u = true)
    (hequal : ∀ i, EqualMembers (f i) (g i)) (i : ι) : EqualMembers (g i) (f i) := by
  have hi := hequal i
  generalize hu : f i = member at hi
  generalize hv : g i = other at hi
  cases hi with
  | none => exact .none
  | some h => exact .some (hsymm i _ _ hu hv h)

end Families

theorem equal_number_iff {a b : Number} :
    (number a).equal (number b) = true ↔ a.doubled = b.doubled ∧ ¬ a.Clash b := by
  rw [equal, beq_iff_eq, Number.compare?_eq_eq_iff]

theorem HasDistinctNames.of_getElem? {items : List Value} {i : Nat} {u : Value}
    (h : (Value.list items).HasDistinctNames) (hi : items[i]? = some u) : u.HasDistinctNames := by
  cases h with
  | list members => exact members u (List.mem_of_getElem? hi)

theorem HasDistinctNames.of_valueOf? {fields : List (String × Value)} {name : String} {u : Value}
    (h : (Value.record fields).HasDistinctNames) (hname : valueOf? name fields = some u) :
    u.HasDistinctNames := by
  cases h with
  | record names members => exact members _ (mem_of_valueOf?_eq_some hname)

theorem HasDistinctNames.nodup {fields : List (String × Value)}
    (h : (Value.record fields).HasDistinctNames) : (fields.map (·.1)).Nodup := by
  cases h with
  | record names members => exact names

theorem equal_self {u : Value} (hu : u.HasDistinctNames) : u.equal u = true := by
  induction u using memberInduction with
  | null => rfl
  | bool b => exact beq_self_eq_true b
  | number a => exact equal_number_iff.2 ⟨rfl, a.not_clash_self⟩
  | text s => exact beq_self_eq_true s
  | list items ih =>
      refine equal_list_iff.2 (equalMembers_self fun i u hi => ?_)
      exact ih u (List.mem_of_getElem? hi) (hu.of_getElem? hi)
  | record fields ih =>
      refine (equal_record_iff hu.nodup hu.nodup).2 (equalMembers_self fun name u hname => ?_)
      exact ih _ (mem_of_valueOf?_eq_some hname) (hu.of_valueOf? hname)

theorem equal_symm {u v : Value} (hu : u.HasDistinctNames) (hv : v.HasDistinctNames)
    (h : u.equal v = true) : v.equal u = true := by
  induction u using memberInduction generalizing v with
  | null =>
      cases v with
      | null => rfl
      | _ => cases h
  | bool b =>
      cases v with
      | bool c => exact beq_iff_eq.2 (beq_iff_eq.1 h).symm
      | _ => cases h
  | number a =>
      cases v with
      | number b =>
          obtain ⟨hdouble, hclash⟩ := equal_number_iff.1 h
          exact equal_number_iff.2 ⟨hdouble.symm, fun h => hclash h.symm⟩
      | _ => cases h
  | text s =>
      cases v with
      | text t => exact beq_iff_eq.2 (beq_iff_eq.1 h).symm
      | _ => cases h
  | list items ih =>
      cases v with
      | list others =>
          refine equal_list_iff.2 (equalMembers_symm (fun i u v hi hi' => ?_) (equal_list_iff.1 h))
          exact ih u (List.mem_of_getElem? hi) (hu.of_getElem? hi) (hv.of_getElem? hi')
      | _ => cases h
  | record fields ih =>
      cases v with
      | record others =>
          refine (equal_record_iff hv.nodup hu.nodup).2 (equalMembers_symm
            (fun name u v hname hname' => ?_) ((equal_record_iff hu.nodup hv.nodup).1 h))
          exact ih _ (mem_of_valueOf?_eq_some hname) (hu.of_valueOf? hname)
            (hv.of_valueOf? hname')
      | _ => cases h

/-! ## Transitivity -/

/-- Somewhere in the two values, under the same indices and names, there are different signed whole
numbers with the same double. -/
inductive Clashes : Value → Value → Prop where
  | number {a b : Number} (h : a.Clash b) : Clashes (.number a) (.number b)
  | list {items others : List Value} {i : Nat} {u v : Value} (hu : items[i]? = some u)
      (hv : others[i]? = some v) (h : Clashes u v) : Clashes (.list items) (.list others)
  | record {fields others : List (String × Value)} {name : String} {u v : Value}
      (hu : valueOf? name fields = some u) (hv : valueOf? name others = some v)
      (h : Clashes u v) : Clashes (.record fields) (.record others)

theorem clashes_number_iff {a b : Number} : (number a).Clashes (number b) ↔ a.Clash b :=
  ⟨fun | .number h => h, .number⟩

theorem clashes_list_iff {items others : List Value} :
    (list items).Clashes (list others) ↔
      ∃ (i : Nat) (u v : Value), items[i]? = some u ∧ others[i]? = some v ∧ u.Clashes v :=
  ⟨fun | .list hu hv h => ⟨_, _, _, hu, hv, h⟩, fun ⟨_, _, _, hu, hv, h⟩ => .list hu hv h⟩

theorem clashes_record_iff {fields others : List (String × Value)} :
    (record fields).Clashes (record others) ↔
      ∃ name u v, valueOf? name fields = some u ∧ valueOf? name others = some v ∧ u.Clashes v :=
  ⟨fun | .record hu hv h => ⟨_, _, _, hu, hv, h⟩, fun ⟨_, _, _, hu, hv, h⟩ => .record hu hv h⟩

/-- What holds of all members holds of their containers. -/
theorem equalMembers_iff_of_chain {ι : Type} {f g h : ι → Option Value}
    (hmembers : ∀ i u v w, f i = some u → g i = some v → h i = some w → u.equal v = true →
      v.equal w = true → (u.equal w = true ↔ ¬ u.Clashes w))
    (hfg : ∀ i, EqualMembers (f i) (g i)) (hgh : ∀ i, EqualMembers (g i) (h i)) :
    (∀ i, EqualMembers (f i) (h i)) ↔
      ¬ ∃ i u w, f i = some u ∧ h i = some w ∧ u.Clashes w := by
  push Not
  refine forall_congr' fun i => ?_
  have hi := hfg i
  have hi' := hgh i
  have hmember := hmembers i
  generalize f i = u at *
  generalize g i = v at *
  generalize h i = w at *
  cases hi with
  | none =>
      cases hi' with
      | none => exact iff_of_true .none nofun
  | some huv =>
      cases hi' with
      | some hvw =>
          have hends := hmember _ _ _ rfl rfl rfl huv hvw
          constructor
          · rintro (⟨h⟩ | _) _ _ ⟨⟩ ⟨⟩
            exact hends.1 h
          · exact fun h => .some (hends.2 (h _ _ rfl rfl))

theorem equal_iff_of_chain {u v w : Value} (hu : u.HasDistinctNames) (hv : v.HasDistinctNames)
    (hw : w.HasDistinctNames) (huv : u.equal v = true) (hvw : v.equal w = true) :
    u.equal w = true ↔ ¬ u.Clashes w := by
  induction u using memberInduction generalizing v w with
  | null =>
      cases v with
      | null =>
          cases w with
          | null => exact iff_of_true rfl nofun
          | _ => cases hvw
      | _ => cases huv
  | bool b =>
      cases v with
      | bool c =>
          cases w with
          | bool d =>
              exact iff_of_true (beq_iff_eq.2 ((beq_iff_eq.1 huv).trans (beq_iff_eq.1 hvw))) nofun
          | _ => cases hvw
      | _ => cases huv
  | number a =>
      cases v with
      | number b =>
          cases w with
          | number c =>
              have hdouble := (equal_number_iff.1 huv).1.trans (equal_number_iff.1 hvw).1
              rw [equal_number_iff, clashes_number_iff, and_iff_right hdouble]
          | _ => cases hvw
      | _ => cases huv
  | text s =>
      cases v with
      | text t =>
          cases w with
          | text r =>
              exact iff_of_true (beq_iff_eq.2 ((beq_iff_eq.1 huv).trans (beq_iff_eq.1 hvw))) nofun
          | _ => cases hvw
      | _ => cases huv
  | list items ih =>
      cases v with
      | list others =>
          cases w with
          | list more =>
              rw [equal_list_iff] at huv hvw
              rw [equal_list_iff, clashes_list_iff]
              refine equalMembers_iff_of_chain (fun i u v w hi hi' hi'' => ?_) huv hvw
              exact ih u (List.mem_of_getElem? hi) (hu.of_getElem? hi) (hv.of_getElem? hi')
                (hw.of_getElem? hi'')
          | _ => cases hvw
      | _ => cases huv
  | record fields ih =>
      cases v with
      | record others =>
          cases w with
          | record more =>
              rw [equal_record_iff hu.nodup hv.nodup] at huv
              rw [equal_record_iff hv.nodup hw.nodup] at hvw
              rw [equal_record_iff hu.nodup hw.nodup, clashes_record_iff]
              refine equalMembers_iff_of_chain (fun name u v w hi hi' hi'' => ?_) huv hvw
              exact ih _ (mem_of_valueOf?_eq_some hi) (hu.of_valueOf? hi) (hv.of_valueOf? hi')
                (hw.of_valueOf? hi'')
          | _ => cases hvw
      | _ => cases huv

/-- Equality is an equivalence on values in which no name is repeated, but for chains between
signed whole numbers that share a double: of these the ends are equal only if they are the same. -/
theorem equal_equivalence {u v w : Value} (hu : u.HasDistinctNames) (hv : v.HasDistinctNames)
    (hw : w.HasDistinctNames) :
    u.equal u = true ∧ u.equal v = v.equal u ∧
      (u.equal v = true → v.equal w = true → (u.equal w = true ↔ ¬ u.Clashes w)) :=
  ⟨equal_self hu, Bool.eq_iff_iff.2 ⟨equal_symm hu hv, equal_symm hv hu⟩,
    equal_iff_of_chain hu hv hw⟩

/-- A point with whole coordinates. -/
def point : Value := .record [("x", .ofInt 1), ("y", .list [.ofInt 2])]

/-- The same with its coordinates as doubles, in the other order. -/
def pointOfDoubles : Value :=
  .record [("y", .list [.number (.real 2.0 (by decide +kernel))]),
    ("x", .number (.real 1.0 (by decide +kernel)))]

theorem point_equal : pointOfDoubles.equal point = true ∧ ¬ point.Clashes point :=
  have hpoint : point.HasDistinctNames := .record (by decide)
    (List.forall_mem_cons.2 ⟨.number _, List.forall_mem_singleton.2
      (.list (List.forall_mem_singleton.2 (.number _)))⟩)
  have hdoubles : pointOfDoubles.HasDistinctNames := .record (by decide)
    (List.forall_mem_cons.2 ⟨.list (List.forall_mem_singleton.2 (.number _)),
      List.forall_mem_singleton.2 (.number _)⟩)
  have hthere : point.equal pointOfDoubles = true := by decide +kernel
  have hback := (equal_equivalence hpoint hdoubles hpoint).2.1 ▸ hthere
  ⟨hback, ((equal_equivalence hpoint hdoubles hpoint).2.2 hthere hback).1
    (equal_equivalence hpoint hdoubles hpoint).1⟩

/-- Two neighbours that no double tells apart: both equal the double between, but differ. -/
theorem not_equal_of_chain :
    (ofInt 9007199254740993).equal (.number (.real 9007199254740992.0 (by decide +kernel))) = true ∧
      (Value.number (.real 9007199254740992.0 (by decide +kernel))).equal
        (ofInt 9007199254740992) = true ∧
      (ofInt 9007199254740993).equal (ofInt 9007199254740992) = false := by
  decide +kernel

end Value
end Statechart
