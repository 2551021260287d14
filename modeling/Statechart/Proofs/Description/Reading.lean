import Statechart.Description.Reading
import Statechart.Proofs.Value.Canonical

/-!
# Readers and their budgets

What a field is read from, and that actions and graphs are read alike on every budget that
suffices.

- `required?_of_answers`, `optional?_of_answers` : a field is what its occurrences are read as
- `readList?_congr`, `readCase?_congr`           : readers that agree on the parts
- `Action.read?_record`, `Graph.read?_record`    : one equation for each recursive reader
-/

namespace Statechart

/-! ## Occurrences of a field -/

namespace Shape

@[simp]
theorem readFields?_record (fields : List (String × Value)) :
    readFields? (.record fields) = some fields := rfl

@[simp]
theorem written_nil (name : String) : written name ([] : List (String × α)) = [] := rfl

@[simp]
theorem written_cons (name own : String) (v : α) (fields : List (String × α)) :
    written name ((own, v) :: fields) =
      if own = name then v :: written name fields else written name fields := by
  by_cases h : own = name <;> simp [written, h]

@[simp]
theorem written_append (name : String) (fields others : List (String × α)) :
    written name (fields ++ others) = written name fields ++ written name others := by
  simp [written]

theorem mem_of_mem_written {name : String} {v : α} {fields : List (String × α)}
    (h : v ∈ written name fields) : (name, v) ∈ fields := by
  obtain ⟨⟨own, v⟩, hmem, rfl⟩ := List.mem_map.1 h
  obtain ⟨hmem, hown⟩ := List.mem_filter.1 hmem
  rwa [← eq_of_beq hown]

theorem written_eq_nil {name : String} {fields : List (String × α)}
    (h : name ∉ fields.map (·.1)) : written name fields = [] :=
  List.eq_nil_iff_forall_not_mem.2 fun _ hmem =>
    h (List.mem_map.2 ⟨_, mem_of_mem_written hmem, rfl⟩)

theorem written_perm (name : String) {fields others : List (String × α)}
    (h : fields.Perm others) : (written name fields).Perm (written name others) :=
  (h.filter _).map _

theorem written_canonicalMembers (name : String) (fields : List (String × Value)) :
    written name (canonicalMembers fields) = (written name fields).map Value.canonical := by
  induction fields with
  | nil => rfl
  | cons head rest ih =>
      rw [canonicalMembers, List.map_cons, ← canonicalMembers, written_cons, written_cons, ih]
      split <;> rfl

section Answers

variable {name : String} {fields others : List (String × σ)} {read read' : σ → Option α}

/-- A required field is what its occurrences are read as, in any order. -/
theorem required?_of_answers
    (h : ((written name fields).map read).Perm ((written name others).map read')) :
    required? name read fields = required? name read' others := by
  unfold required?
  generalize written name fields = vs at h
  generalize written name others = ws at h
  match vs, ws, h.length_eq with
  | [], [], _ => rfl
  | [v], [w], _ => simpa using h
  | _ :: _ :: _, _ :: _ :: _, _ => rfl

/-- So is a field that may be left out. -/
theorem optional?_of_answers (default : α)
    (h : ((written name fields).map read).Perm ((written name others).map read')) :
    optional? name default read fields = optional? name default read' others := by
  unfold optional?
  generalize written name fields = vs at h
  generalize written name others = ws at h
  match vs, ws, h.length_eq with
  | [], [], _ => rfl
  | [v], [w], _ => simpa using h
  | _ :: _ :: _, _ :: _ :: _, _ => rfl

theorem required?_congr (h : ∀ v, (name, v) ∈ fields → read v = read' v) :
    required? name read fields = required? name read' fields :=
  required?_of_answers (.of_eq (List.map_congr_left fun v hv => h v (mem_of_mem_written hv)))

theorem optional?_congr (default : α) (h : ∀ v, (name, v) ∈ fields → read v = read' v) :
    optional? name default read fields = optional? name default read' fields :=
  optional?_of_answers default
    (.of_eq (List.map_congr_left fun v hv => h v (mem_of_mem_written hv)))

end Answers

/-- A list is read item by item. -/
theorem readList?_of_answers {read read' : Value → Option α} {items others : List Value}
    (h : items.map read = others.map read') :
    readList? read (.list items) = readList? read' (.list others) := by
  have hmap : ∀ (read : Value → Option α) (items : List Value),
      items.mapM read = (items.map read).mapM id := fun read items => by
    rw [List.mapM_map, Function.id_comp]
  rw [readList?, readList?, hmap, hmap, h]

theorem readList?_congr {read read' : Value → Option α} {v : Value}
    (h : ∀ w, w.depth < v.depth → read w = read' w) : readList? read v = readList? read' v := by
  cases v with
  | list items =>
      exact readList?_of_answers
        (List.map_congr_left fun item hitem => h item (depth_lt_of_mem_list hitem))
  | _ => rfl

end Shape

/-! ## Budgets -/

namespace Description

open Shape

theorem readCase?_congr {read read' : Value → Option Action} {v : Value}
    (h : ∀ w, w.depth < v.depth → read w = read' w) : readCase? read v = readCase? read' v := by
  cases v with
  | record fields =>
      have haction : required? "action" read fields = required? "action" read' fields :=
        required?_congr fun w hw => h w (depth_lt_of_mem_record hw)
      simp only [readCase?, readFields?_record, Option.bind_eq_bind, Option.bind_some, haction]
  | _ => rfl

theorem Action.ofKind?_congr {read read' : Value → Option Action} (kind : String)
    {fields : List (String × Value)}
    (h : ∀ w, w.depth < (Value.record fields).depth → read w = read' w) :
    ofKind? read kind fields = ofKind? read' kind fields := by
  have haction : required? "action" read fields = required? "action" read' fields :=
    required?_congr fun w hw => h w (depth_lt_of_mem_record hw)
  have hcases : required? "cases" (readList? (readCase? read)) fields =
      required? "cases" (readList? (readCase? read')) fields :=
    required?_congr fun list hlist =>
      readList?_congr fun item hitem =>
        readCase?_congr fun w hw =>
          h w (Nat.lt_trans (Nat.lt_trans hw hitem) (depth_lt_of_mem_record hlist))
  simp only [ofKind?, haction, hcases]

theorem Action.ofFields?_congr {read read' : Value → Option Action} (byPlace : Bool)
    {fields : List (String × Value)}
    (h : ∀ w, w.depth < (Value.record fields).depth → read w = read' w) :
    ofFields? read byPlace fields = ofFields? read' byPlace fields := by
  simp only [ofFields?, ofKind?_congr _ h]

theorem Action.ofValue?_eq {n m : Nat} {v : Value} (hn : v.depth < n) (hm : v.depth < m)
    (byPlace : Bool) : ofValue? n byPlace v = ofValue? m byPlace v := by
  induction n generalizing m v byPlace with
  | zero => omega
  | succ n ih =>
      cases m with
      | zero => omega
      | succ m =>
          cases v with
          | record fields =>
              exact ofFields?_congr byPlace fun w hw => ih (by omega) (by omega) true
          | _ => rfl

theorem Action.read?_record (byPlace : Bool) (fields : List (String × Value)) :
    Action.read? byPlace (.record fields) = ofFields? (Action.read? true) byPlace fields :=
  ofFields?_congr byPlace fun _ hw => ofValue?_eq hw (Nat.lt_succ_self _) true

theorem Graph.ofFields?_congr {read read' : Value → Option Graph}
    {fields : List (String × Value)}
    (h : ∀ w, w.depth < (Value.record fields).depth → read w = read' w) :
    ofFields? read fields = ofFields? read' fields := by
  have hnested : optional? "nested" [] (readList? read) fields =
      optional? "nested" [] (readList? read') fields :=
    optional?_congr [] fun list hlist =>
      readList?_congr fun w hw => h w (Nat.lt_trans hw (depth_lt_of_mem_record hlist))
  simp only [ofFields?, hnested]

theorem Graph.ofValue?_eq {n m : Nat} {v : Value} (hn : v.depth < n) (hm : v.depth < m) :
    ofValue? n v = ofValue? m v := by
  induction n generalizing m v with
  | zero => omega
  | succ n ih =>
      cases m with
      | zero => omega
      | succ m =>
          cases v with
          | record fields => exact ofFields?_congr fun w hw => ih (by omega) (by omega)
          | _ => rfl

theorem Graph.read?_record (fields : List (String × Value)) :
    Graph.read? (.record fields) = ofFields? Graph.read? fields :=
  ofFields?_congr fun _ hw => ofValue?_eq hw (Nat.lt_succ_self _)

end Description
end Statechart
