import Mathlib.Data.List.Nodup
import Statechart.Proofs.Description.Forms

/-!
# Documents that are alike

Documents may differ in the order of fields, in fields that nothing knows, and in fields that are
spelled as the default they have when they are left out. None of this is read.

- `Alike`                 : no more than that is between two documents
- `Form.read?_of_perm`    : the order of fields does not count
- `Alike.read?_eq`        : documents that are alike are read alike
- `Form.read?_canonical`  : the canonical form of a document is read like the document
-/

namespace Statechart
namespace Description

open Shape

/-- Two documents in a place of some form differ in nothing but the order of fields, unknown
fields and fields that are spelled as their default, at any depth. -/
inductive Alike : Form → Value → Value → Prop where
  | refl (f : Form) (v : Value) : Alike f v v
  | symm {f : Form} {v w : Value} (h : Alike f v w) : Alike f w v
  | trans {f : Form} {u v w : Value} (h : Alike f u v) (h' : Alike f v w) : Alike f u w
  | order {f : Form} {fields others : List (String × Value)} (hperm : fields.Perm others)
      (hnames : (fields.map (·.1)).Nodup) : Alike f (.record fields) (.record others)
  | unknown {f : Form} {fields : List (String × Value)} {known : List Field} (name : String)
      (v : Value) (hknown : f.fields? fields = some known)
      (hname : name ∉ known.map Field.name) :
      Alike f (.record fields) (.record ((name, v) :: fields))
  | spelled {f : Form} {fields : List (String × Value)} {known : List Field} (field : Field)
      (default : Value) (hknown : f.fields? fields = some known) (hfield : field ∈ known)
      (hdefault : field.default = some default) (hname : field.name ∉ fields.map (·.1)) :
      Alike f (.record fields) (.record ((field.name, default) :: fields))
  /-- Within a known field. -/
  | field {f : Form} {known : List Field} {v w : Value} (field : Field)
      (before after : List (String × Value))
      (hknown : f.fields? (before ++ (field.name, v) :: after) = some known)
      (hfield : field ∈ known) (h : Alike field.form v w) :
      Alike f (.record (before ++ (field.name, v) :: after))
        (.record (before ++ (field.name, w) :: after))
  /-- Within a field of a value all of whose fields count. -/
  | member {v w : Value} (name : String) (before after : List (String × Value))
      (h : Alike .any v w) :
      Alike .any (.record (before ++ (name, v) :: after)) (.record (before ++ (name, w) :: after))
  | item {f item : Form} {v w : Value} (before after : List Value) (hitem : f.item? = some item)
      (h : Alike item v w) :
      Alike f (.list (before ++ v :: after)) (.list (before ++ w :: after))

/-! ## Words -/

theorem readWord?_of_perm {fields others : List (String × Value)} (h : fields.Perm others) :
    readWord? isVoid (.record fields) = readWord? isVoid (.record others) := by
  match fields, others, h.length_eq with
  | [], [], _ => rfl
  | [field], [other], _ => rw [List.singleton_perm.1 h]
  | _ :: _ :: _, _ :: _ :: _, _ => rfl

theorem isVoid_record (fields : List (String × Value)) :
    isVoid (.record fields) = fields.isEmpty := by
  cases fields <;> rfl

theorem isVoid_canonical {v : Value} (h : v.HasDistinctNames) : isVoid v.canonical = isVoid v := by
  cases h with
  | record hnames _ =>
      rw [Value.canonical_record, isVoid_record, isVoid_record,
        (Value.canonical_record_perm hnames).isEmpty_eq, canonicalMembers, List.isEmpty_map]
  | _ => rfl

theorem readWord?_canonical {fields : List (String × Value)}
    (hnames : (fields.map (·.1)).Nodup)
    (members : ∀ field ∈ fields, field.2.HasDistinctNames) :
    readWord? isVoid (Value.record fields).canonical = readWord? isVoid (.record fields) := by
  rw [Value.canonical_record, readWord?_of_perm (Value.canonical_record_perm hnames)]
  match fields with
  | [] => rfl
  | [(name, v)] =>
      have hvoid : isVoid v.canonical = isVoid v := isVoid_canonical (members _ List.mem_cons_self)
      simp [canonicalMembers, readWord?, hvoid]
  | _ :: _ :: _ => rfl

namespace Form

/-- The known fields of a record have different names. -/
theorem nodup_fields {f : Form} {fields : List (String × Value)} {known : List Field}
    (hknown : f.fields? fields = some known) : (known.map Field.name).Nodup := by
  have hkind : ∀ kind, ("type" :: (Action.fields kind).map Field.name).Nodup := by
    intro kind
    unfold Action.fields
    repeat' split
    all_goals decide
  cases f with
  | action byPlace =>
      cases hknown
      cases required? "type" (readKind? byPlace) fields with
      | none => exact List.nodup_singleton _
      | some kind => exact hkind kind
  | declaration | event | case | transition | trigger | state | graph | collaboration =>
      cases hknown
      decide
  | _ => cases hknown

/-! ## The order of fields -/

theorem read?_of_perm (f : Form) {fields others : List (String × Value)}
    (hperm : fields.Perm others) (hnames : (fields.map (·.1)).Nodup) :
    f.read? (.record fields) = f.read? (.record others) := by
  have hfields : ∀ {known}, f.fields? fields = some known →
      f.read? (.record fields) = f.read? (.record others) := fun hknown =>
    read?_record hknown fun field _ => .of_answers ((written_perm field.name hperm).map _)
  cases f with
  | any => exact congrArg some (Value.canonical_of_perm hperm hnames)
  | channel => exact Option.bind_congr' (readWord?_of_perm hperm) fun _ _ => rfl
  | text | flag | kind | optionalText | list => rfl
  | _ => exact hfields rfl

/-- A field that is not known is not read. -/
theorem read?_cons_of_unknown {f : Form} {fields : List (String × Value)} {known : List Field}
    {name : String} (hknown : f.fields? fields = some known)
    (hname : name ∉ known.map Field.name) (v : Value) :
    f.read? (.record fields) = f.read? (.record ((name, v) :: fields)) := by
  refine read?_record hknown fun field hfield => .of_written ?_
  have hne : name ≠ field.name := by
    rintro rfl
    exact hname (List.mem_map_of_mem hfield)
  rw [written_cons, if_neg hne]

/-- A field that is left out is read like one that is spelled as its default. -/
theorem read?_cons_of_default {f : Form} {fields : List (String × Value)} {known : List Field}
    {field : Field} {default : Value} (hknown : f.fields? fields = some known)
    (hfield : field ∈ known) (hdefault : field.default = some default)
    (hname : field.name ∉ fields.map (·.1)) :
    f.read? (.record fields) = f.read? (.record ((field.name, default) :: fields)) := by
  refine read?_record hknown fun other hother => ?_
  by_cases hsame : other = field
  · subst hsame
    exact .of_default hdefault hname
  · have hne : field.name ≠ other.name := fun h =>
      hsame (List.inj_on_of_nodup_map (nodup_fields hknown) hother hfield h.symm)
    exact .of_written (by rw [written_cons, if_neg hne])

theorem read?_field {f : Form} {before after : List (String × Value)} {known : List Field}
    {field : Field} {v w : Value}
    (hknown : f.fields? (before ++ (field.name, v) :: after) = some known)
    (hfield : field ∈ known) (h : field.form.read? v = field.form.read? w) :
    f.read? (.record (before ++ (field.name, v) :: after)) =
      f.read? (.record (before ++ (field.name, w) :: after)) := by
  refine read?_record hknown fun other hother => ?_
  by_cases hsame : other = field
  · subst hsame
    exact .of_answers (.of_eq (by simp [written_append, written_cons, h]))
  · have hne : field.name ≠ other.name := fun h =>
      hsame (List.inj_on_of_nodup_map (nodup_fields hknown) hother hfield h.symm)
    exact .of_written (by simp [written_append, written_cons, hne])

/-- Where no list is expected none is read. -/
theorem read?_list_of_item? {f : Form} (hitem : f.item? = none) (items : List Value) :
    f.read? (.list items) = none := by
  cases f with
  | any | list => cases hitem
  | _ => rfl

theorem read?_item {f item : Form} {before after : List Value} {v w : Value}
    (hitem : f.item? = some item) (h : item.read? v = item.read? w) :
    f.read? (.list (before ++ v :: after)) = f.read? (.list (before ++ w :: after)) := by
  cases f with
  | any =>
      cases hitem
      have hcanonical : v.canonical = w.canonical := Option.some.inj h
      refine congrArg some ?_
      simp [hcanonical]
  | list =>
      cases hitem
      exact readList?_of_answers (by simp [h])
  | _ => cases hitem

end Form

/-- Documents that are alike are read alike. -/
theorem Alike.read?_eq {f : Form} {v w : Value} (h : Alike f v w) : f.read? v = f.read? w := by
  induction h with
  | refl => rfl
  | symm _ ih => exact ih.symm
  | trans _ _ ih ih' => exact ih.trans ih'
  | order hperm hnames => exact Form.read?_of_perm _ hperm hnames
  | unknown name v hknown hname => exact Form.read?_cons_of_unknown hknown hname v
  | spelled field default hknown hfield hdefault hname =>
      exact Form.read?_cons_of_default hknown hfield hdefault hname
  | field field before after hknown hfield _ ih => exact Form.read?_field hknown hfield ih
  | member name before after _ ih =>
      have hcanonical := Option.some.inj ih
      refine congrArg some ?_
      rw [Value.canonical_record, Value.canonical_record]
      simp [canonicalMembers, hcanonical]
  | item before after hitem _ ih => exact Form.read?_item hitem ih

/-! ## Canonical documents -/

/-- The canonical form of a document in which no name is repeated is read like the document. -/
theorem Form.read?_canonical {v : Value} (h : v.HasDistinctNames) (f : Form) :
    f.read? v.canonical = f.read? v := by
  induction h generalizing f with
  | record hnames members ih =>
      rename_i fields
      have hfields : ∀ {known}, f.fields? fields = some known →
          f.read? (Value.record fields).canonical = f.read? (.record fields) := by
        intro known hknown
        rw [Value.canonical_record]
        refine (read?_record hknown fun field _ => .of_answers ?_).symm
        have hwritten := written_perm field.name (Value.canonical_record_perm hnames)
        rw [written_canonicalMembers] at hwritten
        refine .trans (.of_eq ?_) (hwritten.map _).symm
        rw [List.map_map]
        exact List.map_congr_left fun v hv => (ih _ (mem_of_mem_written hv) _).symm
      cases f with
      | any => exact congrArg some (Value.canonical_canonical _)
      | channel => exact Option.bind_congr' (readWord?_canonical hnames members) fun _ _ => rfl
      | text | flag | kind | optionalText | list => rfl
      | _ => exact hfields rfl
  | list members ih =>
      rw [Value.canonical_list]
      cases f with
      | any => exact congrArg some (by rw [← Value.canonical_list, Value.canonical_canonical])
      | list item =>
          refine readList?_of_answers ?_
          rw [List.map_map]
          exact List.map_congr_left fun v hv => ih v hv item
      | _ => rw [read?_list_of_item? rfl, read?_list_of_item? rfl]
  | _ => rfl

end Description
end Statechart
