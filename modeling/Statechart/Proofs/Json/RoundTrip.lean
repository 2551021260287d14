import Statechart.Proofs.Json.Scalars
import Statechart.Proofs.Value.Canonical

/-!
# Documents read as they were written

Writing has no limit, reading has: a document is read back as the tree of its value however deeply
that is nested, and the tree has a value below the nesting limit only.

- `Json.Tree.ofValue`          : the tree that a value is written as
- `Json.select?_ofValue`       : that tree has a value below the limit, and there it is the value
- `Json.depth_lt_of_select?`   : nothing that is read is nested more deeply
- `Value.IsLegible`            : the numbers in a value read back
- `Json.readTree?_indented`    : the written form of a legible value is read as its tree
-/

namespace Statechart
namespace Json

/-! ## Trees of values -/

mutual

/-- The tree that a value is written as. -/
def Tree.ofValue : Value → Tree
  | .null => .null
  | .bool b => .bool b
  | .number n => .number (some n)
  | .text s => .text (some s)
  | .list items => .list (itemTrees items)
  | .record fields => .record (fieldTrees fields)

def itemTrees : List Value → List Tree
  | [] => []
  | item :: rest => .ofValue item :: itemTrees rest

def fieldTrees : List (String × Value) → List (Option String × Tree)
  | [] => []
  | (name, value) :: rest => (some name, .ofValue value) :: fieldTrees rest

end

theorem selectItems?_itemTrees {items : List Value} {depth : Nat} (hdepth : 0 < depth)
    (h : ∀ item ∈ items,
      (Tree.ofValue item).select? depth .whole = if item.depth < depth then some item else none) :
    selectItems? depth .whole (itemTrees items) =
      if itemsDepth items < depth then some items else none := by
  induction items with
  | nil => simp [itemTrees, selectItems?, itemsDepth, hdepth]
  | cons item rest ih =>
      rw [itemTrees, selectItems?, h item List.mem_cons_self,
        ih fun other hother => h other (List.mem_cons_of_mem _ hother), itemsDepth]
      simp only [Nat.max_lt]
      by_cases hitem : item.depth < depth <;> by_cases hrest : itemsDepth rest < depth <;>
        simp [hitem, hrest]

theorem selectFields?_fieldTrees {fields : List (String × Value)} {depth : Nat}
    (hdepth : 0 < depth)
    (h : ∀ field ∈ fields, (Tree.ofValue field.2).select? depth .whole =
      if field.2.depth < depth then some field.2 else none) :
    selectFields? depth .whole (fieldTrees fields) =
      if fieldsDepth fields < depth then some fields else none := by
  induction fields with
  | nil => simp [fieldTrees, selectFields?, fieldsDepth, hdepth]
  | cons field rest ih =>
      have hfield : Part.whole.field? field.1 = some .whole := rfl
      simp only [fieldTrees, selectFields?, hfield, h field List.mem_cons_self,
        ih fun other hother => h other (List.mem_cons_of_mem _ hother), fieldsDepth, Nat.max_lt]
      by_cases hvalue : field.2.depth < depth <;> by_cases hrest : fieldsDepth rest < depth <;>
        simp [hvalue, hrest]

/-- The tree of a value has a value below the limit only, and there it is the value. -/
theorem select?_ofValue (v : Value) {depth : Nat} (hdepth : 0 < depth) :
    (Tree.ofValue v).select? depth .whole = if v.depth < depth then some v else none := by
  induction v using Value.memberInduction generalizing depth with
  | null => simp [Tree.ofValue, Tree.select?, Value.depth, hdepth]
  | bool b => simp [Tree.ofValue, Tree.select?, Value.depth, hdepth]
  | number n => simp [Tree.ofValue, Tree.select?, Value.depth, hdepth]
  | text s => simp [Tree.ofValue, Tree.select?, Value.depth, hdepth]
  | list items ih =>
      rw [Tree.ofValue, Tree.select?, Value.depth]
      split
      · rw [if_neg (by omega)]
      · have hpart : Part.whole.item = .whole := rfl
        rw [hpart, selectItems?_itemTrees (by omega) fun item hitem => ih item hitem (by omega)]
        by_cases hitems : itemsDepth items < depth - 1
        · rw [if_pos hitems, if_pos (by omega), Option.map_some]
        · rw [if_neg hitems, if_neg (by omega), Option.map_none]
  | record fields ih =>
      rw [Tree.ofValue, Tree.select?, Value.depth]
      split
      · rw [if_neg (by omega)]
      · rw [selectFields?_fieldTrees (by omega) fun field hfield => ih field hfield (by omega)]
        by_cases hfields : fieldsDepth fields < depth - 1
        · rw [if_pos hfields, if_pos (by omega), Option.map_some]
        · rw [if_neg hfields, if_neg (by omega), Option.map_none]

mutual

/-- Nothing that is read is nested as deeply as the limit. -/
theorem depth_lt_of_select? {depth : Nat} {part : Part} (hdepth : 0 < depth) :
    {t : Tree} → {v : Value} → t.select? depth part = some v → v.depth < depth
  | .null, _, h => by
      cases h
      exact hdepth
  | .bool b, _, h => by
      cases h
      exact hdepth
  | .number value, _, h => by
      rw [Tree.select?] at h
      obtain ⟨n, -, rfl⟩ := Option.map_eq_some_iff.1 h
      exact hdepth
  | .text value, _, h => by
      rw [Tree.select?] at h
      obtain ⟨s, -, rfl⟩ := Option.map_eq_some_iff.1 h
      exact hdepth
  | .list items, _, h => by
      rw [Tree.select?] at h
      split at h
      · cases h
      · obtain ⟨values, hitems, rfl⟩ := Option.map_eq_some_iff.1 h
        have := itemsDepth_lt_of_selectItems? (by omega) hitems
        rw [Value.depth]
        omega
  | .record fields, _, h => by
      rw [Tree.select?] at h
      split at h
      · cases h
      · obtain ⟨values, hfields, rfl⟩ := Option.map_eq_some_iff.1 h
        have := fieldsDepth_lt_of_selectFields? (by omega) hfields
        rw [Value.depth]
        omega

theorem itemsDepth_lt_of_selectItems? {depth : Nat} {part : Part} (hdepth : 0 < depth) :
    {items : List Tree} → {values : List Value} →
      selectItems? depth part items = some values → itemsDepth values < depth
  | [], _, h => by
      cases h
      exact hdepth
  | item :: rest, _, h => by
      rw [selectItems?] at h
      obtain ⟨v, hitem, h⟩ := Option.bind_eq_some_iff.1 h
      obtain ⟨vs, hrest, h⟩ := Option.bind_eq_some_iff.1 h
      cases h
      rw [itemsDepth, Nat.max_lt]
      exact ⟨depth_lt_of_select? hdepth hitem, itemsDepth_lt_of_selectItems? hdepth hrest⟩

theorem fieldsDepth_lt_of_selectFields? {depth : Nat} {part : Part} (hdepth : 0 < depth) :
    {fields : List (Option String × Tree)} → {values : List (String × Value)} →
      selectFields? depth part fields = some values → fieldsDepth values < depth
  | [], _, h => by
      cases h
      exact hdepth
  | (none, _) :: _, _, h => by cases h
  | (some name, tree) :: rest, _, h => by
      rw [selectFields?] at h
      split at h
      · exact fieldsDepth_lt_of_selectFields? hdepth h
      · obtain ⟨v, hfield, h⟩ := Option.bind_eq_some_iff.1 h
        obtain ⟨vs, hrest, h⟩ := Option.bind_eq_some_iff.1 h
        cases h
        rw [fieldsDepth, Nat.max_lt]
        exact ⟨depth_lt_of_select? hdepth hfield, fieldsDepth_lt_of_selectFields? hdepth hrest⟩

end

/-! ## Space -/

theorem skipSpace_append {blank : List Char} (h : ∀ c ∈ blank, isSpace c = true) (s : List Char) :
    skipSpace (blank ++ s) = skipSpace s := by
  induction blank with
  | nil => rfl
  | cons c rest ih =>
      rw [List.cons_append, skipSpace, List.dropWhile_cons_of_pos (h c List.mem_cons_self)]
      exact ih fun d hd => h d (List.mem_cons_of_mem _ hd)

theorem skipSpace_cons {c : Char} (h : isSpace c = false) (s : List Char) :
    skipSpace (c :: s) = c :: s := by
  rw [skipSpace, List.dropWhile_cons_of_neg (by simp [h])]

theorem isSpace_of_startsNumber {c : Char} (h : c = '-' ∨ Decimal.isDigit c = true) :
    isSpace c = false := by
  by_contra hspace
  simp only [isSpace, Bool.not_eq_false, Bool.or_eq_true, decide_eq_true_eq] at hspace
  rcases hspace with ((rfl | rfl) | rfl) | rfl <;> exact absurd h (by decide)

/-- The space at the beginning of a line. -/
def margin (level : Nat) : List Char := List.replicate (2 * level) ' '

theorem isSpace_of_mem_margin {level : Nat} {c : Char} (h : c ∈ margin level) :
    isSpace c = true := by
  rw [List.eq_of_mem_replicate h]
  rfl

/-- Space before a value is passed over. -/
theorem readValue?_append {blank : List Char} (h : ∀ c ∈ blank, isSpace c = true) (fuel : Nat)
    (s : List Char) : readValue? fuel (blank ++ s) = readValue? fuel s := by
  cases fuel with
  | zero => rfl
  | succ fuel => rw [readValue?, readValue?, skipSpace_append h]

theorem skipSpace_skipSpace (s : List Char) : skipSpace (skipSpace s) = skipSpace s := by
  induction s with
  | nil => rfl
  | cons c rest ih =>
      by_cases hc : isSpace c = true
      · have hcons : skipSpace (c :: rest) = skipSpace rest := List.dropWhile_cons_of_pos hc
        rw [hcons, ih]
      · rw [skipSpace_cons (by simpa using hc), skipSpace_cons (by simpa using hc)]

theorem readItems?_skipSpace (fuel : Nat) (s : List Char) :
    readItems? fuel (skipSpace s) = readItems? fuel s := by
  cases fuel with
  | zero => rfl
  | succ fuel =>
      have hvalue : readValue? fuel (skipSpace s) = readValue? fuel s := by
        cases fuel with
        | zero => rfl
        | succ fuel => rw [readValue?, readValue?, skipSpace_skipSpace]
      rw [readItems?, readItems?, hvalue]

theorem readFields?_skipSpace (fuel : Nat) (s : List Char) :
    readFields? fuel (skipSpace s) = readFields? fuel s := by
  cases fuel with
  | zero => rfl
  | succ fuel => rw [readFields?, readFields?, skipSpace_skipSpace]

theorem skipSpace_newline (s : List Char) : skipSpace ('\n' :: s) = skipSpace s := rfl

/-! ## Lines -/

/-- Written entries, one a line. -/
def lines (level : Nat) : List String → List Char
  | [] => []
  | [entry] => margin level ++ entry.toList
  | entry :: other :: rest =>
      margin level ++ entry.toList ++ ',' :: '\n' :: lines level (other :: rest)

theorem lines_cons (level : Nat) (entry : String) (rest : List String) :
    ∃ tail, lines level (entry :: rest) = margin level ++ (entry.toList ++ tail) := by
  cases rest with
  | nil => exact ⟨[], by simp [lines]⟩
  | cons other rest =>
      exact ⟨',' :: '\n' :: lines level (other :: rest), by simp [lines, List.append_assoc]⟩

/-- The first line of a container begins with its first entry. -/
theorem skipSpace_lines {entry : String} {c : Char} {r : List Char} (hentry : entry.toList = c :: r)
    (hc : isSpace c = false) (level : Nat) (rest : List String) (s : List Char) :
    ∃ tail, skipSpace ('\n' :: (lines level (entry :: rest) ++ s)) = c :: tail := by
  obtain ⟨tail, htail⟩ := lines_cons level entry rest
  refine ⟨r ++ tail ++ s, ?_⟩
  rw [skipSpace_newline, htail, List.append_assoc,
    skipSpace_append fun c => isSpace_of_mem_margin, hentry]
  exact skipSpace_cons hc _

theorem toList_intercalate_lines (level : Nat) (entries : List String) :
    (",\n".intercalate (entries.map (String.ofList (margin level) ++ ·))).toList =
      lines level entries := by
  induction entries with
  | nil => rfl
  | cons entry rest ih =>
      cases rest with
      | nil => simp [lines]
      | cons other rest =>
          simp only [List.map_cons] at ih ⊢
          rw [String.intercalate_cons_cons]
          simp only [String.toList_append, String.toList_ofList, ih, lines]
          simp

theorem toList_bracketed {entries : List String} (h : entries ≠ []) (opening closing : String)
    (level : Nat) :
    (bracketed opening closing level entries).toList =
      opening.toList ++ '\n' :: (lines (level + 1) entries ++
        '\n' :: (margin level ++ closing.toList)) := by
  have hempty : entries.isEmpty = false := by simpa using h
  simp only [bracketed, hempty, String.toList_append, Bool.false_eq_true, if_false]
  rw [← toList_intercalate_lines]
  simp [margin]

end Json

/-! ## Legible values -/

/-- The numbers in the value read back. -/
inductive Value.IsLegible : Value → Prop where
  | null : IsLegible .null
  | bool (b : Bool) : IsLegible (.bool b)
  | number {n : Number} (readsBack : n.ReadsBack) : IsLegible (.number n)
  | text (s : String) : IsLegible (.text s)
  | list {items : List Value} (members : ∀ item ∈ items, IsLegible item) : IsLegible (.list items)
  | record {fields : List (String × Value)} (members : ∀ field ∈ fields, IsLegible field.2) :
      IsLegible (.record fields)

namespace Json

/-- The characters of a value that stands at some level. -/
def written (level : Nat) (v : Value) : List Char := (v.indentedAt level).toList

theorem written_null (level : Nat) : written level .null = ['n', 'u', 'l', 'l'] := by
  rw [written, Value.indentedAt]
  decide

theorem written_bool (level : Nat) (b : Bool) :
    written level (.bool b) = if b then ['t', 'r', 'u', 'e'] else ['f', 'a', 'l', 's', 'e'] := by
  rw [written, Value.indentedAt]
  revert b
  decide

theorem written_list_nil (level : Nat) : written level (.list []) = ['[', ']'] := by
  simp [written, Value.indentedAt, indentedItems, bracketed]

theorem written_record_nil (level : Nat) : written level (.record []) = ['\x7b', '\x7d'] := by
  simp [written, Value.indentedAt, indentedFields, bracketed]

theorem written_list {items : List Value} (h : items ≠ []) (level : Nat) :
    written level (.list items) =
      '[' :: '\n' :: (lines (level + 1) (indentedItems (level + 1) items) ++
        '\n' :: (margin level ++ [']'])) := by
  have hentries : indentedItems (level + 1) items ≠ [] := by
    cases items with
    | nil => exact absurd rfl h
    | cons item rest => simp [indentedItems]
  rw [written, Value.indentedAt, toList_bracketed hentries]
  rfl

theorem written_record {fields : List (String × Value)} (h : fields ≠ []) (level : Nat) :
    written level (.record fields) =
      '\x7b' :: '\n' :: (lines (level + 1) (indentedFields (level + 1) fields) ++
        '\n' :: (margin level ++ ['\x7d'])) := by
  have hentries : indentedFields (level + 1) fields ≠ [] := by
    cases fields with
    | nil => exact absurd rfl h
    | cons field rest => simp [indentedFields]
  rw [written, Value.indentedAt, toList_bracketed hentries]
  rfl

theorem toList_quote (s : String) :
    (Text.quote s).toList = '"' :: (s.toList.flatMap Text.escape ++ ['"']) := by
  simp [Text.quote]

/-- A value begins with a character that no space and no closing bracket is. -/
theorem head_of_written {v : Value} (h : v.IsLegible) (level : Nat) :
    ∃ c r, written level v = c :: r ∧ isSpace c = false ∧ c ≠ ']' ∧ c ≠ '\x7d' := by
  cases h with
  | null => exact ⟨'n', _, written_null level, by decide⟩
  | bool b =>
      cases b with
      | false => exact ⟨'f', _, written_bool level false, by decide⟩
      | true => exact ⟨'t', _, written_bool level true, by decide⟩
  | number readsBack =>
      obtain ⟨c, r, hwritten, hc⟩ := head_of_readNumber? readsBack
      refine ⟨c, r, hwritten, isSpace_of_startsNumber hc, ?_, ?_⟩
      · rintro rfl
        exact absurd hc (by decide)
      · rintro rfl
        exact absurd hc (by decide)
  | text s => exact ⟨'"', _, toList_quote s, by decide⟩
  | @list items _ =>
      cases items with
      | nil => exact ⟨'[', _, written_list_nil level, by decide⟩
      | cons item rest => exact ⟨'[', _, written_list (by simp) level, by decide⟩
  | @record fields _ =>
      cases fields with
      | nil => exact ⟨'\x7b', _, written_record_nil level, by decide⟩
      | cons field rest => exact ⟨'\x7b', _, written_record (by simp) level, by decide⟩

/-! ## Reading what was written -/

/-- The reader with enough fuel takes a value for its tree, and leaves what follows it. -/
def IsReadBack (level : Nat) (v : Value) : Prop :=
  ∀ fuel rest, 2 * (written level v).length < fuel → EndsNumber rest →
    readValue? fuel (written level v ++ rest) = some (Tree.ofValue v, rest)

/-- There is fuel for one step in any case. -/
theorem IsReadBack.of_succ {level : Nat} {v : Value}
    (h : ∀ fuel rest, 2 * (written level v).length < fuel + 1 → EndsNumber rest →
      readValue? (fuel + 1) (written level v ++ rest) = some (Tree.ofValue v, rest)) :
    IsReadBack level v := by
  intro fuel rest hfuel hrest
  obtain ⟨fuel, rfl⟩ : ∃ n, fuel = n + 1 := ⟨fuel - 1, by omega⟩
  exact h fuel rest hfuel hrest

theorem readValue?_number {c : Char} (h : c = '-' ∨ Decimal.isDigit c = true) (fuel : Nat)
    (s : List Char) :
    readValue? (fuel + 1) (c :: s) =
      (readNumber? (c :: s)).map fun read => (.number read.1, read.2) := by
  have hne : ∀ d, ¬ (d = '-' ∨ Decimal.isDigit d = true) → ∀ r, c :: s ≠ d :: r := by
    rintro d hd r heq
    exact hd ((List.cons.inj heq).1 ▸ h)
  rw [readValue?, skipSpace_cons (isSpace_of_startsNumber h)]
  split
  · cases ‹c :: s = []›
  · exact absurd ‹_› (hne 'n' (by decide) _)
  · exact absurd ‹_› (hne 't' (by decide) _)
  · exact absurd ‹_› (hne 'f' (by decide) _)
  · exact absurd ‹_› (hne '"' (by decide) _)
  · exact absurd ‹_› (hne '[' (by decide) _)
  · exact absurd ‹_› (hne '\x7b' (by decide) _)
  · cases readNumber? (c :: s) <;> rfl

theorem readValue?_list {c : Char} {s r : List Char} (h : skipSpace s = c :: r) (hc : c ≠ ']')
    (fuel : Nat) :
    readValue? (fuel + 1) ('[' :: s) =
      (readItems? fuel (skipSpace s)).map fun read => (.list read.1, read.2) := by
  rw [readValue?, skipSpace_cons (by decide)]
  simp only [h]
  split
  · exact absurd (List.cons.inj ‹_›).1 hc
  · cases readItems? fuel (c :: r) <;> rfl

theorem readValue?_record {c : Char} {s r : List Char} (h : skipSpace s = c :: r) (hc : c ≠ '\x7d')
    (fuel : Nat) :
    readValue? (fuel + 1) ('\x7b' :: s) =
      (readFields? fuel (skipSpace s)).map fun read => (.record read.1, read.2) := by
  rw [readValue?, skipSpace_cons (by decide)]
  simp only [h]
  split
  · exact absurd (List.cons.inj ‹_›).1 hc
  · cases readFields? fuel (c :: r) <;> rfl

theorem endsNumber_of_mem {c : Char} (h : c ∈ [',', '\n']) (rest : List Char) :
    EndsNumber (c :: rest) := by
  rintro d hd
  obtain rfl : c = d := by simpa using hd
  rcases List.mem_cons.1 h with rfl | h
  · rfl
  · rw [List.mem_singleton.1 h]
    rfl

/-- The end of a container, and what follows it. -/
theorem skipSpace_closing {c : Char} (h : isSpace c = false) (level : Nat) (rest : List Char) :
    skipSpace ('\n' :: (margin level ++ c :: rest)) = c :: rest := by
  have hblank : ∀ d ∈ '\n' :: margin level, isSpace d = true := by
    intro d hd
    rcases List.mem_cons.1 hd with rfl | hd
    · rfl
    · exact isSpace_of_mem_margin hd
  exact (skipSpace_append hblank (c :: rest)).trans (skipSpace_cons h rest)

theorem readItems?_lines {level : Nat} {items : List Value} (hne : items ≠ [])
    (hitems : ∀ item ∈ items, IsReadBack (level + 1) item) {fuel : Nat}
    (hfuel : 2 * (lines (level + 1) (indentedItems (level + 1) items)).length + 1 < fuel)
    (rest : List Char) :
    readItems? fuel (lines (level + 1) (indentedItems (level + 1) items) ++
        '\n' :: (margin level ++ ']' :: rest)) = some (itemTrees items, rest) := by
  induction items generalizing fuel with
  | nil => exact absurd rfl hne
  | cons item others ih =>
      obtain ⟨fuel, rfl⟩ : ∃ n, fuel = n + 1 := ⟨fuel - 1, by omega⟩
      have hitem := hitems item List.mem_cons_self
      -- the end follows the last item, and a comma every other one
      cases others with
      | nil =>
          simp only [indentedItems, lines, List.length_append] at hfuel ⊢
          rw [readItems?, List.append_assoc,
            readValue?_append fun c => isSpace_of_mem_margin]
          change (readValue? fuel (written (level + 1) item ++ _)).bind _ = _
          rw [hitem fuel _ (by unfold written; omega) (endsNumber_of_mem (by simp) _),
            Option.bind_some]
          simp only [skipSpace_closing (show isSpace ']' = false by decide), itemTrees]
      | cons other others =>
          simp only [indentedItems, lines, List.length_append, List.length_cons] at hfuel ih ⊢
          rw [readItems?, List.append_assoc, List.append_assoc,
            readValue?_append fun c => isSpace_of_mem_margin]
          change (readValue? fuel (written (level + 1) item ++ _)).bind _ = _
          rw [List.cons_append, hitem fuel _ (by unfold written; omega)
            (endsNumber_of_mem (by simp) _), Option.bind_some]
          simp only [skipSpace_cons (show isSpace ',' = false by decide)]
          rw [List.cons_append, ← readItems?_skipSpace, skipSpace_newline, readItems?_skipSpace,
            ih (by simp) (fun next hnext => hitems next (List.mem_cons_of_mem _ hnext)) (by omega)]
          rfl

/-- What is read after a field: another one, or the end. -/
def readMore? (fuel : Nat) (field : Option String × Tree) :
    List Char → Option (List (Option String × Tree) × List Char)
  | ',' :: rest => do
      let (fields, rest) ← readFields? fuel rest
      some (field :: fields, rest)
  | '\x7d' :: rest => some ([field], rest)
  | _ => none

/-- A field after its margin: the name, a colon and the value. -/
theorem readFields?_field {level : Nat} {name : String} {value : Value}
    (hvalue : IsReadBack level value) {fuel : Nat} (hfuel : 2 * (written level value).length < fuel)
    {blank rest : List Char} (hblank : ∀ c ∈ blank, isSpace c = true) (hrest : EndsNumber rest) :
    readFields? (fuel + 1)
        (blank ++ (Text.quote name ++ ": " ++ value.indentedAt level).toList ++ rest) =
      readMore? fuel (some name, Tree.ofValue value) (skipSpace rest) := by
  have htext : (Text.quote name ++ ": " ++ value.indentedAt level).toList ++ rest =
      '"' :: (name.toList.flatMap Text.escape ++ '"' :: ':' :: ([' '] ++
        (written level value ++ rest))) := by
    simp [toList_quote, written]
  have hspace : ∀ c ∈ [' '], isSpace c = true := by
    intro c hc
    rw [List.mem_singleton.1 hc]
    rfl
  rw [List.append_assoc, readFields?, skipSpace_append hblank, htext,
    skipSpace_cons (by decide)]
  simp only [readText?_quoted, Option.bind_eq_bind, Option.bind_some,
    skipSpace_cons (show isSpace ':' = false by decide), readValue?_append hspace,
    hvalue fuel rest hfuel hrest]
  rfl

theorem readFields?_lines {level : Nat} {fields : List (String × Value)} (hne : fields ≠ [])
    (hfields : ∀ field ∈ fields, IsReadBack (level + 1) field.2) {fuel : Nat}
    (hfuel : 2 * (lines (level + 1) (indentedFields (level + 1) fields)).length + 1 < fuel)
    (rest : List Char) :
    readFields? fuel (lines (level + 1) (indentedFields (level + 1) fields) ++
        '\n' :: (margin level ++ '\x7d' :: rest)) = some (fieldTrees fields, rest) := by
  induction fields generalizing fuel with
  | nil => exact absurd rfl hne
  | cons field others ih =>
      obtain ⟨fuel, rfl⟩ : ∃ n, fuel = n + 1 := ⟨fuel - 1, by omega⟩
      have hfield := hfields field List.mem_cons_self
      have hlength : (written (level + 1) field.2).length ≤
          (Text.quote field.1 ++ ": " ++ field.2.indentedAt (level + 1)).toList.length := by
        simp only [written, String.toList_append, List.length_append]
        omega
      -- the end follows the last field, and a comma every other one
      cases others with
      | nil =>
          simp only [indentedFields, lines, List.length_append] at hfuel ⊢
          rw [readFields?_field hfield (by omega) (fun c => isSpace_of_mem_margin)
            (endsNumber_of_mem (by simp) _), skipSpace_closing (by decide)]
          rfl
      | cons other others =>
          simp only [indentedFields, lines, List.length_append, List.length_cons] at hfuel ih ⊢
          rw [List.append_assoc (margin (level + 1) ++ _), List.cons_append,
            readFields?_field hfield (by omega) (fun c => isSpace_of_mem_margin)
              (endsNumber_of_mem (by simp) _), skipSpace_cons (by decide)]
          simp only [readMore?, List.cons_append]
          rw [← readFields?_skipSpace, skipSpace_newline, readFields?_skipSpace, ih (by simp)
            (fun next hnext => hfields next (List.mem_cons_of_mem _ hnext)) (by omega)]
          rfl

theorem isReadBack_number {n : Number} (h : n.ReadsBack) (level : Nat) :
    IsReadBack level (.number n) := .of_succ fun fuel rest _ hrest => by
  obtain ⟨c, r, hwritten, hc⟩ := head_of_readNumber? h
  have hnumber := readNumber?_append hrest h
  change readValue? (fuel + 1) (n.compact.toList ++ rest) = _
  rw [hwritten] at hnumber ⊢
  rw [List.cons_append, readValue?_number hc, ← List.cons_append, hnumber]
  rfl

theorem isReadBack_text (s : String) (level : Nat) : IsReadBack level (.text s) :=
    .of_succ fun fuel rest _ _ => by
  have htext : written level (.text s) ++ rest =
      '"' :: (s.toList.flatMap Text.escape ++ '"' :: rest) := by
    rw [written, Value.indentedAt, toList_quote]
    simp
  rw [htext, readValue?, skipSpace_cons (by decide)]
  simp only [readText?_quoted]
  rfl

theorem isReadBack_list {items : List Value} (hlegible : ∀ item ∈ items, item.IsLegible)
    (hitems : ∀ item ∈ items, ∀ level, IsReadBack level item) (level : Nat) :
    IsReadBack level (.list items) := .of_succ fun fuel rest hfuel _ => by
  cases items with
  | nil =>
      rw [written_list_nil]
      rfl
  | cons item others =>
      obtain ⟨c, r, hwritten, hspace, hclosing, -⟩ :=
        head_of_written (hlegible item List.mem_cons_self) (level + 1)
      rw [written_list (by simp)] at hfuel ⊢
      simp only [List.length_cons, List.length_append] at hfuel
      simp only [List.cons_append, List.append_assoc, List.nil_append]
      obtain ⟨tail, hskip⟩ := skipSpace_lines hwritten hspace (level + 1)
        (indentedItems (level + 1) others) ('\n' :: (margin level ++ ']' :: rest))
      rw [← indentedItems] at hskip
      rw [readValue?_list hskip hclosing, skipSpace_newline, readItems?_skipSpace,
        readItems?_lines (by simp) (fun next hnext => hitems next hnext _) (by omega)]
      rfl

theorem isReadBack_record {fields : List (String × Value)}
    (hfields : ∀ field ∈ fields, ∀ level, IsReadBack level field.2) (level : Nat) :
    IsReadBack level (.record fields) := .of_succ fun fuel rest hfuel _ => by
  cases fields with
  | nil =>
      rw [written_record_nil]
      rfl
  | cons field others =>
      obtain ⟨name, value⟩ := field
      rw [written_record (by simp)] at hfuel ⊢
      simp only [List.length_cons, List.length_append] at hfuel
      simp only [List.cons_append, List.append_assoc, List.nil_append]
      have hname : (Text.quote name ++ ": " ++ value.indentedAt (level + 1)).toList =
          '"' :: (name.toList.flatMap Text.escape ++ '"' ::
            (": " ++ value.indentedAt (level + 1)).toList) := by
        simp [toList_quote]
      obtain ⟨tail, hskip⟩ := skipSpace_lines hname (by decide) (level + 1)
        (indentedFields (level + 1) others) ('\n' :: (margin level ++ '\x7d' :: rest))
      rw [← indentedFields] at hskip
      rw [readValue?_record hskip (by decide), skipSpace_newline, readFields?_skipSpace,
        readFields?_lines (by simp) (fun next hnext => hfields next hnext _) (by omega)]
      rfl

/-- Every legible value is read back. -/
theorem isReadBack {v : Value} (h : v.IsLegible) (level : Nat) : IsReadBack level v := by
  induction h generalizing level with
  | null =>
      refine .of_succ fun fuel rest _ _ => ?_
      rw [written_null]
      rfl
  | bool b =>
      refine .of_succ fun fuel rest _ _ => ?_
      rw [written_bool]
      cases b <;> rfl
  | number readsBack => exact isReadBack_number readsBack level
  | text s => exact isReadBack_text s level
  | list members ih => exact isReadBack_list members ih level
  | record _ ih => exact isReadBack_record ih level

/-- The written form of a legible value is read as the tree of the value, however deeply the value
is nested. -/
theorem readTree?_indented {v : Value} (h : v.IsLegible) :
    readTree? v.indented = some (.ofValue v) := by
  have hends : EndsNumber [] := fun c hc => by cases hc
  have hread := isReadBack h 0 (2 * (written 0 v).length + 2) [] (by omega) hends
  rw [List.append_nil] at hread
  rw [readTree?]
  change (readValue? (2 * (written 0 v).length + 2) (written 0 v)).bind _ = _
  rw [hread]
  rfl

end Json
end Statechart
