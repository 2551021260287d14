import Statechart.Proofs.Context.Access
import Statechart.Proofs.Description.Reading
import Statechart.Proofs.Json.RoundTrip
import Statechart.Proofs.Storage.Recovery

/-!
# Opening a directory again

A store file is written without a limit on nesting and read with one. So a directory holds what was
saved as long as no entry is nested too deeply, and cannot be opened at all as soon as one is.

- `Table.IsShallow`           : the entries are nested less deeply than a store file is read
- `StoreFile.read?_render`    : a store file is read as it was written if its entries are shallow
- `StoreFile.isShallow_of_read?` : entries that were read are shallow
- `Value.IsProper`            : canonical values whose numbers read back
- `Disk.Echoes`               : a directory yields entries exactly if they are shallow
- `Store.calls_echoes`        : what a directory yields after a sequence of calls
- `Store.call_reopens`        : what is found under a key after it was made or changed
-/

namespace Statechart

/-- Two containers of a store file stand around each entry. -/
def Table.IsShallow (t : Table Value) : Prop :=
  ∀ entry ∈ t.entries, entry.2.depth + 2 < Json.nestingLimit

instance (t : Table Value) : Decidable t.IsShallow :=
  inferInstanceAs (Decidable (∀ entry ∈ t.entries, entry.2.depth + 2 < Json.nestingLimit))

/-- A value as it comes out of the system, with numbers that read back. -/
structure Value.IsProper (v : Value) : Prop where
  canonical : v.canonical = v
  legible : v.IsLegible

def Table.IsProper (t : Table Value) : Prop := ∀ entry ∈ t.entries, entry.2.IsProper

/-! ## Store files -/

namespace StoreFile

/-- The document that a store file is. -/
def document (f : StoreFile) : Value :=
  .record
    [("version", .ofNat f.version), ("updated_at", .ofInt f.updatedAt),
      ("checksum", .text f.checksum), ("variables", .record f.table.entries)]

theorem ofInt_of_isWhole {n : Int} (h : IsWhole n) : Value.ofInt n = .number (.whole n h) := by
  simp [Value.ofInt, Number.ofInt?, h]

theorem depth_ofInt (n : Int) : (Value.ofInt n).depth = 0 := by
  unfold Value.ofInt
  split <;> rw [Value.depth]

theorem isLegible_document {f : StoreFile} (hversion : f.version < 4294967296)
    (hupdated : IsSigned f.updatedAt) (htable : f.table.IsProper) : f.document.IsLegible := by
  have hwhole : IsWhole f.version := by
    unfold IsWhole
    omega
  refine .record fun field hfield => ?_
  simp only [List.mem_cons, List.not_mem_nil, or_false] at hfield
  rcases hfield with rfl | rfl | rfl | rfl
  · rw [Value.ofNat, ofInt_of_isWhole hwhole]
    exact .number (Number.whole_readsBack _ _)
  · rw [ofInt_of_isWhole hupdated.isWhole]
    exact .number (Number.whole_readsBack _ _)
  · exact .text _
  · exact .record fun entry hentry => (htable entry hentry).legible

theorem fieldsDepth_lt_iff {t : Table Value} :
    fieldsDepth t.entries + 2 < Json.nestingLimit ↔ t.IsShallow := by
  have hiff : fieldsDepth t.entries ≤ 125 ↔ ∀ entry ∈ t.entries, entry.2.depth ≤ 125 :=
    fieldsDepth_le_iff
  have hbound : ∀ n, n + 2 < Json.nestingLimit ↔ n ≤ 125 := fun n => by
    unfold Json.nestingLimit
    omega
  simp only [Table.IsShallow, hbound, hiff]

/-- The document has a value for its four fields if it has one for each of them. -/
theorem selectFields?_document {depth : Nat} {version updated checksum entries : Value}
    (hversion : (Json.Tree.ofValue version).select? depth .whole = some version)
    (hupdated : (Json.Tree.ofValue updated).select? depth .whole = some updated)
    (hchecksum : (Json.Tree.ofValue checksum).select? depth .whole = some checksum) :
    Json.selectFields? depth part (Json.fieldTrees
        [("version", version), ("updated_at", updated), ("checksum", checksum),
          ("variables", entries)]) =
      ((Json.Tree.ofValue entries).select? depth .whole).map fun entries =>
        [("version", version), ("updated_at", updated), ("checksum", checksum),
          ("variables", entries)] := by
  have hfields : ∀ name ∈ ["version", "updated_at", "checksum", "variables"],
      part.field? name = some .whole := by
    simp [part, Json.Part.field?]
  simp only [Json.fieldTrees, Json.selectFields?, hfields "version" (by simp),
    hfields "updated_at" (by simp), hfields "checksum" (by simp), hfields "variables" (by simp),
    hversion, hupdated, hchecksum, Option.bind_eq_bind, Option.bind_some]
  cases (Json.Tree.ofValue entries).select? depth .whole with
  | none => rfl
  | some v => rfl

/-- What the tree of the document has a value for. -/
theorem select?_document (f : StoreFile) :
    (Json.Tree.ofValue f.document).select? Json.nestingLimit part =
      if f.table.IsShallow then some f.document else none := by
  have hroom : 0 < Json.nestingLimit - 1 := by decide
  have hflat : ∀ v : Value, v.depth = 0 →
      (Json.Tree.ofValue v).select? (Json.nestingLimit - 1) .whole = some v := fun v hv => by
    rw [Json.select?_ofValue v hroom, if_pos (hv ▸ hroom)]
  have hentries : (Value.record f.table.entries).depth < Json.nestingLimit - 1 ↔
      f.table.IsShallow := by
    rw [← fieldsDepth_lt_iff, Value.depth]
    omega
  rw [document, Json.Tree.ofValue, Json.Tree.select?, if_neg (by decide),
    selectFields?_document (hflat (.ofNat f.version) (depth_ofInt _)) (hflat _ (depth_ofInt _))
      (hflat _ rfl),
    Json.select?_ofValue _ hroom]
  by_cases hshallow : f.table.IsShallow
  · rw [if_pos hshallow, if_pos (hentries.2 hshallow), Option.map_some, Option.map_some]
  · rw [if_neg hshallow, if_neg fun h => hshallow (hentries.1 h), Option.map_none, Option.map_none]

theorem ofFields?_document {version updated : Int} {checksum : String}
    {entries : List (String × Value)} (hversion : IsWhole version) (hupdated : IsWhole updated) :
    ofFields?
        [("version", .number (.whole version hversion)),
          ("updated_at", .number (.whole updated hupdated)), ("checksum", .text checksum),
          ("variables", .record entries)] =
      if 0 ≤ version ∧ version < 4294967296 ∧ IsSigned updated then
        some ⟨version.toNat, updated, checksum,
          Table.ofList (entries.map fun entry => (entry.1, entry.2.canonical))⟩
      else none := by
  generalize hfields : [("version", Value.number (.whole version hversion)),
    ("updated_at", .number (.whole updated hupdated)), ("checksum", .text checksum),
    ("variables", .record entries)] = fields
  have hone : Shape.required? "version" Shape.readInt? fields = some version := hfields ▸ rfl
  have htwo : Shape.required? "updated_at" Shape.readInt? fields = some updated := hfields ▸ rfl
  have hthree : Shape.required? "checksum" Shape.readText? fields = some checksum := hfields ▸ rfl
  have hfour : Shape.required? "variables" Shape.readFields? fields = some entries := hfields ▸ rfl
  rw [ofFields?, hone, htwo, hthree, hfour]
  simp only [Option.bind_eq_bind, Option.bind_some]

/-- The document of a store file is that store file. -/
theorem bind_ofFields?_document {f : StoreFile} (hversion : f.version < 4294967296)
    (hupdated : IsSigned f.updatedAt) (htable : f.table.IsProper) :
    (Shape.readFields? f.document).bind ofFields? = some f := by
  have hwhole : IsWhole f.version := by
    unfold IsWhole
    omega
  have hrange : 0 ≤ (f.version : Int) ∧ (f.version : Int) < 4294967296 ∧ IsSigned f.updatedAt :=
    ⟨Int.natCast_nonneg _, by omega, hupdated⟩
  have hentries : f.table.entries.map (fun entry => (entry.1, entry.2.canonical)) =
      f.table.entries := by
    refine (List.map_congr_left fun entry hentry => ?_).trans (List.map_id _)
    exact Prod.ext rfl (htable entry hentry).canonical
  rw [document, Value.ofNat, ofInt_of_isWhole hwhole, ofInt_of_isWhole hupdated.isWhole,
    Shape.readFields?, Option.bind_some, ofFields?_document, if_pos hrange, hentries,
    Table.ofList_entries, Int.toNat_natCast]

theorem read?_eq (content : String) :
    read? content =
      (Json.readPart? part content).bind fun v => (Shape.readFields? v).bind ofFields? := rfl

/-- A store file is read as it was written if its entries are shallow, and else not at all. -/
theorem read?_render {f : StoreFile} (hversion : f.version < 4294967296)
    (hupdated : IsSigned f.updatedAt) (htable : f.table.IsProper) :
    (f.table.IsShallow → read? f.render = some f) ∧
      (¬ f.table.IsShallow → read? f.render = none) := by
  have htree : Json.readTree? f.render = some (.ofValue f.document) :=
    Json.readTree?_indented (isLegible_document hversion hupdated htable)
  constructor
  · intro hshallow
    have hpart : Json.readPart? part f.render = some f.document := by
      rw [Json.readPart?, htree, Option.bind_some, select?_document, if_pos hshallow]
    rw [read?_eq, hpart, Option.bind_some]
    exact bind_ofFields?_document hversion hupdated htable
  · intro hdeep
    have hpart : Json.readPart? part f.render = none := by
      rw [Json.readPart?, htree, Option.bind_some, select?_document, if_neg hdeep]
    rw [read?_eq, hpart, Option.bind_none]

/-- Entries that were read are canonical and shallow. -/
theorem of_read? {content : String} {f : StoreFile} (h : read? content = some f) :
    (∀ entry ∈ f.table.entries, entry.2.canonical = entry.2) ∧ f.table.IsShallow := by
  simp only [read?, Json.readPart?, Option.bind_eq_bind, Option.bind_eq_some_iff] at h
  obtain ⟨document, ⟨tree, -, hselect⟩, fields, hfields, h⟩ := h
  have hdepth := Json.depth_lt_of_select? (by decide) hselect
  simp only [ofFields?, Option.bind_eq_bind, Option.bind_eq_some_iff] at h
  obtain ⟨version, -, updated, -, checksum, -, entries, hentries, h⟩ := h
  -- every entry of the table is the canonical form of one in the document
  have hmem : ∀ entry ∈ f.table.entries, ∃ v, (entry.1, v) ∈ entries ∧ entry.2 = v.canonical := by
    intro entry hentry
    split at h
    · cases h
      obtain ⟨field, hfield, rfl⟩ := List.mem_map.1 (Table.mem_of_mem_ofList hentry)
      exact ⟨field.2, hfield, rfl⟩
    · cases h
  refine ⟨fun entry hentry => ?_, fun entry hentry => ?_⟩
  · obtain ⟨v, -, hv⟩ := hmem entry hentry
    rw [hv, Value.canonical_canonical]
  · obtain ⟨v, hv, heq⟩ := hmem entry hentry
    have hrecord : ("variables", Value.record entries) ∈ fields := by
      unfold Shape.required? at hentries
      split at hentries
      · rename_i value hwritten
        cases value with
        | record =>
            cases hentries
            exact Shape.mem_of_mem_written (hwritten ▸ List.mem_singleton_self _)
        | _ => cases hentries
      · cases hentries
    have hdocument : document = .record fields := by
      cases document with
      | record =>
          cases hfields
          rfl
      | _ => cases hfields
    have houter := depth_lt_of_mem_record hrecord
    have hinner := depth_lt_of_mem_record hv
    have hcanonical := v.depth_canonical_le
    rw [← hdocument] at houter
    rw [← heq] at hcanonical
    simp only at houter hinner
    omega

end StoreFile

/-! ## Directories -/

/-- Opening the directory yields the entries of a table if these are shallow, and is refused as
unreadable if they are not. -/
def Disk.Echoes (d : Disk) (t : Table Value) : Prop :=
  (t.IsShallow → d.Holds t) ∧
    (¬ t.IsShallow → ∀ path syncs, (Store.load path syncs d).2 = .error .unreadable)

namespace Disk

theorem echoes_of_file {d : Disk} {now : Int} {t : Table Value} (hnow : IsSigned now)
    (ht : t.IsProper) (hfile : d.file = some (StoreFile.ofTable now t).render) : d.Echoes t := by
  have hversion : (StoreFile.ofTable now t).version < 4294967296 :=
    show StoreFile.currentVersion < 4294967296 by decide
  obtain ⟨hread, hrefused⟩ := StoreFile.read?_render hversion hnow ht
  refine ⟨fun hshallow => ?_, fun hdeep path syncs => ?_⟩
  · exact holds_of_read hfile (hread hshallow) (StoreFile.check_ofTable now t)
  · simp [Store.load, createDirectory, hfile, hrefused hdeep]

/-- Only the store file counts. -/
theorem Echoes.of_file_eq {d d' : Disk} {t : Table Value} (h : d.Echoes t)
    (hfile : d'.file = d.file) : d'.Echoes t := by
  refine ⟨fun hshallow => (h.1 hshallow).of_file_eq hfile, fun hdeep path syncs => ?_⟩
  have hrefused := h.2 hdeep path syncs
  simp only [Store.load, createDirectory, hfile] at hrefused ⊢
  cases hcontent : d.file with
  | none =>
      rw [hcontent] at hrefused
      cases hrefused
  | some content =>
      rw [hcontent] at hrefused
      simp only at hrefused ⊢
      cases hread : StoreFile.read? content with
      | none => rfl
      | some f =>
          rw [hread] at hrefused
          exact hrefused

end Disk

namespace Store

/-- A directory that was opened holds canonical and shallow entries. -/
theorem of_load {path : String} {syncs : Bool} {d d' : Disk} {s : Store}
    (h : load path syncs d = (d', .ok s)) :
    (∀ entry ∈ s.table.entries, entry.2.canonical = entry.2) ∧ s.table.IsShallow := by
  simp only [load] at h
  split at h
  · cases h
    exact ⟨List.forall_mem_nil _, List.forall_mem_nil _⟩
  · split at h
    · cases h
    · rename_i f hread
      cases hcheck : f.check (filePath ⟨path, syncs, .empty⟩) with
      | error fault =>
          rw [hcheck] at h
          cases h
      | ok t =>
          rw [hcheck] at h
          obtain ⟨-, -, rfl⟩ := StoreFile.check_eq_ok_iff.1 hcheck
          cases h
          exact StoreFile.of_read? hread

end Store

/-! ## Calls -/

/-- A call at a time that fits its field, with a value as it comes out of the system. -/
structure Call.IsProper (c : Call) : Prop where
  now : IsSigned c.now
  value : ∀ v, c.change.value? = some v → v.IsProper

theorem Table.IsProper.apply {t t' : Table Value} {c : Change} {written : Nat} (ht : t.IsProper)
    (hc : ∀ v, c.value? = some v → v.IsProper) (h : c.apply t = .ok (t', written)) :
    t'.IsProper := by
  rw [Change.apply_eq] at h
  split at h
  · cases h
    intro entry hentry
    unfold Change.result at hentry
    split at hentry
    · rename_i value hvalue
      rcases mem_insertEntry hentry with rfl | hentry
      · exact hc value hvalue
      · exact ht entry hentry
    · exact ht entry (List.mem_filter.1 hentry).1
  · cases h

namespace Store

/-- A call keeps what is in memory proper, and what is on disk its echo. -/
theorem call_echoes {s : Store} {d : Disk} {c : Call} (hs : s.table.IsProper)
    (hd : d.Echoes s.table) (hc : c.IsProper) :
    (s.call d c).1.table.IsProper ∧ (s.call d c).2.1.Echoes (s.call d c).1.table := by
  unfold call
  rcases commit_cases s { d with now := c.now } c.change c.broken with
    ⟨d', fault, hcall, hfile⟩ | ⟨t, written, d', happly, hcall, hfile⟩
  · rw [hcall]
    exact ⟨hs, hd.of_file_eq hfile⟩
  · rw [hcall]
    have ht : t.IsProper := hs.apply hc.value happly
    exact ⟨ht, Disk.echoes_of_file hc.now ht hfile⟩

/-- After any sequence of calls, whichever of them failed, the directory is the echo of what is in
memory. -/
theorem calls_echoes {s : Store} {d : Disk} {history : List Call} (hs : s.table.IsProper)
    (hd : d.Echoes s.table) (hhistory : ∀ c ∈ history, c.IsProper) :
    (s.calls d history).1.table.IsProper ∧
      (s.calls d history).2.Echoes (s.calls d history).1.table := by
  induction history generalizing s d with
  | nil => exact ⟨hs, hd⟩
  | cons c rest ih =>
      obtain ⟨hs', hd'⟩ := call_echoes hs hd (hhistory c List.mem_cons_self)
      exact ih hs' hd' fun other hother => hhistory other (List.mem_cons_of_mem _ hother)

/-- After a call that succeeds its key has its value, or none if it was deleted. -/
theorem get?_of_call {s : Store} {d : Disk} {c : Call} {written : Nat}
    (h : (s.call d c).2.2 = .ok written) :
    (s.call d c).1.table.get? c.change.key = c.change.value? := by
  unfold call at h ⊢
  rcases commit_cases s { d with now := c.now } c.change c.broken with
    ⟨d', fault, hcall, -⟩ | ⟨t, n, d', happly, hcall, -⟩
  · rw [hcall] at h
    cases h
  · rw [Change.apply_eq] at happly
    rw [hcall]
    split at happly
    · cases happly
      rw [Change.get?_result, if_pos rfl]
    · cases happly

/-- What was stored is found again, as long as it fits. A directory is opened and used for any
history of calls that may each fail, and then a value is made or changed under a key. It is in
memory from then on. Opening the directory yields all entries in memory, this one among them, if no
entry is nested too deeply for a store file; otherwise, be it that one entry is, no entry at all can
be had from the directory. -/
theorem call_reopens {path : String} {syncs : Bool} {d₀ d₁ : Disk} {s₀ : Store}
    (hopen : load path syncs d₀ = (d₁, .ok s₀))
    (hlegible : ∀ entry ∈ s₀.table.entries, entry.2.IsLegible) {history : List Call}
    (hhistory : ∀ c ∈ history, c.IsProper) {last : Call} (hlast : last.IsProper) {key : String}
    {value : Value} (hchange : last.change = .create key value ∨ last.change = .put key value)
    {written : Nat}
    (hok : ((s₀.calls d₁ history).1.call (s₀.calls d₁ history).2 last).2.2 = .ok written) :
    let t := ((s₀.calls d₁ history).1.call (s₀.calls d₁ history).2 last).1.table
    let d := ((s₀.calls d₁ history).1.call (s₀.calls d₁ history).2 last).2.1
    t.get? key = some value ∧
      ((∀ entry ∈ t.entries, entry.2.depth + 2 < Json.nestingLimit) → d.Holds t) ∧
      ((∃ entry ∈ t.entries, Json.nestingLimit ≤ entry.2.depth + 2) →
        ∀ path syncs, (load path syncs d).2 = .error .unreadable) := by
  obtain ⟨hcanonical, hshallow⟩ := of_load hopen
  have hs₀ : s₀.table.IsProper := fun entry hentry =>
    ⟨hcanonical entry hentry, hlegible entry hentry⟩
  have hd₁ : d₁.Echoes s₀.table :=
    ⟨fun _ => Disk.holds_of_load hopen, fun hdeep => absurd hshallow hdeep⟩
  obtain ⟨hs, hd⟩ := calls_echoes hs₀ hd₁ hhistory
  obtain ⟨-, hholds, hrefused⟩ := call_echoes hs hd hlast
  have hfound := get?_of_call hok
  have hput : last.change.key = key ∧ last.change.value? = some value := by
    rcases hchange with hchange | hchange
    all_goals
      rw [hchange]
      exact ⟨rfl, rfl⟩
  rw [hput.1, hput.2] at hfound
  refine ⟨hfound, hholds, fun ⟨entry, hentry, hdeep⟩ => hrefused fun hall => ?_⟩
  exact Nat.not_lt.2 hdeep (hall entry hentry)

/-! ### A trial -/

/-- Lists around lists, the innermost one empty. -/
def nest : Nat → Value
  | 0 => .list []
  | n + 1 => .list [nest n]

theorem isProper_nest (n : Nat) : (nest n).IsProper := by
  induction n with
  | zero => exact ⟨by simp [nest], .list (List.forall_mem_nil _)⟩
  | succ n ih =>
      refine ⟨by simp [nest, ih.canonical], .list fun item hitem => ?_⟩
      rw [List.mem_singleton.1 hitem]
      exact ih.legible

theorem depth_nest (n : Nat) : (nest n).depth = n + 1 := by
  induction n with
  | zero => rw [nest, Value.depth, itemsDepth]
  | succ n ih => simp [nest, Value.depth, itemsDepth, ih]

/-- The store of a fresh directory. -/
def freshStore : Store := ⟨"store", true, .empty⟩

def half : Number := .real 0.5 (by decide +kernel)

/-- A value is made, and changed later. -/
def growth : List Call := [⟨1, .create "v" (.number half), none⟩]

def lastGrowth : Call := ⟨2, .put "v" (nest 2), none⟩

theorem growth_reopens :
    let t := ((freshStore.calls .fresh growth).1.call (freshStore.calls .fresh growth).2
      lastGrowth).1.table
    let d := ((freshStore.calls .fresh growth).1.call (freshStore.calls .fresh growth).2
      lastGrowth).2.1
    t.get? "v" = some (nest 2) ∧ d.Holds t := by
  have hgrowth : ∀ c ∈ growth, c.IsProper := by
    intro c hc
    obtain rfl := List.mem_singleton.1 hc
    refine ⟨by decide, fun v hv => ?_⟩
    cases hv
    exact ⟨rfl, .number (by decide +kernel)⟩
  have hlast : lastGrowth.IsProper := by
    refine ⟨by decide, fun v hv => ?_⟩
    cases hv
    exact isProper_nest 2
  have hok : ((freshStore.calls .fresh growth).1.call (freshStore.calls .fresh growth).2
      lastGrowth).2.2 = .ok 6 := by
    decide +kernel
  have hshallow : ∀ entry ∈ ((freshStore.calls .fresh growth).1.call
      (freshStore.calls .fresh growth).2 lastGrowth).1.table.entries,
      entry.2.depth + 2 < Json.nestingLimit := by
    decide +kernel
  have hopen : load "store" true .blank = (.fresh, .ok freshStore) := rfl
  have h := call_reopens hopen (List.forall_mem_nil _) hgrowth hlast (.inr rfl) hok
  exact ⟨h.1, h.2.1 hshallow⟩

/-- A value of 126 lists is made in a fresh directory, and nothing can be had from the directory
any more. -/
theorem growth_unreadable :
    (∃ written, (freshStore.call .fresh ⟨1, .create "v" (nest 125), none⟩).2.2 = .ok written) ∧
      ∀ path syncs,
        (load path syncs (freshStore.call .fresh ⟨1, .create "v" (nest 125), none⟩).2.1).2 =
          .error .unreadable := by
  have hproper : Call.IsProper ⟨1, .create "v" (nest 125), none⟩ := by
    refine ⟨by decide, fun v hv => ?_⟩
    cases hv
    exact isProper_nest 125
  have hempty : freshStore.table.IsProper := List.forall_mem_nil _
  have hfresh : Disk.fresh.Echoes freshStore.table :=
    ⟨fun _ => Disk.holds_of_file_eq_none rfl, fun hdeep => absurd (List.forall_mem_nil _) hdeep⟩
  obtain ⟨-, -, hrefused⟩ := call_echoes hempty hfresh hproper
  refine ⟨⟨_, rfl⟩, hrefused fun hall => ?_⟩
  have hlt : (nest 125).depth + 2 < Json.nestingLimit :=
    hall ("v", nest 125) (List.mem_singleton_self _)
  rw [depth_nest] at hlt
  exact absurd hlt (by decide)

end Store
end Statechart
