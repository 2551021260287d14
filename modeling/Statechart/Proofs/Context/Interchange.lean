import Statechart.Proofs.Context.Access
import Statechart.Proofs.Text.Bytewise

/-!
# Layers in memory and in the store

A namespace that nobody else writes to is as good as a layer in memory. The variables of the layer
are the keys below the stem of the namespace, without the stem; every call keeps this so and is
answered alike on both sides.

- `Layer.answers`               : the answers of a layer to a sequence of calls
- `Layer.exists_table_of_list`  : what a layer lists is what it answers
- `Backing.Mirrors`             : a namespace and a table hold the same variables
- `Backing.Mirrors.access`      : one call
- `Layer.answers_durable`       : any sequence of calls
- `Layer.interchangeable`       : the same from an empty store, and the order of what is listed
-/

namespace Statechart

/-- The answers to a sequence of calls. -/
def Layer.answers (b : Backing) (l : Layer) : List Access → List Answer
  | [] => []
  | c :: rest =>
      let (l', b', answer) := l.access b c
      answer :: l'.answers b' rest

/-! ## Stems -/

/-- A stem in common does not count in the order of texts. -/
theorem append_lt_append_iff {stem xs ys : List Char} : stem ++ xs < stem ++ ys ↔ xs < ys := by
  induction stem with
  | nil => rfl
  | cons c rest ih =>
      rw [List.cons_append, List.cons_append, List.cons_lt_cons_iff, ih]
      exact ⟨fun h => h.elim (fun h => absurd h Std.lt_irrefl) And.right, fun h => .inr ⟨rfl, h⟩⟩

namespace Layer

theorem key_lt_key_iff {space name own : String} :
    key space name < key space own ↔ name < own := by
  show (key space name).toList < (key space own).toList ↔ name.toList < own.toList
  rw [toList_key space name, toList_key space own, append_lt_append_iff]

/-- A key without its stem is the name. -/
theorem drop_key (space name : String) :
    String.ofList ((key space name).toList.drop (key space "").length) = name := by
  rw [toList_key, ← String.length_toList, List.drop_left, String.ofList_toList]

end Layer

/-! ## What is listed -/

namespace Layer

/-- What a namespace lists is a table: the variables below its stem, by their names. -/
theorem exists_table_of_durable (b : Backing) (space : String) :
    ∃ t : Table Value, (durable space).list b = .ok t.entries ∧
      ∀ name, t.get? name = b.store.get? (key space name) := by
  have hkeys : ∀ entry ∈ b.store.scan (key space ""), ∃ name, entry.1 = key space name :=
    fun entry hentry => isPrefix_iff_exists_key.1 (Table.mem_scan_iff.1 hentry).1
  have hscan : InOrder (b.store.scan (key space "")) := by
    rw [Store.scan, Table.scan_eq_filter]
    exact b.store.table.inOrder.filter _
  -- the keys are in order, and so are the names, since all keys have the same stem
  refine ⟨⟨_, List.pairwise_map.2 (hscan.imp_of_mem ?_)⟩, rfl, fun name => ?_⟩
  · intro x y hx hy hlt
    obtain ⟨name, hname⟩ := hkeys x hx
    obtain ⟨own, hown⟩ := hkeys y hy
    rw [hname, hown] at hlt
    rw [hname, hown, drop_key, drop_key]
    exact key_lt_key_iff.1 hlt
  · refine Option.ext fun value => ?_
    rw [← Table.mem_entries_iff, List.mem_map]
    constructor
    · rintro ⟨entry, hentry, heq⟩
      obtain ⟨own, hown⟩ := hkeys entry hentry
      rw [hown, drop_key] at heq
      obtain ⟨rfl, rfl⟩ := Prod.mk.inj heq
      rw [← hown]
      exact (Table.mem_scan_iff.1 hentry).2
    · intro hget
      exact ⟨(key space name, value),
        Table.mem_scan_iff.2 ⟨isPrefix_iff_exists_key.2 ⟨name, rfl⟩, hget⟩, by rw [drop_key]⟩

/-- A layer that lists its variables answers for each of them, and for no others. -/
theorem exists_table_of_list {b : Backing} {l : Layer} {entries : List (String × Value)}
    (h : l.list b = .ok entries) :
    ∃ t : Table Value, t.entries = entries ∧
      ∀ name, l.get b name =
        match t.get? name with
        | some value => .ok value
        | none => .error (.notFound name) := by
  cases l with
  | memory table => exact ⟨table, Except.ok.inj h, fun _ => rfl⟩
  | durable space =>
      obtain ⟨t, hlist, hget⟩ := exists_table_of_durable b space
      refine ⟨t, Except.ok.inj (hlist.symm.trans h), fun name => ?_⟩
      rw [hget]
      rfl
  | unreachable reason => cases h

end Layer

/-! ## The same variables -/

/-- A namespace whose variables are those of a table, and whose changes can be saved. -/
structure Backing.Mirrors (b : Backing) (space : String) (t : Table Value) : Prop where
  get? : ∀ name, b.store.get? (Layer.key space name) = t.get? name
  isPresent : b.disk.isPresent = true

namespace Backing.Mirrors

variable {b : Backing} {space : String} {t : Table Value}

theorem contains (h : b.Mirrors space t) (name : String) :
    b.store.contains (Layer.key space name) = t.contains name :=
  congrArg Option.isSome (h.get? name)

/-- A change is made on the store if the table allows it, and is then that of the table. -/
theorem commit (h : b.Mirrors space t) {c : Change} {name : String}
    (hkey : c.key = Layer.key space name) {t' : Table Value}
    (hresult : ∀ own, t'.get? own = if name = own then c.value? else t.get? own) :
    ∃ b', Layer.commit b c name = (b', if t.contains name = c.replaces then .ok c.written
        else .error (Layer.faultOf name c.refusal)) ∧
      b'.Mirrors space (if t.contains name = c.replaces then t' else t) := by
  rw [Layer.commit_eq, hkey, h.contains name, h.isPresent]
  split
  · refine ⟨_, rfl, fun own => ?_, h.isPresent⟩
    have hown := h.get? own
    simp only [Store.get?] at hown
    simp only [saved, Store.get?, c.get?_result, hkey, Layer.key_eq_key_iff, hresult, hown]
  · exact ⟨b, rfl, h⟩

/-- The variables listed are those of the table. -/
theorem list (h : b.Mirrors space t) : (Layer.durable space).list b = .ok t.entries := by
  obtain ⟨u, hlist, hget⟩ := Layer.exists_table_of_durable b space
  have htable : u = t := Table.ext_get? fun name => (hget name).trans (h.get? name)
  rw [hlist, htable]

/-- A call is answered alike, and afterwards the variables are again the same. -/
theorem access (h : b.Mirrors space t) (other : Backing) (c : Access) :
    ∃ b' t' answer, (Layer.durable space).access b c = (.durable space, b', answer) ∧
      (Layer.memory t).access other c = (.memory t', other, answer) ∧ b'.Mirrors space t' ∧
      ∀ outcome, answer = .listed outcome → outcome = .ok t.entries := by
  cases c with
  | get name =>
      refine ⟨b, t, _, rfl, ?_, h, fun _ heq => by cases heq⟩
      simp [Layer.access, Layer.get, h.get? name]
  | contains name =>
      refine ⟨b, t, _, rfl, ?_, h, fun _ heq => by cases heq⟩
      simp [Layer.access, Layer.contains, h.contains name]
  | list =>
      refine ⟨b, t, .listed (.ok t.entries), ?_, rfl, h, fun _ heq => (Answer.listed.inj heq).symm⟩
      simp only [Layer.access, h.list]
  | create name value =>
      obtain ⟨b', hcommit, hmirrors⟩ :=
        h.commit (c := .create (Layer.key space name) value) rfl (Table.get?_insert t name · value)
      refine ⟨b', _, _, congrArg (fun done => (Layer.durable space, done.1, Answer.written done.2))
        hcommit, ?_, hmirrors, fun _ heq => by cases heq⟩
      cases hin : t.contains name <;>
        simp [Layer.access, Layer.create, Change.replaces, Change.written, Change.value?,
          Change.refusal, Layer.faultOf, hin]
  | assign name value =>
      obtain ⟨b', hcommit, hmirrors⟩ :=
        h.commit (c := .put (Layer.key space name) value) rfl (Table.get?_insert t name · value)
      refine ⟨b', _, _, congrArg (fun done => (Layer.durable space, done.1, Answer.written done.2))
        hcommit, ?_, hmirrors, fun _ heq => by cases heq⟩
      cases hin : t.contains name <;>
        simp [Layer.access, Layer.assign, Change.replaces, Change.written, Change.value?,
          Change.refusal, Layer.faultOf, hin]
  | delete name =>
      obtain ⟨b', hcommit, hmirrors⟩ :=
        h.commit (c := .delete (Layer.key space name)) rfl (Table.get?_erase t name ·)
      refine ⟨b', _, _, congrArg (fun done => (Layer.durable space, done.1,
        Answer.deleted (done.2.map fun _ => ()))) hcommit, ?_, hmirrors, fun _ heq => by cases heq⟩
      cases hin : t.contains name <;>
        simp [Layer.access, Layer.delete, Change.replaces, Change.refusal, Layer.faultOf,
          Except.map, hin]

end Backing.Mirrors

/-! ## Sequences of calls -/

namespace Layer

/-- From the same variables on all answers are the same, and a list shows the entries of a table. -/
theorem answers_durable {b : Backing} {space : String} {t : Table Value}
    (h : b.Mirrors space t) (other : Backing) (calls : List Access) :
    (durable space).answers b calls = (memory t).answers other calls ∧
      ∀ outcome, .listed outcome ∈ (durable space).answers b calls →
        ∃ u : Table Value, outcome = .ok u.entries := by
  induction calls generalizing b t with
  | nil => exact ⟨rfl, fun _ h => absurd h List.not_mem_nil⟩
  | cons c rest ih =>
      obtain ⟨b', t', answer, hdurable, hmemory, hmirrors, hlisted⟩ := h.access other c
      obtain ⟨hsame, hlists⟩ := ih hmirrors
      simp only [answers, hdurable, hmemory]
      refine ⟨congrArg _ hsame, fun outcome hmem => ?_⟩
      rcases List.mem_cons.1 hmem with heq | hmem
      · exact ⟨t, hlisted outcome heq.symm⟩
      · exact hlists outcome hmem

/-- A namespace of an empty store and an empty layer in memory answer every sequence of calls
alike; what is listed is in bytewise order of the names, each of which occurs once. -/
theorem interchangeable (space : String) (b other : Backing) (calls : List Access)
    (hempty : b.store.table = .empty) (hpresent : b.disk.isPresent = true) :
    (durable space).answers b calls = (memory .empty).answers other calls ∧
      ∀ outcome, .listed outcome ∈ (durable space).answers b calls →
        ∃ entries, outcome = .ok entries ∧
          entries.Pairwise fun x y => Text.bytes x.1 < Text.bytes y.1 := by
  have hmirrors : b.Mirrors space .empty :=
    ⟨fun name => by rw [Store.get?, hempty, Table.get?_empty, Table.get?_empty], hpresent⟩
  obtain ⟨hsame, hlists⟩ := answers_durable hmirrors other calls
  refine ⟨hsame, fun outcome hlisted => ?_⟩
  obtain ⟨t, rfl⟩ := hlists outcome hlisted
  exact ⟨t.entries, rfl, t.inOrder.imp Text.lt_iff_bytes_lt.1⟩

/-- The empty name, and names with a stroke, are names like all others. -/
theorem interchangeable_strokes :
    let b : Backing := ⟨⟨"", false, .empty⟩, .fresh⟩
    let calls : List Access :=
      [.create "b/c" (.text "x"), .create "" .null, .create "b/c" .null, .assign "/" .null,
        .list, .delete "", .contains "", .list]
    b.store.table = .empty ∧ b.disk.isPresent = true ∧
      (durable "a/").answers b calls = (memory .empty).answers b calls ∧
      ∀ outcome, .listed outcome ∈ (durable "a/").answers b calls →
        ∃ entries, outcome = .ok entries ∧
          entries.Pairwise fun x y => Text.bytes x.1 < Text.bytes y.1 :=
  ⟨rfl, rfl, interchangeable "a/" _ _ _ rfl rfl⟩

example :
    (memory .empty).answers ⟨⟨"", false, .empty⟩, .fresh⟩
      [.create "b/c" (.text "x"), .create "" .null, .create "b/c" .null, .assign "/" .null,
        .list, .delete "", .contains "", .list] =
    [.written (.ok 3), .written (.ok 4), .written (.error (.exists "b/c")),
      .written (.error (.notFound "/")), .listed (.ok [("", .null), ("b/c", .text "x")]),
      .deleted (.ok ()), .holds false, .listed (.ok [("b/c", .text "x")])] := by rfl

end Layer

end Statechart
