/-!
# Tables

Finite maps from names to values, kept in bytewise order of the names.

- `insertEntry`, `eraseEntry`, `valueOf?` : the operations on plain lists of entries
- `Table`        : a list of entries with strictly increasing names
- `Table.scan`   : the entries whose name begins with a given text
-/

namespace Statechart

/-! ## Entries in order -/

/-- Puts an entry where its name belongs; it replaces one of the same name. -/
def insertEntry (name : String) (value : α) : List (String × α) → List (String × α)
  | [] => [(name, value)]
  | (key, old) :: rest =>
      if name < key then (name, value) :: (key, old) :: rest
      else if name = key then (name, value) :: rest
      else (key, old) :: insertEntry name value rest

def eraseEntry (name : String) (entries : List (String × α)) : List (String × α) :=
  entries.filter fun entry => entry.1 != name

/-- The value under a name; of entries with one name the first counts. -/
def valueOf? (name : String) : List (String × α) → Option α
  | [] => none
  | (key, value) :: rest => if key = name then some value else valueOf? name rest

/-- Strictly increasing names. -/
def InOrder (entries : List (String × α)) : Prop := entries.Pairwise fun a b => a.1 < b.1

theorem mem_insertEntry {name : String} {value : α} {entry : String × α}
    {entries : List (String × α)} (h : entry ∈ insertEntry name value entries) :
    entry = (name, value) ∨ entry ∈ entries := by
  induction entries with
  | nil => simpa [insertEntry] using h
  | cons head rest ih =>
      obtain ⟨key, old⟩ := head
      simp only [insertEntry] at h
      split at h
      · simpa using h
      · split at h
        · rcases List.mem_cons.1 h with h | h
          · exact .inl h
          · exact .inr (List.mem_cons_of_mem _ h)
        · rcases List.mem_cons.1 h with h | h
          · exact .inr (h ▸ List.mem_cons_self)
          · exact (ih h).imp id (List.mem_cons_of_mem _)

theorem InOrder.insertEntry {entries : List (String × α)} (h : InOrder entries) (name : String)
    (value : α) : InOrder (insertEntry name value entries) := by
  induction entries with
  | nil => simp [InOrder, Statechart.insertEntry]
  | cons head rest ih =>
      obtain ⟨key, old⟩ := head
      obtain ⟨hhead, hrest⟩ := List.pairwise_cons.1 h
      simp only [Statechart.insertEntry]
      split
      · rename_i hlt
        refine List.pairwise_cons.2 ⟨fun entry hentry => ?_, h⟩
        rcases List.mem_cons.1 hentry with rfl | hentry
        · exact hlt
        · exact String.lt_trans hlt (hhead entry hentry)
      · split
        · rename_i heq
          subst heq
          exact List.pairwise_cons.2 ⟨hhead, hrest⟩
        · rename_i hnlt hne
          refine List.pairwise_cons.2 ⟨fun entry hentry => ?_, ih hrest⟩
          rcases mem_insertEntry hentry with rfl | hentry
          · rcases Std.lt_trichotomy key name with hlt | heq | hgt
            · exact hlt
            · exact absurd heq.symm hne
            · exact absurd hgt hnlt
          · exact hhead entry hentry

theorem InOrder.eraseEntry {entries : List (String × α)} (h : InOrder entries) (name : String) :
    InOrder (eraseEntry name entries) :=
  List.Pairwise.filter _ h

/-! ## Tables -/

structure Table (α : Type) where
  entries : List (String × α)
  inOrder : InOrder entries

namespace Table

def empty : Table α := ⟨[], .nil⟩

instance : Inhabited (Table α) := ⟨empty⟩

def get? (t : Table α) (name : String) : Option α := valueOf? name t.entries

def contains (t : Table α) (name : String) : Bool := (t.get? name).isSome

def insert (t : Table α) (name : String) (value : α) : Table α :=
  ⟨insertEntry name value t.entries, t.inOrder.insertEntry name value⟩

def erase (t : Table α) (name : String) : Table α :=
  ⟨eraseEntry name t.entries, t.inOrder.eraseEntry name⟩

def size (t : Table α) : Nat := t.entries.length

/-- Later entries replace earlier ones of the same name. -/
def ofList (entries : List (String × α)) : Table α :=
  entries.foldl (fun t entry => t.insert entry.1 entry.2) empty

/-- Whether a name begins with a given text. -/
def beginsWith (stem name : String) : Bool := stem.toList.isPrefixOf name.toList

/-- The entries from the first name that is not below the stem, as long as names begin with it. -/
def scan (t : Table α) (stem : String) : List (String × α) :=
  (t.entries.dropWhile fun entry => decide (entry.1 < stem)).takeWhile
    fun entry => beginsWith stem entry.1

end Table

end Statechart
