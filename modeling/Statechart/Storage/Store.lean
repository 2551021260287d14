import Statechart.Storage.Disk
import Statechart.Storage.StoreFile

/-!
# The variable store

A table of values in memory with a store file on disk. A change is made on a copy, the copy is
saved, and only a saved copy becomes the table.

- `Store`        : the table, and where and how it is saved
- `Store.load`   : the store that a directory holds
- `Change`       : the changes of a table, and their result
- `Store.commit` : a change that is saved before it counts
-/

namespace Statechart

structure Store where
  /-- The directory, as it is shown in messages. -/
  path : String
  syncs : Bool
  table : Table Value

/-! ## Changes -/

inductive Change where
  | create (key : String) (value : Value)
  | put (key : String) (value : Value)
  | delete (key : String)

namespace Change

/-- The changed table and the number of bytes written. -/
def apply (c : Change) (t : Table Value) : Except StorageFault (Table Value × Nat) :=
  match c with
  | .create key value =>
      if t.contains key then .error (.keyExists key)
      else .ok (t.insert key value, value.encodedSize)
  | .put key value =>
      if t.contains key then .ok (t.insert key value, value.encodedSize)
      else .error (.keyNotFound key)
  | .delete key =>
      if t.contains key then .ok (t.erase key, 0) else .error (.keyNotFound key)

end Change

/-! ## The store -/

namespace Store

def filePath (s : Store) : String := s.path ++ "/variables.json"

/-- Reads the store file of a directory, which is created if need be. -/
def load (path : String) (syncs : Bool) (disk : Disk) : Disk × Except StorageFault Store :=
  let disk := disk.createDirectory
  let empty : Store := ⟨path, syncs, .empty⟩
  match disk.file with
  | none => (disk, .ok empty)
  | some content =>
      match StoreFile.read? content with
      | none => (disk, .error .unreadable)
      | some file => (disk, (file.check empty.filePath).map fun table => { empty with table })

/-- Saves the table; the save may break off. -/
def save (s : Store) (disk : Disk) (broken : Option SaveBreak) : Disk × Except StorageFault Unit :=
  let (disk, outcome) := disk.save (StoreFile.ofTable disk.now s.table).render s.syncs broken
  (disk, outcome.mapError .io)

/-- A refused change, or one that could not be saved, leaves the store as it was. -/
def commit (s : Store) (disk : Disk) (c : Change) (broken : Option SaveBreak) :
    Store × Disk × Except StorageFault Nat :=
  match c.apply s.table with
  | .error fault => (s, disk, .error fault)
  | .ok (table, written) =>
      -- the copy becomes the table only after it is saved
      match { s with table }.save disk broken with
      | (disk, .ok ()) => ({ s with table }, disk, .ok written)
      | (disk, .error fault) => (s, disk, .error fault)

def get? (s : Store) (key : String) : Option Value := s.table.get? key

def contains (s : Store) (key : String) : Bool := s.table.contains key

def scan (s : Store) (stem : String) : List (String × Value) := s.table.scan stem

end Store

end Statechart
