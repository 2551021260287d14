import Statechart.Checksum
import Statechart.Json.Writer
import Statechart.Storage.Fault
import Statechart.Value.Shape

/-!
# The store file

A JSON document with a version, a time stamp, a checksum over the compact entries, and the entries
themselves.

- `StoreFile`         : the document
- `StoreFile.render`  : its written form
- `StoreFile.read?`   : what a text is as a store file, if it is one
- `StoreFile.check`   : whether version and checksum are right
-/

namespace Statechart

structure StoreFile where
  version : Nat
  updatedAt : Int
  checksum : String
  table : Table Value

namespace StoreFile

def currentVersion : Nat := 1

def checksumOf (table : Table Value) : String :=
  Checksum.text (Value.record table.entries).compact

def ofTable (now : Int) (table : Table Value) : StoreFile :=
  ⟨currentVersion, now, checksumOf table, table⟩

def render (f : StoreFile) : String :=
  Value.indented <| .record
    [("version", .ofNat f.version), ("updated_at", .ofInt f.updatedAt),
      ("checksum", .text f.checksum), ("variables", .record f.table.entries)]

/-! ## Reading -/

def ofFields? (fields : List (String × Value)) : Option StoreFile := do
  let version ← Shape.required? "version" Shape.readInt? fields
  let updatedAt ← Shape.required? "updated_at" Shape.readInt? fields
  let checksum ← Shape.required? "checksum" Shape.readText? fields
  let entries ← Shape.required? "variables" Shape.readFields? fields
  if 0 ≤ version ∧ version < 4294967296 ∧ IsSigned updatedAt then
    some ⟨version.toNat, updatedAt, checksum,
      Table.ofList (entries.map fun entry => (entry.1, entry.2.canonical))⟩
  else none

/-- All other fields are passed over. -/
def part : Json.Part :=
  .record [("version", .whole), ("updated_at", .whole), ("checksum", .whole), ("variables", .whole)]

def read? (content : String) : Option StoreFile := do
  let document ← Json.readPart? part content
  let fields ← Shape.readFields? document
  ofFields? fields

/-- The entries, if the version is known and the checksum is theirs. -/
def check (f : StoreFile) (path : String) : Except StorageFault (Table Value) :=
  if f.version ≠ currentVersion then .error (.unsupportedVersion f.version path)
  else
    let actual := checksumOf f.table
    if actual ≠ f.checksum then .error (.checksumMismatch path f.checksum actual)
    else .ok f.table

end StoreFile

end Statechart
