import Statechart.Storage.Fault

/-!
# The disk under a store

One directory with the store file and the draft that replaces it. A save writes the draft step by
step and ends with an atomic replacement, and may break off at any step.

- `Disk`        : the directory, its store file and its draft
- `SaveBreak`   : the step at which a save breaks off
- `Disk.save`   : a save, whole or broken off
-/

namespace Statechart

structure Disk where
  isPresent : Bool
  file : Option String
  /-- The bytes of an unfinished save. -/
  draft : Option (List UInt8)
  /-- The time of day, in milliseconds. -/
  now : Int
  deriving DecidableEq, Repr

/-- Where a save breaks off: while the draft is created, after some of its bytes are written,
while it is synced, or before it replaces the store file. -/
inductive SaveBreak where
  | creating
  | writing (count : Nat)
  | syncing
  | replacing
  deriving DecidableEq, Repr

namespace Disk

/-- No directory yet. -/
def blank : Disk := ⟨false, none, none, 0⟩

/-- An empty directory. -/
def fresh : Disk := ⟨true, none, none, 0⟩

def createDirectory (d : Disk) : Disk := { d with isPresent := true }

/-- The directory with everything in it disappears. -/
def removeDirectory (d : Disk) : Disk := ⟨false, none, none, d.now⟩

/-- The store file appears from outside. -/
def writeFile (d : Disk) (content : String) : Disk :=
  { d with isPresent := true, file := some content }

/-- Writes the draft, syncs it if asked to, and lets it replace the store file. -/
def save (d : Disk) (content : String) (syncs : Bool) (broken : Option SaveBreak) :
    Disk × Except IoFault Unit :=
  if d.isPresent then
    let bytes := content.toUTF8.toList
    match broken with
    | some .creating => (d, .error .device)
    | some (.writing count) => ({ d with draft := some (bytes.take count) }, .error .device)
    | some .syncing =>
        if syncs then ({ d with draft := some bytes }, .error .device)
        else ({ d with draft := none, file := some content }, .ok ())
    | some .replacing => ({ d with draft := some bytes }, .error .device)
    | none => ({ d with draft := none, file := some content }, .ok ())
  else (d, .error .notFound)

end Disk

end Statechart
