import Statechart.Storage.Disk

/-!
# Files

The files that a command reads and writes.

- `FileSystem`    : access to files, in any monad
- `Files`         : a directory as a value
- `Files.locate?` : where a path leads
- `pureFiles`     : access to such a directory
-/

namespace Statechart
namespace CommandLine

/-! ## Access -/

/-- What is found at a path. -/
inductive Finding where
  | text (content : String)
  | nothing
  /-- Something that cannot be read, such as a directory. -/
  | unreadable
  deriving DecidableEq, Repr

namespace Finding

def text? : Finding → Option String
  | .text content => some content
  | _ => none

end Finding

structure FileSystem (m : Type → Type) where
  read : String → m Finding
  /-- Writes a file and tells whether that worked. -/
  write : String → String → m Bool
  remove : String → m Unit
  /-- Makes a directory with all directories above it and tells whether it is there. -/
  makeDirectory : String → m Bool
  /-- The time of day, in milliseconds. -/
  now : m Int

/-! ## Directories as values -/

/-- Files and directories by the steps that lead there: from the working directory, or from the
root after a first step `/`. -/
structure Files where
  contents : List (List String × String)
  directories : List (List String)
  deriving DecidableEq, Repr

def root : List String := ["/"]

/-- The place from which a path starts, and its steps. -/
def pathSteps (path : String) : List String × List String :=
  match path.splitOn "/" with
  | "" :: steps => (root, steps)
  | steps => ([], steps)

/-- The directory above a place. -/
def above (place : List String) : List String :=
  if place = root then root
  else
    match place.getLast? with
    | none => [".."]
    | some ".." => place ++ [".."]
    | some _ => place.dropLast

/-- Where one step leads. -/
def follow (place : List String) (step : String) : List String :=
  if step = "" ∨ step = "." then place
  else if step = ".." then above place
  else place ++ [step]

/-- Everything written there disappears. -/
def nullDevice : List String := root ++ ["dev", "null"]

namespace Files

/-- What lies above the working directory is taken to be there. -/
def isDirectory (f : Files) (place : List String) : Bool :=
  place.all (· == "..") || place == root || place == nullDevice.dropLast ||
    f.directories.contains place

/-- Where a path leads, through directories only, and whether it can only mean a directory. -/
def locate? (f : Files) (path : String) : Option (List String × Bool) :=
  if path = "" then none
  else
    let (start, steps) := pathSteps path
    let place? := steps.foldlM (fun place step =>
      if f.isDirectory place then some (follow place step) else none) start
    place?.map fun place => (place, ["", ".", ".."].contains (steps.getLast?.getD ""))

/-- A directory with some files in it. -/
def ofList (files : List (String × String)) : Files :=
  let contents := files.map fun (path, text) =>
    let (start, steps) := pathSteps path
    (steps.foldl follow start, text)
  let directories := contents.flatMap fun (place, _) =>
    (List.range place.length).map fun n => place.take n
  ⟨contents, directories⟩

def content? (f : Files) (place : List String) : Option String :=
  if place = nullDevice then some ""
  else (f.contents.find? fun entry => entry.1 == place).map (·.2)

def read (f : Files) (path : String) : Finding :=
  match f.locate? path with
  | none => .nothing
  | some (place, mustBeDirectory) =>
      if f.isDirectory place then .unreadable
      else if mustBeDirectory then .nothing
      else
        match f.content? place with
        | some content => .text content
        | none => .nothing

/-- A file can be written where its directory is and no directory has its name. -/
def write (f : Files) (path text : String) : Files × Bool :=
  match f.locate? path with
  | some (place, false) =>
      if f.isDirectory place then (f, false)
      else if place = nullDevice then (f, true)
      else
        let others := f.contents.filter fun entry => entry.1 != place
        ({ f with contents := others ++ [(place, text)] }, true)
  | _ => (f, false)

def remove (f : Files) (path : String) : Files :=
  match f.locate? path with
  | some (place, false) => { f with contents := f.contents.filter fun entry => entry.1 != place }
  | _ => f

/-- Goes one step and makes the directory there, unless a file is in the way. -/
def enter? (f : Files) (place : List String) (step : String) : Option (Files × List String) :=
  let next := follow place step
  if (f.content? next).isSome then none
  else if f.isDirectory next then some (f, next)
  else some ({ f with directories := f.directories ++ [next] }, next)

def makeDirectory (f : Files) (path : String) : Files × Bool :=
  let (start, steps) := pathSteps path
  match steps.foldlM (fun (f, place) step => enter? f place step) (f, start) with
  | some (f, _) => (f, true)
  | none => (f, false)

end Files

/-- A directory that commands change. -/
def pureFiles : FileSystem (StateM Files) :=
  { read := fun path => do return (← get).read path
    write := fun path text => modifyGet fun f => ((f.write path text).2, (f.write path text).1)
    remove := fun path => modify fun f => f.remove path
    makeDirectory := fun path =>
      modifyGet fun f => ((f.makeDirectory path).2, (f.makeDirectory path).1)
    now := return 0 }

end CommandLine
end Statechart
