/-!
# Faults of the variable store

- `IoFault`      : what the file system refuses
- `StorageFault` : why a store operation fails
-/

namespace Statechart

inductive IoFault where
  /-- The directory or file is not there. -/
  | notFound
  /-- The device gave up while writing. -/
  | device
  deriving DecidableEq, Repr

namespace IoFault

def message : IoFault → String
  | .notFound => "No such file or directory (os error 2)"
  | .device => "Input/output error (os error 5)"

end IoFault

inductive StorageFault where
  | io (fault : IoFault)
  /-- The file is not a store file at all. -/
  | unreadable
  | keyExists (key : String)
  | keyNotFound (key : String)
  | unsupportedVersion (version : Nat) (path : String)
  | checksumMismatch (path expected actual : String)
  deriving DecidableEq, Repr

namespace StorageFault

def message : StorageFault → String
  | .io fault => "I/O error: " ++ fault.message
  | .unreadable => "JSON error"
  | .keyExists key => "key already exists: " ++ key
  | .keyNotFound key => "key not found: " ++ key
  | .unsupportedVersion version path =>
      "data corruption: unsupported store version " ++ toString version ++ " in " ++ path
  | .checksumMismatch path expected actual =>
      "data corruption: " ++ path ++ " checksum mismatch: expected " ++ expected ++
        ", got " ++ actual

end StorageFault

end Statechart
