import Statechart.Storage.Fault

/-!
# Faults of variable access

- `BackendFault` : why a layer cannot answer at all
- `ContextFault` : why an access to a variable fails
-/

namespace Statechart

inductive BackendFault where
  /-- An extent without layers has nowhere to write. -/
  | noLayers
  | unavailable (reason : String)
  | storage (fault : StorageFault)
  deriving DecidableEq, Repr

namespace BackendFault

def message : BackendFault → String
  | .noLayers => "extent has no contexts"
  | .unavailable reason => reason
  | .storage fault => fault.message

end BackendFault

inductive ContextFault where
  | notFound (name : String)
  | exists (name : String)
  | backend (fault : BackendFault)
  deriving DecidableEq, Repr

namespace ContextFault

def message : ContextFault → String
  | .notFound name => "variable not found: " ++ name
  | .exists name => "variable already exists: " ++ name
  | .backend fault => "context backend error: " ++ fault.message

end ContextFault

end Statechart
