import Statechart.Json.Reader

/-!
# Shapes of values

Small readers for values of an expected shape. A field may be written once; unknown fields are
passed over.

- `Value.depth`            : how deeply containers are nested
- `readText?`, `readBool?` : values of one kind
- `readList?`              : a list of one shape
- `readWord?`              : one word of a fixed choice
- `required?`, `optional?` : fields that must or may be there
-/

namespace Statechart

mutual

def Value.depth : Value → Nat
  | .list items => itemsDepth items + 1
  | .record fields => fieldsDepth fields + 1
  | .null => 0
  | .bool _ => 0
  | .number _ => 0
  | .text _ => 0

def itemsDepth : List Value → Nat
  | [] => 0
  | item :: rest => max item.depth (itemsDepth rest)

def fieldsDepth : List (String × Value) → Nat
  | [] => 0
  | (_, value) :: rest => max value.depth (fieldsDepth rest)

end

namespace Shape

def readText? : Value → Option String
  | .text s => some s
  | _ => none

def readBool? : Value → Option Bool
  | .bool b => some b
  | _ => none

def isNull : Value → Bool
  | .null => true
  | _ => false

/-- Null or a record without fields. -/
def isVoid : Value → Bool
  | .null => true
  | .record [] => true
  | _ => false

def readInt? : Value → Option Int
  | .number (.whole n _) => some n
  | _ => none

def readFields? : Value → Option (List (String × Value))
  | .record fields => some fields
  | _ => none

def readList? (read : Value → Option α) : Value → Option (List α)
  | .list items => items.mapM read
  | _ => none

/-- Null stands for an absent value. -/
def readNullable? (read : Value → Option α) : Value → Option (Option α)
  | .null => some none
  | v => (read v).map some

/-- A word, alone or as the only field of a record, with nothing under it. -/
def readWord? (isNothing : Value → Bool) : Value → Option String
  | .text s => some s
  | .record [(s, v)] => if isNothing v then some s else none
  | _ => none

/-- Any value, fields in canonical order. -/
def readAny? (v : Value) : Option Value := some v.canonical

/-- All values written under a name. -/
def written (name : String) (fields : List (String × σ)) : List σ :=
  (fields.filter fun field => field.1 == name).map (·.2)

def required? (name : String) (read : σ → Option α) (fields : List (String × σ)) :
    Option α :=
  match written name fields with
  | [v] => read v
  | _ => none

def optional? (name : String) (default : α) (read : σ → Option α)
    (fields : List (String × σ)) : Option α :=
  match written name fields with
  | [] => some default
  | [v] => read v
  | _ => none

end Shape

end Statechart
