import Statechart.Decimal.Layout
import Statechart.Text.Quoted

/-!
# Values as JSON text

Two written forms of a value. Fields are written in the order in which the record holds them.

- `Value.compact`     : without any space
- `Value.indented`    : one item or field a line, two spaces a level
- `Value.encodedSize` : the size of the compact form in bytes
-/

namespace Statechart

def Number.compact : Number → String
  | .whole n _ => toString n
  | .real x _ => Decimal.compactLayout.render x

/-! ## Compact form -/

mutual

def Value.compact : Value → String
  | .null => "null"
  | .bool b => if b then "true" else "false"
  | .number n => n.compact
  | .text s => Text.quote s
  | .list items => "[" ++ ",".intercalate (compactItems items) ++ "]"
  | .record fields => "\x7b" ++ ",".intercalate (compactFields fields) ++ "\x7d"

def compactItems : List Value → List String
  | [] => []
  | item :: rest => item.compact :: compactItems rest

def compactFields : List (String × Value) → List String
  | [] => []
  | (name, value) :: rest => (Text.quote name ++ ":" ++ value.compact) :: compactFields rest

end

def Value.encodedSize (v : Value) : Nat := Text.byteLength v.compact

/-! ## Indented form -/

/-- Entries between brackets; nothing stands between the brackets of an empty container. -/
def bracketed (opening closing : String) (level : Nat) (entries : List String) : String :=
  let indent := fun n => String.ofList (List.replicate (2 * n) ' ')
  if entries.isEmpty then opening ++ closing
  else
    opening ++ "\n" ++ ",\n".intercalate (entries.map (indent (level + 1) ++ ·)) ++
      "\n" ++ indent level ++ closing

mutual

def Value.indentedAt : Nat → Value → String
  | level, .list items => bracketed "[" "]" level (indentedItems (level + 1) items)
  | level, .record fields => bracketed "\x7b" "\x7d" level (indentedFields (level + 1) fields)
  | _, .null => "null"
  | _, .bool b => if b then "true" else "false"
  | _, .number n => n.compact
  | _, .text s => Text.quote s

def indentedItems : Nat → List Value → List String
  | _, [] => []
  | level, item :: rest => item.indentedAt level :: indentedItems level rest

def indentedFields : Nat → List (String × Value) → List String
  | _, [] => []
  | level, (name, value) :: rest =>
      (Text.quote name ++ ": " ++ value.indentedAt level) :: indentedFields level rest

end

def Value.indented (v : Value) : String := v.indentedAt 0

end Statechart
