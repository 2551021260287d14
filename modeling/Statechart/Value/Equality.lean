import Statechart.Value.Basic

/-!
# Order and equality of values

Numbers are compared by value, so that `1` equals `1.0`; lists and records are compared member by
member.

- `Number.compare?` : the order of two numbers
- `Value.equal`     : structural equality
-/

namespace Statechart

/-- The order of two doubles; the comparison of a double with itself is the usual one. -/
def compareFloats? (x y : Float) : Option Ordering :=
  if x < y then some .lt
  else if x == y then some .eq
  else if y < x then some .gt
  else none

/-- Two signed integers are compared exactly, all other numbers as doubles. -/
def Number.compare? (a b : Number) : Option Ordering :=
  match a.toSigned?, b.toSigned? with
  | some x, some y => some (compare x y)
  | _, _ => compareFloats? a.toFloat b.toFloat

/-! ## Structural equality -/

mutual

def Value.equal : Value → Value → Bool
  | .null, .null => true
  | .bool a, .bool b => a == b
  | .number a, .number b => a.compare? b == some .eq
  | .text a, .text b => a == b
  | .list items, .list others => equalItems items others
  | .record fields, .record others =>
      fields.length == others.length && equalFields fields others
  | _, _ => false

def equalItems : List Value → List Value → Bool
  | [], [] => true
  | item :: rest, other :: others => item.equal other && equalItems rest others
  | _, _ => false

/-- Every field has an equal counterpart among the others. -/
def equalFields : List (String × Value) → List (String × Value) → Bool
  | [], _ => true
  | (name, value) :: rest, others =>
      (match valueOf? name others with
        | some other => value.equal other
        | none => false) && equalFields rest others

end

end Statechart
