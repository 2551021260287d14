import Statechart.Table

/-!
# Values

The dynamic values held by variables, carried by events and written in descriptions.

- `Number`  : a whole number of the data model, or a finite double
- `Value`   : null, booleans, numbers, text, lists and records
- `Kind`    : the six kinds of value
-/

namespace Statechart

/-! ## Numbers -/

/-- One more than the greatest signed 64-bit integer. -/
def signedLimit : Nat := 9223372036854775808

/-- One more than the greatest unsigned 64-bit integer. -/
def wordLimit : Nat := 18446744073709551616

/-- The range of signed 64-bit integers, in which integer arithmetic is done. -/
def IsSigned (n : Int) : Prop := -9223372036854775808 ≤ n ∧ n < 9223372036854775808

instance (n : Int) : Decidable (IsSigned n) := inferInstanceAs (Decidable (_ ∧ _))

/-- The range of the whole numbers that a value can hold: signed or unsigned 64-bit. -/
def IsWhole (n : Int) : Prop := -9223372036854775808 ≤ n ∧ n < 18446744073709551616

instance (n : Int) : Decidable (IsWhole n) := inferInstanceAs (Decidable (_ ∧ _))

theorem IsSigned.isWhole {n : Int} (h : IsSigned n) : IsWhole n := by
  unfold IsSigned at h
  unfold IsWhole
  omega

inductive Number where
  | whole (n : Int) (isWhole : IsWhole n)
  | real (x : Float) (isFinite : x.isFinite = true)

namespace Number

def ofInt? (n : Int) : Option Number :=
  if h : IsWhole n then some (.whole n h) else none

def ofFloat? (x : Float) : Option Number :=
  if h : x.isFinite = true then some (.real x h) else none

def zero : Number := .whole 0 (by decide)

/-- The nearest double. -/
def toFloat : Number → Float
  | .whole n _ => Float.ofInt n
  | .real x _ => x

/-- The number as a signed integer, if it is a whole number in that range. -/
def toSigned? : Number → Option Int
  | .whole n _ => if IsSigned n then some n else none
  | .real _ _ => none

end Number

/-! ## Values -/

inductive Value where
  | null
  | bool (b : Bool)
  | number (n : Number)
  | text (s : String)
  | list (items : List Value)
  | record (fields : List (String × Value))

instance : Inhabited Value := ⟨.null⟩

namespace Value

/-- A whole number, or null if it lies outside the data model. -/
def ofInt (n : Int) : Value :=
  match Number.ofInt? n with
  | some n => .number n
  | none => .null

def ofNat (n : Nat) : Value := ofInt n

def isText : Value → Bool
  | .text _ => true
  | _ => false

/-- The member of a record; anything else has no members, and a missing member is null. -/
def member (name : String) : Value → Value
  | .record fields => (valueOf? name fields).getD .null
  | _ => .null

/-- Null, false, zero and everything empty count as false. -/
def isTruthy : Value → Bool
  | .null => false
  | .bool b => b
  | .number n => n.toFloat != 0.0
  | .text s => !s.isEmpty
  | .list items => !items.isEmpty
  | .record fields => !fields.isEmpty

end Value

/-! ## Kinds -/

inductive Kind where
  | null
  | boolean
  | number
  | text
  | list
  | record
  deriving DecidableEq, Repr

namespace Kind

def name : Kind → String
  | .null => "null"
  | .boolean => "boolean"
  | .number => "number"
  | .text => "string"
  | .list => "array"
  | .record => "object"

end Kind

def Value.kind : Value → Kind
  | .null => .null
  | .bool _ => .boolean
  | .number _ => .number
  | .text _ => .text
  | .list _ => .list
  | .record _ => .record

end Statechart
