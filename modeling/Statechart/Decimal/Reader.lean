import Statechart.Value.Basic

/-!
# Reading decimals

Two ways from decimal digits to a double. Expressions use the nearest double; documents scale the
leading digits by a power of ten, which is the nearest double whenever both factors are exact.

- `digitValue`, `readNat` : digits and their number
- `nearest`               : the double nearest to `significand * 10 ^ exponent`
- `scaled?`               : the significand times or divided by a power of ten
-/

namespace Statechart
namespace Decimal

def isDigit (c : Char) : Bool := decide ('0' ≤ c ∧ c ≤ '9')

def digitValue (c : Char) : Nat := c.toNat - 48

/-- The number that a run of digits stands for. -/
def readNat (digits : List Char) : Nat :=
  digits.foldl (fun n c => 10 * n + digitValue c) 0

/-! ## The nearest double -/

/-- Values beyond the range of doubles are told by their size before any power is computed. -/
def nearest (significand : Nat) (exponent : Int) : Float :=
  let size := exponent + (Nat.toDigits 10 significand).length
  if significand = 0 then 0.0
  else if 400 < size then Float.ofScientific 1 false 400
  else if size < -400 then 0.0
  else Float.ofScientific significand (decide (exponent < 0)) exponent.natAbs

/-! ## Scaling -/

def powerOfTen (n : Nat) : Float := Float.ofScientific 1 false n

/-- Powers beyond `1e308` are applied in two steps, and beyond `1e616` every value is zero. A
result beyond the range of doubles is refused. -/
def scaled? (significand : Nat) (exponent : Int) : Option Float :=
  let x := Float.ofNat significand
  if significand = 0 then some x
  else if 0 ≤ exponent then
    if 308 < exponent then none
    else
      let y := x * powerOfTen exponent.toNat
      if y.isFinite then some y else none
  else if -308 ≤ exponent then some (x / powerOfTen (-exponent).toNat)
  else if -616 ≤ exponent then some (x / powerOfTen 308 / powerOfTen (-exponent - 308).toNat)
  else some 0.0

end Decimal
end Statechart
