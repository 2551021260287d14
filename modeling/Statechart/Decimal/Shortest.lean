import Statechart.Decimal.Binary

/-!
# Shortest decimals

A double is written with the fewest digits that read back to it, and among those with the digits
nearest to it.

- `Digits`          : a natural number and a power of ten
- `interval`        : the reals that round to a double
- `shortest`        : the shortest digits in that interval
-/

namespace Statechart
namespace Decimal

/-- Stands for `significand * 10 ^ exponent`. -/
structure Digits where
  significand : Nat
  exponent : Int
  deriving DecidableEq, Repr

/-! ## The interval of a double

All bounds are quarters of the last binary place over a common denominator. -/

structure Interval where
  low : Nat
  value : Nat
  high : Nat
  unit : Nat
  closed : Bool

/-- The neighbour below is half as far when the mantissa is a power of two. The ends belong to
the interval when the mantissa is even. -/
def interval (b : Binary) : Interval :=
  let scale := twoTo (b.exponent - 2).toNat
  let below := if b.mantissa = hiddenBit ∧ -1074 < b.exponent then 1 else 2
  { low := (4 * b.mantissa - below) * scale
    value := 4 * b.mantissa * scale
    high := (4 * b.mantissa + 2) * scale
    unit := twoTo (2 - b.exponent).toNat
    closed := b.mantissa % 2 == 0 }

/-- Whether `num / den` lies in the interval. -/
def Interval.holds (i : Interval) (num den : Nat) : Bool :=
  if i.closed then
    decide (i.low * den ≤ num * i.unit ∧ num * i.unit ≤ i.high * den)
  else
    decide (i.low * den < num * i.unit ∧ num * i.unit < i.high * den)

/-! ## Grids of decimals -/

def digitCount (n : Nat) : Nat := (Nat.toDigits 10 n).length

/-- The least power of ten that exceeds the value `num / den`. -/
def magnitude (num den : Nat) : Int :=
  if den ≤ num then digitCount (num / den)
  else 1 - digitCount ((den - 1) / num)

/-- The better neighbour of the value on the grid with `count` digits, if one is in the interval:
the nearer of the two, the even one on a tie. -/
def onGrid? (i : Interval) (point : Int) (count : Nat) : Option Digits :=
  let exponent := point - count
  let up := tenTo exponent.toNat
  let down := tenTo (-exponent).toNat
  -- the value lies between `d` and `d + 1` on this grid
  let d := i.value * down / (i.unit * up)
  let rest := i.value * down % (i.unit * up)
  let lower := i.holds (d * up) down
  let upper := i.holds ((d + 1) * up) down
  if lower ∧ upper then
    -- both read back: the nearer one counts
    if 2 * rest < i.unit * up ∨ (2 * rest = i.unit * up ∧ d % 2 = 0) then some ⟨d, exponent⟩
    else some ⟨d + 1, exponent⟩
  else if lower then some ⟨d, exponent⟩
  else if upper then some ⟨d + 1, exponent⟩
  else none

/-- Zeros at the end of the significand move into the exponent. -/
def Digits.normalize : Nat → Digits → Digits
  | 0, d => d
  | fuel + 1, d =>
      if d.significand ≠ 0 ∧ d.significand % 10 = 0 then
        normalize fuel ⟨d.significand / 10, d.exponent + 1⟩
      else d

/-- Seventeen digits always suffice. -/
def shortest (b : Binary) : Digits :=
  if b.mantissa = 0 then ⟨0, 0⟩
  else
    let i := interval b
    let point := magnitude i.value i.unit
    match (List.range 17).findSome? (fun k => onGrid? i point (k + 1)) with
    | some d => d.normalize 20
    | none => ⟨b.mantissa, b.exponent⟩

end Decimal
end Statechart
