import Statechart.Value.Basic

/-!
# Doubles as exact binary fractions

A finite double is a sign, a natural number and a power of two. Everything that has to be exact
is computed on these parts.

- `twoTo`, `tenTo`     : powers of two and ten
- `Binary`             : sign, mantissa and exponent
- `Binary.ofFloat`     : the parts of a finite double
- `Binary.toFloat`     : the double with given parts, when there is one
- `remainder`          : the remainder of truncated division, which is always a double
- `Binary.roundScaled` : a non-negative double times an integer, rounded half to even
-/

namespace Statechart
namespace Decimal

/-! ## Powers -/

def twoTo (n : Nat) : Nat := Nat.pow 2 n

def tenTo (n : Nat) : Nat := Nat.pow 10 n

/-- The leading bit of normal mantissas, which is not stored: two to the power 52. -/
def hiddenBit : Nat := 4503599627370496

/-! ## Parts of a double -/

/-- Stands for `mantissa * 2 ^ exponent`, negated if `negative`. -/
structure Binary where
  negative : Bool
  mantissa : Nat
  exponent : Int
  deriving DecidableEq, Repr

namespace Binary

/-- Subnormal numbers have no hidden bit and share the least exponent. -/
def ofFloat (x : Float) : Binary :=
  let bits : Nat := x.toBits.toNat
  let fraction : Nat := bits % hiddenBit
  let biased : Nat := bits / hiddenBit % 2048
  if biased = 0 then ⟨decide (signedLimit ≤ bits), fraction, -1074⟩
  else ⟨decide (signedLimit ≤ bits), fraction + hiddenBit, (biased : Int) - 1075⟩

/-- The mantissa is moved up until its leading bit is the hidden bit, or the exponent is least.
Exact for mantissas below `2 ^ 53` whose value is a double. -/
def toFloat (b : Binary) : Float :=
  let sign := if b.negative then signedLimit else 0
  if b.mantissa = 0 then Float.ofBits (UInt64.ofNat sign)
  else
    -- as far up as the mantissa has room and the exponent can go down
    let shift := min (52 - b.mantissa.log2) (b.exponent + 1074).toNat
    let mantissa := b.mantissa * twoTo shift
    let exponent := b.exponent - shift
    if mantissa < hiddenBit then Float.ofBits (UInt64.ofNat (sign + mantissa))
    else
      Float.ofBits <| UInt64.ofNat <|
        sign + (exponent + 1075).toNat * hiddenBit + (mantissa - hiddenBit)

/-- The magnitude as a quotient of natural numbers. -/
def quotient (b : Binary) : Nat × Nat :=
  if 0 ≤ b.exponent then (b.mantissa * twoTo b.exponent.toNat, 1)
  else (b.mantissa, twoTo (-b.exponent).toNat)

/-- The magnitude times `scale`, rounded to the nearest integer, a half to the even one. -/
def roundScaled (b : Binary) (scale : Nat) : Nat :=
  let (num, den) := b.quotient
  let whole := num * scale / den
  let rest := num * scale % den
  if 2 * rest < den ∨ (2 * rest = den ∧ whole % 2 = 0) then whole else whole + 1

end Binary

/-! ## Remainder -/

/-- The remainder `x - q * y` for the quotient `q` truncated toward zero, with the sign of `x`. -/
def remainder (x y : Float) : Float :=
  let a := Binary.ofFloat x
  let b := Binary.ofFloat y
  let least := min a.exponent b.exponent
  let num := a.mantissa * twoTo (a.exponent - least).toNat
  let den := b.mantissa * twoTo (b.exponent - least).toNat
  Binary.toFloat ⟨a.negative, num % den, least⟩

end Decimal
end Statechart
