import Statechart.Decimal.Shortest

/-!
# Layouts of decimals

How the shortest digits of a double are laid out as text. A layout is a record of decisions; the
formats of this library are the values at the end.

- `Layout`        : where positional notation ends, and how exponents and special values look
- `Layout.render` : the text of a double
- `compactLayout`, `blockLayout`, `plainLayout` : values, configuration files, messages
-/

namespace Statechart
namespace Decimal

structure Layout where
  /-- Positional notation is used from `10 ^ leastPoint` up; `none` means always. -/
  leastPoint : Option Int
  /-- Positional notation is used below `10 ^ greatestPoint`; `none` means always. -/
  greatestPoint : Option Int
  /-- Whole numbers in positional notation get a zero after the point. -/
  keepsFraction : Bool
  /-- A positive exponent is written with its sign. -/
  signsExponent : Bool
  notANumber : String
  infinity : String

def zeros (n : Nat) : String := String.ofList (List.replicate n '0')

/-- The digits without exponent; `point` digits stand before the point. -/
def positional (digits : String) (point : Int) (keepsFraction : Bool) : String :=
  let count := digits.length
  if point ≤ 0 then "0." ++ zeros (-point).toNat ++ digits
  else if (count : Int) ≤ point then
    digits ++ zeros (point - count).toNat ++ (if keepsFraction then ".0" else "")
  else
    String.ofList (digits.toList.take point.toNat) ++ "." ++
      String.ofList (digits.toList.drop point.toNat)

/-- One digit before the point, then the exponent. -/
def scientific (digits : String) (point : Int) (signsExponent : Bool) : String :=
  let head := String.ofList (digits.toList.take 1)
  let tail := String.ofList (digits.toList.drop 1)
  let exponent := point - 1
  let sign := if exponent < 0 then "-" else if signsExponent then "+" else ""
  head ++ (if tail.isEmpty then "" else "." ++ tail) ++ "e" ++ sign ++ toString exponent.natAbs

namespace Layout

def isPositional (l : Layout) (point : Int) : Bool :=
  (match l.leastPoint with
    | none => true
    | some least => decide (least < point)) &&
  (match l.greatestPoint with
    | none => true
    | some greatest => decide (point ≤ greatest))

def magnitude (l : Layout) (b : Binary) : String :=
  let d := shortest b
  if d.significand = 0 then
    if l.keepsFraction then "0.0" else "0"
  else
    let digits := toString d.significand
    let point := d.exponent + digits.length
    if l.isPositional point then positional digits point l.keepsFraction
    else scientific digits point l.signsExponent

def render (l : Layout) (x : Float) : String :=
  if x.isNaN then l.notANumber
  else
    let b := Binary.ofFloat x
    (if b.negative then "-" else "") ++ (if x.isFinite then l.magnitude b else l.infinity)

end Layout

/-! ## The layouts in use -/

/-- Values are positional from `1e-5` up to `1e16`; other exponents are signed, as in `1e+16`. -/
def compactLayout : Layout :=
  { leastPoint := some (-5), greatestPoint := some 16, keepsFraction := true
    signsExponent := true, notANumber := "null", infinity := "null" }

/-- Configuration files differ in positive exponents, as in `1e16`, and in the special values. -/
def blockLayout : Layout :=
  { leastPoint := some (-5), greatestPoint := some 16, keepsFraction := true
    signsExponent := false, notANumber := ".nan", infinity := ".inf" }

/-- Messages show numbers without exponent and whole numbers without point. -/
def plainLayout : Layout :=
  { leastPoint := none, greatestPoint := none, keepsFraction := false
    signsExponent := false, notANumber := "NaN", infinity := "inf" }

end Decimal
end Statechart
