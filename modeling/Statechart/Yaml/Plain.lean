import Statechart.Decimal.Layout
import Statechart.Yaml.Glyph

/-!
# Kinds of plain text

What text without quotes may stand for, apart from itself.

- `truth?`, `isNothing`  : truth values and nothing
- `count?`, `real?`      : whole numbers and doubles
- `looksSpecial`         : text that stands for something else
-/

namespace Statechart
namespace Yaml

def truth? (s : String) : Option Bool :=
  if s = "true" || s = "True" || s = "TRUE" then some true
  else if s = "false" || s = "False" || s = "FALSE" then some false
  else none

def isNothing (s : String) : Bool :=
  s = "" || s = "~" || s = "null" || s = "Null" || s = "NULL"

/-! ## Whole numbers -/

/-- A run of digits to some base; at least one digit. -/
def digits? (base : Nat) (s : List Char) : Option Nat :=
  if s.isEmpty then none
  else (s.mapM fun c => (digit? c).filter fun d => decide (d < base)).map (numberOf base)

def withoutPlus : List Char → List Char
  | '+' :: r => r
  | s => s

/-- Digits with a superfluous zero in front, which make text and not a number. -/
def isZeroPadded (s : List Char) : Bool :=
  let s :=
    match s with
    | '-' :: r => r
    | r => withoutPlus r
  s.length != 1 && s.head? == some '0' && s.all Decimal.isDigit

/-- A whole number without a sign: hexadecimal, octal, binary or decimal. -/
def unsigned? : List Char → Option Nat
  | '0' :: 'x' :: r => digits? 16 r
  | '0' :: 'o' :: r => digits? 8 r
  | '0' :: 'b' :: r => digits? 2 r
  | r => if isZeroPadded r then none else digits? 10 r

/-- A whole number of at most 64 bits. -/
def count? (s : List Char) : Option Nat :=
  (unsigned? (withoutPlus s)).filter fun n => decide (n < wordLimit)

/-- Whole numbers have at most 128 bits. -/
def doubleWordLimit : Nat := wordLimit * wordLimit

/-- Whether text is a whole number, below zero or not. -/
def isWhole (s : List Char) : Bool :=
  match s with
  | '-' :: r => (unsigned? r).any fun n => decide (2 * n ≤ doubleWordLimit)
  | _ => (unsigned? (withoutPlus s)).any fun n => decide (n < doubleWordLimit)

/-! ## Doubles -/

/-- The exponent after its letter. -/
def exponent? (s : List Char) : Option Int :=
  let (negative, s) :=
    match s with
    | '-' :: r => (true, r)
    | r => (false, withoutPlus r)
  if s.isEmpty || !s.all Decimal.isDigit then none
  else some (if negative then -(Decimal.readNat s : Int) else Decimal.readNat s)

/-- Digits with an optional point among or around them, and an optional exponent. -/
def magnitude? (s : List Char) : Option Float :=
  let whole := s.takeWhile Decimal.isDigit
  let (fraction, s) :=
    match s.dropWhile Decimal.isDigit with
    | '.' :: r => (r.takeWhile Decimal.isDigit, r.dropWhile Decimal.isDigit)
    | r => ([], r)
  if whole.isEmpty && fraction.isEmpty then none
  else
    let exponent? : Option Int :=
      match s with
      | [] => some 0
      | c :: r => if c = 'e' || c = 'E' then exponent? r else none
    match exponent? with
    | none => none
    | some e =>
        let x := Decimal.nearest (Decimal.readNat (whole ++ fraction)) (e - fraction.length)
        if x.isFinite then some x else none

def isInfinity (s : String) : Bool := s = ".inf" || s = ".Inf" || s = ".INF"

def isNotANumber (s : String) : Bool := s = ".nan" || s = ".NaN" || s = ".NAN"

def real? (s : List Char) : Option Float :=
  if isNotANumber (String.ofList s) then some (0.0 / 0.0)
  else
    match s with
    | '-' :: r =>
        if isInfinity (String.ofList r) then some (-1.0 / 0.0) else (magnitude? r).map (-·)
    | '+' :: r => if isInfinity (String.ofList r) then some (1.0 / 0.0) else magnitude? r
    | r => if isInfinity (String.ofList r) then some (1.0 / 0.0) else magnitude? r

/-- Text that would be read as something else if it were written plainly. -/
def looksSpecial (s : String) : Bool :=
  isNothing s || (truth? s).isSome || isWhole s.toList || isZeroPadded s.toList ||
    (real? s.toList).isSome

end Yaml
end Statechart
