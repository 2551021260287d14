import Statechart.Decimal.Reader
import Statechart.Json.Tree

/-!
# Reading JSON text

A reader for documents. Records keep their fields in written order, repeated names included, so
that a description can refuse repetitions; `Value.canonical` is the value proper.

- `readNumber?`     : a number, whole when its text is and it fits
- `readText?`       : the rest of a string, escapes resolved
- `readTree?`       : what is written in a whole document
- `readDocument?`   : the value of a whole document up to a nesting limit
- `readPart?`       : the value of the parts that count
- `Value.canonical` : fields sorted by name, of repeated names the last
-/

namespace Statechart
namespace Json

def isSpace (c : Char) : Bool :=
  c = ' ' || c = '\n' || c = '\t' || c = '\r'

def skipSpace (s : List Char) : List Char := s.dropWhile isSpace

/-! ## Numbers -/

/-- The digits that still fit 64 bits, and how many digits are left over. -/
def leading (digits : List Char) : Nat → Nat × Nat
  | significand =>
      match digits with
      | [] => (significand, 0)
      | d :: rest =>
          let next := 10 * significand + Decimal.digitValue d
          if next < wordLimit then leading rest next else (significand, rest.length + 1)

/-- The value of `digits . fraction e exponent`. Digits that do not fit 64 bits only count for
their place. -/
def numberValue? (negative : Bool) (digits fraction : List Char) (exponent : Int) :
    Option Number :=
  let (whole, dropped) := leading digits 0
  let (significand, unused) := leading fraction whole
  -- digits left out before the point raise the place, digits used after it lower it
  let place := (dropped : Int) - (fraction.length - unused : Nat)
  match Decimal.scaled? significand (exponent + place) with
  | none => none
  | some x => Number.ofFloat? (if negative then -x else x)

/-- A whole number outside 64 bits, and minus zero, are doubles. -/
def wholeValue? (negative : Bool) (digits : List Char) : Option Number :=
  let n := Decimal.readNat digits
  if negative then
    if n = 0 then numberValue? true digits [] 0
    else if n ≤ signedLimit then Number.ofInt? (-(n : Int))
    else numberValue? true digits [] 0
  else if n < wordLimit then Number.ofInt? n
  else numberValue? false digits [] 0

/-- The exponent after its letter: an optional sign and digits. -/
def readExponent? (s : List Char) : Option (Int × List Char) :=
  let (negative, s) :=
    match s with
    | '+' :: r => (false, r)
    | '-' :: r => (true, r)
    | r => (false, r)
  let digits := s.takeWhile Decimal.isDigit
  if digits.isEmpty then none
  else
    let n := Decimal.readNat digits
    some (if negative then -(n : Int) else n, s.dropWhile Decimal.isDigit)

/-- A number, and what follows it. It has no value if no double is as large. The digits before the
point do not begin with a superfluous zero. -/
def readNumber? (s : List Char) : Option (Option Number × List Char) := do
  let (negative, s) :=
    match s with
    | '-' :: r => (true, r)
    | r => (false, r)
  let digits := s.takeWhile Decimal.isDigit
  let s := s.dropWhile Decimal.isDigit
  if digits.isEmpty || (digits.head? == some '0' && digits.length != 1) then none
  else
    let (fraction, s) :=
      match s with
      | '.' :: r => (some (r.takeWhile Decimal.isDigit), r.dropWhile Decimal.isDigit)
      | r => (none, r)
    if fraction == some [] then none
    else
      let plain :=
        match fraction with
        | some f => numberValue? negative digits f 0
        | none => wholeValue? negative digits
      match s with
      | c :: r =>
          if c = 'e' ∨ c = 'E' then
            let (exponent, s) ← readExponent? r
            some (numberValue? negative digits (fraction.getD []) exponent, s)
          else some (plain, c :: r)
      | [] => some (plain, [])

/-! ## Strings -/

def hexValue? (c : Char) : Option Nat :=
  if '0' ≤ c ∧ c ≤ '9' then some (c.toNat - 48)
  else if 'a' ≤ c ∧ c ≤ 'f' then some (c.toNat - 87)
  else if 'A' ≤ c ∧ c ≤ 'F' then some (c.toNat - 55)
  else none

def readUnit? : List Char → Option (Nat × List Char)
  | a :: b :: c :: d :: rest => do
      let a ← hexValue? a
      let b ← hexValue? b
      let c ← hexValue? c
      let d ← hexValue? d
      some (((a * 16 + b) * 16 + c) * 16 + d, rest)
  | _ => none

/-- The character of a code unit, or of a pair of surrogates; a surrogate that stands alone has
none. The answer comes with what follows. -/
def pairedCode? (high : Nat) (s : List Char) : Option (Char × List Char) :=
  if 0xd800 ≤ high ∧ high < 0xdc00 then
    match s with
    | '\\' :: 'u' :: s => do
        let (low, s) ← readUnit? s
        if 0xdc00 ≤ low ∧ low < 0xe000 then
          some (Char.ofNat (0x10000 + (high - 0xd800) * 0x400 + (low - 0xdc00)), s)
        else none
    | _ => none
  else if 0xdc00 ≤ high ∧ high < 0xe000 then none
  else some (Char.ofNat high, s)

def simpleEscape? (c : Char) : Option Char :=
  if c = '"' ∨ c = '\\' ∨ c = '/' then some c
  else if c = 'b' then some '\x08'
  else if c = 'f' then some '\x0c'
  else if c = 'n' then some '\n'
  else if c = 'r' then some '\r'
  else if c = 't' then some '\t'
  else none

/-- The characters up to the closing quote, if they have values, and what follows. Control
characters must be escaped. -/
def readString? : Nat → List Char → Option (Option (List Char) × List Char)
  | 0, _ => none
  | _ + 1, [] => none
  | fuel + 1, c :: rest =>
      if c = '"' then some (some [], rest)
      else if c = '\\' then
        match rest with
        | 'u' :: rest => do
            let (unit, rest) ← readUnit? rest
            match pairedCode? unit rest with
            | some (e, rest) =>
                let (text, rest) ← readString? fuel rest
                some (text.map (e :: ·), rest)
            | none =>
                let (_, rest) ← readString? fuel rest
                some (none, rest)
        | e :: rest => do
            let e ← simpleEscape? e
            let (text, rest) ← readString? fuel rest
            some (text.map (e :: ·), rest)
        | [] => none
      else if c.toNat < 32 then none
      else do
        let (text, rest) ← readString? fuel rest
        some (text.map (c :: ·), rest)

def readText? (s : List Char) : Option (Option String × List Char) := do
  let (text, rest) ← readString? (s.length + 1) s
  some (text.map String.ofList, rest)

/-! ## Documents -/

mutual

/-- One value after optional space. -/
def readValue? : Nat → List Char → Option (Tree × List Char)
  | 0, _ => none
  | fuel + 1, s =>
      match skipSpace s with
      | [] => none
      | 'n' :: 'u' :: 'l' :: 'l' :: rest => some (.null, rest)
      | 't' :: 'r' :: 'u' :: 'e' :: rest => some (.bool true, rest)
      | 'f' :: 'a' :: 'l' :: 's' :: 'e' :: rest => some (.bool false, rest)
      | '"' :: rest => do
          let (text, rest) ← readText? rest
          some (.text text, rest)
      | '[' :: rest =>
          match skipSpace rest with
          | ']' :: rest => some (.list [], rest)
          | rest => do
              let (items, rest) ← readItems? fuel rest
              some (.list items, rest)
      | '\x7b' :: rest =>
          match skipSpace rest with
          | '\x7d' :: rest => some (.record [], rest)
          | rest => do
              let (fields, rest) ← readFields? fuel rest
              some (.record fields, rest)
      | rest => do
          let (n, rest) ← readNumber? rest
          some (.number n, rest)

/-- The items of a list up to its closing bracket. -/
def readItems? : Nat → List Char → Option (List Tree × List Char)
  | 0, _ => none
  | fuel + 1, s => do
      let (item, rest) ← readValue? fuel s
      match skipSpace rest with
      | ',' :: rest =>
          let (items, rest) ← readItems? fuel rest
          some (item :: items, rest)
      | ']' :: rest => some ([item], rest)
      | _ => none

/-- The fields of a record up to its closing bracket. -/
def readFields? : Nat → List Char → Option (List (Option String × Tree) × List Char)
  | 0, _ => none
  | fuel + 1, s =>
      match skipSpace s with
      | '"' :: rest => do
          let (name, rest) ← readText? rest
          match skipSpace rest with
          | ':' :: rest =>
              let (value, rest) ← readValue? fuel rest
              match skipSpace rest with
              | ',' :: rest =>
                  let (fields, rest) ← readFields? fuel rest
                  some ((name, value) :: fields, rest)
              | '\x7d' :: rest => some ([(name, value)], rest)
              | _ => none
          | _ => none
      | _ => none

end

/-- What is written in a whole document; nothing but space may follow it. -/
def readTree? (s : String) : Option Tree := do
  let chars := s.toList
  let (tree, rest) ← readValue? (2 * chars.length + 2) chars
  if (skipSpace rest).isEmpty then some tree else none

/-- Containers may be nested less deeply than this in documents. -/
def nestingLimit : Nat := 128

/-- The value of a whole document. -/
def readDocument? (limit : Nat) (s : String) : Option Value := (readTree? s).bind (·.value? limit)

/-- The value of the parts of a document that count. -/
def readPart? (part : Part) (s : String) : Option Value :=
  (readTree? s).bind (·.select? nestingLimit part)

end Json

/-! ## Canonical values -/

mutual

/-- The same value with the fields of each record sorted bytewise by name; of repeated names the
last counts. -/
def Value.canonical : Value → Value
  | .list items => .list (canonicalItems items)
  | .record fields => .record (canonicalFields fields [])
  | .null => .null
  | .bool b => .bool b
  | .number n => .number n
  | .text s => .text s

def canonicalItems : List Value → List Value
  | [] => []
  | item :: rest => item.canonical :: canonicalItems rest

def canonicalFields : List (String × Value) → List (String × Value) → List (String × Value)
  | [], sorted => sorted
  | (name, value) :: rest, sorted => canonicalFields rest (insertEntry name value.canonical sorted)

end

end Statechart
