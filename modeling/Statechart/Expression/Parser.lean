import Statechart.Decimal.Reader
import Statechart.Expression.Fault
import Statechart.Text.Alphabetic
import Statechart.Text.Numeric

/-!
# Parsing expressions

A descent through the levels of binary operators, from the loosest to the tightest. Every level
groups to the left; blanks may stand between tokens, but not around the point before a member.

- `Level`               : the levels of binary operators and their symbols
- `parseLevel`          : one level of the grammar
- `Expr.parse`          : a whole text
- `Expression.parse`    : the same with its source
- `Expression.ofValue`  : text is parsed, any other value is a constant
-/

namespace Statechart

/-! ## Levels -/

/-- From the loosest to the tightest. -/
inductive Level where
  | disjunction
  | conjunction
  | equality
  | comparison
  | sum
  | product
  deriving DecidableEq, Repr

namespace Level

def tighter? : Level → Option Level
  | .disjunction => some .conjunction
  | .conjunction => some .equality
  | .equality => some .comparison
  | .comparison => some .sum
  | .sum => some .product
  | .product => none

/-- A symbol that begins with another one is tried before it. -/
def operators : Level → List BinaryOp
  | .disjunction => [.or]
  | .conjunction => [.and]
  | .equality => [.equal, .unequal]
  | .comparison =>
      [.compare .lessEqual, .compare .greaterEqual, .compare .less, .compare .greater]
  | .sum => [.arith .add, .arith .subtract]
  | .product => [.arith .multiply, .arith .divide, .arith .remainder]

/-- The operator at the beginning of a text, and the text after it. -/
def operator? (level : Level) (s : List Char) : Option (BinaryOp × List Char) :=
  level.operators.findSome? fun op =>
    if op.symbol.toList.isPrefixOf s then some (op, s.drop op.symbol.length) else none

end Level

/-! ## Tokens -/

/-- A failed parse: the cause, and the text from the fault on. -/
structure Stuck where
  cause : SyntaxCause
  rest : List Char

abbrev Parsing := Except Stuck

def skipBlanks (s : List Char) : List Char := s.dropWhile Text.isBlank

def isNameStart (c : Char) : Bool := Text.isAlphabetic c || c = '_' || c = '$'

def isNamePart (c : Char) : Bool :=
  Text.isAlphabetic c || Text.isNumeric c || c = '_' || c = '$'

/-- The text up to the closing quote. A backslash makes any character stand for itself, except
for the letters of line feed, tabulator and carriage return. -/
def parseText (quote : Char) : List Char → Option (List Char × List Char)
  | [] => none
  | c :: rest =>
      if c = quote then some ([], rest)
      else if c = '\\' then
        match rest with
        | [] => none
        | e :: rest =>
            let e := if e = 'n' then '\n' else if e = 't' then '\t' else if e = 'r' then '\r' else e
            (parseText quote rest).map fun (text, rest) => (e :: text, rest)
      else (parseText quote rest).map fun (text, rest) => (c :: text, rest)

/-- A number token: digits, then a fraction if a digit follows the point, then an exponent. -/
structure NumberToken where
  whole : List Char
  fraction : Option (List Char)
  /-- The letter with its sign, and the digits, of which there may be none. -/
  exponent : Option (List Char × List Char)

namespace NumberToken

def text (t : NumberToken) : List Char :=
  t.whole ++ (t.fraction.elim [] fun f => '.' :: f) ++ (t.exponent.elim [] fun e => e.1 ++ e.2)

/-- Whole tokens in the signed range are whole numbers, all others the nearest double. -/
def value? (t : NumberToken) : Option Number :=
  let n := Decimal.readNat t.whole
  if t.fraction.isNone && t.exponent.isNone && decide (n < signedLimit) then Number.ofInt? n
  else
    let fraction := t.fraction.getD []
    let significand := Decimal.readNat (t.whole ++ fraction)
    match t.exponent with
    | none => Number.ofFloat? (Decimal.nearest significand (-(fraction.length : Int)))
    | some (mark, digits) =>
        if digits.isEmpty then none
        else
          let n : Int := Decimal.readNat digits
          let shift := if mark.contains '-' then -n else n
          Number.ofFloat? (Decimal.nearest significand (shift - fraction.length))

end NumberToken

def scanFraction : List Char → Option (List Char) × List Char
  | '.' :: d :: rest =>
      if Decimal.isDigit d then
        (some ((d :: rest).takeWhile Decimal.isDigit), (d :: rest).dropWhile Decimal.isDigit)
      else (none, '.' :: d :: rest)
  | s => (none, s)

def scanExponent : List Char → Option (List Char × List Char) × List Char
  | [] => (none, [])
  | c :: rest =>
      if c = 'e' ∨ c = 'E' then
        match rest with
        | s :: rest =>
            if s = '+' ∨ s = '-' then
              (some ([c, s], rest.takeWhile Decimal.isDigit), rest.dropWhile Decimal.isDigit)
            else
              (some ([c], (s :: rest).takeWhile Decimal.isDigit),
                (s :: rest).dropWhile Decimal.isDigit)
        | [] => (some ([c], []), [])
      else (none, c :: rest)

def scanNumber (s : List Char) : NumberToken × List Char :=
  let whole := s.takeWhile Decimal.isDigit
  let (fraction, rest) := scanFraction (s.dropWhile Decimal.isDigit)
  let (exponent, rest) := scanExponent rest
  (⟨whole, fraction, exponent⟩, rest)

def parseNumber (s : List Char) : Parsing (Expr × List Char) :=
  let (token, rest) := scanNumber s
  match token.value? with
  | some n => .ok (.literal (.number n), rest)
  | none => .error ⟨.badNumber (String.ofList token.text), rest⟩

/-! ## Variables -/

/-- The members after a name, each directly after its point. -/
def parsePath : Nat → List Char → Parsing (List String × List Char)
  | 0, s => .error ⟨.exhausted, s⟩
  | fuel + 1, '.' :: s =>
      let name := s.takeWhile isNamePart
      if name.isEmpty then .error ⟨.missingMember, s⟩
      else do
        let (path, rest) ← parsePath fuel (s.dropWhile isNamePart)
        .ok (String.ofList name :: path, rest)
  | _ + 1, s => .ok ([], s)

/-- The words for truth values and null are constants unless a member follows. -/
def constant? (name : String) : Option Value :=
  if name = "true" then some (.bool true)
  else if name = "false" then some (.bool false)
  else if name = "null" then some .null
  else none

def parseName (s : List Char) : Parsing (Expr × List Char) := do
  let name := String.ofList (s.takeWhile isNamePart)
  let rest := s.dropWhile isNamePart
  let (path, rest) ← parsePath (rest.length + 1) rest
  match path, constant? name with
  | [], some value => .ok (.literal value, rest)
  | path, _ => .ok (.variable name path, rest)

/-! ## The grammar -/

mutual

def parseLevel : Nat → Level → List Char → Parsing (Expr × List Char)
  | 0, _, s => .error ⟨.exhausted, s⟩
  | fuel + 1, level, s => do
      let (left, rest) ← parseOperand fuel level s
      parseTail fuel level left rest

/-- An operand of a level is an expression of the next level. -/
def parseOperand : Nat → Level → List Char → Parsing (Expr × List Char)
  | 0, _, s => .error ⟨.exhausted, s⟩
  | fuel + 1, level, s =>
      match level.tighter? with
      | some tighter => parseLevel fuel tighter s
      | none => parseUnary fuel s

/-- Further operators of a level, grouped to the left. -/
def parseTail : Nat → Level → Expr → List Char → Parsing (Expr × List Char)
  | 0, _, _, s => .error ⟨.exhausted, s⟩
  | fuel + 1, level, left, s =>
      match level.operator? (skipBlanks s) with
      | none => .ok (left, skipBlanks s)
      | some (op, rest) => do
          -- what was read so far becomes the left side
          let (right, rest) ← parseOperand fuel level rest
          parseTail fuel level (.binary op left right) rest

def parseUnary : Nat → List Char → Parsing (Expr × List Char)
  | 0, s => .error ⟨.exhausted, s⟩
  | fuel + 1, s =>
      match skipBlanks s with
      | '!' :: rest => do
          let (operand, rest) ← parseUnary fuel rest
          .ok (.unary .not operand, rest)
      | '-' :: rest => do
          let (operand, rest) ← parseUnary fuel rest
          .ok (.unary .negate operand, rest)
      | rest => parsePrimary fuel rest

def parsePrimary : Nat → List Char → Parsing (Expr × List Char)
  | 0, s => .error ⟨.exhausted, s⟩
  | _ + 1, [] => .error ⟨.missingOperand, []⟩
  | fuel + 1, c :: rest =>
      if c = '(' then do
        let (inner, rest) ← parseLevel fuel .disjunction rest
        match skipBlanks rest with
        | ')' :: rest => .ok (inner, rest)
        | rest => .error ⟨.unclosedGroup, rest⟩
      else if c = '[' then
        match skipBlanks rest with
        | ']' :: rest => .ok (.list [], rest)
        | rest => do
            let (items, rest) ← parseItems fuel rest
            .ok (.list items, rest)
      else if c = '"' ∨ c = '\'' then
        match parseText c rest with
        | some (text, rest) => .ok (.literal (.text (String.ofList text)), rest)
        | none => .error ⟨.unclosedText, []⟩
      else if Decimal.isDigit c then parseNumber (c :: rest)
      else if isNameStart c then parseName (c :: rest)
      else .error ⟨.missingOperand, c :: rest⟩

/-- The items of a list up to its closing bracket. -/
def parseItems : Nat → List Char → Parsing (List Expr × List Char)
  | 0, s => .error ⟨.exhausted, s⟩
  | fuel + 1, s => do
      let (item, rest) ← parseLevel fuel .disjunction s
      match skipBlanks rest with
      | ',' :: rest =>
          let (items, rest) ← parseItems fuel rest
          .ok (item :: items, rest)
      | ']' :: rest => .ok ([item], rest)
      | rest => .error ⟨.unclosedList, rest⟩

end

/-! ## Whole texts -/

/-- Every character costs at most the descent through all levels. -/
def parseFuel (s : List Char) : Nat := 20 * (s.length + 1)

def Expr.parse (s : List Char) : Except Stuck Expr :=
  if s.isEmpty then .error ⟨.emptySource, []⟩
  else do
    let (tree, rest) ← parseLevel (parseFuel s) .disjunction s
    match skipBlanks rest with
    | [] => .ok tree
    | rest => .error ⟨.trailingInput, rest⟩

def trimBlanks (s : List Char) : List Char :=
  (skipBlanks (skipBlanks s).reverse).reverse

def byteSize : List Char → Nat
  | [] => 0
  | c :: rest => c.utf8Size + byteSize rest

namespace Expression

def parse (source : String) : Except SyntaxFault Expression :=
  let trimmed := trimBlanks source.toList
  match Expr.parse trimmed with
  | .ok tree => .ok ⟨source, tree⟩
  | .error stuck =>
      .error ⟨stuck.cause, byteSize trimmed - byteSize stuck.rest, String.ofList stuck.rest⟩

end Expression

end Statechart
