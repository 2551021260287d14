import Statechart.Decimal.Reader

/-!
# Characters of configuration files

Where a character stands decides what it means, so that a file is read as a list of characters with
their places.

- `isBreak`, `isBlank`  : characters that end lines, and that part words
- `isAllowed`           : characters that may be in a file
- `digit?`              : the values of digits
- `Glyph`               : a character and its place
- `glyphs?`             : the characters of a file
-/

namespace Statechart
namespace Yaml

/-! ## Kinds of characters -/

def isBreak (c : Char) : Bool :=
  c = '\n' || c = '\r' || c = '\u0085' || c = '\u2028' || c = '\u2029'

def isBlank (c : Char) : Bool := c = ' ' || c = '\t'

/-- A character between words. -/
def isGap (c : Char) : Bool := isBlank c || isBreak c

/-- The mark that may stand in front of a file. -/
def orderMark : Char := '\ufeff'

/-- Neither control characters nor what is no character. -/
def isAllowed (c : Char) : Bool :=
  let n := c.toNat
  n = 0x9 || n = 0xa || n = 0xd || (0x20 ≤ n && n ≤ 0x7e) || n = 0x85 ||
    (0xa0 ≤ n && n != 0xfffe && n != 0xffff)

/-- A letter or digit of names in front of nodes. -/
def isNameChar (c : Char) : Bool := c.isAlphanum || c = '_' || c = '-'

def isFlowIndicator (c : Char) : Bool := ",[]\x7b\x7d".toList.contains c

/-- The value of a digit up to `f`. -/
def digit? (c : Char) : Option Nat :=
  if Decimal.isDigit c then some (Decimal.digitValue c)
  else if 'a' ≤ c ∧ c ≤ 'f' then some (c.toNat - 87)
  else if 'A' ≤ c ∧ c ≤ 'F' then some (c.toNat - 55)
  else none

/-- The number that digits write to some base. -/
def numberOf (base : Nat) (digits : List Nat) : Nat := digits.foldl (fun n d => base * n + d) 0

/-! ## Places -/

/-- A character, and its line and column counted from zero. -/
structure Glyph where
  char : Char
  line : Nat
  column : Nat
  deriving DecidableEq, Repr

/-- All ends of lines in one spelling, except the separators of lines and paragraphs. -/
def unifyBreaks : List Char → List Char
  | [] => []
  | '\r' :: '\n' :: r => '\n' :: unifyBreaks r
  | c :: r => (if c = '\r' || c = '\u0085' then '\n' else c) :: unifyBreaks r

def place (line column : Nat) : List Char → List Glyph
  | [] => []
  | c :: r =>
      ⟨c, line, column⟩ :: if isBreak c then place (line + 1) 0 r else place line (column + 1) r

def glyphs? (s : String) : Option (List Glyph) :=
  let cs := s.toList
  if cs.all isAllowed then some (place 0 0 (unifyBreaks cs)) else none

/-! ## Looking ahead -/

/-- Whether a word is over. -/
def endsWord : List Glyph → Bool
  | [] => true
  | g :: _ => isGap g.char

/-- Whether the next characters are these. -/
def startsWith : List Char → List Glyph → Bool
  | [], _ => true
  | _ :: _, [] => false
  | c :: cs, g :: r => g.char == c && startsWith cs r

/-- Whether a line begins with three times a character and nothing more in this word. -/
def isRule (c : Char) (s : List Glyph) : Bool :=
  (s.head?.any fun g => g.column == 0) && startsWith [c, c, c] s && endsWord (s.drop 3)

/-- Whether the mark of a document stands here. -/
def isDocumentMark (s : List Glyph) : Bool := isRule '-' s || isRule '.' s

/-- The rest after blanks and line breaks. -/
def skipGap (s : List Glyph) : List Glyph := s.dropWhile fun g => isGap g.char

/-- The rest after blanks. -/
def skipBlanks (s : List Glyph) : List Glyph := s.dropWhile fun g => isBlank g.char

/-- Passes the end of a line: blanks and a comment, but nothing else. -/
def endLine? (s : List Glyph) : Option (List Glyph) :=
  let s := skipBlanks s
  let isRemark := s.head?.any fun g => g.char == '#'
  match if isRemark then s.dropWhile fun g : Glyph => !isBreak g.char else s with
  | [] => some []
  | g :: r => if isBreak g.char then some r else none

/-- The next characters of a kind, and the rest. -/
def spanChars (p : Char → Bool) (s : List Glyph) : List Char × List Glyph :=
  ((s.takeWhile fun g => p g.char).map (·.char), s.dropWhile fun g => p g.char)

end Yaml
end Statechart
