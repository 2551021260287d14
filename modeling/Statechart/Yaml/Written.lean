import Statechart.Text.Quoted
import Statechart.Yaml.Plain

/-!
# Text in configuration files

Text is written plainly where that reads back as the same text. Otherwise it stands between single
quotes, line by line below its key, or between double quotes with escapes.

- `singleQuoted`, `doubleQuoted`  : text between quotes
- `linewise`                      : text line by line
- `writeText`                     : text in the first style that holds it
-/

namespace Statechart
namespace Yaml

/-! ## Breaks -/

/-- The indentation of further lines of text. -/
def margin : List Char := "    ".toList

/-- Text with the margin in front of every line that is not empty, written by `write`. -/
def indented (write : Char → List Char) : Bool → List Char → List Char
  | _, [] => []
  | startsLine, c :: r =>
      if isBreak c then c :: indented write true r
      else (if startsLine then margin else []) ++ write c ++ indented write false r

def endsInBreak (s : List Char) : Bool := s.getLast?.any isBreak

/-! ## Single quotes -/

/-- A quote inside is written twice. -/
def doubledQuote (c : Char) : List Char := if c = '\'' then [c, c] else [c]

/-- Lines after the first have a margin, also that of the closing quote. -/
def singleQuoted (s : List Char) : String :=
  "'" ++ String.ofList (indented doubledQuote false s) ++
    String.ofList (if endsInBreak s then margin else []) ++ "'"

/-! ## Double quotes -/

/-- The letters of escapes with a letter of their own. -/
def letterOf? (c : Char) : Option Char :=
  ([('\x00', '0'), ('\x07', 'a'), ('\x08', 'b'), ('\t', 't'), ('\n', 'n'), ('\x0b', 'v'),
    ('\x0c', 'f'), ('\r', 'r'), ('\x1b', 'e'), ('"', '"'), ('\\', '\\'), ('\u0085', 'N'),
    ('\u00a0', '_'), ('\u2028', 'L'), ('\u2029', 'P')].find? fun entry => entry.1 == c).map (·.2)

/-- Characters that other styles can hold. -/
def isPrintable (c : Char) : Bool :=
  let n := c.toNat
  n = 0xa || (0x20 ≤ n && n ≤ 0x7e) || (0xa0 ≤ n && n != 0xfeff && n != 0xfffe && n != 0xffff)

def upperHex (width n : Nat) : List Char := (Text.hexText width n).toList.map Char.toUpper

def escaped (c : Char) : List Char :=
  if isPrintable c && !isBreak c && c != '"' && c != '\\' then [c]
  else
    match letterOf? c with
    | some letter => ['\\', letter]
    | none =>
        if c.toNat < 256 then '\\' :: 'x' :: upperHex 2 c.toNat
        else if c.toNat < 65536 then '\\' :: 'u' :: upperHex 4 c.toNat
        else '\\' :: 'U' :: upperHex 8 c.toNat

def doubleQuoted (s : List Char) : String := "\"" ++ String.ofList (s.flatMap escaped) ++ "\""

/-! ## Line by line -/

/-- What follows the mark of text written line by line: the indentation if it cannot be told from
the first line, and how the text ends. -/
def lineHints (s : List Char) : String :=
  let indent := if s.head?.any isGap then "2" else ""
  let ending :=
    if !endsInBreak s then "-"
    else if s.dropLast.isEmpty || endsInBreak s.dropLast then "+"
    else ""
  indent ++ ending

def linewise (s : List Char) : String :=
  "|" ++ lineHints s ++ "\n" ++ String.ofList (indented (fun c => [c]) true s)

/-! ## Plain text -/

def startsIndicator (c : Char) : Bool := "#,[]\x7b\x7d&*!|>'\"%@\x60".toList.contains c

/-- Whether a sign that needs a blank after it to mean something has one, or ends the text. -/
def isParted (s : List Char) : Bool := s.head?.all isGap

/-- Whether a colon or a number sign inside a text would be taken for structure. -/
def hasIndicator : List Char → Bool
  | [] => false
  | ':' :: r => isParted r || hasIndicator r
  | ' ' :: '#' :: _ => true
  | _ :: r => hasIndicator r

/-- Whether text on one line keeps its meaning as plain text. -/
def fitsPlain (s : List Char) : Bool :=
  match s with
  | [] => false
  | c :: r =>
      !startsIndicator c && !((c = '-' || c = '?') && isParted r) && c != ' ' &&
        s.getLast? != some ' ' && !hasIndicator s && !("---".toList.isPrefixOf s) &&
        !("...".toList.isPrefixOf s)

/-! ## Writing text -/

/-- Whether a character of one kind is followed by one of another. -/
def hasPair (first second : Char → Bool) : List Char → Bool
  | c :: d :: r => (first c && second d) || hasPair first second (d :: r)
  | _ => false

def isSpace (c : Char) : Bool := c = ' '

/-- Whether a line ends with a blank. -/
def hasBlankEnd (s : List Char) : Bool := hasPair isSpace isBreak s || s.getLast? == some ' '

/-- Whether a blank stands beside a break, where it would be lost between quotes. -/
def hasBlankAtBreak (s : List Char) : Bool := hasPair isSpace isBreak s || hasPair isBreak isSpace s

/-- Text with line breaks is written line by line. Separators of lines and paragraphs alone may
also stand between single quotes. -/
def writeText (s : String) : String :=
  let cs := s.toList
  if !cs.all isPrintable then doubleQuoted cs
  else if cs.contains '\n' then if hasBlankEnd cs then doubleQuoted cs else linewise cs
  else if cs.any isBreak then if hasBlankAtBreak cs then doubleQuoted cs else singleQuoted cs
  else if fitsPlain cs && !looksSpecial s then s
  else singleQuoted cs

end Yaml
end Statechart
