import Statechart.Yaml.Glyph

/-!
# Reading scalars

The four ways in which text is written, each with what follows it. A gap of blanks and line breaks
inside text is folded: a single break becomes a space, and of more breaks all but the first remain.

- `Style`         : the ways
- `readPlain?`    : text without quotes
- `readSingle?`   : text up to a single quote
- `readDouble?`   : text up to a double quote, escapes resolved
- `readBlock?`    : text line by line
-/

namespace Statechart
namespace Yaml

inductive Style where
  | plain
  | quoted
  /-- Line by line, breaks kept. -/
  | literal
  /-- Line by line, breaks folded. -/
  | folded
  deriving DecidableEq, Repr

/-- What is left of the breaks between two lines. -/
def foldBreaks : List Char → List Char
  | [] => []
  | ['\n'] => [' ']
  | '\n' :: more => more
  | breaks => breaks

/-- What is left of a gap. -/
def foldGap (gap : List Char) : List Char :=
  match gap.filter isBreak with
  | [] => gap
  | breaks => foldBreaks breaks

/-! ## Plain text -/

/-- Whether a plain word ends in front of a character: a colon at the end of a word, and in flow
style every sign of that style. -/
def stopsPlain (inFlow : Bool) (s : List Glyph) : Bool :=
  match s with
  | [] => true
  | g :: r =>
      isGap g.char || (g.char == ':' && endsWord r) || (inFlow && isFlowIndicator g.char)

/-- In flow style, a colon right before a sign of that style is refused. -/
def isRefusedColon (inFlow : Bool) (s : List Glyph) : Bool :=
  match s with
  | g :: h :: _ => inFlow && g.char == ':' && (isFlowIndicator h.char || h.char == '?')
  | _ => false

/-- One word. -/
def readWord? (inFlow : Bool) : List Glyph → Option (List Char × List Glyph)
  | [] => some ([], [])
  | g :: r =>
      if !isGap g.char && isRefusedColon inFlow (g :: r) then none
      else if stopsPlain inFlow (g :: r) then some ([], g :: r)
      else (readWord? inFlow r).map fun (word, rest) => (g.char :: word, rest)

/-- A tab must not stand where the indentation of a further line is expected. -/
def hasTabIndent (least : Nat) (gap : List Glyph) : Bool :=
  (gap.dropWhile fun g => !isBreak g.char).any fun g => g.char == '\t' && decide (g.column < least)

/-- Words and the gaps between them. Every round passes a word and a gap. The answer also tells
whether a line ended after the last word. -/
def readWords? (inFlow : Bool) (least : Nat) :
    Nat → List Char → List Glyph → Option (List Char × Bool × List Glyph)
  | 0, _, _ => none
  | fuel + 1, gap, s =>
      let stopped := some ([], gap.any isBreak, s)
      if isDocumentMark s || (s.head?.any fun g => g.char == '#') then stopped
      else
        match readWord? inFlow s with
        | none => none
        | some ([], _) => stopped
        | some (word, s) =>
            let text := foldGap gap ++ word
            let gap := s.takeWhile fun g => isGap g.char
            let rest := skipGap s
            if gap.isEmpty then some (text, false, s)
            else if hasTabIndent least gap then none
            else
              let chars := gap.map (·.char)
              if !inFlow && (rest.head?.any fun g => decide (g.column < least)) then
                some (text, chars.any isBreak, rest)
              else
                (readWords? inFlow least fuel chars rest).map fun (more, ended, rest) =>
                  (text ++ more, ended, rest)

/-- Plain text; its further lines are indented by at least `least`. -/
def readPlain? (inFlow : Bool) (least : Nat) (s : List Glyph) :
    Option (List Char × Bool × List Glyph) :=
  readWords? inFlow least (s.length + 1) [] s

/-! ## Text between quotes -/

/-- After the opening quote; `gap` is the gap passed last. A quote inside is written twice. -/
def readSingle? (gap : List Char) : List Glyph → Option (List Char × List Glyph)
  | [] => none
  | g :: r =>
      if isGap g.char then readSingle? (gap ++ [g.char]) r
      else if isDocumentMark (g :: r) then none
      else
        let passed := foldGap gap
        if g.char = '\'' then
          match r with
          | h :: r' =>
              if h.char = '\'' then
                (readSingle? [] r').map fun (text, rest) => (passed ++ '\'' :: text, rest)
              else some (passed, r)
          | [] => some (passed, r)
        else (readSingle? [] r).map fun (text, rest) => (passed ++ g.char :: text, rest)

/-- Escapes of one letter, and what they stand for. -/
def letters : List (Char × Char) :=
  [('0', '\x00'), ('a', '\x07'), ('b', '\x08'), ('t', '\t'), ('n', '\n'), ('v', '\x0b'),
   ('f', '\x0c'), ('r', '\r'), ('e', '\x1b'), ('"', '"'), ('\\', '\\'), ('N', '\u0085'),
   ('_', '\u00a0'), ('L', '\u2028'), ('P', '\u2029')]

def letterValue? (c : Char) : Option Char :=
  if c = ' ' || c = '/' || c = '\t' then some c
  else (letters.find? fun entry => entry.1 == c).map (·.2)

/-- How many digits the code after a letter has. -/
def codeWidth? (c : Char) : Option Nat :=
  if c = 'x' then some 2 else if c = 'u' then some 4 else if c = 'U' then some 8 else none

/-- The character of a code with a fixed number of digits. -/
def coded? (width : Nat) (s : List Glyph) : Option Char :=
  match (s.take width).mapM fun g => digit? g.char with
  | none => none
  | some digits =>
      let n := numberOf 16 digits
      if digits.length = width ∧ n.isValidChar then some (Char.ofNat n) else none

/-- One escape after its backslash: a character, or nothing for the end of a line. -/
def readEscape? : List Glyph → Option (Option Char × List Glyph)
  | [] => none
  | g :: r =>
      if isBreak g.char then some (none, r)
      else
        match codeWidth? g.char with
        | some width => (coded? width r).map fun c => (some c, r.drop width)
        | none => (letterValue? g.char).map fun c => (some c, r)

/-- After the opening quote. The gap after an escaped end of line leaves only its breaks. -/
def readDoubleText? : Nat → Bool → List Char → List Glyph → Option (List Char × List Glyph)
  | 0, _, _, _ => none
  | _, _, _, [] => none
  | fuel + 1, isContinued, gap, g :: r =>
      if isGap g.char then readDoubleText? fuel isContinued (gap ++ [g.char]) r
      else if isDocumentMark (g :: r) then none
      else
        let passed := if isContinued then gap.filter isBreak else foldGap gap
        if g.char = '"' then some (passed, r)
        else if g.char = '\\' then
          match readEscape? r with
          | none => none
          | some (some c, r) =>
              (readDoubleText? fuel false [] r).map fun (text, rest) => (passed ++ c :: text, rest)
          | some (none, r) =>
              (readDoubleText? fuel true [] r).map fun (text, rest) => (passed ++ text, rest)
        else
          (readDoubleText? fuel false [] r).map fun (text, rest) => (passed ++ g.char :: text, rest)

def readDouble? (s : List Glyph) : Option (List Char × List Glyph) :=
  readDoubleText? (s.length + 1) false [] s

/-! ## Text line by line -/

/-- How text line by line ends: without a break, with one, or with all that are there. -/
inductive Chomping where
  | strip
  | clip
  | keep
  deriving DecidableEq, Repr

/-- The hints after the mark of such text, in either order: how it ends, and by how much it is
indented. -/
structure Hints where
  chomping : Option Chomping
  indent : Option Nat
  deriving DecidableEq, Repr

/-- At most one hint of each kind; the indentation is a digit other than zero. -/
def readHints? (s : List Char) : Option Hints :=
  s.foldlM (fun hints c =>
    if c = '+' || c = '-' then
      if hints.chomping.isNone then
        some { hints with chomping := some (if c = '+' then .keep else .strip) }
      else none
    else if Decimal.isDigit c && c != '0' && hints.indent.isNone then
      some { hints with indent := some (Decimal.digitValue c) }
    else none) ⟨none, none⟩

/-- Passes empty lines and the indentation of the next line that is not empty. Without a limit all
blanks count as indentation, and tabs are refused there. The answer is the breaks that were passed
and the farthest column that was reached. -/
def readIndent? (limit : Option Nat) (reached : Nat) :
    List Glyph → Option (List Char × Nat × List Glyph)
  | [] => some ([], reached, [])
  | g :: r =>
      let reached := max reached g.column
      let isIndent := limit.all fun n => decide (g.column < n)
      if isIndent && g.char == ' ' then readIndent? limit reached r
      else if isIndent && g.char == '\t' then none
      else if isBreak g.char then
        (readIndent? limit reached r).map fun (breaks, reached, rest) =>
          (g.char :: breaks, reached, rest)
      else some ([], reached, g :: r)

/-- What stands between two lines: `ending` ends the first, `breaks` are the empty lines after it. A
single break is folded unless one of the lines begins with a blank. -/
def between (folds : Bool) (ending breaks : List Char) (wasBlank isBlank : Bool) : List Char :=
  if folds && ending == ['\n'] && !wasBlank && !isBlank then
    if breaks.isEmpty then [' '] else breaks
  else ending ++ breaks

/-- What is kept of the breaks at the end: the one that ends the last line, and all after it. -/
def Chomping.keeps (chomping : Chomping) (ending breaks : List Char) : List Char :=
  match chomping with
  | .strip => []
  | .clip => ending
  | .keep => ending ++ breaks

/-- The lines of one indentation. Every round passes a line. -/
def readLines? (folds : Bool) (chomping : Chomping) (indent : Nat) :
    Nat → List Char → List Char → Bool → List Glyph → Option (List Char × List Glyph)
  | 0, _, _, _, _ => none
  | fuel + 1, ending, breaks, wasBlank, s =>
      if s.head?.any fun g => decide (g.column = indent) then
        let beginsBlank := s.head?.any fun g => isBlank g.char
        let joint := between folds ending breaks wasBlank beginsBlank
        let (line, s) := spanChars (fun c => !isBreak c) s
        let ending := (s.take 1).map (·.char)
        match readIndent? (some indent) 0 (s.drop 1) with
        | none => none
        | some (breaks, _, s) =>
            (readLines? folds chomping indent fuel ending breaks beginsBlank s).map
              fun (text, rest) => (joint ++ line ++ text, rest)
      else some (chomping.keeps ending breaks, s)

/-- After the mark of such text. The indentation is hinted relative to the block around it, whose
column is `parent`, or it is that of the first line, and more than that of the block. -/
def readBlock? (folds : Bool) (parent : Option Nat) (s : List Glyph) :
    Option (List Char × List Glyph) := do
  let (hints, s) := spanChars (fun c => Decimal.isDigit c || c = '+' || c = '-') s
  let hints ← readHints? hints
  let s ← endLine? s
  let hinted := hints.indent.map (parent.getD 0 + ·)
  let (breaks, reached, s) ← readIndent? hinted 0 s
  let least := parent.elim 1 (· + 1)
  let indent := hinted.getD (max reached least)
  readLines? folds (hints.chomping.getD .clip) indent (s.length + 1) [] breaks false s

end Yaml
end Statechart
