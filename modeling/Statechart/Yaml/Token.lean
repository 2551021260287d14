import Statechart.Yaml.Scalar

/-!
# Tokens of configuration files

The pieces of a file. Those that begin and end blocks are not written but follow from indentation.

- `Token`             : one piece
- `readAnchor?`       : the name of an anchor
- `readTag?`          : a tag
- `readDirective?`    : a line about the document after it
-/

namespace Statechart
namespace Yaml

inductive Token where
  /-- The version of the notation. -/
  | version (major minor : Nat)
  /-- A short form for the beginning of tags. -/
  | handle (name start : String)
  | documentStart
  | documentEnd
  | listStart
  | recordStart
  | blockEnd
  | flowListStart
  | flowListEnd
  | flowRecordStart
  | flowRecordEnd
  | item
  | comma
  | key
  | value
  | reference (name : String)
  | anchor (name : String)
  | tag (handle suffix : String)
  | scalar (text : String) (style : Style)
  deriving DecidableEq, Repr

/-! ## Names of nodes -/

def endsAnchor : List Glyph → Bool
  | [] => true
  | g :: _ => isGap g.char || "?:,]\x7d%@\x60".toList.contains g.char

/-- A name is not empty. -/
def readAnchor? (s : List Glyph) : Option (String × List Glyph) :=
  let (name, rest) := spanChars isNameChar s
  if !name.isEmpty && endsAnchor rest then some (String.ofList name, rest) else none

/-! ## Tags -/

/-- Between angle brackets a tag may also hold signs of the flow style. -/
def isTagChar (isBracketed : Bool) (c : Char) : Bool :=
  isNameChar c || ";/?:@&=+$.!~*'()".toList.contains c ||
    (isBracketed && ",[]".toList.contains c)

/-- An octet: two digits after a percent sign. -/
def readOctet? : List Glyph → Option (Nat × List Glyph)
  | p :: a :: b :: r =>
      match digit? a.char, digit? b.char with
      | some a, some b => if p.char = '%' then some (16 * a + b, r) else none
      | _, _ => none
  | _ => none

/-- How many octets follow the first octet of a character, and what the first adds to its code. -/
def leading? (octet : Nat) : Option (Nat × Nat) :=
  if octet < 0x80 then some (0, octet)
  else if 0xc0 ≤ octet ∧ octet < 0xe0 then some (1, octet - 0xc0)
  else if 0xe0 ≤ octet ∧ octet < 0xf0 then some (2, octet - 0xe0)
  else if 0xf0 ≤ octet ∧ octet < 0xf8 then some (3, octet - 0xf0)
  else none

/-- The character whose code goes on for some octets; a code of no character leaves a mark. -/
def readTrailing? : Nat → Nat → List Glyph → Option (Char × List Glyph)
  | 0, code, s => some (if code.isValidChar then Char.ofNat code else '\ufffd', s)
  | more + 1, code, s =>
      match readOctet? s with
      | some (octet, s) =>
          if 0x80 ≤ octet ∧ octet < 0xc0 then readTrailing? more (64 * code + (octet - 0x80)) s
          else none
      | none => none

/-- A character written in octets. -/
def readCoded? (s : List Glyph) : Option (Char × List Glyph) := do
  let (octet, s) ← readOctet? s
  let (more, code) ← leading? octet
  readTrailing? more code s

/-- The characters of a tag. Every round passes at least one. -/
def readTagChars? (isBracketed : Bool) : Nat → List Glyph → Option (List Char × List Glyph)
  | 0, _ => none
  | _, [] => some ([], [])
  | fuel + 1, g :: r =>
      if g.char = '%' then
        match readCoded? (g :: r) with
        | some (c, r) =>
            (readTagChars? isBracketed fuel r).map fun (text, rest) => (c :: text, rest)
        | none => none
      else if isTagChar isBracketed g.char then
        (readTagChars? isBracketed fuel r).map fun (text, rest) => (g.char :: text, rest)
      else some ([], g :: r)

def readSuffix? (isBracketed : Bool) (s : List Glyph) : Option (List Char × List Glyph) :=
  readTagChars? isBracketed (s.length + 1) s

/-- Passes one character. -/
def passChar? (c : Char) : List Glyph → Option (List Glyph)
  | [] => none
  | g :: r => if g.char = c then some r else none

/-- An exclamation mark, a name, and perhaps a second mark. -/
def readHandle? (s : List Glyph) : Option (List Char × List Glyph) := do
  let s ← passChar? '!' s
  let (name, s) := spanChars isNameChar s
  match passChar? '!' s with
  | some rest => some ('!' :: name ++ ['!'], rest)
  | none => some ('!' :: name, s)

/-- Whether a handle has its second mark. -/
def isClosed (handle : List Char) : Bool :=
  decide (2 ≤ handle.length) && handle.getLast? == some '!'

/-- Handle and suffix of a tag. A lone exclamation mark has no handle. -/
def readTagParts? (s : List Glyph) : Option (List Char × List Char × List Glyph) :=
  if startsWith ['!', '<'] s then do
    let (suffix, s) ← readSuffix? true (s.drop 2)
    let s ← passChar? '>' s
    if suffix.isEmpty then none else some ([], suffix, s)
  else do
    let (handle, s) ← readHandle? s
    let (suffix, s) ← readSuffix? false s
    if isClosed handle then if suffix.isEmpty then none else some (handle, suffix, s)
    else
      let suffix := handle.drop 1 ++ suffix
      some (if suffix.isEmpty then ([], ['!'], s) else (['!'], suffix, s))

def readTag? (inFlow : Bool) (s : List Glyph) : Option (Token × List Glyph) := do
  let (handle, suffix, s) ← readTagParts? s
  if endsWord s || (inFlow && startsWith [','] s) then
    some (.tag (String.ofList handle) (String.ofList suffix), s)
  else none

/-! ## Directives -/

/-- At most nine digits. -/
def readVersionNumber? (s : List Glyph) : Option (Nat × List Glyph) :=
  let (digits, rest) := spanChars Decimal.isDigit s
  if digits.isEmpty || decide (9 < digits.length) then none
  else some (Decimal.readNat digits, rest)

def readVersion? (s : List Glyph) : Option (Token × List Glyph) := do
  let (major, s) ← readVersionNumber? (skipBlanks s)
  let s ← passChar? '.' s
  let (minor, s) ← readVersionNumber? s
  some (.version major minor, s)

def readHandleLine? (s : List Glyph) : Option (Token × List Glyph) := do
  let (handle, s) ← readHandle? (skipBlanks s)
  let (start, rest) ← readSuffix? true (skipBlanks s)
  let isParted := s.head?.any fun g => isBlank g.char
  if (handle = ['!'] || isClosed handle) && isParted && !start.isEmpty && endsWord rest then
    some (.handle (String.ofList handle) (String.ofList start), rest)
  else none

/-- After the percent sign. -/
def readDirective? (s : List Glyph) : Option (Token × List Glyph) := do
  let (name, s) := spanChars isNameChar s
  let (token, s) ←
    if !endsWord s then none
    else if name = "YAML".toList then readVersion? s
    else if name = "TAG".toList then readHandleLine? s
    else none
  let rest ← endLine? s
  some (token, rest)

end Yaml
end Statechart
