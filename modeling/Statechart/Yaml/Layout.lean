import Statechart.Yaml.Token

/-!
# The layout of configuration files

Blocks begin and end where the indentation changes, and a key is known as such by the colon after
it. So the place of a piece that may be a key is kept, until its colon shows or it is too late.

- `Candidate`   : a piece that may be a key
- `Layout`      : what is known when a part of a file has been read
- `tokens?`     : the tokens of a file
-/

namespace Statechart
namespace Yaml

structure Candidate where
  /-- How many tokens stand in front of it. -/
  position : Nat
  line : Nat
  column : Nat
  /-- Whether nothing but a key may stand here. -/
  isRequired : Bool
  deriving DecidableEq, Repr

structure Layout where
  rest : List Glyph
  /-- Latest first. -/
  tokens : List Token
  /-- The columns of the open blocks, innermost first. -/
  blocks : List Nat
  /-- One for each open bracket, innermost first, and one outside of all. -/
  candidates : List (Option Candidate)
  allowsKey : Bool
  deriving DecidableEq, Repr

namespace Layout

/-- The layout at the beginning of a file. -/
def start (s : List Glyph) : Layout := ⟨s, [], [], [none], true⟩

def inFlow (l : Layout) : Bool := decide (1 < l.candidates.length)

def push (token : Token) (l : Layout) : Layout := { l with tokens := token :: l.tokens }

/-- Puts a token behind the first `position` tokens. -/
def insert (position : Nat) (token : Token) (l : Layout) : Layout :=
  let later := l.tokens.length - position
  { l with tokens := l.tokens.take later ++ token :: l.tokens.drop later }

/-! ## Blocks -/

/-- Closes the blocks whose columns are beyond `p`; brackets hold blocks open. -/
def closeWhere (p : Nat → Bool) (l : Layout) : Layout :=
  if l.inFlow then l
  else
    let closed := l.blocks.takeWhile p
    { l with
      tokens := List.replicate closed.length .blockEnd ++ l.tokens
      blocks := l.blocks.drop closed.length }

def closeBeyond (column : Nat) (l : Layout) : Layout := l.closeWhere fun block => column < block

def closeAll (l : Layout) : Layout := l.closeWhere fun _ => true

/-- Opens a block in a column, unless one of this column is open. Its first token is put behind the
first `position` tokens. -/
def openBlock (column position : Nat) (token : Token) (l : Layout) : Layout :=
  if l.inFlow || (l.blocks.head?.any fun block => column ≤ block) then l
  else { l.insert position token with blocks := column :: l.blocks }

/-- Opens a block in front of the next token, where one may begin. -/
def openHere? (g : Glyph) (token : Token) (l : Layout) : Option Layout :=
  if l.inFlow then some l
  else if l.allowsKey then some (l.openBlock g.column l.tokens.length token)
  else none

/-! ## Candidates -/

def candidate? (l : Layout) : Option Candidate := l.candidates.head?.join

def setCandidate (c : Option Candidate) (l : Layout) : Layout :=
  { l with candidates := c :: l.candidates.drop 1 }

/-- Gives up the candidate, which is an error if it had to be a key. -/
def forget? (l : Layout) : Option Layout :=
  if l.candidate?.any (·.isRequired) then none else some (l.setCandidate none)

/-- What begins here may turn out to be a key. At the column of its block it has to. -/
def remember? (g : Glyph) (l : Layout) : Option Layout :=
  if l.allowsKey then do
    let isRequired := !l.inFlow && l.blocks.head? == some g.column
    let l ← l.forget?
    some (l.setCandidate (some ⟨l.tokens.length, g.line, g.column, isRequired⟩))
  else some l

/-- A key and its colon stand on one line, and not too far apart. -/
def isInReach (g : Glyph) (c : Candidate) : Bool :=
  g.line == c.line && decide (g.column ≤ c.column + 1024)

/-- Gives up the candidates that are out of reach. -/
def expire? (g : Glyph) (l : Layout) : Option Layout :=
  let isLost := fun c => !isInReach g c
  if l.candidates.any fun c => c.any fun c => c.isRequired && isLost c then none
  else some { l with candidates := l.candidates.map fun c => c.filter (isInReach g) }

/-! ## Between tokens -/

/-- Passes blanks, comments and line breaks. After a line break there may be a key. Tabs are blanks
only where there may be none. -/
def passGap (inFlow : Bool) : Bool → Bool → List Glyph → Bool × List Glyph
  | allowsKey, _, [] => (allowsKey, [])
  | allowsKey, inComment, g :: r =>
      if isBreak g.char then passGap inFlow (allowsKey || !inFlow) false r
      else if inComment || g.char = '#' then passGap inFlow allowsKey true r
      else if g.char = ' ' || (g.char = '\t' && (inFlow || !allowsKey)) ||
          (g.char = orderMark && g.column = 0) then
        passGap inFlow allowsKey false r
      else (allowsKey, g :: r)

def toToken (l : Layout) : Layout :=
  let (allowsKey, rest) := passGap l.inFlow l.allowsKey false l.rest
  { l with allowsKey, rest }

/-! ## Tokens

Each function reads one token; `g` is its first character and `r` what follows it. -/

/-- A mark of a document, or a directive, which stand outside of all blocks. -/
def outside? (l : Layout) : Option Layout :=
  l.closeAll.forget?.map fun l => { l with allowsKey := false }

def directive? (r : List Glyph) (l : Layout) : Option Layout := do
  let l ← l.outside?
  let (token, rest) ← readDirective? r
  some { l.push token with rest }

def mark? (token : Token) (l : Layout) : Option Layout :=
  l.outside?.map fun l => { l.push token with rest := l.rest.drop 3 }

def openBracket? (token : Token) (g : Glyph) (r : List Glyph) (l : Layout) : Option Layout :=
  (l.remember? g).map fun l =>
    { l.push token with rest := r, candidates := none :: l.candidates, allowsKey := true }

def closeBracket? (token : Token) (r : List Glyph) (l : Layout) : Option Layout :=
  l.forget?.map fun l =>
    let candidates := if l.inFlow then l.candidates.drop 1 else l.candidates
    { l.push token with rest := r, candidates, allowsKey := false }

def comma? (r : List Glyph) (l : Layout) : Option Layout :=
  l.forget?.map fun l => { l.push .comma with rest := r, allowsKey := true }

def item? (g : Glyph) (r : List Glyph) (l : Layout) : Option Layout := do
  let l ← l.openHere? g .listStart
  let l ← l.forget?
  some { l.push .item with rest := r, allowsKey := true }

def key? (g : Glyph) (r : List Glyph) (l : Layout) : Option Layout := do
  let l ← l.openHere? g .recordStart
  let l ← l.forget?
  some { l.push .key with rest := r, allowsKey := !l.inFlow }

/-- A colon makes the candidate a key. -/
def colon? (g : Glyph) (r : List Glyph) (l : Layout) : Option Layout :=
  match l.candidate? with
  | some c =>
      let l := (l.insert c.position .key).openBlock c.column c.position .recordStart
      some { (l.setCandidate none).push .value with rest := r, allowsKey := false }
  | none =>
      (l.openHere? g .recordStart).map fun l =>
        { l.push .value with rest := r, allowsKey := !l.inFlow }

/-- A piece that may be a key, or begin one. -/
def piece? (g : Glyph) (read? : Option (Token × List Glyph)) (l : Layout) : Option Layout := do
  let l ← l.remember? g
  let (token, rest) ← read?
  some { l.push token with rest, allowsKey := false }

def quoted? : Option (List Char × List Glyph) → Option (Token × List Glyph) :=
  Option.map fun (text, rest) => (.scalar (String.ofList text) .quoted, rest)

/-- Plain text that ended a line may be followed by a key. -/
def plain? (g : Glyph) (l : Layout) : Option Layout := do
  let (text, ended, rest) ← readPlain? l.inFlow (l.blocks.head?.elim 0 (· + 1)) l.rest
  let l ← l.piece? g (some (.scalar (String.ofList text) .plain, rest))
  some { l with allowsKey := ended }

def block? (style : Style) (r : List Glyph) (l : Layout) : Option Layout := do
  let l ← l.forget?
  let (text, rest) ← readBlock? (style = .folded) l.blocks.head? r
  some { l.push (.scalar (String.ofList text) style) with rest, allowsKey := true }

/-- Signs with a meaning of their own. -/
def isIndicator (c : Char) : Bool := "-?:,[]\x7b\x7d#&*!|>'\"%@\x60".toList.contains c

/-- Whether plain text may begin here. -/
def startsPlain (inFlow : Bool) (g : Glyph) (r : List Glyph) : Bool :=
  if g.char = '-' then !(r.head?.any fun h => isBlank h.char)
  else if g.char = '?' || g.char = ':' then !inFlow && !endsWord r
  else !isGap g.char && !isIndicator g.char

/-- The next token. -/
def next? (g : Glyph) (r : List Glyph) (l : Layout) : Option Layout :=
  let c := g.char
  let parts := l.inFlow || endsWord r
  if c = '%' && g.column = 0 then l.directive? r
  else if isRule '-' l.rest then l.mark? .documentStart
  else if isRule '.' l.rest then l.mark? .documentEnd
  else if c = '[' then l.openBracket? .flowListStart g r
  else if c = '\x7b' then l.openBracket? .flowRecordStart g r
  else if c = ']' then l.closeBracket? .flowListEnd r
  else if c = '\x7d' then l.closeBracket? .flowRecordEnd r
  else if c = ',' then l.comma? r
  else if c = '-' && endsWord r then l.item? g r
  else if c = '?' && parts then l.key? g r
  else if c = ':' && parts then l.colon? g r
  else if c = '*' then
    l.piece? g ((readAnchor? r).map fun (name, rest) => (.reference name, rest))
  else if c = '&' then l.piece? g ((readAnchor? r).map fun (name, rest) => (.anchor name, rest))
  else if c = '!' then l.piece? g (readTag? l.inFlow l.rest)
  else if c = '|' && !l.inFlow then l.block? .literal r
  else if c = '>' && !l.inFlow then l.block? .folded r
  else if c = '\'' then l.piece? g (quoted? (readSingle? [] r))
  else if c = '"' then l.piece? g (quoted? (readDouble? r))
  else if startsPlain l.inFlow g r then l.plain? g
  else none

/-- All tokens. Every round passes a character. -/
def finish? : Nat → Layout → Option (List Token)
  | 0, _ => none
  | fuel + 1, l =>
      let l := l.toToken
      match l.rest with
      | [] => l.closeAll.forget?.map fun l => l.tokens.reverse
      | g :: r =>
          match (l.expire? g).bind fun l => (l.closeBeyond g.column).next? g r with
          | some l => finish? fuel l
          | none => none

end Layout

/-- The tokens of a file. -/
def tokens? (s : String) : Option (List Token) :=
  (glyphs? s).bind fun glyphs => (Layout.start glyphs).finish? (glyphs.length + 1)

end Yaml
end Statechart
