import Statechart.Yaml.Layout
import Statechart.Yaml.Node

/-!
# Reading configuration files

Nodes from tokens. The next token alone decides how a node goes on, so that none is read twice.

- `Progress`             : what is left to read, and which names were given
- `readNode`             : the node that begins at the next token
- `Document.ofText?`     : the document in a file
-/

namespace Statechart
namespace Yaml

/-! ## Passing tokens -/

structure Progress where
  tokens : List Token
  /-- The numbers of names, latest first; a name may be given again. -/
  names : List (String × Nat)
  /-- The nodes with a name that have been read, by their numbers. -/
  named : List (Nat × Node)

abbrev Reading := StateT Progress Option

def upcoming : Reading (Option Token) := do return (← get).tokens.head?

/-- Whether the next token is one of these. -/
def isNext (tokens : List Token) : Reading Bool := do return (← upcoming).any tokens.contains

def pass : Reading Unit := modify fun p => { p with tokens := p.tokens.drop 1 }

/-- Passes a token if it is the next one. -/
def tryPass (token : Token) : Reading Bool := do
  if ← isNext [token] then
    pass
    return true
  else return false

def expect (token : Token) : Reading Unit := do
  if !(← tryPass token) then failure

/-! ## Names and tags -/

/-- Short forms for the beginning of tags. -/
abbrev Handles := List (String × String)

/-- The handles that need not be introduced. -/
def knownHandles : Handles := [("!", "!"), ("!!", kindTag)]

/-- A tag in full, if its handle is known. A tag without a handle is in full already. -/
def fullTag? (handles : Handles) (handle suffix : String) : Option String :=
  if handle = "" then some suffix
  else (handles.find? fun entry => entry.1 == handle).map fun entry => entry.2 ++ suffix

/-- What may stand in front of a node. -/
structure Marks where
  name : Option String
  tag : Option String

def readName : Reading (Option String) := do
  match ← upcoming with
  | some (.anchor name) => do
      pass
      return some name
  | _ => return none

def readTag (handles : Handles) : Reading (Option String) := do
  match ← upcoming with
  | some (.tag handle suffix) => do
      pass
      let tag ← fullTag? handles handle suffix
      return some tag
  | _ => return none

/-- A name and a tag, in either order. -/
def readMarks (handles : Handles) : Reading Marks := do
  match ← readName with
  | some name => return ⟨some name, ← readTag handles⟩
  | none => do
      let tag ← readTag handles
      let name ← if tag.isSome then readName else pure none
      return ⟨name, tag⟩

/-- Gives the next number to a name. Names are known inside of their nodes. -/
def giveNumber (name : Option String) : Reading (Option Nat) := do
  match name with
  | none => return none
  | some name => do
      let number := (← get).names.length
      modify fun p => { p with names := (name, number) :: p.names }
      return some number

def keepNode (number : Option Nat) (node : Node) : Reading Unit :=
  modify fun p => { p with named := (number.map fun n => (n, node)).toList ++ p.named }

/-- The node that was given a name last. -/
def referTo (name : String) : Reading Node := do
  let entry ← (← get).names.find? fun entry => entry.1 == name
  return .reference entry.2

/-- The tag of a scalar; a lone exclamation mark is no tag. -/
def scalarTag (tag : Option String) : Option String := tag.filter fun t => t != "!"

/-! ## Nodes

Of four calls in a row, one passes a token. -/

def startsBlockEntry : List Token := [.key, .value, .blockEnd]

mutual

/-- A node in block or flow style. The items of a list may hang at the column of its key. -/
def readNode (handles : Handles) : Nat → Bool → Bool → Reading Node
  | 0, _, _ => failure
  | fuel + 1, isBlock, mayHang => do
      match ← upcoming with
      | some (.reference name) => do
          pass
          referTo name
      | _ => do
          let marks ← readMarks handles
          let number ← giveNumber marks.name
          let node ← readContent handles fuel isBlock mayHang marks
          keepNode number node
          return node

/-- The node after its marks. Marks alone make a node of which nothing is written. -/
def readContent (handles : Handles) : Nat → Bool → Bool → Marks → Reading Node
  | 0, _, _, _ => failure
  | fuel + 1, isBlock, mayHang, marks => do
      let next ← upcoming
      match next with
      | some (.scalar text style) => do
          pass
          return .scalar text style (scalarTag marks.tag)
      | _ =>
          if mayHang && next == some .item then return .list (← readHangingItems handles fuel)
          else if ← tryPass .flowListStart then return .list (← readFlowItems handles fuel true)
          else if ← tryPass .flowRecordStart then
            return .record (← readFlowFields handles fuel true)
          else if isBlock && (← isNext [.listStart]) then
            pass
            return .list (← readItems handles fuel)
          else if isBlock && (← isNext [.recordStart]) then
            pass
            return .record (← readFields handles fuel)
          else if marks.name.isSome || marks.tag.isSome then return .scalar "" .plain marks.tag
          else failure

/-- A node, unless one of these tokens shows that nothing is written. -/
def readUnless (handles : Handles) : Nat → List Token → Bool → Bool → Reading Node
  | 0, _, _, _ => failure
  | fuel + 1, tokens, isBlock, mayHang => do
      if ← isNext tokens then return .blank else readNode handles fuel isBlock mayHang

def readItems (handles : Handles) : Nat → Reading (List Node)
  | 0 => failure
  | fuel + 1 => do
      if ← tryPass .item then
        let node ← readUnless handles fuel [.item, .blockEnd] true false
        return node :: (← readItems handles fuel)
      else
        expect .blockEnd
        return []

/-- Hanging items end where something else comes. -/
def readHangingItems (handles : Handles) : Nat → Reading (List Node)
  | 0 => failure
  | fuel + 1 => do
      if ← tryPass .item then
        let node ← readUnless handles fuel (.item :: startsBlockEntry) true false
        return node :: (← readHangingItems handles fuel)
      else return []

def readFields (handles : Handles) : Nat → Reading (List (Node × Node))
  | 0 => failure
  | fuel + 1 => do
      if ← tryPass .key then
        let key ← readUnless handles fuel startsBlockEntry true true
        let value ←
          if ← tryPass .value then readUnless handles fuel startsBlockEntry true true
          else pure .blank
        return (key, value) :: (← readFields handles fuel)
      else
        expect .blockEnd
        return []

/-- The value after its colon, if there is one. -/
def readFlowValue (handles : Handles) : Nat → Token → Reading Node
  | 0, _ => failure
  | fuel + 1, close => do
      if ← tryPass .value then readUnless handles fuel [.comma, close] false false
      else return .blank

/-- The items up to the closing bracket. An item may be a single field. -/
def readFlowItems (handles : Handles) : Nat → Bool → Reading (List Node)
  | 0, _ => failure
  | fuel + 1, isFirst => do
      if ← tryPass .flowListEnd then return []
      else
        if !isFirst then expect .comma
        if ← tryPass .flowListEnd then return []
        else if ← tryPass .key then
          -- a sign that stands for an empty key is passed with it
          let isEmpty ← isNext [.value, .comma, .flowListEnd]
          let key ← if isEmpty then pure .blank else readNode handles fuel false false
          if isEmpty then pass
          let value ← readFlowValue handles fuel .flowListEnd
          return .record [(key, value)] :: (← readFlowItems handles fuel false)
        else
          let node ← readNode handles fuel false false
          return node :: (← readFlowItems handles fuel false)

/-- The fields up to the closing bracket. A key may stand without a value. -/
def readFlowFields (handles : Handles) : Nat → Bool → Reading (List (Node × Node))
  | 0, _ => failure
  | fuel + 1, isFirst => do
      if ← tryPass .flowRecordEnd then return []
      else
        if !isFirst then expect .comma
        if ← tryPass .flowRecordEnd then return []
        else if ← tryPass .key then
          let key ← readUnless handles fuel [.value, .comma, .flowRecordEnd] false false
          let value ← readFlowValue handles fuel .flowRecordEnd
          return (key, value) :: (← readFlowFields handles fuel false)
        else
          let key ← readNode handles fuel false false
          return (key, .blank) :: (← readFlowFields handles fuel false)

end

/-! ## Documents -/

def isDirective : Token → Bool
  | .version .. => true
  | .handle .. => true
  | _ => false

/-- The known versions of the notation. -/
def isKnownVersion : Token → Bool
  | .version major minor => major == 1 && (minor == 1 || minor == 2)
  | _ => false

def isVersion : Token → Bool
  | .version .. => true
  | _ => false

def handle? : Token → Option (String × String)
  | .handle name start => some (name, start)
  | _ => none

/-- The handles that directives introduce, none of them twice. There is at most one version. -/
def handles? (directives : List Token) : Option Handles :=
  let versions := directives.filter isVersion
  let handles := directives.filterMap handle?
  let names := handles.map (·.1)
  let areDistinct := names.eraseDups.length == names.length
  if versions.length ≤ 1 && versions.all isKnownVersion && areDistinct then
    some (handles ++ knownHandles)
  else none

/-- The root of a document. Directives are followed by the mark of a document; after the mark, there
may be nothing. -/
def readRoot (fuel : Nat) : Reading Node := do
  let directives := (← get).tokens.takeWhile isDirective
  let handles ← handles? directives
  modify fun p => { p with tokens := p.tokens.drop directives.length }
  if ← tryPass .documentStart then
    match ← upcoming with
    | none => return .blank
    | some token =>
        if isDirective token || token == .documentStart || token == .documentEnd then return .blank
        else readNode handles fuel true false
  else if directives.isEmpty then readNode handles fuel true false
  else failure

/-- The only document of a file. A file of nothing but comments is a node of which nothing is
written. -/
def Document.ofText? (s : String) : Option Document :=
  match tokens? s with
  | none => none
  | some [] => some ⟨.blank, []⟩
  | some tokens =>
      match (readRoot (4 * tokens.length + 8)).run ⟨tokens, [], []⟩ with
      | some (root, p) =>
          if p.tokens.all (· == .documentEnd) then some ⟨root, p.named⟩ else none
      | none => none

end Yaml
end Statechart
