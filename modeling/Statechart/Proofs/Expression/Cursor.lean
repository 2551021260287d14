import Statechart.Proofs.Expression.Grammar
import Statechart.Proofs.Text.Slices

/-!
# Reading with a cursor

The grammar, read by a cursor that moves over the bytes of a text. Every step forward is a number
of bytes, and every look at the text takes a slice of it, which ends the reading if the text has
no such slice. Nothing bounds the loops: reading that goes on for ever comes to nothing at all.

- `Cursor`          : where a reader stands, where it has stood, and what it has looked at
- `Reading`         : steps of reading
- `Input.readLevel` : one level of the grammar
- `Cursor.parse`    : a whole source
-/

namespace Statechart

/-! ## Cursors -/

/-- Where a reader stands, in bytes, and what it has done so far, the latest first. -/
structure Cursor where
  position : Nat
  visited : List Nat
  /-- The ends of every slice that was asked for, whether or not the text has it. -/
  sliced : List (Nat × Nat)

/-- Why a reader does not get to the end of an expression. -/
inductive Halt where
  | invalid (reason : String)
  | noSlice (start stop : Nat)
  deriving DecidableEq, Repr

/-- Steps of reading. Those that go on for ever have no outcome. -/
abbrev Reading := ExceptT Halt (StateT Cursor Option)

/-- What reading comes to from a cursor on, and the cursor afterwards. -/
def Reading.outcome {α : Type} (m : Reading α) (c : Cursor) : Option (Except Halt α × Cursor) :=
  (ExceptT.run m).run c

namespace Cursor

def start : Cursor := ⟨0, [0], []⟩

def offset : Reading Nat := return (← get).position

def advance (bytes : Nat) : Reading Unit :=
  modify fun c =>
    { c with position := c.position + bytes, visited := (c.position + bytes) :: c.visited }

def fail {α : Type} (cause : SyntaxCause) (rest : String) : Reading α := do
  throw (.invalid (SyntaxFault.message ⟨cause, ← offset, rest⟩))

end Cursor

/-! ## Looks -/

/-- A text that is read. -/
abbrev Input := String

namespace Input

open Cursor

def slice (input : Input) (start stop : Nat) : Reading String := do
  modify fun c => { c with sliced := (start, stop) :: c.sliced }
  match Text.slice? input start stop with
  | some text => return text
  | none => throw (.noSlice start stop)

/-- What comes some bytes after the cursor, up to the end of the text. -/
def ahead (input : Input) (bytes : Nat) : Reading (List Char) := do
  let rest ← slice input ((← offset) + bytes) input.utf8ByteSize
  return rest.toList

/-- What was gone over since an offset. -/
def since (input : Input) (start : Nat) : Reading String := do
  slice input start (← offset)

def peek (input : Input) : Reading (Option Char) := return (← ahead input 0).head?

def comesNext (input : Input) (symbol : String) : Reading Bool :=
  return symbol.toList.isPrefixOf (← ahead input 0)

/-! ## Tokens -/

/-- Goes over the characters of a class, by a number of bytes for each of them. -/
def skipWhile (input : Input) (p : Char → Bool) (width : Char → Nat) : Reading Unit := do
  match ← peek input with
  | some c =>
      if p c then
        advance (width c)
        input |>.skipWhile p width
      else return ()
  | none => return ()
partial_fixpoint

def skipBlanks (input : Input) : Reading Unit := skipWhile input Text.isBlank Char.utf8Size

def skipDigits (input : Input) : Reading Unit := skipWhile input Decimal.isDigit fun _ => 1

/-- The characters of names that come next, of which there may be none. -/
def readWord (input : Input) : Reading String := do
  let start ← offset
  skipWhile input isNamePart Char.utf8Size
  since input start

/-- The text up to the closing quote. -/
def readText (input : Input) (quote : Char) : Reading (List Char) := do
  match ← peek input with
  | none => fail .unclosedText ""
  | some c =>
      advance c.utf8Size
      if c = quote then return []
      else if c = '\\' then
        match ← peek input with
        | none => fail .unclosedText ""
        | some e =>
            advance e.utf8Size
            return unescape e :: (← input |>.readText quote)
      else return c :: (← input |>.readText quote)
partial_fixpoint

def readQuoted (input : Input) (quote : Char) : Reading Expr := do
  advance 1
  let text ← readText input quote
  return .literal (.text (String.ofList text))

/-- A point is gone over only if a digit follows, which takes a look past the point. -/
def skipFraction (input : Input) : Reading Unit := do
  match ← peek input with
  | some '.' =>
      match (← ahead input 1).head? with
      | some d =>
          if Decimal.isDigit d then
            advance 1
            skipDigits input
          else return ()
      | none => return ()
  | _ => return ()

def skipSign (input : Input) : Reading Unit := do
  match ← peek input with
  | some c => if c = '+' ∨ c = '-' then advance 1 else return ()
  | none => return ()

def skipExponent (input : Input) : Reading Unit := do
  match ← peek input with
  | some c =>
      if c = 'e' ∨ c = 'E' then
        advance 1
        skipSign input
        skipDigits input
      else return ()
  | none => return ()

/-- What the text of a number stands for. -/
def number? (text : String) : Option Number := (scanNumber text.toList).1.value?

def readNumber (input : Input) : Reading Expr := do
  let start ← offset
  skipDigits input
  skipFraction input
  skipExponent input
  let text ← since input start
  match number? text with
  | some n => return .literal (.number n)
  | none => fail (.badNumber text) ""

def readPath (input : Input) : Reading (List String) := do
  match ← peek input with
  | some '.' =>
      advance 1
      let member ← readWord input
      if member.isEmpty then fail .missingMember ""
      else return member :: (← input |>.readPath)
  | _ => return []
partial_fixpoint

def readName (input : Input) : Reading Expr := do
  let root ← readWord input
  let next ← peek input
  match if next = some '.' then none else constant? root with
  | some value => return .literal value
  | none => return .variable root (← readPath input)

/-! ## The grammar -/

def operator? (input : Input) (level : Level) : Reading (Option BinaryOp) :=
  level.operators.findM? fun op => comesNext input op.symbol

mutual

def readLevel (input : Input) (level : Level) : Reading Expr := do
  let left ← input |>.readOperand level
  input |>.readTail level left
partial_fixpoint

def readOperand (input : Input) (level : Level) : Reading Expr :=
  match level.tighter? with
  | some tighter => input |>.readLevel tighter
  | none => input |>.readUnary
partial_fixpoint

def readTail (input : Input) (level : Level) (left : Expr) : Reading Expr := do
  skipBlanks input
  match ← operator? input level with
  | none => return left
  | some op =>
      advance op.symbol.utf8ByteSize
      let right ← input |>.readOperand level
      input |>.readTail level (.binary op left right)
partial_fixpoint

def readUnary (input : Input) : Reading Expr := do
  skipBlanks input
  match ← peek input with
  | some '!' =>
      advance 1
      return .unary .not (← input |>.readUnary)
  | some '-' =>
      advance 1
      return .unary .negate (← input |>.readUnary)
  | _ => input |>.readPrimary
partial_fixpoint

def readPrimary (input : Input) : Reading Expr := do
  skipBlanks input
  match ← peek input with
  | none => fail .missingOperand ""
  | some c =>
      if c = '(' then input |>.readGroup
      else if c = '[' then input |>.readList
      else if c = '"' ∨ c = '\'' then readQuoted input c
      else if Decimal.isDigit c then readNumber input
      else if isNameStart c then readName input
      else fail .missingOperand (String.singleton c)
partial_fixpoint

def readGroup (input : Input) : Reading Expr := do
  advance 1
  let inner ← input |>.readLevel .disjunction
  skipBlanks input
  match ← peek input with
  | some ')' =>
      advance 1
      return inner
  | _ => fail .unclosedGroup ""
partial_fixpoint

def readList (input : Input) : Reading Expr := do
  advance 1
  skipBlanks input
  match ← peek input with
  | some ']' =>
      advance 1
      return .list []
  | _ => return .list (← input |>.readItems)
partial_fixpoint

def readItems (input : Input) : Reading (List Expr) := do
  let item ← input |>.readLevel .disjunction
  skipBlanks input
  match ← peek input with
  | some ',' =>
      advance 1
      return item :: (← input |>.readItems)
  | some ']' =>
      advance 1
      return [item]
  | _ => fail .unclosedList ""
partial_fixpoint

end

/-! ## Whole texts -/

def readExpression (input : Input) : Reading Expr := do
  if input.isEmpty then fail .emptySource ""
  else
    let tree ← readLevel input .disjunction
    skipBlanks input
    let stop ← offset
    if input.utf8ByteSize ≤ stop then return tree
    else
      let rest ← slice input stop input.utf8ByteSize
      fail .trailingInput rest

end Input

namespace Cursor

/-- A text without the blanks around it. -/
def trimmed (source : String) : String := String.ofList (trimBlanks source.toList)

/-- A source is read from the first byte on that is no blank. -/
def parse (source : String) : Option (Except Halt Expression × Cursor) :=
  Reading.outcome (do return ⟨source, ← Input.readExpression (trimmed source)⟩) start

end Cursor

end Statechart
