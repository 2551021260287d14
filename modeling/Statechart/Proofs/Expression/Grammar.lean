import Statechart.Expression.Parser

/-!
# The grammar of expressions

Which texts are expressions, and what trees they stand for, said without reading them from left to
right. Every token may have blanks in front of it.

- `Quoted`         : what stands between quotes
- `NumberToken.IsToken`, `IsName`, `IsMember` : the other tokens of more than one character
- `Phrase`         : the kinds of phrases, from whole expressions to list items
- `Phrase.Derives` : the texts of a kind with their trees
-/

namespace Statechart

/-! ## Tokens -/

def AllBlank (s : List Char) : Prop := ∀ c ∈ s, Text.isBlank c = true

/-- What a character stands for after a backslash. -/
def unescape (c : Char) : Char :=
  if c = 'n' then '\n' else if c = 't' then '\t' else if c = 'r' then '\r' else c

/-- What may stand between two quotes, and the text meant by it. -/
inductive Quoted (quote : Char) : List Char → List Char → Prop where
  | nil : Quoted quote [] []
  | plain {c : Char} {body text : List Char} : c ≠ quote → c ≠ '\\' → Quoted quote body text →
      Quoted quote (c :: body) (c :: text)
  | escaped (c : Char) {body text : List Char} : Quoted quote body text →
      Quoted quote ('\\' :: c :: body) (unescape c :: text)

def IsDigits (s : List Char) : Prop := s ≠ [] ∧ ∀ c ∈ s, Decimal.isDigit c = true

/-- The marks of an exponent: a letter and perhaps a sign. -/
def NumberToken.marks : List (List Char) :=
  [['e'], ['E'], ['e', '+'], ['e', '-'], ['E', '+'], ['E', '-']]

/-- Digits, digits after the point, and an exponent that has digits, too. -/
structure NumberToken.IsToken (t : NumberToken) : Prop where
  whole : IsDigits t.whole
  fraction : ∀ digits, t.fraction = some digits → IsDigits digits
  mark : ∀ e, t.exponent = some e → e.1 ∈ marks
  exponent : ∀ e, t.exponent = some e → IsDigits e.2

def IsName (s : List Char) : Prop :=
  ∃ c rest, s = c :: rest ∧ isNameStart c = true ∧ ∀ c ∈ rest, isNamePart c = true

/-- A member, unlike a name, may begin with any character of names. -/
def IsMember (s : List Char) : Prop := s ≠ [] ∧ ∀ c ∈ s, isNamePart c = true

/-- Members with the point before each of them; there are no blanks between them. -/
def dotted (members : List (List Char)) : List Char := members.flatMap ('.' :: ·)

/-- The words that are no variables. -/
def reserved : List (List Char × Value) :=
  [("true".toList, .bool true), ("false".toList, .bool false), ("null".toList, .null)]

/-! ## Phrases -/

inductive Phrase where
  /-- Operands of a level, joined by its operators. -/
  | level (level : Level)
  | operand (level : Level)
  | unary
  | primary
  /-- What stands between the brackets of a list with items. -/
  | items

/-- The texts of a phrase. The tree of list items is a list. -/
inductive Phrase.Derives : Phrase → List Char → Expr → Prop where
  | operand {level : Level} {s : List Char} {e : Expr} :
      Derives (.operand level) s e → Derives (.level level) s e
  /-- The left side is of the same level, the right side is not: levels group to the left. -/
  | binary {level : Level} {op : BinaryOp} {s gap t : List Char} {left right : Expr} :
      op ∈ level.operators → Derives (.level level) s left → AllBlank gap →
      Derives (.operand level) t right →
      Derives (.level level) (s ++ (gap ++ (op.symbol.toList ++ t))) (.binary op left right)
  | tighter {level tighter : Level} {s : List Char} {e : Expr} :
      level.tighter? = some tighter → Derives (.level tighter) s e → Derives (.operand level) s e
  | tightest {level : Level} {s : List Char} {e : Expr} :
      level.tighter? = none → Derives .unary s e → Derives (.operand level) s e
  | not {gap s : List Char} {e : Expr} : AllBlank gap → Derives .unary s e →
      Derives .unary (gap ++ '!' :: s) (.unary .not e)
  | negate {gap s : List Char} {e : Expr} : AllBlank gap → Derives .unary s e →
      Derives .unary (gap ++ '-' :: s) (.unary .negate e)
  | primary {gap s : List Char} {e : Expr} : AllBlank gap → Derives .primary s e →
      Derives .unary (gap ++ s) e
  | group {s gap : List Char} {e : Expr} : Derives (.level .disjunction) s e → AllBlank gap →
      Derives .primary ('(' :: (s ++ (gap ++ [')']))) e
  | emptyList {gap : List Char} : AllBlank gap → Derives .primary ('[' :: (gap ++ [']'])) (.list [])
  | list {s : List Char} {e : Expr} : Derives .items s e → Derives .primary ('[' :: (s ++ [']'])) e
  | lastItem {s gap : List Char} {e : Expr} : Derives (.level .disjunction) s e → AllBlank gap →
      Derives .items (s ++ gap) (.list [e])
  | item {s gap t : List Char} {e : Expr} {es : List Expr} : Derives (.level .disjunction) s e →
      AllBlank gap → Derives .items t (.list es) →
      Derives .items (s ++ (gap ++ ',' :: t)) (.list (e :: es))
  | text {quote : Char} {body text : List Char} : quote = '"' ∨ quote = '\'' →
      Quoted quote body text →
      Derives .primary (quote :: (body ++ [quote])) (.literal (.text (String.ofList text)))
  | number {t : NumberToken} {n : Number} : t.IsToken → t.value? = some n →
      Derives .primary t.text (.literal (.number n))
  | constant {s : List Char} {v : Value} : (s, v) ∈ reserved → Derives .primary s (.literal v)
  /-- A reserved word is a variable, too, if a member follows. -/
  | name {s : List Char} {members : List (List Char)} : IsName s →
      (∀ m ∈ members, IsMember m) → (members = [] → s ∉ reserved.map (·.1)) →
      Derives .primary (s ++ dotted members)
        (.variable (String.ofList s) (members.map String.ofList))

/-- An expression of the loosest level. -/
abbrev IsExpression (s : List Char) (e : Expr) : Prop :=
  (Phrase.level .disjunction).Derives s e

end Statechart
