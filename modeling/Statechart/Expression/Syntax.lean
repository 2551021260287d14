import Statechart.Json.Writer

/-!
# Expressions

The syntax trees of guards, initial values, payloads, match cases and delays.

- `UnaryOp`, `ArithOp`, `CompareOp`, `BinaryOp` : the operators and their symbols
- `Expr`       : syntax trees
- `Expression` : a syntax tree with the text that it came from
-/

namespace Statechart

/-! ## Operators -/

inductive UnaryOp where
  | not
  | negate
  deriving DecidableEq, Repr

inductive ArithOp where
  | add
  | subtract
  | multiply
  | divide
  | remainder
  deriving DecidableEq, Repr

def ArithOp.symbol : ArithOp → String
  | .add => "+"
  | .subtract => "-"
  | .multiply => "*"
  | .divide => "/"
  | .remainder => "%"

inductive CompareOp where
  | less
  | lessEqual
  | greater
  | greaterEqual
  deriving DecidableEq, Repr

namespace CompareOp

def symbol : CompareOp → String
  | .less => "<"
  | .lessEqual => "<="
  | .greater => ">"
  | .greaterEqual => ">="

def accepts : CompareOp → Ordering → Bool
  | .less, o => o.isLT
  | .lessEqual, o => o.isLE
  | .greater, o => o.isGT
  | .greaterEqual, o => o.isGE

end CompareOp

inductive BinaryOp where
  | or
  | and
  | equal
  | unequal
  | compare (op : CompareOp)
  | arith (op : ArithOp)
  deriving DecidableEq, Repr

def BinaryOp.symbol : BinaryOp → String
  | .or => "||"
  | .and => "&&"
  | .equal => "=="
  | .unequal => "!="
  | .compare op => op.symbol
  | .arith op => op.symbol

/-! ## Syntax trees -/

inductive Expr where
  | literal (value : Value)
  | list (items : List Expr)
  /-- A variable and the members to follow from its value. -/
  | variable (root : String) (path : List String)
  | unary (op : UnaryOp) (operand : Expr)
  | binary (op : BinaryOp) (left right : Expr)

instance : Inhabited Expr := ⟨.literal .null⟩

structure Expression where
  source : String
  tree : Expr

instance : Inhabited Expression := ⟨⟨"null", .literal .null⟩⟩

namespace Expression

/-- A constant; its source is the written value. -/
def ofLiteral (value : Value) : Expression := ⟨value.compact, .literal value⟩

def isLiteral (e : Expression) : Bool :=
  match e.tree with
  | .literal _ => true
  | _ => false

end Expression

end Statechart
