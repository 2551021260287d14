import Statechart.Decimal.Binary
import Statechart.Expression.Parser
import Statechart.Fault
import Statechart.Value.Equality

/-!
# Evaluating expressions

- `Lookup`                  : where variables get their values
- `ArithOp.onIntegers`      : integer arithmetic, exact or refused
- `ArithOp.onFloats`        : arithmetic of doubles
- `Expr.eval`               : the value of a syntax tree
- `Expression.evaluate`     : the same with the source in its faults
- `Expression.evaluateBool` : the value of a guard
-/

namespace Statechart

/-- The value of a variable, if there is one. Faults are those of a layer that cannot answer. -/
abbrev Lookup := String → Except ContextFault (Option Value)

namespace Lookup

/-- Variables from a list of fields. -/
def ofFields (fields : List (String × Value)) : Lookup := fun name => .ok (valueOf? name fields)

end Lookup

/-! ## Arithmetic -/

namespace ArithOp

/-- The exact result; division truncates toward zero, and the remainder has the sign of the
dividend. -/
def exact : ArithOp → Int → Int → Int
  | .add, x, y => x + y
  | .subtract, x, y => x - y
  | .multiply, x, y => x * y
  | .divide, x, y => x.tdiv y
  | .remainder, x, y => x.tmod y

def divides : ArithOp → Bool
  | .divide => true
  | .remainder => true
  | _ => false

/-- Whether a result of signed operands is formed within the signed range. A remainder is formed
together with its quotient. -/
def fits (op : ArithOp) (x y : Int) : Bool :=
  decide (IsSigned (op.exact x y)) && (!op.divides || decide (IsSigned (x.tdiv y)))

def onIntegers (op : ArithOp) (x y : Int) : Except EvaluationFault Number :=
  if op.divides && y == 0 then .error .divisionByZero
  else if op.fits x y then
    match Number.ofInt? (op.exact x y) with
    | some n => .ok n
    | none => .error (.overflow op)
  else .error (.overflow op)

def onFloats (op : ArithOp) (x y : Float) : Except EvaluationFault Number :=
  if op.divides && y == 0.0 then .error .divisionByZero
  else
    let result :=
      match op with
      | .add => x + y
      | .subtract => x - y
      | .multiply => x * y
      | .divide => x / y
      | .remainder => Decimal.remainder x y
    match Number.ofFloat? result with
    | some n => .ok n
    | none => .error .notFinite

def onNumbers (op : ArithOp) (a b : Number) : Except EvaluationFault Number :=
  match a.toSigned?, b.toSigned? with
  | some x, some y => op.onIntegers x y
  | _, _ => op.onFloats a.toFloat b.toFloat

end ArithOp

def Number.negate (n : Number) : Except EvaluationFault Number :=
  match n.toSigned? with
  | some x => ArithOp.subtract.onIntegers 0 x
  | none =>
      match Number.ofFloat? (-n.toFloat) with
      | some m => .ok m
      | none => .error .notFinite

/-! ## Operators on values -/

/-- Text as itself, any other value in its compact form. -/
def Value.display : Value → String
  | .text s => s
  | v => v.compact

def CompareOp.onValues (op : CompareOp) (a b : Value) : Except EvaluationFault Value :=
  let order :=
    match a, b with
    | .number x, .number y => x.compare? y
    | .text x, .text y => some (compare x y)
    | _, _ => none
  match order with
  | some o => .ok (.bool (op.accepts o))
  | none => .error (.incomparable op a.kind b.kind)

/-- Addition concatenates as soon as one side is text. -/
def ArithOp.onValues (op : ArithOp) (a b : Value) : Except EvaluationFault Value :=
  if op = .add ∧ (a.isText ∨ b.isText) then .ok (.text (a.display ++ b.display))
  else
    match a, b with
    | .number x, .number y => (op.onNumbers x y).map .number
    | _, _ => .error (.notNumbers op a.kind b.kind)

def UnaryOp.onValue (op : UnaryOp) (v : Value) : Except EvaluationFault Value :=
  match op, v with
  | .not, v => .ok (.bool !v.isTruthy)
  | .negate, .number n => n.negate.map .number
  | .negate, v => .error (.notNegatable v.kind)

/-! ## Evaluation -/

mutual

/-- The right side of `&&` and `||` is evaluated only if the left side does not decide. -/
def Expr.eval (find : Lookup) : Expr → Except EvaluationFault Value
  | .literal value => .ok value
  | .list items => (evalItems find items).map .list
  | .variable root path =>
      match find root with
      | .error fault => .error (.lookup fault)
      | .ok none => .error (.undefined root)
      | .ok (some value) => .ok (path.foldl (fun v name => v.member name) value)
  | .unary op operand => do
      let v ← operand.eval find
      op.onValue v
  | .binary op left right => do
      let a ← left.eval find
      match op with
      | .and =>
          if a.isTruthy then return .bool (← right.eval find).isTruthy else return .bool false
      | .or => if a.isTruthy then return .bool true else return .bool (← right.eval find).isTruthy
      | .equal => return .bool (a.equal (← right.eval find))
      | .unequal => return .bool !(a.equal (← right.eval find))
      | .compare op => op.onValues a (← right.eval find)
      | .arith op => op.onValues a (← right.eval find)

def evalItems (find : Lookup) : List Expr → Except EvaluationFault (List Value)
  | [] => .ok []
  | item :: rest => do
      let value ← item.eval find
      let values ← evalItems find rest
      .ok (value :: values)

end

namespace Expression

def evaluate (e : Expression) (find : Lookup) : Except ModelFault Value :=
  match e.tree.eval find with
  | .ok value => .ok value
  | .error fault => .error (.evaluation e.source fault)

/-- Only the value `true` or `false` itself is accepted. -/
def evaluateBool (e : Expression) (find : Lookup) : Except ModelFault Bool := do
  match ← e.evaluate find with
  | .bool b => .ok b
  | v => .error (.evaluation e.source (.notBoolean v.kind))

/-- Text is an expression, any other value stands for itself. -/
def ofValue (v : Value) : Except ModelFault Expression :=
  match v with
  | .text source =>
      match parse source with
      | .ok e => .ok e
      | .error fault => .error (.expression source fault)
  | v => .ok (ofLiteral v)

end Expression

end Statechart
