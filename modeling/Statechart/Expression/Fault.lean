import Statechart.Context.Fault
import Statechart.Expression.Syntax

/-!
# Faults of expressions

- `SyntaxFault`     : why a text is no expression, and where
- `EvaluationFault` : why an expression has no value
-/

namespace Statechart

/-! ## Syntax -/

inductive SyntaxCause where
  | emptySource
  | trailingInput
  | missingOperand
  | unclosedGroup
  | unclosedList
  | unclosedText
  | badNumber (text : String)
  | missingMember
  /-- The search was cut short; a whole text is never given up in this way. -/
  | exhausted
  deriving DecidableEq, Repr

structure SyntaxFault where
  cause : SyntaxCause
  /-- Bytes of the trimmed text before the fault. -/
  offset : Nat
  /-- The text from the fault on. -/
  rest : String
  deriving DecidableEq, Repr

namespace SyntaxFault

def message (f : SyntaxFault) : String :=
  match f.cause with
  | .emptySource => "empty expression"
  | .trailingInput =>
      "unexpected input at offset " ++ toString f.offset ++ ": '" ++ f.rest ++ "'"
  | .missingOperand =>
      match f.rest.toList with
      | [] => "unexpected end of expression"
      | c :: _ =>
          "unexpected character '" ++ String.singleton c ++ "' at offset " ++ toString f.offset
  | .unclosedGroup => "expected ')' at offset " ++ toString f.offset
  | .unclosedList => "expected ',' or ']' at offset " ++ toString f.offset
  | .unclosedText => "unterminated string"
  | .badNumber text => "invalid number: '" ++ text ++ "'"
  | .missingMember => "expected member name at offset " ++ toString f.offset
  | .exhausted => "expression too long"

end SyntaxFault

/-! ## Evaluation -/

inductive EvaluationFault where
  | undefined (name : String)
  | lookup (fault : ContextFault)
  | incomparable (op : CompareOp) (left right : Kind)
  | notNumbers (op : ArithOp) (left right : Kind)
  | divisionByZero
  | overflow (op : ArithOp)
  | notFinite
  | notNegatable (kind : Kind)
  | notBoolean (kind : Kind)
  deriving DecidableEq, Repr

namespace EvaluationFault

def message : EvaluationFault → String
  | .undefined name => "variable '" ++ name ++ "' is not defined"
  | .lookup fault => fault.message
  | .incomparable op left right =>
      "cannot compare " ++ left.name ++ " with " ++ right.name ++ " using '" ++ op.symbol ++ "'"
  | .notNumbers op left right =>
      "operator '" ++ op.symbol ++ "' expects numbers, got " ++ left.name ++ " and " ++ right.name
  | .divisionByZero => "division by zero"
  | .overflow op => "integer overflow in '" ++ op.symbol ++ "'"
  | .notFinite => "result is not a finite number"
  | .notNegatable kind => "cannot negate " ++ kind.name
  | .notBoolean kind => "expected a boolean, got " ++ kind.name

end EvaluationFault

end Statechart
