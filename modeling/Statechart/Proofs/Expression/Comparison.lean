import Statechart.Engine.World
import Statechart.Proofs.Value.Comparison

/-!
# Comparing whole numbers

The six comparisons of two whole numbers, where they stand: in an expression, in a guard, and in
the cases of a match.

- `BinaryOp.relation?`        : the relation that an operator is for
- `ComparesAs`                : all comparisons are answered as for two given numbers
- `comparesAs_of_compare?`    : and they are, if the numbers are in that order
- `comparesAs_of_whole`       : which order it is for whole numbers
-/

namespace Statechart

open Decimal

/-- Whether two whole numbers are in the relation that a comparison is for. -/
def BinaryOp.relation? (op : BinaryOp) (x y : Int) : Option Bool :=
  match op with
  | .equal => some (x = y)
  | .unequal => some (x ≠ y)
  | .compare .less => some (x < y)
  | .compare .lessEqual => some (x ≤ y)
  | .compare .greater => some (y < x)
  | .compare .greaterEqual => some (y ≤ x)
  | _ => none

/-- All comparisons of two operands are answered as for the whole numbers `x` and `y`. -/
structure ComparesAs (find : Lookup) (left right : Expr) (x y : Int) : Prop where
  eval {op : BinaryOp} {answer : Bool} : op.relation? x y = some answer →
    (Expr.binary op left right).eval find = .ok (.bool answer)
  guard {op : BinaryOp} {answer : Bool} (source : String) : op.relation? x y = some answer →
    Expression.evaluateBool ⟨source, .binary op left right⟩ find = .ok answer
  case {value : Value} {rest : List (Expression × Action)} {chosen : List Action}
      (source : String) (action : Action) : left.eval find = .ok value →
    World.matching find value rest = .ok chosen →
    World.matching find value ((⟨source, right⟩, action) :: rest) =
      .ok (if x = y then action :: chosen else chosen)

section Operands

variable {find : Lookup} {left right : Expr} {a b : Number} {x y : Int}

theorem beq_compare (x y : Int) : (some (compare x y) == some .eq) = decide (x = y) := by
  rw [Bool.eq_iff_iff, beq_iff_eq, Option.some_inj, compare_eq_iff_eq, decide_eq_true_iff]

theorem equal_number (horder : a.compare? b = some (compare x y)) :
    (Value.number a).equal (.number b) = decide (x = y) := by
  rw [Value.equal, horder, beq_compare]

theorem onValues_number (op : CompareOp) (horder : a.compare? b = some (compare x y)) :
    op.onValues (.number a) (.number b) = .ok (.bool (op.accepts (compare x y))) := by
  unfold CompareOp.onValues
  simp only [horder]

theorem accepts_compare (op : CompareOp) (x y : Int) :
    (BinaryOp.compare op).relation? x y = some (op.accepts (compare x y)) := by
  rcases lt_trichotomy x y with hlt | rfl | hgt
  · rw [compare_lt_iff_lt.2 hlt]
    cases op <;> simp [BinaryOp.relation?, CompareOp.accepts] <;> omega
  · rw [compare_eq_iff_eq.2 rfl]
    cases op <;> simp [BinaryOp.relation?, CompareOp.accepts]
  · rw [compare_gt_iff_gt.2 hgt]
    cases op <;> simp [BinaryOp.relation?, CompareOp.accepts] <;> omega

/-- The order of the operands settles every comparison. -/
theorem eval_of_compare? (hleft : left.eval find = .ok (.number a))
    (hright : right.eval find = .ok (.number b)) (horder : a.compare? b = some (compare x y))
    {op : BinaryOp} {answer : Bool} (hop : op.relation? x y = some answer) :
    (Expr.binary op left right).eval find = .ok (.bool answer) := by
  rw [Expr.eval, hleft]
  cases op with
  | or => cases hop
  | and => cases hop
  | arith op => cases hop
  | equal =>
      obtain rfl := Option.some.inj hop
      simp only [hright, ← equal_number horder]
      rfl
  | unequal =>
      obtain rfl := Option.some.inj hop
      simp only [hright, decide_not, ← equal_number horder]
      rfl
  | compare op =>
      rw [accepts_compare] at hop
      obtain rfl := Option.some.inj hop
      simp only [hright]
      exact onValues_number op horder

theorem comparesAs_of_compare? (hleft : left.eval find = .ok (.number a))
    (hright : right.eval find = .ok (.number b)) (horder : a.compare? b = some (compare x y)) :
    ComparesAs find left right x y where
  eval := eval_of_compare? hleft hright horder
  guard source hop := by
    rw [Expression.evaluateBool, Expression.evaluate, eval_of_compare? hleft hright horder hop]
    rfl
  case source action hvalue hrest := by
    obtain rfl := Except.ok.inj (hleft.symm.trans hvalue)
    rw [World.matching, Expression.evaluate, hright, hrest]
    refine congrArg Except.ok ?_
    rw [equal_number horder]
    simp only [decide_eq_true_eq]

end Operands

/-- Whole numbers are compared exactly, unless one of them is not signed and they share a double;
then they are near each other, and are taken for equal. -/
theorem comparesAs_of_whole {find : Lookup} {left right : Expr} {m n : Int} (hm : IsWhole m)
    (hn : IsWhole n) (hleft : left.eval find = .ok (.number (.whole m hm)))
    (hright : right.eval find = .ok (.number (.whole n hn))) :
    (¬ (SharesDouble m n ∧ ¬ (IsSigned m ∧ IsSigned n)) → ComparesAs find left right m n) ∧
      (SharesDouble m n ∧ ¬ (IsSigned m ∧ IsSigned n) →
        ComparesAs find left right m m ∧ |m - n| ≤ 2048) := by
  refine ⟨fun happart => ?_, fun ⟨hshares, hbeyond⟩ => ⟨?_, hshares.close hm hn⟩⟩
  · refine comparesAs_of_compare? hleft hright (Number.compare?_whole hm hn fun hshares => ?_)
    by_contra hbeyond
    exact happart ⟨hshares, hbeyond⟩
  · refine comparesAs_of_compare? hleft hright ?_
    rw [Number.compare?_of_sharesDouble hm hn hshares hbeyond, compare_eq_iff_eq.2 rfl]

/-- Two counts beyond the signed range, and one at its lower end. -/
def counts : Lookup :=
  .ofFields [("most", .ofInt 18446744073709551615), ("next", .ofInt 18446744073709551614),
    ("least", .ofInt (-9223372036854775808))]

theorem counts_compare :
    ComparesAs counts (.variable "least" []) (.variable "most" [])
        (-9223372036854775808) 18446744073709551615 ∧
      ComparesAs counts (.variable "most" []) (.variable "next" [])
        18446744073709551615 18446744073709551615 :=
  have happart : asDouble (-9223372036854775808) ≠ asDouble 18446744073709551615 := by
    decide +kernel
  have hshares : SharesDouble 18446744073709551615 18446744073709551614 :=
    ⟨by decide, by decide +kernel⟩
  have hmerged := (@comparesAs_of_whole counts (.variable "most" []) (.variable "next" []) _ _
    (by decide) (by decide) rfl rfl).2 ⟨hshares, by decide⟩
  ⟨(comparesAs_of_whole (by decide) (by decide) rfl rfl).1 fun h => happart h.1.asDouble_eq,
    hmerged.1⟩

/-- The greatest word and the one before it: a guard takes them for equal, and so does a match. -/
theorem most_equals_next :
    (18446744073709551615 : Int) ≠ 18446744073709551614 ∧
      ∃ e, Expression.parse "most == next" = .ok e ∧ e.evaluateBool counts = .ok true ∧
        ∀ action, World.matching counts (.ofInt 18446744073709551615)
          [(⟨"next", .variable "next" []⟩, action)] = .ok [action] := by
  have hshares : SharesDouble 18446744073709551615 18446744073709551614 :=
    ⟨by decide, by decide +kernel⟩
  have horder := Number.compare?_of_sharesDouble (by decide) (by decide) hshares (by decide)
  have hequal : ComparesAs counts (.variable "most" []) (.variable "next" []) 0 0 :=
    comparesAs_of_compare? rfl rfl horder
  refine ⟨hshares.ne, ⟨"most == next", .binary .equal (.variable "most" []) (.variable "next" [])⟩,
    by cbv, hequal.guard "most == next" rfl, fun action => ?_⟩
  exact hequal.case "next" action rfl rfl

end Statechart
