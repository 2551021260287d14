import Mathlib.Tactic.Ring
import Statechart.Expression.Evaluation

/-!
# Signed arithmetic

What the five operators and the unary minus are for, on whole numbers, and that signed operands get
just that as long as it is signed itself. Division by zero has no result, and a result beyond the
signed range is refused. So is one result within it: a remainder is formed together with its
quotient.

- `IsDivision`           : quotients truncated toward zero, with their remainders
- `ArithOp.IsResult`     : what an operator is for
- `ArithOp.IsRefused`    : a remainder whose quotient is beyond the signed range
- `ArithOp.onIntegers_eq`: the result of an operator, or the fault
- `Expression.evaluate_arithmetic` : the same for expressions
-/

namespace Statechart

/-! ## Division -/

/-- A quotient that is truncated toward zero, and the remainder, which has the sign of the
dividend. -/
structure IsDivision (x y q r : Int) : Prop where
  divisor : y ≠ 0
  dividend : x = y * q + r
  remainder_lt : r.natAbs < y.natAbs
  remainder_sign : (0 ≤ x → 0 ≤ r) ∧ (x ≤ 0 → r ≤ 0)

section Division

variable {x y q r : Int}

/-- There is one such division. -/
theorem isDivision_iff : IsDivision x y q r ↔ y ≠ 0 ∧ q = x.tdiv y ∧ r = x.tmod y := by
  constructor
  · rintro ⟨hy, rfl, hlt, hsign⟩
    refine ⟨hy, ?_⟩
    rcases Int.le_total 0 (y * q + r) with hnonneg | hnonpos
    · obtain ⟨hq, hr⟩ := (Int.tdiv_tmod_unique (r := r) (q := q) hnonneg hy).2
        ⟨by ring, hsign.1 hnonneg, by have := hsign.1 hnonneg; omega⟩
      exact ⟨hq.symm, hr.symm⟩
    · obtain ⟨hq, hr⟩ := (Int.tdiv_tmod_unique' (r := r) (q := q) hnonpos hy).2
        ⟨by ring, by have := hsign.2 hnonpos; omega, hsign.2 hnonpos⟩
      exact ⟨hq.symm, hr.symm⟩
  · rintro ⟨hy, rfl, rfl⟩
    refine ⟨hy, (Int.mul_tdiv_add_tmod x y).symm, ?_, fun h => ?_, fun h => ?_⟩
    · rw [Int.natAbs_tmod]
      exact Nat.mod_lt _ (Int.natAbs_pos.2 hy)
    · exact Int.tmod_nonneg y h
    · exact ((Int.tdiv_tmod_unique' h hy).1 ⟨rfl, rfl⟩).2.2

/-- Of signed numbers only one quotient is not signed. -/
theorem isSigned_tdiv_iff (hx : IsSigned x) (hy : y ≠ 0) :
    IsSigned (x.tdiv y) ↔ ¬ (x = -9223372036854775808 ∧ y = -1) := by
  unfold IsSigned at *
  by_cases hone : y = 1
  · rw [hone, Int.tdiv_one]
    omega
  by_cases hminus : y = -1
  · rw [hminus, Int.tdiv_neg, Int.tdiv_one]
    omega
  · -- the quotient is half of the dividend at most
    have hhalf : (x.tdiv y).natAbs ≤ x.natAbs / 2 := by
      rw [Int.natAbs_tdiv]
      exact Nat.div_le_div_left (by omega) (by decide)
    omega

end Division

/-! ## Operators -/

namespace ArithOp

variable {op : ArithOp} {x y z : Int}

/-- What an operator is for. -/
def IsResult (op : ArithOp) (x y z : Int) : Prop :=
  match op with
  | .add => z = x + y
  | .subtract => z = x - y
  | .multiply => z = x * y
  | .divide => ∃ r, IsDivision x y z r
  | .remainder => ∃ q, IsDivision x y q z

theorem isResult_iff : op.IsResult x y z ↔ (op.divides = true → y ≠ 0) ∧ z = op.exact x y := by
  cases op with
  | add => exact (and_iff_right nofun).symm
  | subtract => exact (and_iff_right nofun).symm
  | multiply => exact (and_iff_right nofun).symm
  | divide =>
      simp only [IsResult, isDivision_iff, divides, exact, forall_const]
      exact ⟨fun ⟨_, hy, hz, _⟩ => ⟨hy, hz⟩, fun ⟨hy, hz⟩ => ⟨_, hy, hz, rfl⟩⟩
  | remainder =>
      simp only [IsResult, isDivision_iff, divides, exact, forall_const]
      exact ⟨fun ⟨_, hy, _, hz⟩ => ⟨hy, hz⟩, fun ⟨hy, hz⟩ => ⟨_, hy, rfl, hz⟩⟩

/-- The remainder, zero, whose quotient is the one that is not signed. -/
structure IsRefused (op : ArithOp) (x y : Int) : Prop where
  op_eq : op = .remainder
  dividend : x = -9223372036854775808
  divisor : y = -1

theorem fits_iff (hx : IsSigned x) (hy : op.divides = true → y ≠ 0) :
    op.fits x y = true ↔ IsSigned (op.exact x y) ∧ ¬ op.IsRefused x y := by
  rw [fits, Bool.and_eq_true, decide_eq_true_iff]
  cases op with
  | add => exact and_congr_right' (iff_of_true rfl fun h => nomatch h.op_eq)
  | subtract => exact and_congr_right' (iff_of_true rfl fun h => nomatch h.op_eq)
  | multiply => exact and_congr_right' (iff_of_true rfl fun h => nomatch h.op_eq)
  | divide =>
      have hrefused : ¬ ArithOp.divide.IsRefused x y := fun h => nomatch h.op_eq
      simp [divides, exact, hrefused]
  | remainder =>
      have hrefused : ArithOp.remainder.IsRefused x y ↔ x = -9223372036854775808 ∧ y = -1 :=
        ⟨fun h => ⟨h.dividend, h.divisor⟩, fun h => ⟨rfl, h.1, h.2⟩⟩
      rw [hrefused, ← isSigned_tdiv_iff hx (hy rfl)]
      simp [divides, exact]

theorem not_zeroDivisor (hy : op.divides = true → y ≠ 0) : (op.divides && y == 0) = false := by
  rw [Bool.and_eq_false_imp]
  exact fun h => beq_eq_false_iff_ne.2 (hy h)

/-- The result, unless it is not signed or refused. -/
theorem onIntegers_of_isResult (hx : IsSigned x) (h : op.IsResult x y z) (hz : IsSigned z)
    (hformed : ¬ op.IsRefused x y) : op.onIntegers x y = .ok (.whole z hz.isWhole) := by
  obtain ⟨hy, rfl⟩ := isResult_iff.1 h
  have hfits := (fits_iff hx hy).2 ⟨hz, hformed⟩
  simp only [onIntegers, not_zeroDivisor hy, hfits, Number.ofInt?, dif_pos hz.isWhole]
  rfl

theorem onIntegers_of_overflow (hx : IsSigned x) (h : op.IsResult x y z)
    (hz : ¬ IsSigned z ∨ op.IsRefused x y) : op.onIntegers x y = .error (.overflow op) := by
  obtain ⟨hy, rfl⟩ := isResult_iff.1 h
  have hfits : op.fits x y = false := by
    rw [← Bool.not_eq_true, fits_iff hx hy]
    exact fun ⟨hsigned, hformed⟩ => hz.elim (absurd hsigned) hformed
  simp only [onIntegers, not_zeroDivisor hy, hfits]
  rfl

theorem onIntegers_of_noResult (h : ∀ z, ¬ op.IsResult x y z) :
    op.onIntegers x y = .error .divisionByZero := by
  have hzero : ¬ (op.divides = true → y ≠ 0) := fun hy => h _ (isResult_iff.2 ⟨hy, rfl⟩)
  simp only [Classical.not_imp, not_not] at hzero
  rw [onIntegers, hzero.1, hzero.2]
  rfl

end ArithOp

/-! ## Expressions -/

theorem toSigned?_whole {x : Int} (hx : IsSigned x) :
    (Number.whole x hx.isWhole).toSigned? = some x := if_pos hx

namespace Expr

variable {find : Lookup} {left right : Expr} {x y : Int}

/-- Signed operands are computed with as whole numbers. -/
theorem eval_arith (op : ArithOp) (hx : IsSigned x) (hy : IsSigned y)
    (hleft : left.eval find = .ok (.number (.whole x hx.isWhole)))
    (hright : right.eval find = .ok (.number (.whole y hy.isWhole))) :
    (binary (.arith op) left right).eval find = (op.onIntegers x y).map .number := by
  have hplain : ¬ (op = .add ∧ (Value.isText (.number (.whole x hx.isWhole)) ∨
      Value.isText (.number (.whole y hy.isWhole)))) := fun h => h.2.elim nofun nofun
  rw [eval, hleft]
  simp only [hright]
  change op.onValues _ _ = _
  rw [ArithOp.onValues, if_neg hplain, ArithOp.onNumbers, toSigned?_whole hx, toSigned?_whole hy]

theorem eval_negate (hx : IsSigned x)
    (hleft : left.eval find = .ok (.number (.whole x hx.isWhole))) :
    (unary .negate left).eval find = (ArithOp.subtract.onIntegers 0 x).map .number := by
  rw [eval, hleft]
  change (Number.negate _).map Value.number = _
  rw [Number.negate, toSigned?_whole hx]

end Expr

/-- An answer to signed operands is the exact result, as a whole number, as long as that is signed;
otherwise it is a fault, and it is a fault for one remainder too. -/
structure ArithOp.Answers (op : ArithOp) (x y : Int) (source : String)
    (answer : Except ModelFault Value) : Prop where
  exact {z : Int} (hz : IsSigned z) : op.IsResult x y z → ¬ op.IsRefused x y →
    answer = .ok (.number (.whole z hz.isWhole))
  overflow {z : Int} : op.IsResult x y z → ¬ IsSigned z ∨ op.IsRefused x y →
    answer = .error (.evaluation source (.overflow op))
  noResult : (∀ z, ¬ op.IsResult x y z) → answer = .error (.evaluation source .divisionByZero)

namespace Expression

theorem answers_onIntegers {op : ArithOp} {tree : Expr} {find : Lookup} {x y : Int}
    (hx : IsSigned x) (htree : tree.eval find = (op.onIntegers x y).map .number)
    (source : String) : op.Answers x y source (evaluate ⟨source, tree⟩ find) where
  exact hz h hformed := by
    rw [evaluate, htree, ArithOp.onIntegers_of_isResult hx h hz hformed]
    rfl
  overflow h hz := by
    rw [evaluate, htree, ArithOp.onIntegers_of_overflow hx h hz]
    rfl
  noResult h := by
    rw [evaluate, htree, ArithOp.onIntegers_of_noResult h]
    rfl

theorem evaluate_negate {operand : Expr} {find : Lookup} {x : Int} (hx : IsSigned x)
    (hoperand : operand.eval find = .ok (.number (.whole x hx.isWhole))) (source : String) :
    evaluate ⟨source, .unary .negate operand⟩ find =
      if h : IsSigned (-x) then .ok (.number (.whole (-x) h.isWhole))
      else .error (.evaluation source (.overflow .subtract)) := by
  have hresult : ArithOp.subtract.IsResult 0 x (-x) := (Int.zero_sub x).symm
  have hanswers := answers_onIntegers (by decide) (Expr.eval_negate hx hoperand) source
  split
  · rename_i h
    exact hanswers.exact h hresult nofun
  · rename_i h
    exact hanswers.overflow hresult (.inl h)

/-- Signed operands are computed with exactly, or a fault tells why not. -/
theorem evaluate_arithmetic {left right : Expr} {find : Lookup} {x y : Int} (hx : IsSigned x)
    (hy : IsSigned y) (hleft : left.eval find = .ok (.number (.whole x hx.isWhole)))
    (hright : right.eval find = .ok (.number (.whole y hy.isWhole))) (source : String) :
    (∀ op : ArithOp,
        op.Answers x y source (evaluate ⟨source, .binary (.arith op) left right⟩ find)) ∧
      evaluate ⟨source, .unary .negate left⟩ find =
        if h : IsSigned (-x) then .ok (.number (.whole (-x) h.isWhole))
        else .error (.evaluation source (.overflow .subtract)) :=
  ⟨fun op => answers_onIntegers hx (Expr.eval_arith op hx hy hleft hright) source,
    evaluate_negate hx hleft source⟩

/-- Minus seven and two. -/
def mixed : Lookup := .ofFields [("x", .ofInt (-7)), ("y", .ofInt 2)]

/-- The quotient is truncated, not rounded down. -/
theorem mixed_evaluates :
    evaluate ⟨"x / y", .binary (.arith .divide) (.variable "x" []) (.variable "y" [])⟩ mixed =
        .ok (.ofInt (-3)) ∧
      evaluate ⟨"x % y", .binary (.arith .remainder) (.variable "x" []) (.variable "y" [])⟩ mixed =
        .ok (.ofInt (-1)) ∧
      evaluate ⟨"-x", .unary .negate (.variable "x" [])⟩ mixed = .ok (.ofInt 7) :=
  have hdivision : IsDivision (-7) 2 (-3) (-1) := ⟨by decide, rfl, by decide, by decide⟩
  have hanswers := @evaluate_arithmetic (.variable "x" []) (.variable "y" []) mixed (-7) 2
    (by decide) (by decide) rfl rfl
  ⟨((hanswers "x / y").1 .divide).exact (by decide) ⟨-1, hdivision⟩ nofun,
    ((hanswers "x % y").1 .remainder).exact (by decide) ⟨-3, hdivision⟩
      fun h => absurd h.dividend (by decide),
    (hanswers "-x").2⟩

/-- The least signed number and minus one. -/
def extremes : Lookup := .ofFields [("x", .ofInt (-9223372036854775808)), ("y", .ofInt (-1))]

/-- The remainder is zero, but it is refused. -/
theorem extremes_refused :
    ArithOp.remainder.IsResult (-9223372036854775808) (-1) 0 ∧ IsSigned 0 ∧
      ∃ e, parse "x % y" = .ok e ∧
        e.evaluate extremes = .error (.evaluation "x % y" (.overflow .remainder)) := by
  have hdivision : IsDivision (-9223372036854775808) (-1) 9223372036854775808 0 :=
    ⟨by decide, rfl, by decide, by decide⟩
  refine ⟨⟨_, hdivision⟩, by decide, ⟨"x % y", .binary (.arith .remainder) (.variable "x" [])
    (.variable "y" [])⟩, by cbv, ?_⟩
  rfl

end Expression
end Statechart
