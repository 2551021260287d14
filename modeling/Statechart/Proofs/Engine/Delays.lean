import Statechart.Engine.Selection
import Statechart.Proofs.Decimal.Numbers
import Statechart.Proofs.Decimal.Order

/-!
# Delays

A delay is a number of milliseconds and becomes a period in nanoseconds, rounded three times on the
way: to a double, to the thousandth of a double, and to a whole number.

- `endlessMillis`           : the least delay that the clock cannot show
- `Number.period`           : the period of a number of milliseconds
- `Number.abs_period_sub_le` : it is the delay but for rounding
- `delayNanos_number`       : which delays are accepted
-/

namespace Statechart

open Decimal

/-! ## Periods -/

/-- The least number of milliseconds that the clock cannot show: `2 ^ 64` seconds. -/
def endlessMillis : ℚ := 1000 * wordLimit

/-- The period that a number of milliseconds comes to, in nanoseconds. -/
def Number.period (n : Number) : Nat :=
  (Binary.ofFloat (n.toFloat / 1000.0)).roundScaled secondNanos

namespace Number

theorem lt_zero_iff (n : Number) : n.toFloat < 0.0 ↔ n.value < 0 := by
  obtain ⟨hfinite, hclose⟩ := n.toFloat_close
  rw [Decimal.lt_zero_iff hfinite]
  obtain ⟨hlower, hupper⟩ := abs_le.1 hclose
  generalize (Binary.ofFloat n.toFloat).value = v at *
  rcases le_or_gt 0 n.value with hnonneg | hneg
  · rw [abs_of_nonneg hnonneg] at *
    exact iff_of_false (by linarith) (by linarith)
  · rw [abs_of_neg hneg] at *
    exact iff_of_true (by linarith) hneg

/-- The double of a number that is not negative. -/
theorem magnitude_eq (n : Number) (hn : 0 ≤ n.value) :
    (Binary.ofFloat n.toFloat).magnitude = (Binary.ofFloat n.toFloat).value := by
  have hnonneg : 0 ≤ (Binary.ofFloat n.toFloat).value := by
    rw [← not_lt, ← Decimal.lt_zero_iff n.toFloat_close.1, n.lt_zero_iff]
    exact not_lt.2 hn
  rw [← Binary.abs_value, abs_of_nonneg hnonneg]

theorem value_whole_lt {k : Int} (hk : IsWhole k) : value (.whole k hk) < wordLimit := by
  have hword : k < (wordLimit : Int) := hk.2
  change (k : ℚ) < _
  exact_mod_cast hword

theorem value_whole_lt_endless {k : Int} (hk : IsWhole k) : value (.whole k hk) < endlessMillis :=
  (value_whole_lt hk).trans_le (by norm_num [endlessMillis, wordLimit])

/-- A number is too large if its double is; whole numbers never are. -/
theorem magnitude_lt_iff (n : Number) (hn : 0 ≤ n.value) :
    (Binary.ofFloat n.toFloat).magnitude < endlessMillis ↔ n.value < endlessMillis := by
  obtain ⟨hfinite, hclose⟩ := n.toFloat_close
  rw [n.magnitude_eq hn]
  cases n with
  | real x _ => rfl
  | whole k hk =>
      have hless := value_whole_lt hk
      rw [abs_of_nonneg hn] at hclose
      have hupper := (abs_le.1 hclose).2
      unfold endlessMillis
      exact iff_of_true (by linarith) (by linarith)

/-- The period is the delay, but for half a nanosecond and one part in `2 ^ 50`. -/
theorem abs_period_sub_le (n : Number) (hn : 0 ≤ n.value) (hlt : n.value < endlessMillis) :
    n.period < wordLimit * secondNanos ∧
      |(n.period : ℚ) - 10 ^ 6 * n.value| ≤ 1 / 2 + 10 ^ 6 * n.value / 2 ^ 50 := by
  obtain ⟨hfinite, hclose⟩ := n.toFloat_close
  obtain ⟨hlimit, hthousandth⟩ := thousandth_of_lt hfinite ((n.magnitude_lt_iff hn).2 hlt)
  have hscaled : |(n.period : ℚ) - _| ≤ 1 / 2 :=
    (Binary.ofFloat (n.toFloat / 1000.0)).abs_roundScaled_sub_le secondNanos
  have hnanos : (secondNanos : ℚ) = 10 ^ 9 := by norm_num [secondNanos]
  have hleast : (2 : ℚ) ^ (-1075 : Int) ≤ 1 / 2 ^ 200 := halfLeast_le (by norm_num)
  rw [n.magnitude_eq hn] at hthousandth
  rw [abs_of_nonneg hn] at hclose
  rw [hnanos] at hscaled
  -- the three errors, as bounds from below and from above that add up
  obtain ⟨hclose₁, hclose₂⟩ := abs_le.1 hclose
  obtain ⟨hthousandth₁, hthousandth₂⟩ := abs_le.1 hthousandth
  obtain ⟨hscaled₁, hscaled₂⟩ := abs_le.1 hscaled
  generalize (2 : ℚ) ^ (-1075 : Int) = tiny at *
  generalize (Binary.ofFloat n.toFloat).value = v at *
  generalize (Binary.ofFloat (n.toFloat / 1000.0)).magnitude = q at *
  generalize n.period = p at *
  generalize n.value = d at *
  constructor
  · have hless : (p : ℚ) < ((wordLimit * secondNanos : Nat) : ℚ) := by
      rw [Nat.cast_mul, hnanos]
      linarith
    exact_mod_cast hless
  · -- what is almost nothing is rounded to nothing, so that the least double does not matter
    rcases lt_or_ge d (1 / 2 ^ 100) with hsmall | hlarge
    · have hnone : p < 1 := by
        have hless : (p : ℚ) < 1 := by linarith
        exact_mod_cast hless
      obtain rfl : p = 0 := by omega
      rw [Nat.cast_zero, zero_sub, abs_neg, abs_of_nonneg (by linarith)]
      linarith
    · exact abs_le.2 ⟨by linarith, by linarith⟩

example : period (.whole 250 (by decide)) = 250000000 := by decide +kernel

theorem le_period (n : Number) (hle : endlessMillis ≤ n.value) :
    wordLimit * secondNanos ≤ n.period := by
  have hfinite := n.toFloat_close.1
  have hn : 0 ≤ n.value := le_trans (by norm_num [endlessMillis, wordLimit]) hle
  have hlong : endlessMillis ≤ (Binary.ofFloat n.toFloat).magnitude :=
    not_lt.1 fun h => absurd ((n.magnitude_lt_iff hn).1 h) (not_lt.2 hle)
  have hthousandth := le_thousandth hfinite hlong
  have hscaled := (Binary.ofFloat (n.toFloat / 1000.0)).abs_roundScaled_sub_le secondNanos
  change |(n.period : ℚ) - _| ≤ _ at hscaled
  have hlower := (abs_le.1 hscaled).1
  have hnanos : (0 : ℚ) ≤ secondNanos := Nat.cast_nonneg _
  have hproduct : (wordLimit : ℚ) * secondNanos ≤
      (Binary.ofFloat (n.toFloat / 1000.0)).magnitude * secondNanos := by gcongr
  have hless : ((wordLimit * secondNanos : Nat) : ℚ) < (n.period + 1 : Nat) := by
    push_cast
    linarith
  exact Nat.le_of_lt_succ (by exact_mod_cast hless)

end Number

/-! ## Which delays are accepted -/

theorem delayNanos_number (name : String) (n : Number) :
    delayNanos name (.number n) =
      if n.value < 0 then .error (.invalidTimer name (.outOfRange n.toFloat))
      else if n.value < endlessMillis then .ok n.period
      else .error (.endlessDelay name) := by
  have hfinite := n.toFloat_close.1
  by_cases hneg : n.value < 0
  · rw [if_pos hneg]
    have hlt : decide (n.toFloat < 0.0) = true := decide_eq_true (n.lt_zero_iff.2 hneg)
    simp only [delayNanos, hlt, Bool.or_true, if_pos]
  · have hlt : decide (n.toFloat < 0.0) = false := decide_eq_false fun h => hneg (n.lt_zero_iff.1 h)
    have hcheck : (!n.toFloat.isFinite || decide (n.toFloat < 0.0)) = false := by
      rw [hfinite, hlt]
      rfl
    rw [if_neg hneg]
    by_cases hshort : n.value < endlessMillis
    · have hroom := (n.abs_period_sub_le (not_lt.1 hneg) hshort).1
      rw [if_pos hshort]
      unfold Number.period at hroom ⊢
      simp only [delayNanos, hcheck, Bool.false_eq_true, if_false, if_pos hroom]
    · have hroom := not_lt.2 (n.le_period (not_lt.1 hshort))
      rw [if_neg hshort]
      unfold Number.period at hroom
      simp only [delayNanos, hcheck, Bool.false_eq_true, if_false, if_neg hroom]

end Statechart
