import Statechart.Proofs.Decimal.Doubles
import Statechart.Value.Equality

/-!
# The order of doubles

Doubles are compared by their parts, exponents before mantissas. That is the order of the numbers
that they stand for.

- `Binary.compare_magnitude` : parts in the order of their magnitudes
- `Binary.compare_unpacked`  : and, with their signs, of their values
- `lt_iff`, `beq_iff`        : and so are finite doubles
- `compareFloats?_eq`        : which are always in order
-/

namespace Statechart
namespace Decimal

open Float.Model Float.Model.UnpackedFloat

namespace Binary

variable {b c : Binary}

/-- The greater exponent decides, as its mantissa has the hidden bit. -/
theorem IsCanonical.magnitude_lt (hb : b.IsCanonical) (hc : c.IsCanonical)
    (h : b.exponent < c.exponent) : b.magnitude < c.magnitude := by
  have hleast := hb.le_exponent
  have hleading : hiddenBit ≤ c.mantissa := hc.leading.resolve_right (by omega)
  have hmantissa : (b.mantissa : ℚ) < hiddenBit * 2 := by
    have hlt : b.mantissa < hiddenBit * 2 := by
      rw [Nat.mul_comm]
      exact hb.mantissa_lt
    exact_mod_cast hlt
  have hpow : (0 : ℚ) < 2 ^ b.exponent := zpow_pos (by norm_num) _
  calc b.magnitude < hiddenBit * 2 * 2 ^ b.exponent := mul_lt_mul_of_pos_right hmantissa hpow
    _ = hiddenBit * 2 ^ (b.exponent + 1) := by rw [zpow_add_one₀ (by norm_num)]; ring
    _ ≤ c.mantissa * 2 ^ c.exponent :=
      mul_le_mul (Nat.cast_le.2 hleading) (zpow_le_zpow_right₀ (by norm_num) (by omega))
        (zpow_nonneg (by norm_num) _) (Nat.cast_nonneg _)

theorem compare_magnitude (hb : b.IsCanonical) (hc : c.IsCanonical) :
    compare b.magnitude c.magnitude =
      (compare b.exponent c.exponent).then (compare b.mantissa c.mantissa) := by
  rcases lt_trichotomy b.exponent c.exponent with hlt | heq | hgt
  · rw [compare_lt_iff_lt.2 hlt, compare_lt_iff_lt.2 (hb.magnitude_lt hc hlt)]
    rfl
  · have hpow : (0 : ℚ) < 2 ^ c.exponent := zpow_pos (by norm_num) _
    rw [compare_eq_iff_eq.2 heq, magnitude, magnitude, heq, ← cmp_eq_compare,
      cmp_mul_pos_right hpow, Nat.strictMono_cast.cmp_map_eq, cmp_eq_compare]
    rfl
  · rw [compare_gt_iff_gt.2 hgt, compare_gt_iff_gt.2 (hc.magnitude_lt hb hgt)]
    rfl

theorem compare_neg_neg (v w : ℚ) : compare (-v) (-w) = (compare v w).swap := by
  have hneg : StrictAnti (Neg.neg : ℚ → ℚ) := fun _ _ => neg_lt_neg
  rw [← cmp_eq_compare, ← cmp_eq_compare, cmp_swap]
  exact hneg.cmp_map_eq v w

/-- Parts are compared as the numbers that they stand for. -/
theorem compare_unpacked (hb : b.IsCanonical) (hc : c.IsCanonical) :
    UnpackedFloat.compare b.unpacked c.unpacked = some (compare b.value c.value) := by
  rcases Nat.eq_zero_or_pos b.mantissa with hb₀ | hb₀ <;>
    rcases Nat.eq_zero_or_pos c.mantissa with hc₀ | hc₀
  · rw [unpacked_of_eq_zero hb₀, unpacked_of_eq_zero hc₀, value_of_eq_zero hb₀,
      value_of_eq_zero hc₀, compare_eq_iff_eq.2 rfl]
    rfl
  · have hpos := magnitude_pos_iff.2 hc₀
    rw [unpacked_of_eq_zero hb₀, unpacked_of_pos hc₀, value_of_eq_zero hb₀]
    cases hsign : c.sign with
    | positive =>
        rw [value_of_positive hsign, compare_lt_iff_lt.2 hpos]
        rfl
    | negative =>
        rw [value_of_negative hsign, compare_gt_iff_gt.2 (neg_lt_zero.2 hpos)]
        rfl
  · have hpos := magnitude_pos_iff.2 hb₀
    rw [unpacked_of_pos hb₀, unpacked_of_eq_zero hc₀, value_of_eq_zero hc₀]
    cases hsign : b.sign with
    | positive =>
        rw [value_of_positive hsign, compare_gt_iff_gt.2 hpos]
        rfl
    | negative =>
        rw [value_of_negative hsign, compare_lt_iff_lt.2 (neg_lt_zero.2 hpos)]
        rfl
  · have hpos := magnitude_pos_iff.2 hb₀
    have hpos' := magnitude_pos_iff.2 hc₀
    have horder := compare_magnitude hb hc
    rw [unpacked_of_pos hb₀, unpacked_of_pos hc₀]
    cases hsign : b.sign with
    | positive =>
        cases hsign' : c.sign with
        | positive =>
            rw [value_of_positive hsign, value_of_positive hsign', horder]
            rfl
        | negative =>
            rw [value_of_positive hsign, value_of_negative hsign',
              compare_gt_iff_gt.2 (by linarith)]
            rfl
    | negative =>
        cases hsign' : c.sign with
        | positive =>
            rw [value_of_negative hsign, value_of_positive hsign',
              compare_lt_iff_lt.2 (by linarith)]
            rfl
        | negative =>
            -- of two negative numbers the one with the greater magnitude is the lesser one
            rw [value_of_negative hsign, value_of_negative hsign', compare_neg_neg, horder]
            rfl

end Binary

section Floats

variable {x y : Float}

theorem compare_unpack (hx : x.isFinite = true) (hy : y.isFinite = true) :
    UnpackedFloat.compare x.toModel.unpack y.toModel.unpack =
      some (compare (Binary.ofFloat x).value (Binary.ofFloat y).value) := by
  rw [unpack_eq_unpacked hx, unpack_eq_unpacked hy]
  exact Binary.compare_unpacked (Binary.ofFloat_isCanonical x) (Binary.ofFloat_isCanonical y)

theorem lt_iff (hx : x.isFinite = true) (hy : y.isFinite = true) :
    x < y ↔ (Binary.ofFloat x).value < (Binary.ofFloat y).value := by
  have hlt : x < y ↔ x.toModel.unpack.lt y.toModel.unpack = true := decide_eq_true_iff
  rw [hlt, UnpackedFloat.lt, compare_unpack hx hy, beq_iff_eq, Option.some_inj, compare_lt_iff_lt]

/-- Two zeros are equal, whatever their signs are. -/
theorem beq_iff (hx : x.isFinite = true) (hy : y.isFinite = true) :
    (x == y) = true ↔ (Binary.ofFloat x).value = (Binary.ofFloat y).value := by
  have hbeq : (x == y) = x.toModel.unpack.beq y.toModel.unpack := rfl
  rw [hbeq, UnpackedFloat.beq, compare_unpack hx hy, beq_iff_eq, Option.some_inj, compare_eq_iff_eq]

theorem lt_zero_iff (hx : x.isFinite = true) : x < 0.0 ↔ (Binary.ofFloat x).value < 0 := by
  have hzero : (Binary.ofFloat 0.0).value = 0 := Binary.value_of_eq_zero (by decide +kernel)
  rw [lt_iff hx (by decide +kernel), hzero]

/-- Finite doubles are in the order of what they stand for. -/
theorem compareFloats?_eq (hx : x.isFinite = true) (hy : y.isFinite = true) :
    compareFloats? x y = some (compare (Binary.ofFloat x).value (Binary.ofFloat y).value) := by
  rw [compareFloats?]
  simp only [lt_iff hx hy, lt_iff hy hx, beq_iff hx hy]
  rcases lt_trichotomy (Binary.ofFloat x).value (Binary.ofFloat y).value with hlt | heq | hgt
  · rw [if_pos hlt, compare_lt_iff_lt.2 hlt]
  · rw [if_neg heq.not_lt, if_pos heq, compare_eq_iff_eq.2 heq]
  · rw [if_neg hgt.not_gt, if_neg hgt.ne', if_pos hgt, compare_gt_iff_gt.2 hgt]

end Floats

end Decimal
end Statechart
