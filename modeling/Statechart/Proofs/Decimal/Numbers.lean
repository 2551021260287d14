import Statechart.Proofs.Decimal.Wholes

/-!
# Numbers as doubles

Whole numbers become doubles that are close to them, a double is divided by a thousand, and a
double is multiplied by a whole number and rounded.

- `Number.value`            : what a number stands for
- `Number.toFloat_close`    : the double of a number
- `thousandth_of_lt`, `le_thousandth` : a thousandth of a double
- `Binary.abs_roundScaled_sub_le` : a multiple of a double
-/

namespace Statechart
namespace Decimal

open Float.Model Float.Model.UnpackedFloat

/-! ## Whole numbers -/

theorem ofInt_close {n : Int} (hn : IsWhole n) :
    (Float.ofInt n).isFinite = true ∧
      |(Binary.ofFloat (Float.ofInt n)).value - n| ≤ |(n : ℚ)| / 2 ^ 51 := by
  obtain ⟨hfinite, hvalue⟩ := ofInt_eq hn
  have hclose := roundedNat_close n.natAbs
  have hnonneg : (0 : ℚ) ≤ n.natAbs := Nat.cast_nonneg _
  rw [hvalue, abs_asDouble_sub, ← Int.cast_abs, ← Nat.cast_natAbs]
  exact ⟨hfinite, by linarith⟩

/-! ## A thousandth -/

theorem ofFloat_thousand : Binary.ofFloat 1000.0 = ⟨false, 8796093022208000, -43⟩ := by
  decide +kernel

theorem isFinite_thousand : (1000.0 : Float).isFinite = true := by decide +kernel

theorem magnitude_thousand : (Binary.ofFloat 1000.0).magnitude = 1000 := by
  rw [ofFloat_thousand, Binary.magnitude]
  norm_num

/-- A thousandth of a double. -/
theorem exists_thousandth {x : Float} (hfinite : x.isFinite = true) :
    ∃ b : Binary, x / 1000.0 = .ofModel (.pack b.unpacked) ∧
      b.IsRounded ((Binary.ofFloat x).magnitude / 1000) := by
  have hpos : 0 < (Binary.ofFloat 1000.0).mantissa := by
    rw [ofFloat_thousand]
    decide
  obtain ⟨b, hdiv, hrounded⟩ := div_isRounded (Binary.ofFloat x) hpos
  rw [magnitude_thousand] at hrounded
  refine ⟨b, ?_, hrounded⟩
  rw [← hdiv, ← unpack_eq_unpacked hfinite, ← unpack_eq_unpacked isFinite_thousand]
  rfl

/-- What is less than `1000 * 2 ^ 64` is so by far. -/
theorem Binary.IsCanonical.magnitude_le {b : Binary} (hb : b.IsCanonical)
    (hlt : b.magnitude < 1000 * wordLimit) : b.magnitude ≤ 1000 * wordLimit - 2 ^ 21 := by
  have hmantissa : (b.mantissa : ℚ) ≤ 2 * hiddenBit := by exact_mod_cast hb.mantissa_lt.le
  -- with a small exponent it is far away, and with a large one a multiple of `2 ^ 21`
  rcases Int.lt_or_le b.exponent 21 with hlow | hhigh
  · calc b.magnitude ≤ 2 * hiddenBit * 2 ^ (20 : Int) :=
          mul_le_mul hmantissa (zpow_le_zpow_right₀ (by norm_num) (by omega))
            (zpow_nonneg (by norm_num) _) (by norm_num)
      _ ≤ 1000 * wordLimit - 2 ^ 21 := by norm_num [hiddenBit, wordLimit]
  · obtain ⟨k, hk⟩ : ∃ k : Nat, b.exponent = 21 + k := ⟨(b.exponent - 21).toNat, by omega⟩
    have hwhole : b.magnitude = ((b.mantissa * 2 ^ k : Nat) : ℚ) * 2 ^ 21 := by
      rw [Binary.magnitude, hk, zpow_add₀ (by norm_num), zpow_natCast]
      push_cast
      norm_cast
      ring
    have hlimit : (1000 * wordLimit : ℚ) = ((125 * 2 ^ 46 : Nat) : ℚ) * 2 ^ 21 := by
      norm_num [wordLimit]
    rw [hwhole, hlimit] at hlt ⊢
    have hless : ((b.mantissa * 2 ^ k : Nat) : ℚ) < ((125 * 2 ^ 46 : Nat) : ℚ) :=
      lt_of_mul_lt_mul_right hlt (by norm_num)
    have hle : ((b.mantissa * 2 ^ k : Nat) : ℚ) + 1 ≤ ((125 * 2 ^ 46 : Nat) : ℚ) := by
      exact_mod_cast Nat.cast_lt.1 hless
    linarith

/-- A thousandth of less than `1000 * 2 ^ 64` is less than `2 ^ 64`, and right but for rounding. -/
theorem thousandth_of_lt {x : Float} (hfinite : x.isFinite = true)
    (hlt : (Binary.ofFloat x).magnitude < 1000 * wordLimit) :
    (Binary.ofFloat (x / 1000.0)).magnitude ≤ wordLimit - 1 ∧
      |(Binary.ofFloat (x / 1000.0)).magnitude - (Binary.ofFloat x).magnitude / 1000| ≤
        (Binary.ofFloat x).magnitude / 1000 / 2 ^ 53 + 2 ^ (-1075 : Int) := by
  obtain ⟨b, hx, hrounded⟩ := exists_thousandth hfinite
  have hle := (Binary.ofFloat_isCanonical x).magnitude_le hlt
  generalize (Binary.ofFloat x).magnitude = m at *
  have hreach : m / 1000 ≤ 2 ^ (1000 : Int) := by
    have hlarge : (wordLimit : ℚ) ≤ 2 ^ (1000 : Int) := by
      rw [show (wordLimit : ℚ) = 2 ^ (64 : Int) by norm_num [wordLimit]]
      exact zpow_le_zpow_right₀ (by norm_num) (by norm_num)
    linarith
  rw [hx, ofFloat_pack hrounded.isCanonical (hrounded.exponent_le hreach)]
  refine ⟨?_, hrounded.error⟩
  have herror := (abs_le.1 hrounded.error).2
  have htiny : (2 : ℚ) ^ (-1075 : Int) ≤ 1 / 2 ^ 0 := halfLeast_le (by norm_num)
  norm_num [wordLimit] at hle ⊢
  linarith

theorem le_thousandth {x : Float} (hfinite : x.isFinite = true)
    (hle : 1000 * wordLimit ≤ (Binary.ofFloat x).magnitude) :
    wordLimit ≤ (Binary.ofFloat (x / 1000.0)).magnitude := by
  have hlimit : (wordLimit : ℚ) = 2 ^ (64 : Int) := by norm_num [wordLimit]
  obtain ⟨b, hx, hrounded⟩ := exists_thousandth hfinite
  rw [hx]
  have hb : (wordLimit : ℚ) ≤ b.magnitude := by
    rw [hlimit] at hle ⊢
    exact hrounded.le_magnitude 64 (by norm_num) (by linarith)
  rcases Int.lt_or_le 971 b.exponent with hlarge | hroom
  · have hleading := hrounded.isCanonical.leading.resolve_right (by omega)
    rw [ofFloat_pack_of_lt (lt_of_lt_of_le (by decide) hleading) hlarge]
    calc (wordLimit : ℚ) = 2 ^ (64 : Int) := hlimit
      _ ≤ 2 ^ (972 : Int) := zpow_le_zpow_right₀ (by norm_num) (by norm_num)
      _ ≤ hiddenBit * 2 ^ (972 : Int) :=
        le_mul_of_one_le_left (zpow_nonneg (by norm_num) _) (by norm_num [hiddenBit])
  · rwa [ofFloat_pack hrounded.isCanonical hroom]

/-! ## Whole multiples -/

theorem Binary.quotient_eq (b : Binary) :
    0 < b.quotient.2 ∧ (b.quotient.1 : ℚ) / b.quotient.2 = b.magnitude := by
  unfold Binary.quotient Binary.magnitude
  split
  · rename_i hnonneg
    obtain ⟨k, hk⟩ : ∃ k : Nat, b.exponent = k := Int.eq_ofNat_of_zero_le hnonneg
    rw [hk, Int.toNat_natCast, zpow_natCast]
    simp [twoTo]
  · rename_i hneg
    obtain ⟨k, hk⟩ : ∃ k : Nat, b.exponent = -k := Int.exists_eq_neg_ofNat (by omega)
    rw [hk, neg_neg, Int.toNat_natCast, zpow_neg, zpow_natCast]
    simp [twoTo]
    exact div_eq_mul_inv _ _

theorem Binary.abs_roundScaled_sub_le (b : Binary) (scale : Nat) :
    |(b.roundScaled scale : ℚ) - b.magnitude * scale| ≤ 1 / 2 := by
  obtain ⟨hden, hvalue⟩ := b.quotient_eq
  have hrounded : b.roundScaled scale = halfEven (b.quotient.1 * scale) b.quotient.2 := rfl
  have herror := (halfEven_isNearestEven (b.quotient.1 * scale) hden).error
  rwa [← hrounded, Nat.cast_mul, mul_div_right_comm, hvalue] at herror

end Decimal

namespace Number

open Decimal

/-- What a number stands for. -/
def value : Number → ℚ
  | .whole n _ => n
  | .real x _ => (Binary.ofFloat x).value

/-- The double of a number is finite and close to it. -/
theorem toFloat_close (n : Number) :
    n.toFloat.isFinite = true ∧
      |(Binary.ofFloat n.toFloat).value - n.value| ≤ |n.value| / 2 ^ 51 := by
  cases n with
  | whole n hn => exact ofInt_close hn
  | real x hfinite =>
      refine ⟨hfinite, ?_⟩
      rw [toFloat, value, sub_self, abs_zero]
      positivity

end Number
end Statechart
