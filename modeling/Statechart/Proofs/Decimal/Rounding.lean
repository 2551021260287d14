import Statechart.Proofs.Decimal.Doubles

/-!
# Rounding to doubles

Of a number as much is kept as a double has room for: the mantissa, and two bits that tell where in
the unit above the mantissa the number lies. That is enough to round it to the nearest double.

- `Describes`               : what is known of a number
- `IsNearestEven`           : a nearest whole number; there is only one, and it keeps the order
- `nearestParts`            : the parts of the nearest double
- `Binary.IsRounded`        : the error of parts that are rounded
- `roundWithAccuracy_isRounded` : rounding, from what is known of a number
- `div_isRounded`, `mul_eq_nearestParts` : quotients and products
-/

namespace Statechart
namespace Decimal

open Float.Model Float.Model.UnpackedFloat

/-! ## What is known of a number -/

/-- The mantissa is the number rounded down; the two bits tell where in the unit above it the
number lies. -/
inductive Describes : ExtendedMantissa → ℚ → Prop where
  | exact (m : Nat) : Describes ⟨m, false, false⟩ m
  | below {m : Nat} {v : ℚ} : (m : ℚ) < v → v < m + 1 / 2 → Describes ⟨m, false, true⟩ v
  | middle (m : Nat) : Describes ⟨m, true, false⟩ (m + 1 / 2)
  | above {m : Nat} {v : ℚ} : (m : ℚ) + 1 / 2 < v → v < m + 1 → Describes ⟨m, true, true⟩ v

namespace Describes

variable {em : ExtendedMantissa} {v : ℚ}

theorem whole (m : Nat) : Describes (.ofMantissaAndAccuracy m .exact) m := exact m

/-- A quotient is known by the remainder of the division. -/
theorem quotient (m : Nat) {d : Nat} (hd : 0 < d) :
    Describes (.ofMantissaAndAccuracy (m / d) (accuracyOfFraction (m % d) d)) (m / d) := by
  have hd' : (0 : ℚ) < d := Nat.cast_pos.2 hd
  have hrest : ((m % d : Nat) : ℚ) < d := Nat.cast_lt.2 (Nat.mod_lt _ hd)
  have hsplit : (m : ℚ) = d * (m / d : Nat) + (m % d : Nat) := by
    exact_mod_cast (Nat.div_add_mod m d).symm
  generalize m / d = q at *
  generalize m % d = r at *
  have habove : (m : ℚ) / d = q + r / d := by
    rw [hsplit]
    field_simp
  rw [habove, accuracyOfFraction]
  split
  · rename_i hzero
    rw [hzero, Nat.cast_zero, zero_div, add_zero]
    exact whole q
  · rename_i hpos
    have hpos : (0 : ℚ) < r / d := div_pos (Nat.cast_pos.2 (Nat.pos_of_ne_zero hpos)) hd'
    have hone : (r : ℚ) / d < 1 := (div_lt_one hd').2 hrest
    -- the remainder lies below half of the divisor, on it or above it
    cases hcompare : compare (2 * r) d with
    | lt =>
        have hlt : 2 * (r : ℚ) < d := by exact_mod_cast Nat.compare_eq_lt.1 hcompare
        have hhalf : (r : ℚ) / d < 1 / 2 := by
          rw [div_lt_iff₀ hd']
          linarith
        exact below (by linarith) (by linarith)
    | eq =>
        have heq : 2 * (r : ℚ) = d := by exact_mod_cast Nat.compare_eq_eq.1 hcompare
        have hhalf : (r : ℚ) / d = 1 / 2 := by
          rw [div_eq_iff hd'.ne']
          linarith
        rw [hhalf]
        exact middle q
    | gt =>
        have hgt : (d : ℚ) < 2 * r := by exact_mod_cast Nat.compare_eq_gt.1 hcompare
        have hhalf : (1 : ℚ) / 2 < r / d := by
          rw [lt_div_iff₀ hd']
          linarith
        exact above (by linarith) (by linarith)

/-- Half of the number; the last bit of the mantissa becomes the upper one of the two bits. -/
theorem shiftRightOne (h : Describes em v) : Describes em.shiftRightOne (v / 2) := by
  have heven (k : Nat) (r s : Bool) :
      ExtendedMantissa.shiftRightOne ⟨2 * k, r, s⟩ = ⟨k, false, r || s⟩ := by
    simp [ExtendedMantissa.shiftRightOne]
  have hodd (k : Nat) (r s : Bool) :
      ExtendedMantissa.shiftRightOne ⟨2 * k + 1, r, s⟩ = ⟨k, true, r || s⟩ := by
    simp [ExtendedMantissa.shiftRightOne]
    omega
  cases h with
  | exact m =>
      obtain ⟨k, rfl | rfl⟩ := m.even_or_odd'
      · rw [heven]
        simpa using exact k
      · have hhalf : (((2 * k + 1 : Nat) : ℚ)) / 2 = k + 1 / 2 := by
          push_cast
          ring
        rw [hodd, hhalf]
        exact middle k
  | @below m v hlt hlt' =>
      obtain ⟨k, rfl | rfl⟩ := m.even_or_odd' <;> push_cast at hlt hlt'
      · rw [heven]
        exact below (by linarith) (by linarith)
      · rw [hodd]
        exact above (by linarith) (by linarith)
  | middle m =>
      obtain ⟨k, rfl | rfl⟩ := m.even_or_odd' <;> push_cast
      · rw [heven]
        exact below (by linarith) (by linarith)
      · rw [hodd]
        exact above (by linarith) (by linarith)
  | @above m v hlt hlt' =>
      obtain ⟨k, rfl | rfl⟩ := m.even_or_odd' <;> push_cast at hlt hlt'
      · rw [heven]
        exact below (by linarith) (by linarith)
      · rw [hodd]
        exact above (by linarith) (by linarith)

theorem shiftRight (h : Describes em v) (k : Nat) : Describes (em >>> k) (v / 2 ^ k) := by
  induction k with
  | zero =>
      rw [pow_zero, div_one]
      exact h
  | succ k ih =>
      rw [pow_succ, ← div_div]
      exact ih.shiftRightOne

theorem floor (h : Describes em v) : (em.mantissa : ℚ) ≤ v ∧ v < em.mantissa + 1 := by
  cases h with
  | exact m => constructor <;> linarith
  | below hlt hlt' => constructor <;> linarith
  | middle m => constructor <;> linarith
  | above hlt hlt' => constructor <;> linarith

/-- Rounding goes to the nearest whole number. -/
theorem abs_roundedMantissa_sub_le (h : Describes em v) :
    |(em.roundedMantissa : ℚ) - v| ≤ 1 / 2 := by
  unfold ExtendedMantissa.roundedMantissa
  cases h with
  | exact m => simp [ExtendedMantissa.accuracy, Accuracy.roundToNearestEven]
  | below hlt hlt' =>
      simp only [ExtendedMantissa.accuracy, Accuracy.roundToNearestEven]
      exact abs_le.2 ⟨by linarith, by linarith⟩
  | middle m =>
      have hbit : ((m % 2 : Nat) : ℚ) ≤ 1 := by
        exact_mod_cast Nat.le_of_lt_succ (Nat.mod_lt m (by decide))
      have hnonneg : (0 : ℚ) ≤ ((m % 2 : Nat) : ℚ) := Nat.cast_nonneg _
      simp only [ExtendedMantissa.accuracy, Accuracy.roundToNearestEven, Nat.cast_add]
      exact abs_le.2 ⟨by linarith, by linarith⟩
  | above hlt hlt' =>
      simp only [ExtendedMantissa.accuracy, Accuracy.roundToNearestEven, Nat.cast_add,
        Nat.cast_one]
      exact abs_le.2 ⟨by linarith, by linarith⟩

end Describes

theorem mantissa_ofMantissaAndAccuracy (m : Nat) (acc : Accuracy) :
    (ExtendedMantissa.ofMantissaAndAccuracy m acc).mantissa = m := by
  cases acc with
  | exact => rfl
  | inexact o => cases o <;> rfl

theorem mantissa_shiftRight (em : ExtendedMantissa) (k : Nat) :
    (em >>> k).mantissa = em.mantissa / 2 ^ k := by
  induction k with
  | zero => exact (Nat.div_one _).symm
  | succ k ih =>
      rw [pow_succ, ← Nat.div_div_eq_div_mul, ← ih]
      rfl

theorem roundedMantissa_bounds (em : ExtendedMantissa) :
    em.mantissa ≤ em.roundedMantissa ∧ em.roundedMantissa ≤ em.mantissa + 1 := by
  obtain ⟨m, round, sticky⟩ := em
  cases round <;> cases sticky <;>
    simp [ExtendedMantissa.roundedMantissa, ExtendedMantissa.accuracy, Accuracy.roundToNearestEven]
  omega

/-! ## The nearest whole number -/

/-- A whole number nearest to a number, the even one if there are two. -/
structure IsNearestEven (m : Nat) (v : ℚ) : Prop where
  error : |(m : ℚ) - v| ≤ 1 / 2
  even : |(m : ℚ) - v| = 1 / 2 → m % 2 = 0

namespace IsNearestEven

variable {m n : Nat} {v w : ℚ}

theorem natCast (m : Nat) : IsNearestEven m m := ⟨by norm_num, by norm_num⟩

/-- Rounding keeps the order. -/
theorem mono (h : IsNearestEven m v) (h' : IsNearestEven n w) (hle : v ≤ w) : m ≤ n := by
  by_contra hlt
  have hnext : (n : ℚ) + 1 ≤ m := by exact_mod_cast not_le.1 hlt
  have hupper := (abs_le.1 h.error).2
  have hlower := (abs_le.1 h'.error).1
  -- the two are neighbours, and both numbers lie in the middle between them
  have hm : (m : ℚ) - v = 1 / 2 := by linarith
  have hn : (n : ℚ) - w = -(1 / 2) := by linarith
  have hsucc : m = n + 1 := by
    have hcast : (m : ℚ) = (n + 1 : Nat) := by
      push_cast
      linarith
    exact_mod_cast hcast
  have heven := h.even (by rw [hm]; norm_num)
  have heven' := h'.even (by rw [hn]; norm_num)
  omega

theorem unique (h : IsNearestEven m v) (h' : IsNearestEven n v) : m = n :=
  Nat.le_antisymm (h.mono h' le_rfl) (h'.mono h le_rfl)

end IsNearestEven

theorem Describes.isNearestEven {em : ExtendedMantissa} {v : ℚ} (h : Describes em v) :
    IsNearestEven em.roundedMantissa v := by
  refine ⟨h.abs_roundedMantissa_sub_le, ?_⟩
  unfold ExtendedMantissa.roundedMantissa
  cases h with
  | exact m =>
      intro hmiddle
      norm_num [ExtendedMantissa.accuracy, Accuracy.roundToNearestEven] at hmiddle
  | below hlt hlt' =>
      intro hmiddle
      simp only [ExtendedMantissa.accuracy, Accuracy.roundToNearestEven] at hmiddle
      rw [abs_of_neg (by linarith)] at hmiddle
      linarith
  | middle m =>
      intro _
      simp only [ExtendedMantissa.accuracy, Accuracy.roundToNearestEven]
      omega
  | above hlt hlt' =>
      intro hmiddle
      simp only [ExtendedMantissa.accuracy, Accuracy.roundToNearestEven] at hmiddle
      push_cast at hmiddle
      rw [abs_of_pos (by linarith)] at hmiddle
      linarith

/-- A quotient rounded to the nearest whole number, a half to the even one. -/
def halfEven (num den : Nat) : Nat :=
  if 2 * (num % den) < den ∨ 2 * (num % den) = den ∧ num / den % 2 = 0 then num / den
  else num / den + 1

theorem roundedMantissa_quotient (num : Nat) {den : Nat} (hden : 0 < den) :
    (ExtendedMantissa.ofMantissaAndAccuracy (num / den)
      (accuracyOfFraction (num % den) den)).roundedMantissa = halfEven num den := by
  unfold halfEven accuracyOfFraction
  split
  · rename_i hzero
    rw [hzero, if_pos (.inl (by omega))]
    rfl
  · cases hcompare : compare (2 * (num % den)) den with
    | lt =>
        have hlt := Nat.compare_eq_lt.1 hcompare
        rw [if_pos (.inl hlt)]
        rfl
    | eq =>
        have heq := Nat.compare_eq_eq.1 hcompare
        change num / den + num / den % 2 = _
        split <;> omega
    | gt =>
        have hgt := Nat.compare_eq_gt.1 hcompare
        rw [if_neg (by omega)]
        rfl

theorem halfEven_isNearestEven (num : Nat) {den : Nat} (hden : 0 < den) :
    IsNearestEven (halfEven num den) (num / den) := by
  rw [← roundedMantissa_quotient num hden]
  exact (Describes.quotient num hden).isNearestEven

/-! ## Rounding -/

theorem targetExponent_eq (m : Nat) (e : Int) :
    Format.binary64.targetExponent (totalExponent m e) = max (m.log2 + e - 52) (-1074) := by
  have hbits : ((Format.binary64.mantissaBits : Nat) : Int) = 53 := rfl
  have hleast : Format.binary64.minExponent = -1074 := by decide
  rw [Format.targetExponent, totalExponent, hbits, hleast]
  congr 1
  omega

theorem log2_lt_of_lt {m : Nat} (hm : m < 2 * hiddenBit) : m.log2 < 53 := by
  by_cases hzero : m = 0
  · simp [hzero]
  · exact (Nat.log2_lt hzero).2 hm

/-- A mantissa that a double has room for stays. -/
theorem shiftToTargetExponent_of_lt {m : Nat} {e : Int} (hm : m < 2 * hiddenBit) (he : -1074 ≤ e) :
    shiftToTargetExponent Format.binary64 m e .exact = (⟨m, false, false⟩, e) := by
  have hlog := log2_lt_of_lt hm
  have hshift : (max ((m.log2 : Int) + e - 52) (-1074) - e).toNat = 0 := by omega
  rw [shiftToTargetExponent, targetExponent_eq, shiftToExponent, hshift]
  simp only [Nat.cast_zero, add_zero]
  rfl

/-- A mantissa with one more bit loses it. -/
theorem shiftToTargetExponent_overflow {e : Int} (he : -1074 ≤ e) :
    shiftToTargetExponent Format.binary64 (2 * hiddenBit) e .exact =
      (⟨hiddenBit, false, false⟩, e + 1) := by
  have hlog : (2 * hiddenBit).log2 = 53 := by decide +kernel
  have hshift : (max (((2 * hiddenBit).log2 : Nat) + e - 52) (-1074) - e).toNat = 1 := by
    rw [hlog]
    omega
  rw [shiftToTargetExponent, targetExponent_eq, shiftToExponent, hshift]
  rfl

namespace Binary

/-- Parts from a mantissa that has become one too large at most. -/
def carried (s : Sign) (m : Nat) (e : Int) : Binary :=
  if m < 2 * hiddenBit then ⟨s == .negative, m, e⟩ else ⟨s == .negative, hiddenBit, e + 1⟩

theorem sign_carried (s : Sign) (m : Nat) (e : Int) : (carried s m e).sign = s := by
  unfold carried
  split <;> cases s <;> rfl

theorem magnitude_carried {s : Sign} {m : Nat} {e : Int} (hm : m ≤ 2 * hiddenBit) :
    (carried s m e).magnitude = m * 2 ^ e := by
  unfold carried
  split
  · rfl
  · obtain rfl : m = 2 * hiddenBit := by omega
    rw [magnitude, zpow_add₀ (by norm_num)]
    push_cast
    ring

/-- Enough places make parts canonical. -/
theorem carried_isCanonical {s : Sign} {m : Nat} {e : Int} (he : -1074 ≤ e)
    (hm : hiddenBit ≤ m ∨ e = -1074) : (carried s m e).IsCanonical := by
  unfold carried
  split
  · rename_i hlt
    exact ⟨hlt, he, hm⟩
  · exact ⟨by dsimp only [hiddenBit]; omega, by dsimp only; omega, .inl le_rfl⟩

theorem exponent_carried_le (s : Sign) (m : Nat) (e : Int) : (carried s m e).exponent ≤ e + 1 := by
  unfold carried
  split <;> dsimp only <;> omega

theorem le_exponent_carried (s : Sign) (m : Nat) (e : Int) : e ≤ (carried s m e).exponent := by
  unfold carried
  split <;> dsimp only <;> omega

end Binary

/-- The places that a mantissa loses. -/
def excess (q : Nat) (t : Int) : Nat := (max ((q.log2 : Int) + t - 52) (-1074) - t).toNat

theorem div_excess_lt (q : Nat) (t : Int) : q / 2 ^ excess q t < 2 * hiddenBit := by
  rw [Nat.div_lt_iff_lt_mul (Nat.two_pow_pos _)]
  have hlog : q.log2 + 1 ≤ 53 + excess q t := by
    unfold excess
    omega
  calc q < 2 ^ (q.log2 + 1) := Nat.lt_log2_self
    _ ≤ 2 ^ (53 + excess q t) := Nat.pow_le_pow_right (by decide) hlog
    _ = 2 * hiddenBit * 2 ^ excess q t := by rw [Nat.pow_add]; rfl

/-- What is left of a mantissa, rounded. -/
def rounded (q : Nat) (t : Int) (acc : Accuracy) : Nat :=
  (ExtendedMantissa.ofMantissaAndAccuracy q acc >>> excess q t).roundedMantissa

theorem rounded_bounds (q : Nat) (t : Int) (acc : Accuracy) :
    q / 2 ^ excess q t ≤ rounded q t acc ∧ rounded q t acc ≤ q / 2 ^ excess q t + 1 := by
  have hmantissa := mantissa_shiftRight (.ofMantissaAndAccuracy q acc) (excess q t)
  rw [mantissa_ofMantissaAndAccuracy] at hmantissa
  exact hmantissa ▸ roundedMantissa_bounds _

theorem rounded_isNearestEven (q : Nat) (t : Int) :
    IsNearestEven (rounded q t .exact) (q / 2 ^ excess q t) :=
  ((Describes.whole q).shiftRight (excess q t)).isNearestEven

/-- The parts of the nearest double, but that the exponent may be too large for one. -/
def nearestParts (s : Sign) (q : Nat) (t : Int) (acc : Accuracy) : Binary :=
  .carried s (rounded q t acc) (t + excess q t)

theorem roundWithAccuracy_eq (s : Sign) (q : Nat) (t : Int) (acc : Accuracy) :
    roundWithAccuracy Format.binary64 s q t acc = (nearestParts s q t acc).unpacked := by
  have hfirst : shiftToTargetExponent Format.binary64 q t acc =
      (ExtendedMantissa.ofMantissaAndAccuracy q acc >>> excess q t, t + excess q t) := by
    rw [shiftToTargetExponent, targetExponent_eq]
    rfl
  have hle := (rounded_bounds q t acc).2
  have hlt := div_excess_lt q t
  have he : -1074 ≤ t + excess q t := by
    unfold excess
    omega
  have hsign (m : Nat) (e : Int) : Binary.sign ⟨s == .negative, m, e⟩ = s := by cases s <;> rfl
  have hrounded : (ExtendedMantissa.ofMantissaAndAccuracy q acc >>> excess q t).roundedMantissa =
      rounded q t acc := rfl
  simp only [roundWithAccuracy, hfirst, hrounded]
  -- the second shift is for a mantissa that rounding has made one bit longer
  rcases Nat.lt_or_ge (rounded q t acc) (2 * hiddenBit) with hr | hr
  · simp only [shiftToTargetExponent_of_lt hr he, nearestParts, Binary.carried, if_pos hr,
      Binary.unpacked, hsign]
  · obtain hr : rounded q t acc = 2 * hiddenBit := by omega
    simp only [hr, shiftToTargetExponent_overflow he, nearestParts, Binary.carried,
      if_neg (lt_irrefl _), Binary.unpacked, hsign]

theorem log2_mul_two_pow {m : Nat} (hm : 0 < m) (k : Nat) : (m * 2 ^ k).log2 = m.log2 + k := by
  induction k with
  | zero => rw [pow_zero, Nat.mul_one, Nat.add_zero]
  | succ k ih =>
      have hdouble : m * 2 ^ (k + 1) = 2 * (m * 2 ^ k) := by ring
      rw [hdouble, Nat.log2_two_mul (by positivity), ih, Nat.add_assoc]

/-- A mantissa that has room stays; zeros behind it are dropped. -/
theorem nearestParts_of_room (s : Sign) {m : Nat} {e : Int} (hm : hiddenBit ≤ m)
    (hroom : m < 2 * hiddenBit) (he : -1074 ≤ e) (k : Nat) :
    nearestParts s (m * 2 ^ k) (e - k) .exact = ⟨s == .negative, m, e⟩ := by
  have hpow : (2 : ℚ) ^ k ≠ 0 := pow_ne_zero _ (by norm_num)
  have hpos : 0 < m := lt_of_lt_of_le (by decide) hm
  have hlog : (m * 2 ^ k).log2 = 52 + k := by
    rw [log2_mul_two_pow hpos, (Nat.log2_eq_iff (k := 52) hpos.ne').2 ⟨hm, hroom⟩]
  have hexcess : excess (m * 2 ^ k) (e - k) = k := by
    unfold excess
    omega
  have hnearest := rounded_isNearestEven (m * 2 ^ k) (e - k)
  have hquotient : ((m * 2 ^ k : Nat) : ℚ) / 2 ^ k = m := by
    push_cast
    exact mul_div_cancel_right₀ _ hpow
  rw [hexcess, hquotient] at hnearest
  rw [nearestParts, hnearest.unique (.natCast m), hexcess, Int.sub_add_cancel, Binary.carried,
    if_pos hroom]

/-! ## Rounded numbers -/

/-- The parts are those of a number rounded to a double, but that the exponent may be too large. -/
structure Binary.IsRounded (b : Binary) (r : ℚ) : Prop where
  isCanonical : b.IsCanonical
  error : |b.magnitude - r| ≤ r / 2 ^ 53 + 2 ^ (-1075 : Int)
  /-- Rounding does not lead below a power of two. -/
  le_magnitude : ∀ k : Int, -1022 < k → 2 ^ k ≤ r → 2 ^ k ≤ b.magnitude

theorem Binary.IsRounded.zero (s : Sign) : (carried s 0 (-1074)).IsRounded 0 where
  isCanonical := carried_isCanonical le_rfl (.inr rfl)
  error := by
    rw [magnitude_carried (Nat.zero_le _)]
    norm_num
  le_magnitude k _ hle := absurd hle (not_le.2 (zpow_pos (by norm_num) k))

/-- Half of the least double is next to nothing. -/
theorem halfLeast_le {k : Nat} (hk : k ≤ 1075) : (2 : ℚ) ^ (-1075 : Int) ≤ 1 / 2 ^ k := by
  rw [one_div, ← zpow_natCast, ← zpow_neg]
  exact zpow_le_zpow_right₀ (by norm_num) (by omega)

/-- Parts with too large an exponent are large. -/
theorem Binary.IsCanonical.le_magnitude {b : Binary} (hb : b.IsCanonical) (he : 971 < b.exponent) :
    2 ^ (1024 : Int) ≤ b.magnitude := by
  have hleading := hb.leading.resolve_right (by omega)
  calc (2 : ℚ) ^ (1024 : Int) = hiddenBit * 2 ^ (972 : Int) := by
        rw [show (1024 : Int) = 52 + 972 from rfl, zpow_add₀ (by norm_num)]
        rfl
    _ ≤ b.magnitude := mul_le_mul (Nat.cast_le.2 hleading)
        (zpow_le_zpow_right₀ (by norm_num) (by omega)) (zpow_nonneg (by norm_num) _)
        (Nat.cast_nonneg _)

/-- A number that doubles reach is rounded to a double. -/
theorem Binary.IsRounded.exponent_le {b : Binary} {r : ℚ} (h : b.IsRounded r)
    (hr : r ≤ 2 ^ (1000 : Int)) : b.exponent ≤ 971 := by
  by_contra hlt
  have hlarge := h.isCanonical.le_magnitude (not_le.1 hlt)
  have herror := (abs_le.1 h.error).2
  have htiny : (2 : ℚ) ^ (-1075 : Int) ≤ 1 / 2 ^ 0 := halfLeast_le (by norm_num)
  have hone : (1 : ℚ) ≤ 2 ^ (1000 : Int) := one_le_zpow₀ (by norm_num) (by norm_num)
  have hsplit : (2 : ℚ) ^ (1024 : Int) = 2 ^ (1000 : Int) * 2 ^ 24 := by
    rw [show (1024 : Int) = 1000 + 24 from rfl, zpow_add₀ (by norm_num)]
    rfl
  rw [hsplit] at hlarge
  generalize (2 : ℚ) ^ (1000 : Int) = big at *
  linarith

section Nearest

variable {q : Nat} {t : Int} {acc : Accuracy} {v : ℚ}

/-- With enough places in the mantissa, or the least exponent, the last place that is left is fixed
by the leading one. -/
theorem add_excess (henough : hiddenBit ≤ q ∨ t ≤ -1074) :
    t + excess q t = -1074 ∧ (q.log2 : Int) + t - 52 ≤ -1074 ∨
      t + excess q t = q.log2 + t - 52 ∧ 52 ≤ q.log2 := by
  have hlog : hiddenBit ≤ q → 52 ≤ q.log2 := fun h =>
    (Nat.le_log2 (by rintro rfl; exact absurd h (by decide))).2 h
  unfold excess
  rcases henough with h | h
  · have := hlog h
    omega
  · omega

theorem nearestParts_isCanonical (s : Sign) (acc : Accuracy) (henough : hiddenBit ≤ q ∨ t ≤ -1074) :
    (nearestParts s q t acc).IsCanonical := by
  have hplaces := add_excess henough
  refine Binary.carried_isCanonical (by unfold excess; omega) ?_
  rcases hplaces with ⟨hleast, -⟩ | ⟨hexponent, hlog⟩
  · exact .inr hleast
  · have hexcess : excess q t = q.log2 - 52 := by omega
    refine .inl (le_trans ?_ (rounded_bounds q t acc).1)
    rw [hexcess, Nat.le_div_iff_mul_le (Nat.two_pow_pos _)]
    calc hiddenBit * 2 ^ (q.log2 - 52) = 2 ^ (52 + (q.log2 - 52)) := (Nat.pow_add 2 52 _).symm
      _ = 2 ^ q.log2 := by rw [Nat.add_sub_cancel' hlog]
      _ ≤ q := Nat.log2_self_le (by rintro rfl; simp at hlog)

theorem magnitude_nearestParts (s : Sign) (q : Nat) (t : Int) (acc : Accuracy) :
    (nearestParts s q t acc).magnitude = rounded q t acc * 2 ^ (t + excess q t) := by
  have hle := (rounded_bounds q t acc).2
  have hlt := div_excess_lt q t
  exact Binary.magnitude_carried (by omega)

/-- The error is half of the last place that is left at most. -/
theorem abs_magnitude_nearestParts_sub_le (s : Sign)
    (hv : Describes (.ofMantissaAndAccuracy q acc) v) :
    |(nearestParts s q t acc).magnitude - v * 2 ^ t| ≤ 2 ^ (t + excess q t) / 2 := by
  have hnearest : |(rounded q t acc : ℚ) - v / 2 ^ excess q t| ≤ 1 / 2 :=
    (hv.shiftRight (excess q t)).abs_roundedMantissa_sub_le
  have hplace : (0 : ℚ) < 2 ^ (t + excess q t) := zpow_pos (by norm_num) _
  have hsplit : (rounded q t acc : ℚ) * 2 ^ (t + excess q t) - v * 2 ^ t =
      (rounded q t acc - v / 2 ^ excess q t) * 2 ^ (t + excess q t) := by
    rw [zpow_add₀ (by norm_num), zpow_natCast]
    field_simp
  rw [magnitude_nearestParts, hsplit, abs_mul, abs_of_pos hplace]
  calc |(rounded q t acc : ℚ) - v / 2 ^ excess q t| * 2 ^ (t + excess q t)
      ≤ 1 / 2 * 2 ^ (t + excess q t) := by gcongr
    _ = 2 ^ (t + excess q t) / 2 := by ring

/-- Half of the last place is little: one part in `2 ^ 53`, or half of the least double. -/
theorem half_place_le (henough : hiddenBit ≤ q ∨ t ≤ -1074) (hv : (q : ℚ) ≤ v) :
    (2 : ℚ) ^ (t + excess q t) / 2 ≤ v * 2 ^ t / 2 ^ 53 + 2 ^ (-1075 : Int) := by
  have hpow : (0 : ℚ) ≤ 2 ^ t := zpow_nonneg (by norm_num) _
  have hnonneg : (0 : ℚ) ≤ v := le_trans (Nat.cast_nonneg q) hv
  rcases add_excess henough with ⟨hleast, -⟩ | ⟨hexponent, hlog⟩
  · have hhalf : (2 : ℚ) ^ (-1074 : Int) / 2 = 2 ^ (-1075 : Int) := by
      rw [show (-1075 : Int) = -1074 - 1 from rfl, zpow_sub_one₀ (by norm_num), div_eq_mul_inv]
    rw [hleast, hhalf]
    exact le_add_of_nonneg_left (div_nonneg (mul_nonneg hnonneg hpow) (by norm_num))
  · have hleading : (2 : ℚ) ^ q.log2 ≤ v :=
      le_trans (by exact_mod_cast Nat.log2_self_le (by rintro rfl; simp at hlog)) hv
    have htiny : (0 : ℚ) ≤ 2 ^ (-1075 : Int) := zpow_nonneg (by norm_num) _
    rw [hexponent]
    calc (2 : ℚ) ^ ((q.log2 : Int) + t - 52) / 2 = 2 ^ q.log2 * 2 ^ t / 2 ^ 53 := by
          rw [zpow_sub₀ (by norm_num), zpow_add₀ (by norm_num), zpow_natCast]
          norm_num
          ring
      _ ≤ v * 2 ^ t / 2 ^ 53 := by gcongr
      _ ≤ v * 2 ^ t / 2 ^ 53 + 2 ^ (-1075 : Int) := le_add_of_nonneg_right htiny

theorem le_magnitude_nearestParts (s : Sign) {k : Int} (henough : hiddenBit ≤ q ∨ t ≤ -1074)
    (hv : v < q + 1) (hk : -1022 < k) (hle : 2 ^ k ≤ v * 2 ^ t) :
    2 ^ k ≤ (nearestParts s q t acc).magnitude := by
  have hpow : (0 : ℚ) < 2 ^ t := zpow_pos (by norm_num) _
  have hq : (q : ℚ) + 1 ≤ 2 ^ (q.log2 + 1) := by exact_mod_cast Nat.lt_log2_self
  -- the number reaches `2 ^ k`, and so its leading place is not below that
  have hlog : k < q.log2 + 1 + t := by
    have hupper : (2 : ℚ) ^ k < 2 ^ ((q.log2 : Int) + 1 + t) := by
      rw [zpow_add₀ (by norm_num)]
      calc (2 : ℚ) ^ k ≤ v * 2 ^ t := hle
        _ < 2 ^ (q.log2 + 1) * 2 ^ t := by gcongr; linarith
        _ = _ := by norm_cast
    exact (zpow_lt_zpow_iff_right₀ (by norm_num)).1 hupper
  have hexponent : t + excess q t ≤ (nearestParts s q t acc).exponent :=
    Binary.le_exponent_carried _ _ _
  have hplaces := add_excess henough
  have hleading := (nearestParts_isCanonical s acc henough).leading.resolve_right (by omega)
  calc (2 : ℚ) ^ k = hiddenBit * 2 ^ (k - 52) := by
        rw [zpow_sub₀ (by norm_num)]
        norm_num [hiddenBit]
        ring
    _ ≤ (nearestParts s q t acc).mantissa * 2 ^ (nearestParts s q t acc).exponent :=
      mul_le_mul (Nat.cast_le.2 hleading) (zpow_le_zpow_right₀ (by norm_num) (by omega))
        (zpow_nonneg (by norm_num) _) (Nat.cast_nonneg _)

/-- Rounding makes the parts of a double of what is known of a number. -/
theorem roundWithAccuracy_isRounded (s : Sign) (hv : Describes (.ofMantissaAndAccuracy q acc) v)
    (henough : hiddenBit ≤ q ∨ t ≤ -1074) :
    ∃ b : Binary, roundWithAccuracy Format.binary64 s q t acc = b.unpacked ∧ b.sign = s ∧
      b.IsRounded (v * 2 ^ t) := by
  have hfloor := hv.floor
  rw [mantissa_ofMantissaAndAccuracy] at hfloor
  exact ⟨_, roundWithAccuracy_eq s q t acc, Binary.sign_carried _ _ _,
    nearestParts_isCanonical s acc henough,
    (abs_magnitude_nearestParts_sub_le s hv).trans (half_place_le henough hfloor.1),
    fun _ hk hle => le_magnitude_nearestParts s henough hfloor.2 hk hle⟩

end Nearest

/-! ## Quotients and products -/

section Operations

variable {a c : Binary}

/-- The dividend is moved up until the quotient has enough places, or the least exponent. -/
theorem exists_divCore (m₁ : Nat) (e₁ : Int) (m₂ : Nat) (e₂ : Int) :
    ∃ k : Nat, divCore Format.binary64 m₁ e₁ m₂ e₂ =
        (m₁ * 2 ^ k / m₂, e₁ - e₂ - k, accuracyOfFraction (m₁ * 2 ^ k % m₂) m₂) ∧
      (m₂.log2 + 53 ≤ m₁.log2 + k ∨ e₁ - e₂ - k ≤ -1074) := by
  have hbits : ((Format.binary64.mantissaBits : Nat) : Int) = 53 := rfl
  have hleast : Format.binary64.minExponent = -1074 := by decide
  have htarget : ∀ e : Int, Format.binary64.targetExponent e = max (e - 53) (-1074) := by
    intro e
    rw [Format.targetExponent, hbits, hleast]
  simp only [divCore, htarget, totalExponent, Nat.shiftLeft_eq]
  refine ⟨_, Prod.ext rfl (Prod.ext ?_ rfl), ?_⟩
  · dsimp only
    omega
  · omega

theorem hiddenBit_le_div {m₁ m₂ k : Nat} (h₁ : 0 < m₁) (h₂ : 0 < m₂)
    (hk : m₂.log2 + 53 ≤ m₁.log2 + k) : hiddenBit ≤ m₁ * 2 ^ k / m₂ := by
  rw [Nat.le_div_iff_mul_le h₂]
  calc hiddenBit * m₂ ≤ 2 ^ 52 * 2 ^ (m₂.log2 + 1) := Nat.mul_le_mul_left _ Nat.lt_log2_self.le
    _ = 2 ^ (m₂.log2 + 53) := by rw [← Nat.pow_add]; congr 1; omega
    _ ≤ 2 ^ (m₁.log2 + k) := Nat.pow_le_pow_right (by decide) hk
    _ = 2 ^ m₁.log2 * 2 ^ k := Nat.pow_add _ _ _
    _ ≤ m₁ * 2 ^ k := Nat.mul_le_mul_right _ (Nat.log2_self_le h₁.ne')

theorem div_isRounded (a : Binary) (hc : 0 < c.mantissa) :
    ∃ b : Binary, UnpackedFloat.div Format.binary64 a.unpacked c.unpacked = b.unpacked ∧
      b.IsRounded (a.magnitude / c.magnitude) := by
  rcases Nat.eq_zero_or_pos a.mantissa with ha | ha
  · refine ⟨.carried (a.sign / c.sign) 0 (-1074), ?_, ?_⟩
    · rw [Binary.unpacked_of_eq_zero ha, Binary.unpacked_of_pos hc, Binary.unpacked_of_eq_zero rfl,
        Binary.sign_carried]
      rfl
    · have hzero : a.magnitude / c.magnitude = 0 := by simp [Binary.magnitude, ha]
      rw [hzero]
      exact .zero _
  · obtain ⟨k, hcore, henough⟩ := exists_divCore a.mantissa a.exponent c.mantissa c.exponent
    obtain ⟨b, hround, -, hrounded⟩ := roundWithAccuracy_isRounded (a.sign / c.sign)
      (.quotient (a.mantissa * 2 ^ k) hc) (henough.imp_left (hiddenBit_le_div ha hc))
    have hquotient :
        ((a.mantissa * 2 ^ k : Nat) : ℚ) / c.mantissa * 2 ^ (a.exponent - c.exponent - k) =
          a.magnitude / c.magnitude := by
      rw [Binary.magnitude, Binary.magnitude, zpow_sub₀ (by norm_num), zpow_sub₀ (by norm_num),
        zpow_natCast]
      push_cast
      field_simp
    refine ⟨b, ?_, hquotient ▸ hrounded⟩
    rw [Binary.unpacked_of_pos ha, Binary.unpacked_of_pos hc, ← hround]
    simp only [UnpackedFloat.div, hcore]

theorem mul_eq_nearestParts {a c : Binary} (ha : 0 < a.mantissa) (hc : 0 < c.mantissa) :
    UnpackedFloat.mul Format.binary64 a.unpacked c.unpacked =
      (nearestParts (a.sign * c.sign) (a.mantissa * c.mantissa) (a.exponent + c.exponent)
        .exact).unpacked := by
  rw [Binary.unpacked_of_pos ha, Binary.unpacked_of_pos hc]
  exact roundWithAccuracy_eq _ _ _ _

end Operations

end Decimal
end Statechart
