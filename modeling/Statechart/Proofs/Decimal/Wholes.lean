import Statechart.Proofs.Decimal.Rounding

/-!
# Whole numbers as doubles

A double has 53 places for a whole number. One with more places is rounded to the nearest multiple
of its last place, a half to the even one. What the double of a whole number stands for is thus a
function of whole numbers.

- `asDouble`      : the whole number that a double stands for in place of another
- `ofInt_eq`      : the double of a whole number
- `asDouble_mono`, `asDouble_close` : the order and the error
-/

namespace Statechart
namespace Decimal

open Float.Model Float.Model.UnpackedFloat

/-! ## Whole numbers with the places of a double -/

/-- The last place that a double has for a whole number of this size. -/
def lastPlace (n : Nat) : Nat := 2 ^ (n.log2 - 52)

theorem lastPlace_pos (n : Nat) : 0 < lastPlace n := Nat.two_pow_pos _

/-- The nearest multiple of the last place, a half to the even one. -/
def roundedNat (n : Nat) : Nat := halfEven n (lastPlace n) * lastPlace n

/-- What the double nearest to a whole number stands for. -/
def asDouble : Int → Int
  | .ofNat n => roundedNat n
  | .negSucc n => -roundedNat (n + 1)

theorem lastPlace_of_lt {n : Nat} (hn : n < 2 ^ 53) : lastPlace n = 1 := by
  have hlog := log2_lt_of_lt (m := n) hn
  rw [lastPlace, Nat.sub_eq_zero_of_le (by omega), pow_zero]

theorem roundedNat_of_lt {n : Nat} (hn : n < 2 ^ 53) : roundedNat n = n := by
  have hnearest := halfEven_isNearestEven n Nat.one_pos
  rw [Nat.cast_one, div_one] at hnearest
  rw [roundedNat, lastPlace_of_lt hn, Nat.mul_one]
  exact hnearest.unique (.natCast n)

/-! ## The doubles -/

/-- The double of one, by which a whole number is multiplied that a double can hold. -/
def one : Float := Float.ofBits 0x3FF0000000000000

theorem ofFloat_one : Binary.ofFloat one = ⟨false, hiddenBit, -52⟩ := by decide +kernel

theorem isFinite_one : one.isFinite = true := by decide +kernel

theorem toFloat_eq_round {n : Nat} (hpos : 0 < n) (hn : n < 2 ^ 64) :
    n.toUInt64.toFloat = .ofModel (.pack (UnpackedFloat.round Format.binary64 .positive n 0)) := by
  have hword : n.toUInt64.toNat = n := by simpa using Nat.mod_eq_of_lt hn
  have hcompare : compare (n : Int) 0 = .gt := compare_gt_iff_gt.2 (by omega)
  have hnormal : UnpackedFloat.ofNat Format.binary64 n.toUInt64.toNat =
      UnpackedFloat.round Format.binary64 .positive n 0 := by
    rw [hword, UnpackedFloat.ofNat, UnpackedFloat.ofInt, UnpackedFloat.normalize, hcompare]
    rfl
  rw [← hnormal]
  rfl

section Naturals

variable {n : Nat}

/-- The parts of a whole number below `2 ^ 53`. -/
def wholeParts (n : Nat) : Binary := ⟨false, n * 2 ^ (52 - n.log2), -(52 - n.log2 : Nat)⟩

theorem wholeParts_bounds (hpos : 0 < n) (hn : n < 2 ^ 53) :
    hiddenBit ≤ (wholeParts n).mantissa ∧ (wholeParts n).mantissa < 2 * hiddenBit := by
  have hlog := log2_lt_of_lt (m := n) hn
  have hshift : n.log2 + (52 - n.log2) = 52 := by omega
  constructor
  · calc hiddenBit = 2 ^ n.log2 * 2 ^ (52 - n.log2) := by rw [← pow_add, hshift]; rfl
      _ ≤ n * 2 ^ (52 - n.log2) := Nat.mul_le_mul_right _ (Nat.log2_self_le hpos.ne')
  · calc n * 2 ^ (52 - n.log2) < 2 ^ (n.log2 + 1) * 2 ^ (52 - n.log2) :=
          Nat.mul_lt_mul_of_pos_right Nat.lt_log2_self (Nat.two_pow_pos _)
      _ = 2 * hiddenBit := by rw [← pow_add, Nat.add_right_comm, hshift]; rfl

theorem magnitude_wholeParts (n : Nat) : (wholeParts n).magnitude = n := by
  rw [Binary.magnitude, wholeParts, zpow_neg, zpow_natCast]
  push_cast
  field_simp

theorem isCanonical_wholeParts (hpos : 0 < n) (hn : n < 2 ^ 53) : (wholeParts n).IsCanonical where
  mantissa_lt := (wholeParts_bounds hpos hn).2
  le_exponent := by
    dsimp only [wholeParts]
    omega
  leading := .inl (wholeParts_bounds hpos hn).1

theorem round_of_lt (hpos : 0 < n) (hn : n < 2 ^ 53) :
    UnpackedFloat.round Format.binary64 .positive n 0 = (wholeParts n).unpacked := by
  have hlog := log2_lt_of_lt (m := n) hn
  have hshift : ((0 : Int) - max ((n.log2 : Int) + 0 - 52) (-1074)).toNat = 52 - n.log2 := by omega
  obtain ⟨hleading, hroom⟩ := wholeParts_bounds hpos hn
  have hparts := nearestParts_of_room .positive hleading hroom
    (isCanonical_wholeParts hpos hn).le_exponent 0
  rw [pow_zero, Nat.mul_one, Nat.cast_zero, Int.sub_zero] at hparts
  simp only [UnpackedFloat.round, decreaseExponent, targetExponent_eq, Nat.shiftLeft_eq, hshift]
  rw [roundWithAccuracy_eq, zero_sub]
  exact congrArg Binary.unpacked hparts

/-- Below `2 ^ 53`: made a mantissa, and multiplied by one. -/
theorem ofNat_of_lt (hpos : 0 < n) (hn : n < 2 ^ 53) :
    Float.ofNat n = .ofModel (.pack (wholeParts n).unpacked) := by
  have hfast : n < 2 ^ 53 ∧ 0 ≤ 22 := ⟨hn, by omega⟩
  have hproduct : Float.ofNat n = n.toUInt64.toFloat * one := dif_pos hfast
  have hcanonical := isCanonical_wholeParts hpos hn
  obtain ⟨hleading, hroom⟩ := wholeParts_bounds hpos hn
  have hx : n.toUInt64.toFloat = .ofModel (.pack (wholeParts n).unpacked) := by
    rw [toFloat_eq_round hpos (by omega), round_of_lt hpos hn]
  have hparts : Binary.ofFloat n.toUInt64.toFloat = wholeParts n := by
    rw [hx, ofFloat_pack hcanonical (by dsimp only [wholeParts]; omega)]
  have hfinite : n.toUInt64.toFloat.isFinite = true := by
    rw [isFinite_iff, hparts]
    dsimp only [wholeParts]
    omega
  -- the zeros that one brings behind the mantissa are dropped again
  have hmul := @mul_eq_nearestParts (wholeParts n) (Binary.ofFloat one)
    (lt_of_lt_of_le (by decide) hleading) (by rw [ofFloat_one]; decide)
  have hkept : nearestParts .positive ((wholeParts n).mantissa * hiddenBit)
      ((wholeParts n).exponent + -52) .exact = wholeParts n :=
    nearestParts_of_room .positive hleading hroom hcanonical.le_exponent 52
  rw [← hparts, ← unpack_eq_unpacked hfinite, ← unpack_eq_unpacked isFinite_one, hparts,
    ofFloat_one] at hmul
  rw [hproduct, ← hkept]
  exact congrArg (fun u => Float.ofModel (.pack u)) hmul

/-- From `2 ^ 53` on: rounded once, with more places than there are. -/
theorem ofNat_of_le (hn : 2 ^ 53 ≤ n) :
    Float.ofNat n =
      .ofModel (.pack (nearestParts .positive (n * 2 ^ 53) (-53) .exact).unpacked) := by
  have hslow : Float.ofNat n = .ofModel (.ofScientific n 0) :=
    dif_neg fun h => absurd h.1 (not_lt.2 hn)
  have hpos : 0 < n := by omega
  have hsafe : ¬ (0 : Int) < -((2 : Int) ^ 11 + n.log2) := by omega
  have hmul := @mul_eq_nearestParts ⟨false, n * 2 ^ 53, -53⟩ ⟨false, 1, 0⟩ (by positivity)
    (by decide)
  rw [Binary.unpacked_of_pos (by positivity), Binary.unpacked_of_pos (by decide)] at hmul
  simp only [Nat.mul_one, Int.add_zero] at hmul
  rw [hslow, Float.Model.ofScientific, UnpackedFloat.ofScientific, dif_neg hpos.ne',
    if_neg (by norm_num), if_neg hsafe, if_pos le_rfl]
  simp only [Nat.shiftLeft_eq]
  exact congrArg (fun u => Float.ofModel (.pack u)) hmul

theorem excess_whole (hn : 2 ^ 53 ≤ n) : excess (n * 2 ^ 53) (-53) = 53 + (n.log2 - 52) := by
  have hpos : 0 < n := by omega
  have hlog : 53 ≤ n.log2 := (Nat.le_log2 hpos.ne').2 hn
  unfold excess
  rw [log2_mul_two_pow hpos]
  omega

/-- Rounding to the places of a double is rounding a quotient. -/
theorem magnitude_nearestParts_whole (hn : 2 ^ 53 ≤ n) :
    (nearestParts .positive (n * 2 ^ 53) (-53) .exact).magnitude = roundedNat n := by
  have hnearest := rounded_isNearestEven (n * 2 ^ 53) (-53)
  have hquotient : ((n * 2 ^ 53 : Nat) : ℚ) / 2 ^ (53 + (n.log2 - 52)) = n / lastPlace n := by
    rw [lastPlace, pow_add]
    push_cast
    field_simp
    norm_num
  rw [excess_whole hn, hquotient] at hnearest
  have hplace : (-53 : Int) + (53 + (n.log2 - 52) : Nat) = (n.log2 - 52 : Nat) := by omega
  rw [magnitude_nearestParts, excess_whole hn, hplace, zpow_natCast,
    hnearest.unique (halfEven_isNearestEven n (lastPlace_pos n)), roundedNat, Nat.cast_mul]
  exact congrArg _ (Nat.cast_pow 2 _).symm

/-- The parts of the double of a natural number. -/
theorem exists_ofNat (hpos : 0 < n) (hn : n ≤ 2 ^ 64) :
    ∃ b : Binary, Float.ofNat n = .ofModel (.pack b.unpacked) ∧ b.IsCanonical ∧
      b.exponent ≤ 971 ∧ b.value = roundedNat n := by
  rcases Nat.lt_or_ge n (2 ^ 53) with hsmall | hlarge
  · refine ⟨_, ofNat_of_lt hpos hsmall, isCanonical_wholeParts hpos hsmall, ?_, ?_⟩
    · dsimp only [wholeParts]
      omega
    · rw [Binary.value_of_positive rfl, magnitude_wholeParts, roundedNat_of_lt hsmall]
  · have henough : hiddenBit ≤ n * 2 ^ 53 := by
      dsimp only [hiddenBit]
      omega
    have hlog : n.log2 < 65 := (Nat.log2_lt hpos.ne').2 (by omega)
    refine ⟨_, ofNat_of_le hlarge, nearestParts_isCanonical _ _ (.inl henough), ?_, ?_⟩
    · refine (Binary.exponent_carried_le _ _ _).trans ?_
      rw [excess_whole hlarge]
      omega
    · have hsign : (nearestParts .positive (n * 2 ^ 53) (-53) .exact).sign = .positive :=
        Binary.sign_carried _ _ _
      rw [Binary.value_of_positive hsign, magnitude_nearestParts_whole hlarge]

/-- What the double of a natural number stands for. -/
theorem ofNat_eq (hn : n ≤ 2 ^ 64) :
    (Float.ofNat n).isFinite = true ∧ (Binary.ofFloat (Float.ofNat n)).value = roundedNat n := by
  rcases Nat.eq_zero_or_pos n with rfl | hpos
  · have hzero : Binary.ofFloat (Float.ofNat 0) = ⟨false, 0, -1074⟩ := by decide +kernel
    refine ⟨by decide +kernel, ?_⟩
    rw [hzero, roundedNat_of_lt (by norm_num)]
    norm_num [Binary.value, Binary.magnitude]
  · obtain ⟨b, hx, hb, hroom, hvalue⟩ := exists_ofNat hpos hn
    have hparts : Binary.ofFloat (Float.ofNat n) = b := by rw [hx, ofFloat_pack hb hroom]
    rw [isFinite_iff, hparts]
    exact ⟨hroom, hvalue⟩

end Naturals

/-- What the double of a whole number stands for. -/
theorem ofInt_eq {n : Int} (hn : IsWhole n) :
    (Float.ofInt n).isFinite = true ∧ (Binary.ofFloat (Float.ofInt n)).value = asDouble n := by
  obtain ⟨hlower, hupper⟩ := hn
  cases n with
  | ofNat k =>
      have hk : k ≤ 2 ^ 64 := by
        rw [Int.ofNat_eq_natCast] at hupper
        omega
      exact ofNat_eq hk
  | negSucc k =>
      obtain ⟨hfinite, hvalue⟩ := ofNat_eq (show k + 1 ≤ 2 ^ 64 by omega)
      have hparts : Binary.ofFloat (Float.ofInt (.negSucc k)) =
          (Binary.ofFloat (Float.ofNat (k + 1))).opposite := ofFloat_neg hfinite
      rw [isFinite_iff, hparts, Binary.value_opposite, hvalue, asDouble, Int.cast_neg,
        Int.cast_natCast]
      exact ⟨(isFinite_iff _).1 hfinite, rfl⟩

/-! ## The order of whole numbers -/

theorem roundedNat_le {n bound : Nat} (hdvd : lastPlace n ∣ bound) (hle : n ≤ bound) :
    roundedNat n ≤ bound := by
  obtain ⟨k, rfl⟩ := hdvd
  have hplace : (0 : ℚ) < lastPlace n := Nat.cast_pos.2 (lastPlace_pos n)
  have hquotient : (n : ℚ) / lastPlace n ≤ k := by
    rw [div_le_iff₀ hplace, mul_comm]
    exact_mod_cast hle
  rw [roundedNat, Nat.mul_comm]
  exact Nat.mul_le_mul_left _
    ((halfEven_isNearestEven n (lastPlace_pos n)).mono (.natCast k) hquotient)

theorem le_roundedNat {n bound : Nat} (hdvd : lastPlace n ∣ bound) (hle : bound ≤ n) :
    bound ≤ roundedNat n := by
  obtain ⟨k, rfl⟩ := hdvd
  have hplace : (0 : ℚ) < lastPlace n := Nat.cast_pos.2 (lastPlace_pos n)
  have hquotient : (k : ℚ) ≤ n / lastPlace n := by
    rw [le_div_iff₀ hplace, mul_comm]
    exact_mod_cast hle
  rw [roundedNat, Nat.mul_comm]
  exact Nat.mul_le_mul_right _
    (IsNearestEven.mono (.natCast k) (halfEven_isNearestEven n (lastPlace_pos n)) hquotient)

theorem roundedNat_mono {m n : Nat} (h : m ≤ n) : roundedNat m ≤ roundedNat n := by
  rcases Nat.eq_zero_or_pos m with rfl | hpos
  · rw [roundedNat_of_lt (by norm_num)]
    exact Nat.zero_le _
  have hlog : m.log2 ≤ n.log2 := by
    rw [Nat.le_log2 (by omega)]
    exact (Nat.log2_self_le hpos.ne').trans h
  rcases hlog.eq_or_lt with heq | hlt
  · -- the same last place
    have hplace : lastPlace m = lastPlace n := by rw [lastPlace, lastPlace, heq]
    have hle : (m : ℚ) / lastPlace n ≤ n / lastPlace n := by gcongr
    rw [roundedNat, roundedNat, hplace]
    exact Nat.mul_le_mul_right _ ((halfEven_isNearestEven m (lastPlace_pos n)).mono
      (halfEven_isNearestEven n (lastPlace_pos n)) hle)
  · -- a power of two lies between them
    have hbelow : roundedNat m ≤ 2 ^ n.log2 :=
      roundedNat_le (Nat.pow_dvd_pow 2 (by omega))
        (Nat.lt_log2_self.le.trans (Nat.pow_le_pow_right (by decide) hlt))
    have habove : 2 ^ n.log2 ≤ roundedNat n :=
      le_roundedNat (Nat.pow_dvd_pow 2 (by omega)) (Nat.log2_self_le (by omega))
    exact hbelow.trans habove

theorem asDouble_mono {m n : Int} (h : m ≤ n) : asDouble m ≤ asDouble n := by
  cases m with
  | ofNat m =>
      cases n with
      | ofNat n =>
          have hle := roundedNat_mono (Int.ofNat_le.1 h)
          rw [asDouble, asDouble]
          omega
      | negSucc n => exact absurd h (by rw [Int.ofNat_eq_natCast]; omega)
  | negSucc m =>
      cases n with
      | ofNat n =>
          rw [asDouble, asDouble]
          omega
      | negSucc n =>
          have hle := roundedNat_mono (show n + 1 ≤ m + 1 by omega)
          rw [asDouble, asDouble]
          omega

/-! ## The error -/

/-- The error is half of the last place at most. -/
theorem abs_roundedNat_sub_le (n : Nat) : |(roundedNat n : ℚ) - n| ≤ lastPlace n / 2 := by
  have hplace : (0 : ℚ) < lastPlace n := Nat.cast_pos.2 (lastPlace_pos n)
  have herror := (halfEven_isNearestEven n (lastPlace_pos n)).error
  have hsplit : (roundedNat n : ℚ) - n =
      (halfEven n (lastPlace n) - n / lastPlace n) * lastPlace n := by
    rw [roundedNat, Nat.cast_mul]
    field_simp
  rw [hsplit, abs_mul, abs_of_pos hplace]
  linarith [mul_le_mul_of_nonneg_right herror hplace.le]

/-- It is small beside the number. -/
theorem roundedNat_close (n : Nat) : |(roundedNat n : ℚ) - n| ≤ n / 2 ^ 53 := by
  rcases Nat.lt_or_ge n (2 ^ 53) with hsmall | hlarge
  · rw [roundedNat_of_lt hsmall, sub_self, abs_zero]
    positivity
  · have hpos : 0 < n := by omega
    have hlog : 53 ≤ n.log2 := (Nat.le_log2 hpos.ne').2 hlarge
    have hplace : lastPlace n * 2 ^ 52 ≤ n := by
      rw [lastPlace, ← pow_add, Nat.sub_add_cancel (by omega)]
      exact Nat.log2_self_le hpos.ne'
    have hplace' : (lastPlace n : ℚ) * 2 ^ 52 ≤ n := by exact_mod_cast hplace
    linarith [abs_roundedNat_sub_le n]

theorem abs_asDouble_sub (n : Int) :
    |(asDouble n : ℚ) - n| = |(roundedNat n.natAbs : ℚ) - n.natAbs| := by
  cases n with
  | ofNat n => rfl
  | negSucc n =>
      rw [asDouble, Int.natAbs_negSucc, Int.cast_negSucc, Int.cast_neg, Int.cast_natCast,
        neg_sub_neg, abs_sub_comm]

/-- A double is off by 1024 at most for the whole numbers that values can hold. -/
theorem asDouble_close {n : Int} (hn : IsWhole n) : |asDouble n - n| ≤ 1024 := by
  obtain ⟨hlower, hupper⟩ := hn
  have hplace : lastPlace n.natAbs ≤ 2048 := by
    have hlog : n.natAbs.log2 < 64 := by
      rcases Nat.eq_zero_or_pos n.natAbs with hzero | hpos
      · rw [hzero]
        decide
      · exact (Nat.log2_lt hpos.ne').2 (by omega)
    calc lastPlace n.natAbs ≤ 2 ^ 11 := Nat.pow_le_pow_right (by decide) (by omega)
      _ = 2048 := by norm_num
  have hplace' : (lastPlace n.natAbs : ℚ) ≤ 2048 := by exact_mod_cast hplace
  have herror : |(asDouble n : ℚ) - n| ≤ 1024 := by
    rw [abs_asDouble_sub]
    linarith [abs_roundedNat_sub_le n.natAbs]
  exact_mod_cast herror

end Decimal
end Statechart
