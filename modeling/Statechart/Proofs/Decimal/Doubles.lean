import Mathlib
import Statechart.Decimal.Binary

/-!
# Doubles and their parts

The parts of a double are those that the operations on doubles work with, and doubles are made of
parts again: as long as the exponent has room in a double nothing is lost.

- `Binary.magnitude`, `Binary.value` : the number that parts stand for, without and with its sign
- `Binary.IsCanonical`      : the parts that doubles have
- `Binary.unpacked`         : parts as the operations on doubles see them
- `unpack_eq_unpacked`      : a double is taken apart into its parts
- `ofFloat_pack`            : and put together from them
- `ofFloat_pack_of_lt`      : beyond the greatest exponent there is infinity
- `ofFloat_neg`             : the opposite of a double
-/

namespace Statechart
namespace Decimal

open Float.Model Float.Model.UnpackedFloat

/-! ## Parts -/

namespace Binary

/-- What parts stand for, but for the sign. -/
def magnitude (b : Binary) : ℚ := b.mantissa * (2 : ℚ) ^ b.exponent

theorem magnitude_nonneg (b : Binary) : 0 ≤ b.magnitude :=
  mul_nonneg (Nat.cast_nonneg _) (zpow_nonneg (by norm_num) _)

theorem magnitude_pos_iff {b : Binary} : 0 < b.magnitude ↔ 0 < b.mantissa := by
  have hpow : (0 : ℚ) < 2 ^ b.exponent := zpow_pos (by norm_num) _
  rw [magnitude, mul_pos_iff_of_pos_right hpow, Nat.cast_pos]

/-- What parts stand for. -/
def value (b : Binary) : ℚ := if b.negative then -b.magnitude else b.magnitude

theorem abs_value (b : Binary) : |b.value| = b.magnitude := by
  unfold value
  split
  · rw [abs_neg, abs_of_nonneg b.magnitude_nonneg]
  · exact abs_of_nonneg b.magnitude_nonneg

/-- The parts that doubles have. Only the least exponent goes with small mantissas. -/
structure IsCanonical (b : Binary) : Prop where
  mantissa_lt : b.mantissa < 2 * hiddenBit
  le_exponent : -1074 ≤ b.exponent
  leading : hiddenBit ≤ b.mantissa ∨ b.exponent = -1074

theorem ofFloat_isCanonical (x : Float) : (ofFloat x).IsCanonical := by
  have hfraction : x.toBits.toNat % hiddenBit < hiddenBit := Nat.mod_lt _ (by decide)
  unfold ofFloat
  dsimp only
  split
  · exact ⟨by dsimp only; omega, le_rfl, .inr rfl⟩
  · exact ⟨by dsimp only; omega, by dsimp only; omega, .inl (Nat.le_add_left _ _)⟩

def sign (b : Binary) : Sign := if b.negative then .negative else .positive

theorem sign_eq_negative_iff {b : Binary} : b.sign = .negative ↔ b.negative = true := by
  unfold sign
  cases b.negative <;> simp

theorem value_of_positive {b : Binary} (h : b.sign = .positive) : b.value = b.magnitude := by
  have hnegative : b.negative = false := by
    rw [← Bool.not_eq_true, ← sign_eq_negative_iff, h]
    exact Sign.noConfusion
  rw [value, hnegative]
  rfl

theorem value_of_negative {b : Binary} (h : b.sign = .negative) : b.value = -b.magnitude := by
  rw [value, if_pos (sign_eq_negative_iff.1 h)]

theorem value_of_eq_zero {b : Binary} (h : b.mantissa = 0) : b.value = 0 := by
  rw [value, magnitude, h]
  simp

/-- Parts as the operations on doubles see them. -/
def unpacked (b : Binary) : UnpackedFloat :=
  if h : b.mantissa = 0 then .zero b.sign
  else .finite b.sign b.mantissa b.exponent (Nat.pos_of_ne_zero h)

theorem unpacked_of_eq_zero {b : Binary} (h : b.mantissa = 0) : b.unpacked = .zero b.sign :=
  dif_pos h

theorem unpacked_of_pos {b : Binary} (h : 0 < b.mantissa) :
    b.unpacked = .finite b.sign b.mantissa b.exponent h :=
  dif_neg h.ne'

theorem finite_eq_unpacked {b : Binary} {m : Nat} {e : Int} (hpos : 0 < m)
    (hm : b.mantissa = m) (he : b.exponent = e) : .finite b.sign m e hpos = b.unpacked := by
  subst hm he
  exact (unpacked_of_pos hpos).symm

/-- The same number with the other sign. -/
def opposite (b : Binary) : Binary := { b with negative := !b.negative }

theorem value_opposite (b : Binary) : b.opposite.value = -b.value := by
  unfold opposite value magnitude
  cases b.negative <;> simp

theorem sign_opposite (b : Binary) : b.opposite.sign = -b.sign := by
  unfold opposite sign
  cases b.negative <;> rfl

theorem unpacked_opposite (b : Binary) : b.opposite.unpacked = b.unpacked.neg := by
  rcases Nat.eq_zero_or_pos b.mantissa with hzero | hpos
  · have hzero' : b.opposite.mantissa = 0 := hzero
    rw [unpacked_of_eq_zero hzero, unpacked_of_eq_zero hzero', sign_opposite]
    rfl
  · have hpos' : 0 < b.opposite.mantissa := hpos
    rw [unpacked_of_pos hpos, unpacked_of_pos hpos', sign_opposite]
    rfl

theorem IsCanonical.opposite {b : Binary} (h : b.IsCanonical) : b.opposite.IsCanonical :=
  ⟨h.mantissa_lt, h.le_exponent, h.leading⟩

end Binary

/-! ## Fields of bits -/

section Fields

variable {bits : BitVec Format.binary64.numBits}

theorem toNat_unpackMantissa :
    (@unpackMantissa Format.binary64 bits).toNat = bits.toNat % hiddenBit := by
  simp [unpackMantissa, hiddenBit]

theorem toNat_unpackExponent :
    (@unpackExponent Format.binary64 bits).toNat = bits.toNat / hiddenBit % 2048 := by
  simp [unpackExponent, Nat.shiftRight_eq_div_pow, hiddenBit]

theorem toNat_unpackSign :
    (@unpackSign Format.binary64 bits).toNat = bits.toNat / signedLimit := by
  have hbits : bits.toNat < 2 ^ 64 := bits.isLt
  simp only [unpackSign, BitVec.toNat_cast, BitVec.extractLsb_toNat, Nat.shiftRight_eq_div_pow,
    signedLimit]
  norm_num
  omega

theorem toNat_packComponents (s : Sign) (e : BitVec Format.binary64.exponentBits)
    (m : BitVec Format.binary64.mantissaBitsWithoutImplicit) :
    (packComponents Format.binary64 s e m).toNat =
      s.toBitVec.toNat * signedLimit + e.toNat * hiddenBit + m.toNat := by
  have he : e.toNat < 2 ^ 11 := e.isLt
  have hm : m.toNat < 2 ^ 52 := m.isLt
  rw [packComponents, BitVec.toNat_append, BitVec.toNat_append,
    ← Nat.shiftLeft_add_eq_or_of_lt hm, ← Nat.shiftLeft_add_eq_or_of_lt he]
  simp only [Nat.shiftLeft_eq, signedLimit, hiddenBit]
  omega

end Fields

/-! ## Taking apart -/

theorem sign_ofFloat (x : Float) :
    (Binary.ofFloat x).sign = Sign.ofBitVec (@unpackSign Format.binary64 x.toBits.toBitVec) := by
  have hsign : (@unpackSign Format.binary64 x.toBits.toBitVec).toNat =
      x.toBits.toNat / signedLimit := toNat_unpackSign
  have hnegative : (Binary.ofFloat x).negative = decide (signedLimit ≤ x.toBits.toNat) := by
    unfold Binary.ofFloat
    dsimp only
    split <;> rfl
  have hzero : @unpackSign Format.binary64 x.toBits.toBitVec = 0#1 ↔
      ¬ signedLimit ≤ x.toBits.toNat := by
    rw [← BitVec.toNat_inj, hsign]
    simp [signedLimit]
  simp only [Binary.sign, hnegative, Sign.ofBitVec, hzero, decide_eq_true_eq]
  split <;> simp_all

/-- A finite double is taken apart into its parts. -/
theorem unpack_eq_unpacked {x : Float} (hfinite : x.isFinite = true) :
    x.toModel.unpack = (Binary.ofFloat x).unpacked := by
  have hfraction : (@unpackMantissa Format.binary64 x.toBits.toBitVec).toNat =
      x.toBits.toNat % hiddenBit := toNat_unpackMantissa
  have hbiased : (@unpackExponent Format.binary64 x.toBits.toBitVec).toNat =
      x.toBits.toNat / hiddenBit % 2048 := toNat_unpackExponent
  have hfin : (UnpackedFloat.unpack Format.binary64 x.toBits.toBitVec).isFinite = true := hfinite
  change UnpackedFloat.unpack Format.binary64 x.toBits.toBitVec = _
  simp only [UnpackedFloat.unpack, ← sign_ofFloat] at hfin ⊢
  split at hfin
  · split at hfin <;> cases hfin
  rename_i hlast
  rw [if_neg hlast]
  split
  · -- the least exponent: zero, or a number without the hidden bit
    rename_i hleast
    have hbiased : x.toBits.toNat / hiddenBit % 2048 = 0 := by rw [← hbiased, hleast]; rfl
    have hparts : Binary.ofFloat x = ⟨_, x.toBits.toNat % hiddenBit, -1074⟩ := if_pos hbiased
    split
    · rename_i hzero
      refine (Binary.unpacked_of_eq_zero ?_).symm
      rw [hparts]
      rw [← hfraction, hzero]
      rfl
    · refine Binary.finite_eq_unpacked _ ?_ ?_
      · rw [hparts, hfraction]
      · rw [hparts, hleast]
        rfl
  · -- any other exponent: the hidden bit is in front of the fraction
    rename_i hleast
    have hpos : x.toBits.toNat / hiddenBit % 2048 ≠ 0 := by
      rw [← hbiased]
      intro h
      exact hleast (BitVec.eq_of_toNat_eq h)
    have hparts : Binary.ofFloat x =
        ⟨_, x.toBits.toNat % hiddenBit + hiddenBit,
          (x.toBits.toNat / hiddenBit % 2048 : Nat) - 1075⟩ := if_neg hpos
    refine Binary.finite_eq_unpacked _ ?_ ?_
    · rw [hparts, BitVec.toNat_append, ← Nat.shiftLeft_add_eq_or_of_lt (BitVec.isLt _), hfraction]
      exact Nat.add_comm _ _
    · rw [hparts, hbiased]
      rfl

/-- All exponents but the greatest are those of finite doubles. -/
theorem isFinite_iff (x : Float) : x.isFinite = true ↔ (Binary.ofFloat x).exponent ≤ 971 := by
  have hbiased : (@unpackExponent Format.binary64 x.toBits.toBitVec).toNat =
      x.toBits.toNat / hiddenBit % 2048 := toNat_unpackExponent
  have hlt : x.toBits.toNat / hiddenBit % 2048 < 2048 := Nat.mod_lt _ (by decide)
  have hexponent : (Binary.ofFloat x).exponent ≤ 971 ↔
      x.toBits.toNat / hiddenBit % 2048 ≠ 2047 := by
    unfold Binary.ofFloat
    dsimp only
    split <;> dsimp only <;> omega
  rw [hexponent, ← hbiased]
  change (UnpackedFloat.unpack Format.binary64 x.toBits.toBitVec).isFinite = true ↔ _
  simp only [UnpackedFloat.unpack]
  split
  · rename_i hlast
    rw [hlast]
    split <;> simp [UnpackedFloat.isFinite]
  · rename_i hlast
    refine iff_of_true ?_ fun heq => hlast (BitVec.eq_of_toNat_eq heq)
    split
    · split <;> rfl
    · rfl

/-! ## Putting together -/

/-- The parts of a double whose bits are given by their three fields. -/
theorem ofFloat_of_fields {b : Binary} {biased fraction : Nat} {x : Float}
    (hbiased : biased < 2048) (hfraction : fraction < hiddenBit)
    (hx : x.toBits.toNat =
      b.sign.toBitVec.toNat * signedLimit + biased * hiddenBit + fraction) :
    Binary.ofFloat x =
      if biased = 0 then ⟨b.negative, fraction, -1074⟩
      else ⟨b.negative, fraction + hiddenBit, (biased : Int) - 1075⟩ := by
  obtain ⟨bit, hbit, hnegative⟩ : ∃ bit, b.sign.toBitVec.toNat = bit ∧
      (bit = 0 ∧ b.negative = false ∨ bit = 1 ∧ b.negative = true) := by
    refine ⟨_, rfl, ?_⟩
    unfold Binary.sign
    cases b.negative
    · exact .inl ⟨rfl, rfl⟩
    · exact .inr ⟨rfl, rfl⟩
  rw [hbit] at hx
  have hlow : x.toBits.toNat % hiddenBit = fraction := by
    simp only [hiddenBit, signedLimit] at *
    omega
  have hmiddle : x.toBits.toNat / hiddenBit % 2048 = biased := by
    simp only [hiddenBit, signedLimit] at *
    omega
  have hhigh : decide (signedLimit ≤ x.toBits.toNat) = b.negative := by
    rcases hnegative with ⟨rfl, h⟩ | ⟨rfl, h⟩
    · rw [h, decide_eq_false_iff_not]
      simp only [hiddenBit, signedLimit] at *
      omega
    · rw [h, decide_eq_true_eq, hx]
      omega
  simp only [Binary.ofFloat, hlow, hmiddle, hhigh]

theorem toBits_pack (u : UnpackedFloat) :
    (Float.ofModel (.pack u)).toBits.toNat = (UnpackedFloat.pack Format.binary64 u).toNat := rfl

theorem log2_eq {m : Nat} (hm : m < 2 * hiddenBit) : m.log2 + 1 = 53 ↔ hiddenBit ≤ m := by
  by_cases hzero : m = 0
  · simp [hzero, hiddenBit]
  · have hlt : m.log2 < 53 := (Nat.log2_lt hzero).2 hm
    have hle : 52 ≤ m.log2 ↔ hiddenBit ≤ m := Nat.le_log2 hzero
    omega

/-- The bits of a finite number that has room in a double. -/
theorem toNat_pack_finite {s : Sign} {m : Nat} {e : Int} (hpos : 0 < m) (hroom : e ≤ 971) :
    (UnpackedFloat.pack Format.binary64 (.finite s m e hpos)).toNat =
      s.toBitVec.toNat * signedLimit +
        (if m.log2 + 1 = 53 then (e + 1075).toNat else 0) * hiddenBit + m % hiddenBit := by
  have hbias : (e + Format.binary64.exponentBias + (52 : Nat)).toNat = (e + 1075).toNat := by
    congr 1
    exact Int.add_assoc e 1023 52
  have hlimit : ¬ 2 ^ 11 ≤ (e + 1075).toNat + 1 := by omega
  have hbits : Format.binary64.mantissaBits = 53 := rfl
  simp only [UnpackedFloat.pack, hbias, if_neg hlimit, hbits]
  split
  · rw [toNat_packComponents, BitVec.toNat_ofNat, BitVec.toNat_ofNat,
      Nat.mod_eq_of_lt (show (e + 1075).toNat < 2 ^ 11 by omega)]
    rfl
  · rw [toNat_packComponents, BitVec.toNat_ofNat]
    rfl

/-- Parts with room in a double make one, and nothing is lost. -/
theorem ofFloat_pack {b : Binary} (hb : b.IsCanonical) (hroom : b.exponent ≤ 971) :
    Binary.ofFloat (.ofModel (.pack b.unpacked)) = b := by
  have hmantissa := hb.mantissa_lt
  have hexponent := hb.le_exponent
  rcases Nat.eq_zero_or_pos b.mantissa with hzero | hpos
  · have hleast : b.exponent = -1074 := hb.leading.resolve_left (by simp [hzero, hiddenBit])
    have hx : (Float.ofModel (.pack b.unpacked)).toBits.toNat =
        b.sign.toBitVec.toNat * signedLimit + 0 * hiddenBit + 0 := by
      rw [Binary.unpacked_of_eq_zero hzero]
      exact toNat_packComponents _ _ _
    rw [ofFloat_of_fields (by decide) (by decide) hx, if_pos rfl, ← hleast, ← hzero]
  · have hx := toNat_pack_finite (s := b.sign) hpos hroom
    simp only [← Binary.unpacked_of_pos hpos, ← toBits_pack, log2_eq hmantissa] at hx
    by_cases hnormal : hiddenBit ≤ b.mantissa
    · rw [if_pos hnormal] at hx
      have hfraction : b.mantissa % hiddenBit + hiddenBit = b.mantissa := by
        simp only [hiddenBit] at *
        omega
      rw [ofFloat_of_fields (by omega) (Nat.mod_lt _ (by decide)) hx, if_neg (by omega),
        hfraction, Int.toNat_of_nonneg (by omega), Int.add_sub_cancel]
    · have hleast : b.exponent = -1074 := hb.leading.resolve_left hnormal
      rw [if_neg hnormal, Nat.mod_eq_of_lt (not_le.1 hnormal)] at hx
      rw [ofFloat_of_fields (by decide) (not_le.1 hnormal) hx, if_pos rfl, ← hleast]

/-- Beyond the greatest exponent of a double there is infinity. -/
theorem ofFloat_pack_of_lt {b : Binary} (hpos : 0 < b.mantissa) (hroom : 971 < b.exponent) :
    Binary.ofFloat (.ofModel (.pack b.unpacked)) = ⟨b.negative, hiddenBit, 972⟩ := by
  have hbias : (b.exponent + Format.binary64.exponentBias + (52 : Nat)).toNat =
      (b.exponent + 1075).toNat := by
    congr 1
    exact Int.add_assoc b.exponent 1023 52
  have hlimit : 2 ^ 11 ≤ (b.exponent + 1075).toNat + 1 := by omega
  have hx : (Float.ofModel (.pack b.unpacked)).toBits.toNat =
      b.sign.toBitVec.toNat * signedLimit + 2047 * hiddenBit + 0 := by
    rw [Binary.unpacked_of_pos hpos, toBits_pack]
    simp only [UnpackedFloat.pack, hbias, if_pos hlimit]
    exact toNat_packComponents _ _ _
  exact ofFloat_of_fields (by decide) (by decide) hx

/-! ## Opposites -/

/-- The double with the other sign. -/
theorem ofFloat_neg {x : Float} (hfinite : x.isFinite = true) :
    Binary.ofFloat x.neg = (Binary.ofFloat x).opposite := by
  have hx : x.neg = .ofModel (.pack (Binary.ofFloat x).opposite.unpacked) := by
    rw [Binary.unpacked_opposite, ← unpack_eq_unpacked hfinite]
    rfl
  rw [hx, ofFloat_pack (Binary.ofFloat_isCanonical x).opposite ((isFinite_iff x).1 hfinite)]

end Decimal
end Statechart
