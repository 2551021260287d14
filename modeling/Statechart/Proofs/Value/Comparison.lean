import Statechart.Proofs.Decimal.Numbers
import Statechart.Proofs.Decimal.Order

/-!
# The order of numbers

Two signed whole numbers are in their own order, and any other two numbers in the order of their
doubles. That is the order of the whole numbers too, except that different whole numbers may share
a double.

- `SharesDouble`              : different whole numbers with the same double
- `SharesDouble.close`        : they are near each other
- `Number.compare?_eq`        : numbers one of which is not a signed whole number
- `Number.compare?_whole`     : whole numbers that are told apart
- `Number.compare?_eq_eq_iff` : the numbers that are taken for equal
-/

namespace Statechart

open Decimal

/-- Different whole numbers with the same double. -/
structure SharesDouble (m n : Int) : Prop where
  ne : m ≠ n
  asDouble_eq : asDouble m = asDouble n

namespace SharesDouble

variable {m n : Int}

theorem symm (h : SharesDouble m n) : SharesDouble n m := ⟨h.ne.symm, h.asDouble_eq.symm⟩

/-- They are not far from each other. -/
theorem close (h : SharesDouble m n) (hm : IsWhole m) (hn : IsWhole n) : |m - n| ≤ 2048 := by
  have hclose := abs_le.1 (asDouble_close hm)
  have hclose' := abs_le.1 (asDouble_close hn)
  rw [h.asDouble_eq] at hclose
  rw [abs_le]
  omega

end SharesDouble

/-- Doubles are in the order of the whole numbers, unless they are the same. -/
theorem compare_asDouble {m n : Int} (h : asDouble m ≠ asDouble n) :
    compare (asDouble m) (asDouble n) = compare m n := by
  rcases lt_trichotomy m n with hlt | rfl | hgt
  · rw [compare_lt_iff_lt.2 hlt, compare_lt_iff_lt.2 (lt_of_le_of_ne (asDouble_mono hlt.le) h)]
  · exact absurd rfl h
  · rw [compare_gt_iff_gt.2 hgt, compare_gt_iff_gt.2 (lt_of_le_of_ne (asDouble_mono hgt.le) h.symm)]

theorem compare_intCast (m n : Int) : compare (m : ℚ) (n : ℚ) = compare m n := by
  rw [← cmp_eq_compare, ← cmp_eq_compare, Int.cast_strictMono.cmp_map_eq]

namespace Number

variable {a b c : Number} {m n : Int}

/-- What the double of a number stands for. -/
def doubled (a : Number) : ℚ := (Binary.ofFloat a.toFloat).value

theorem doubled_whole (hn : IsWhole n) : (whole n hn).doubled = asDouble n :=
  (ofInt_eq hn).2

theorem toSigned?_eq_some_iff :
    a.toSigned? = some n ↔ IsSigned n ∧ ∃ hn, a = whole n hn := by
  cases a with
  | whole m hm =>
      rw [toSigned?, Option.ite_none_right_eq_some, Option.some_inj]
      constructor
      · rintro ⟨hsigned, rfl⟩
        exact ⟨hsigned, hm, rfl⟩
      · rintro ⟨hsigned, -, ⟨⟩⟩
        exact ⟨hsigned, rfl⟩
  | real x hx =>
      constructor
      · rintro ⟨⟩
      · rintro ⟨-, -, ⟨⟩⟩

theorem compare?_of_signed (ha : a.toSigned? = some m) (hb : b.toSigned? = some n) :
    a.compare? b = some (compare m n) := by
  rw [compare?, ha, hb]

/-- Numbers one of which is not a signed whole number are in the order of their doubles. -/
theorem compare?_eq (h : ∀ m n, a.toSigned? = some m → b.toSigned? ≠ some n) :
    a.compare? b = some (compare a.doubled b.doubled) := by
  have hdoubles := compareFloats?_eq a.toFloat_close.1 b.toFloat_close.1
  unfold compare?
  split
  · rename_i x y ha hb
    exact absurd hb (h x y ha)
  · exact hdoubles

theorem compare?_wholes (hm : IsWhole m) (hn : IsWhole n) (h : ¬ (IsSigned m ∧ IsSigned n)) :
    (whole m hm).compare? (whole n hn) = some (compare (asDouble m) (asDouble n)) := by
  rw [compare?_eq, doubled_whole, doubled_whole, compare_intCast]
  intro x y hx hy
  obtain ⟨hx, -, ⟨⟩⟩ := toSigned?_eq_some_iff.1 hx
  obtain ⟨hy, -, ⟨⟩⟩ := toSigned?_eq_some_iff.1 hy
  exact h ⟨hx, hy⟩

/-- Whole numbers are in their own order, unless their doubles are compared and the same. -/
theorem compare?_whole (hm : IsWhole m) (hn : IsWhole n)
    (h : SharesDouble m n → IsSigned m ∧ IsSigned n) :
    (whole m hm).compare? (whole n hn) = some (compare m n) := by
  by_cases hsigned : IsSigned m ∧ IsSigned n
  · exact compare?_of_signed (toSigned?_eq_some_iff.2 ⟨hsigned.1, hm, rfl⟩)
      (toSigned?_eq_some_iff.2 ⟨hsigned.2, hn, rfl⟩)
  rw [compare?_wholes hm hn hsigned]
  by_cases heq : m = n
  · rw [heq, compare_eq_iff_eq.2 rfl, compare_eq_iff_eq.2 rfl]
  · rw [compare_asDouble fun hdouble => hsigned (h ⟨heq, hdouble⟩)]

/-- Whole numbers that share a double, one of them not signed, are taken for equal. -/
theorem compare?_of_sharesDouble (hm : IsWhole m) (hn : IsWhole n) (h : SharesDouble m n)
    (hbeyond : ¬ (IsSigned m ∧ IsSigned n)) :
    (whole m hm).compare? (whole n hn) = some .eq := by
  rw [compare?_wholes hm hn hbeyond, compare_eq_iff_eq.2 h.asDouble_eq]

/-! ## Numbers that are taken for equal -/

/-- Different signed whole numbers with the same double. -/
def Clash (a b : Number) : Prop :=
  ∃ m n, a.toSigned? = some m ∧ b.toSigned? = some n ∧ SharesDouble m n

theorem doubled_of_toSigned? (h : a.toSigned? = some n) : a.doubled = asDouble n := by
  obtain ⟨-, hn, rfl⟩ := toSigned?_eq_some_iff.1 h
  exact doubled_whole hn

/-- Equal are the numbers with the same double that do not clash. -/
theorem compare?_eq_eq_iff : a.compare? b = some .eq ↔ a.doubled = b.doubled ∧ ¬ a.Clash b := by
  by_cases hsigned : ∃ m n, a.toSigned? = some m ∧ b.toSigned? = some n
  · obtain ⟨m, n, ha, hb⟩ := hsigned
    rw [compare?_of_signed ha hb, Option.some_inj, compare_eq_iff_eq, doubled_of_toSigned? ha,
      doubled_of_toSigned? hb, Int.cast_inj]
    constructor
    · rintro rfl
      refine ⟨rfl, ?_⟩
      rintro ⟨x, y, hx, hy, hshares⟩
      rw [ha, Option.some_inj] at hx
      rw [hb, Option.some_inj] at hy
      exact hshares.ne (hx.symm.trans hy)
    · rintro ⟨hdouble, hclash⟩
      by_contra hne
      exact hclash ⟨m, n, ha, hb, hne, hdouble⟩
  · have hclash : ¬ a.Clash b := fun ⟨m, n, ha, hb, _⟩ => hsigned ⟨m, n, ha, hb⟩
    rw [compare?_eq fun m n ha hb => hsigned ⟨m, n, ha, hb⟩, Option.some_inj, compare_eq_iff_eq]
    exact (and_iff_left hclash).symm

theorem Clash.symm (h : a.Clash b) : b.Clash a := by
  obtain ⟨m, n, ha, hb, hshares⟩ := h
  exact ⟨n, m, hb, ha, hshares.symm⟩

theorem not_clash_self (a : Number) : ¬ a.Clash a := by
  rintro ⟨m, n, hm, hn, hshares⟩
  exact hshares.ne (Option.some_inj.1 (hm.symm.trans hn))

end Number
end Statechart
