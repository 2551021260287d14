import Statechart.Proofs.Decimal.Doubles
import Statechart.Proofs.Expression.Arithmetic
import Statechart.Proofs.Expression.Completeness
import Statechart.Proofs.Json.Scalars

/-!
# Whole numbers as expressions

The written form of a signed whole number is an expression: digits, perhaps with a minus in front,
which is an operator. It evaluates to the number again, with one exception: the digits of the least
number are not those of a signed one, so that they are read as a double.

- `trimBlanks_of_notBlank`       : nothing is trimmed from a text without blanks
- `Phrase.Derives.isExpression`  : unary phrases are expressions
- `isExpression_ofNat`, `isExpression_negSucc` : the trees of written numbers
- `Expression.parse_toString`    : what they evaluate to
-/

namespace Statechart

/-! ## Texts without blanks -/

theorem allBlank_nil : AllBlank [] := nofun

theorem skipBlanks_of_notBlank {s : List Char} (h : ∀ c ∈ s, Text.isBlank c = false) :
    skipBlanks s = s := by
  cases s with
  | nil => rfl
  | cons c rest =>
      exact skipBlanks_of_not_isBlank (h c List.mem_cons_self)

theorem trimBlanks_of_notBlank {s : List Char} (h : ∀ c ∈ s, Text.isBlank c = false) :
    trimBlanks s = s := by
  have hreverse : ∀ c ∈ s.reverse, Text.isBlank c = false :=
    fun c hc => h c (List.mem_reverse.1 hc)
  rw [trimBlanks, skipBlanks_of_notBlank h, skipBlanks_of_notBlank hreverse, List.reverse_reverse]

/-! ## Written numbers -/

/-- Unary phrases stand at every level. -/
theorem Phrase.Derives.isExpression {s : List Char} {e : Expr} (h : Phrase.unary.Derives s e) :
    IsExpression s e := by
  have hproduct : (Phrase.level .product).Derives s e := .operand (.tightest rfl h)
  have hsum : (Phrase.level .sum).Derives s e := .operand (.tighter rfl hproduct)
  have hcomparison : (Phrase.level .comparison).Derives s e := .operand (.tighter rfl hsum)
  have hequality : (Phrase.level .equality).Derives s e := .operand (.tighter rfl hcomparison)
  exact .operand (.tighter rfl (.operand (.tighter rfl hequality)))

/-- The token of written digits. -/
def digitsToken (m : Nat) : NumberToken := ⟨Nat.toDigits 10 m, none, none⟩

theorem isToken_digitsToken (m : Nat) : (digitsToken m).IsToken where
  whole := ⟨Nat.toDigits_ne_nil, fun _ => Decimal.isDigit_of_mem_toDigits⟩
  fraction := nofun
  mark := nofun
  exponent := nofun

theorem text_digitsToken (m : Nat) : (digitsToken m).text = Nat.toDigits 10 m := by
  simp [NumberToken.text, digitsToken]

theorem unary_digits {m : Nat} {a : Number} (h : (digitsToken m).value? = some a) :
    Phrase.unary.Derives (Nat.toDigits 10 m) (.literal (.number a)) := by
  have hprimary := Phrase.Derives.number (isToken_digitsToken m) h
  rw [text_digitsToken] at hprimary
  exact .primary allBlank_nil hprimary

theorem readNat_digitsToken (m : Nat) : Decimal.readNat (digitsToken m).whole = m :=
  Decimal.readNat_toDigits m

theorem value?_digitsToken {m : Nat} (hm : IsSigned m) :
    (digitsToken m).value? = some (.whole m hm.isWhole) := by
  have hlimit : m < signedLimit := Int.ofNat_lt.1 hm.2
  rw [NumberToken.value?, readNat_digitsToken]
  exact (if_pos (decide_eq_true hlimit)).trans (dif_pos hm.isWhole)

/-- Digits of other numbers are read as doubles. -/
theorem value?_digitsToken_of_le {m : Nat} (hm : signedLimit ≤ m) :
    (digitsToken m).value? = Number.ofFloat? (Decimal.nearest m 0) := by
  have hlimit : ¬ ((digitsToken m).fraction.isNone && (digitsToken m).exponent.isNone &&
      decide (m < signedLimit)) = true := by
    rw [decide_eq_false (Nat.not_lt.2 hm), Bool.and_false]
    exact Bool.false_ne_true
  rw [NumberToken.value?, readNat_digitsToken, if_neg hlimit]
  change Number.ofFloat? (Decimal.nearest (Decimal.readNat (Nat.toDigits 10 m ++ [])) 0) = _
  rw [List.append_nil, Decimal.readNat_toDigits]

theorem notBlank_toDigits (m : Nat) : ∀ c ∈ Nat.toDigits 10 m, Text.isBlank c = false :=
  fun _ hc => isBlank_of_isNamePart (isNamePart_of_isDigit (Decimal.isDigit_of_mem_toDigits hc))

namespace Expression

theorem parse_ofNat {m : Nat} {a : Number} (h : (digitsToken m).value? = some a) :
    parse (toString (Int.ofNat m)) = .ok ⟨toString (Int.ofNat m), .literal (.number a)⟩ := by
  rw [parse_eq_ok_iff, Decimal.toList_ofNat, trimBlanks_of_notBlank (notBlank_toDigits m)]
  exact ⟨rfl, (unary_digits h).isExpression⟩

/-- The minus is an operator. -/
theorem parse_negSucc {m : Nat} {a : Number} (h : (digitsToken (m + 1)).value? = some a) :
    parse (toString (Int.negSucc m)) =
      .ok ⟨toString (Int.negSucc m), .unary .negate (.literal (.number a))⟩ := by
  have hblank : ∀ c ∈ '-' :: Nat.toDigits 10 (m + 1), Text.isBlank c = false :=
    List.forall_mem_cons.2 ⟨by decide, notBlank_toDigits (m + 1)⟩
  rw [parse_eq_ok_iff, Decimal.toList_negSucc, trimBlanks_of_notBlank hblank]
  exact ⟨rfl, (Phrase.Derives.negate allBlank_nil (unary_digits h)).isExpression⟩

/-! ## The least number -/

/-- The double that stands for the least signed number. -/
def leastDouble : Float := -Decimal.nearest 9223372036854775808 0

theorem isFinite_leastDouble : leastDouble.isFinite = true := by decide +kernel

theorem value_leastDouble : (Decimal.Binary.ofFloat leastDouble).value = -9223372036854775808 := by
  have hparts : Decimal.Binary.ofFloat leastDouble = ⟨true, 4503599627370496, 11⟩ := by
    decide +kernel
  rw [hparts]
  norm_num [Decimal.Binary.value, Decimal.Binary.magnitude]

theorem negate_real {x : Float} (hx : x.isFinite = true) (h : (-x).isFinite = true) :
    (Number.real x hx).negate = .ok (.real (-x) h) := by
  have hnegated : Number.ofFloat? (-x) = some (.real (-x) h) := dif_pos h
  simp only [Number.negate, Number.toSigned?, Number.toFloat, hnegated]

/-- Its digits are a double already. -/
theorem parse_least :
    ∃ e, parse (toString (-9223372036854775808 : Int)) = .ok e ∧
      ∀ find, e.evaluate find = .ok (.number (.real leastDouble isFinite_leastDouble)) := by
  have hfinite : (Decimal.nearest 9223372036854775808 0).isFinite = true := by decide +kernel
  have htoken : (digitsToken 9223372036854775808).value? =
      some (.real (Decimal.nearest 9223372036854775808 0) hfinite) :=
    (value?_digitsToken_of_le le_rfl).trans (dif_pos hfinite)
  refine ⟨_, parse_negSucc htoken, fun find => ?_⟩
  have htree : (Expr.unary .negate (.literal (.number
      (.real (Decimal.nearest 9223372036854775808 0) hfinite)))).eval find =
        .ok (.number (.real leastDouble isFinite_leastDouble)) := by
    rw [Expr.eval, Expr.eval]
    change (Number.negate _).map Value.number = _
    rw [negate_real hfinite isFinite_leastDouble]
    rfl
  rw [evaluate, htree]

/-! ## Signed numbers -/

theorem parse_signed {n : Int} (hn : IsSigned n) (hleast : n ≠ -9223372036854775808) :
    ∃ e, parse (toString n) = .ok e ∧
      ∀ find, e.evaluate find = .ok (.number (.whole n hn.isWhole)) := by
  cases n with
  | ofNat m => exact ⟨_, parse_ofNat (value?_digitsToken hn), fun _ => rfl⟩
  | negSucc m =>
      have hm : IsSigned (m + 1 : Nat) := by
        unfold IsSigned at *
        omega
      refine ⟨_, parse_negSucc (value?_digitsToken hm), fun find => ?_⟩
      rw [evaluate_negate hm rfl]
      exact dif_pos hn

/-- A signed whole number evaluates to itself, as a value and as a text; only the text of the least
one evaluates to a double, which stands for the same number. -/
theorem parse_toString {n : Int} (hn : IsSigned n) :
    ∃ constant e, ofValue (.number (.whole n hn.isWhole)) = .ok constant ∧
      constant.source = toString n ∧ parse constant.source = .ok e ∧
      (∀ find, constant.evaluate find = .ok (.number (.whole n hn.isWhole))) ∧
      (n ≠ -9223372036854775808 →
        ∀ find, e.evaluate find = .ok (.number (.whole n hn.isWhole))) ∧
      (n = -9223372036854775808 → ∃ x hx, (Decimal.Binary.ofFloat x).value = n ∧
        ∀ find, e.evaluate find = .ok (.number (.real x hx))) := by
  by_cases hleast : n = -9223372036854775808
  · obtain ⟨e, hparse, heval⟩ := parse_least
    rw [← hleast] at hparse
    refine ⟨_, e, rfl, rfl, hparse, fun _ => rfl, absurd hleast, fun _ => ?_⟩
    exact ⟨leastDouble, isFinite_leastDouble, by rw [value_leastDouble, hleast]; rfl, heval⟩
  · obtain ⟨e, hparse, heval⟩ := parse_signed hn hleast
    exact ⟨_, e, rfl, rfl, hparse, fun _ => rfl, fun _ => heval, fun h => absurd h hleast⟩

theorem parse_minusSeventeen :
    ∃ e, parse (toString (-17 : Int)) = .ok e ∧ e.evaluate (.ofFields []) = .ok (.ofInt (-17)) := by
  obtain ⟨constant, e, -, hsource, hparse, -, heval, -⟩ := parse_toString (n := -17) (by decide)
  rw [hsource] at hparse
  exact ⟨e, hparse, heval (by decide) _⟩

/-- The same number as a value and as a text, of which the latter is a double. -/
theorem least_is_double :
    ∃ constant e, ofValue (.ofInt (-9223372036854775808)) = .ok constant ∧
      parse "-9223372036854775808" = .ok e ∧
      constant.evaluate (.ofFields []) = .ok (.ofInt (-9223372036854775808)) ∧
      e.evaluate (.ofFields []) = .ok (.number (.real leastDouble isFinite_leastDouble)) := by
  have htext : toString (-9223372036854775808 : Int) = "-9223372036854775808" := by decide +kernel
  obtain ⟨e, hparse, heval⟩ := parse_least
  rw [htext] at hparse
  exact ⟨_, e, rfl, hparse, rfl, heval _⟩

end Expression
end Statechart
