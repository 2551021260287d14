import Mathlib.Data.List.TakeWhile
import Statechart.Json.Reader
import Statechart.Json.Writer
import Statechart.Value.Decidable

/-!
# Numbers and strings read as they were written

A reader stops where the written form ends, whatever follows a string, and whatever does not go on
with a number.

- `Json.readText?_quoted`        : a string is read back
- `Json.EndsNumber`              : what may stand after a number
- `Json.readNumber?_append`      : a number is read the same, alone and before such a text
- `Number.ReadsBack`             : reading the written form of a number gives the number
- `Number.whole_readsBack`       : every whole number reads back
-/

namespace Statechart

/-! ## Strings -/

namespace Text

theorem length_escape_pos (c : Char) : 0 < (escape c).length := by
  unfold escape
  repeat' split
  all_goals simp

theorem length_le_length_flatMap_escape (s : List Char) : s.length ≤ (s.flatMap escape).length := by
  induction s with
  | nil => exact Nat.le_refl _
  | cons c rest ih =>
      have hc := length_escape_pos c
      simp only [List.flatMap_cons, List.length_append, List.length_cons]
      omega

end Text

namespace Json

theorem hexValue?_hexDigit {n : Nat} (h : n < 16) : hexValue? (Text.hexDigit n) = some n := by
  have hall : ∀ n < 16, hexValue? (Text.hexDigit n) = some n := by decide
  exact hall n h

/-- A character below the surrogates is its own code unit. -/
theorem pairedCode?_of_lt {code : Nat} (h : code < 0xd800) (s : List Char) :
    pairedCode? code s = some (Char.ofNat code, s) := by
  unfold pairedCode?
  rw [if_neg (by omega), if_neg (by omega)]

/-- The written form of a character takes one step of the reader. -/
theorem readString?_escape (c : Char) (fuel : Nat) (rest : List Char) :
    readString? (fuel + 1) (Text.escape c ++ rest) =
      (readString? fuel rest).map fun read => (read.1.map (c :: ·), read.2) := by
  have hbind : ∀ (d : Char) (read : Option (Option (List Char) × List Char)),
      (read.bind fun read => some (read.1.map (d :: ·), read.2)) =
        read.map fun read => (read.1.map (d :: ·), read.2) := fun d read => by cases read <;> rfl
  unfold Text.escape
  split
  · next h => subst h; exact hbind _ _
  split
  · next h => subst h; exact hbind _ _
  split
  · next h => subst h; exact hbind _ _
  split
  · next h => subst h; exact hbind _ _
  split
  · next h => subst h; exact hbind _ _
  split
  · next h => subst h; exact hbind _ _
  split
  · next h => subst h; exact hbind _ _
  split
  · -- a control character is written by its code
    next hcontrol =>
      have hunit : readUnit? ('0' :: '0' :: Text.hexDigit (c.toNat / 16) ::
          Text.hexDigit (c.toNat % 16) :: rest) = some (c.toNat, rest) := by
        have hzero : hexValue? '0' = some 0 := by decide
        simp only [readUnit?, hzero, hexValue?_hexDigit (show c.toNat / 16 < 16 by omega),
          hexValue?_hexDigit (show c.toNat % 16 < 16 by omega), Option.bind_eq_bind,
          Option.bind_some]
        congr 2
        omega
      have hpaired : pairedCode? c.toNat rest = some (c, rest) := by
        rw [pairedCode?_of_lt (by omega), Char.ofNat_toNat]
      simp [readString?, hunit, hpaired, hbind]
  · next hquote hbackslash _ _ _ _ _ hcontrol =>
      simp [readString?, hquote, hbackslash, hcontrol, hbind]

theorem readString?_quoted {s : List Char} {fuel : Nat} (h : s.length < fuel) (rest : List Char) :
    readString? fuel (s.flatMap Text.escape ++ '"' :: rest) = some (some s, rest) := by
  induction s generalizing fuel with
  | nil =>
      cases fuel with
      | zero => cases h
      | succ fuel => rfl
  | cons c s ih =>
      cases fuel with
      | zero => cases h
      | succ fuel =>
          rw [List.flatMap_cons, List.append_assoc, readString?_escape,
            ih (Nat.lt_of_succ_lt_succ h)]
          rfl

/-- A string is read back, whatever follows its closing quote. -/
theorem readText?_quoted (s : String) (rest : List Char) :
    readText? (s.toList.flatMap Text.escape ++ '"' :: rest) = some (some s, rest) := by
  have hlength := Text.length_le_length_flatMap_escape s.toList
  rw [readText?, readString?_quoted (by simp only [List.length_append]; omega)]
  simp

/-! ## What follows a number -/

/-- The characters that go on with a number. -/
def isNumberPart (c : Char) : Bool :=
  Decimal.isDigit c || c = '.' || c = 'e' || c = 'E' || c = '+' || c = '-'

/-- What follows does not go on with a number. -/
def EndsNumber (rest : List Char) : Prop := ∀ c, rest.head? = some c → isNumberPart c = false

theorem EndsNumber.takeWhile_append {rest : List Char} (h : EndsNumber rest) (s : List Char) :
    (s ++ rest).takeWhile Decimal.isDigit = s.takeWhile Decimal.isDigit := by
  induction s with
  | nil =>
      cases rest with
      | nil => rfl
      | cons c rest =>
          have hc := h c rfl
          have hdigit : Decimal.isDigit c = false := by
            simp only [isNumberPart, Bool.or_eq_false_iff] at hc
            simp [hc]
          simp [hdigit]
  | cons c s ih => simp only [List.cons_append, List.takeWhile_cons, ih]

theorem EndsNumber.dropWhile_append {rest : List Char} (h : EndsNumber rest) (s : List Char) :
    (s ++ rest).dropWhile Decimal.isDigit = s.dropWhile Decimal.isDigit ++ rest := by
  have hsplit := List.takeWhile_append_dropWhile (p := Decimal.isDigit) (l := s ++ rest)
  rw [h.takeWhile_append] at hsplit
  have hsame : s.takeWhile Decimal.isDigit ++ (s ++ rest).dropWhile Decimal.isDigit =
      s.takeWhile Decimal.isDigit ++ (s.dropWhile Decimal.isDigit ++ rest) := by
    rw [hsplit, ← List.append_assoc, List.takeWhile_append_dropWhile]
  exact List.append_cancel_left hsame

/-! ## The parts of a number -/

/-- The digits after the point, if there is one, and what follows. -/
def readFraction : List Char → Option (List Char) × List Char
  | '.' :: r => (some (r.takeWhile Decimal.isDigit), r.dropWhile Decimal.isDigit)
  | r => (none, r)

/-- The value of the digits, after the exponent if there is one, and what follows. -/
def readScale? (negative : Bool) (digits : List Char) (fraction : Option (List Char))
    (s : List Char) : Option (Option Number × List Char) :=
  if fraction == some [] then none
  else
    let plain :=
      match fraction with
      | some f => numberValue? negative digits f 0
      | none => wholeValue? negative digits
    match s with
    | c :: r =>
        if c = 'e' ∨ c = 'E' then do
          let (exponent, s) ← readExponent? r
          some (numberValue? negative digits (fraction.getD []) exponent, s)
        else some (plain, c :: r)
    | [] => some (plain, [])

/-- A number after its sign. -/
def readMagnitude? (negative : Bool) (s : List Char) : Option (Option Number × List Char) :=
  let digits := s.takeWhile Decimal.isDigit
  if digits.isEmpty || (digits.head? == some '0' && digits.length != 1) then none
  else
    readScale? negative digits (readFraction (s.dropWhile Decimal.isDigit)).1
      (readFraction (s.dropWhile Decimal.isDigit)).2

/-- An exponent after its sign. -/
def readPlaces? (negative : Bool) (s : List Char) : Option (Int × List Char) :=
  let digits := s.takeWhile Decimal.isDigit
  if digits.isEmpty then none
  else
    let n := Decimal.readNat digits
    some (if negative then -(n : Int) else n, s.dropWhile Decimal.isDigit)

theorem readExponent?_plain {c : Char} (hplus : c ≠ '+') (hminus : c ≠ '-') (s : List Char) :
    readExponent? (c :: s) = readPlaces? false (c :: s) := by
  unfold readExponent?
  split
  rename_i negative u hmatch
  split at hmatch
  · exact absurd (List.cons.inj ‹_›).1 hplus
  · exact absurd (List.cons.inj ‹_›).1 hminus
  · obtain ⟨rfl, rfl⟩ := Prod.mk.inj hmatch
    rfl

theorem readNumber?_minus (s : List Char) : readNumber? ('-' :: s) = readMagnitude? true s := rfl

theorem readNumber?_plain {s : List Char} (h : s.head? ≠ some '-') :
    readNumber? s = readMagnitude? false s := by
  have hsign : ∀ r, s ≠ '-' :: r := by
    rintro r rfl
    exact h rfl
  unfold readNumber?
  split
  rename_i negative u hmatch
  split at hmatch
  · exact absurd rfl (hsign _)
  · obtain ⟨rfl, rfl⟩ := Prod.mk.inj hmatch
    rfl

/-! ## Numbers before other text -/

theorem EndsNumber.readFraction_append {rest : List Char} (h : EndsNumber rest) (s : List Char) :
    readFraction (s ++ rest) = ((readFraction s).1, (readFraction s).2 ++ rest) := by
  cases s with
  | nil =>
      have hpoint : ∀ r, rest ≠ '.' :: r := by
        rintro r rfl
        exact absurd (h '.' rfl) (by decide)
      cases rest with
      | nil => rfl
      | cons c rest =>
          unfold readFraction
          split
          · exact absurd ‹_› (hpoint _)
          · rfl
  | cons c s =>
      by_cases hc : c = '.'
      · subst hc
        simp only [List.cons_append, readFraction, h.takeWhile_append, h.dropWhile_append]
      · have hplain : ∀ r, readFraction (c :: r) = (none, c :: r) := fun r => by
          unfold readFraction
          split
          · rename_i heq
            exact absurd (List.cons.inj heq).1 hc
          · rfl
        rw [List.cons_append, hplain, hplain, List.cons_append]

theorem EndsNumber.readPlaces?_append {rest s t : List Char} {negative : Bool} {e : Int}
    (h : EndsNumber rest) (hread : readPlaces? negative s = some (e, t)) :
    readPlaces? negative (s ++ rest) = some (e, t ++ rest) := by
  simp only [readPlaces?, h.takeWhile_append, h.dropWhile_append] at hread ⊢
  split at hread
  · cases hread
  · rename_i hdigits
    obtain ⟨rfl, rfl⟩ := Prod.mk.inj (Option.some.inj hread)
    rw [if_neg hdigits]

theorem EndsNumber.readExponent?_append {rest s t : List Char} {e : Int} (h : EndsNumber rest)
    (hread : readExponent? s = some (e, t)) : readExponent? (s ++ rest) = some (e, t ++ rest) := by
  cases s with
  | nil => cases hread
  | cons c s =>
      by_cases hplus : c = '+'
      · subst hplus
        exact h.readPlaces?_append hread
      · by_cases hminus : c = '-'
        · subst hminus
          exact h.readPlaces?_append hread
        · rw [readExponent?_plain hplus hminus] at hread
          rw [List.cons_append, readExponent?_plain hplus hminus]
          exact h.readPlaces?_append hread

theorem EndsNumber.readScale?_append {rest s t : List Char} {negative : Bool} {digits : List Char}
    {fraction : Option (List Char)} {n : Option Number} (h : EndsNumber rest)
    (hread : readScale? negative digits fraction s = some (n, t)) :
    readScale? negative digits fraction (s ++ rest) = some (n, t ++ rest) := by
  have hletter : ∀ c, rest.head? = some c → ¬ (c = 'e' ∨ c = 'E') := by
    rintro c hc (rfl | rfl)
    · exact absurd (h _ hc) (by decide)
    · exact absurd (h _ hc) (by decide)
  unfold readScale? at hread ⊢
  split at hread
  · cases hread
  · rename_i hfraction
    rw [if_neg hfraction]
    cases s with
    | nil =>
        obtain ⟨rfl, rfl⟩ := Prod.mk.inj (Option.some.inj hread)
        cases rest with
        | nil => rfl
        | cons c rest => simp only [List.nil_append, if_neg (hletter c rfl)]
    | cons c s =>
        simp only [List.cons_append] at hread ⊢
        split at hread
        · rename_i hc
          rw [if_pos hc]
          obtain ⟨⟨e, u⟩, hexponent, hsome⟩ := Option.bind_eq_some_iff.1 hread
          obtain ⟨rfl, rfl⟩ := Prod.mk.inj (Option.some.inj hsome)
          simp only [h.readExponent?_append hexponent, Option.bind_eq_bind, Option.bind_some]
        · rename_i hc
          rw [if_neg hc]
          obtain ⟨rfl, rfl⟩ := Prod.mk.inj (Option.some.inj hread)
          rfl

theorem EndsNumber.readMagnitude?_append {rest s t : List Char} {negative : Bool}
    {n : Option Number} (h : EndsNumber rest) (hread : readMagnitude? negative s = some (n, t)) :
    readMagnitude? negative (s ++ rest) = some (n, t ++ rest) := by
  simp only [readMagnitude?, h.takeWhile_append, h.dropWhile_append, h.readFraction_append]
    at hread ⊢
  split at hread
  · cases hread
  · rename_i hdigits
    rw [if_neg hdigits]
    exact h.readScale?_append hread

/-- A number begins with a minus or a digit. -/
theorem head_of_readNumber? {s : List Char} {read : Option Number × List Char}
    (h : readNumber? s = some read) :
    ∃ c r, s = c :: r ∧ (c = '-' ∨ Decimal.isDigit c = true) := by
  cases s with
  | nil => cases h
  | cons c r =>
      refine ⟨c, r, rfl, ?_⟩
      by_cases hminus : c = '-'
      · exact .inl hminus
      · rw [readNumber?_plain (by simpa using hminus), readMagnitude?, List.takeWhile_cons] at h
        by_cases hdigit : Decimal.isDigit c = true
        · exact .inr hdigit
        · simp [hdigit] at h

/-- A number is read the same, alone and before text that does not go on with it. -/
theorem readNumber?_append {rest s t : List Char} {n : Option Number} (h : EndsNumber rest)
    (hread : readNumber? s = some (n, t)) : readNumber? (s ++ rest) = some (n, t ++ rest) := by
  obtain ⟨c, r, rfl, -⟩ := head_of_readNumber? hread
  by_cases hminus : c = '-'
  · subst hminus
    exact h.readMagnitude?_append hread
  · rw [readNumber?_plain (by simpa using hminus)] at hread
    rw [readNumber?_plain (by simpa using hminus)]
    exact h.readMagnitude?_append hread

end Json

/-! ## Whole numbers -/

namespace Decimal

theorem readNat_toDigits (n : Nat) : readNat (Nat.toDigits 10 n) = n := by
  rw [readNat]
  exact Nat.ofDigitChars_ten_toDigits

theorem isDigit_of_mem_toDigits {n : Nat} {c : Char} (h : c ∈ Nat.toDigits 10 n) :
    isDigit c = true := by
  have hc := Nat.isDigit_of_mem_toDigits (by decide) (by decide) h
  simpa [isDigit, Char.isDigit, Char.le_def] using hc

/-- Only zero begins with a zero. -/
theorem head_toDigits_ne {n : Nat} (h : 0 < n) : (Nat.toDigits 10 n).head? ≠ some '0' := by
  induction n using Nat.strongRecOn with
  | ind n ih =>
      by_cases hsmall : n < 10
      · rw [Nat.toDigits_of_lt_base hsmall]
        simp [Nat.ne_of_gt h]
      · rw [Nat.toDigits_of_base_le (by decide) (by omega), List.head?_append,
          List.head?_eq_some_head Nat.toDigits_ne_nil, Option.some_or,
          ← List.head?_eq_some_head Nat.toDigits_ne_nil]
        exact ih (n / 10) (by omega) (by omega)

theorem toList_ofNat (m : Nat) : (toString (Int.ofNat m)).toList = Nat.toDigits 10 m :=
  Nat.toList_repr

theorem toList_negSucc (m : Nat) :
    (toString (Int.negSucc m)).toList = '-' :: Nat.toDigits 10 (m + 1) := by
  rw [← Nat.toList_repr, Int.toString_eq_repr, Int.repr, String.toList_append]
  rfl

end Decimal

namespace Number

/-- Reading the written form of a number gives the number. -/
def ReadsBack (n : Number) : Prop := Json.readNumber? n.compact.toList = some (some n, [])

instance (n : Number) : Decidable n.ReadsBack :=
  inferInstanceAs (Decidable (Json.readNumber? n.compact.toList = some (some n, [])))

end Number

namespace Json

theorem readMagnitude?_toDigits (negative : Bool) (n : Nat) :
    readMagnitude? negative (Nat.toDigits 10 n) =
      some (wholeValue? negative (Nat.toDigits 10 n), []) := by
  have htake : (Nat.toDigits 10 n).takeWhile Decimal.isDigit = Nat.toDigits 10 n :=
    List.takeWhile_eq_self_iff.2 fun _ => Decimal.isDigit_of_mem_toDigits
  have hdrop : (Nat.toDigits 10 n).dropWhile Decimal.isDigit = [] :=
    List.dropWhile_eq_nil_iff.2 fun _ => Decimal.isDigit_of_mem_toDigits
  have hzero : ¬ ((Nat.toDigits 10 n).isEmpty ||
      ((Nat.toDigits 10 n).head? == some '0' && (Nat.toDigits 10 n).length != 1)) = true := by
    rcases Nat.eq_zero_or_pos n with rfl | hpos
    · decide
    · have hhead := Decimal.head_toDigits_ne hpos
      simp [Nat.toDigits_ne_nil, hhead]
  simp only [readMagnitude?, htake, hdrop, if_neg hzero]
  rfl

end Json

/-- Every whole number reads back. -/
theorem Number.whole_readsBack (n : Int) (h : IsWhole n) : (Number.whole n h).ReadsBack := by
  have hrange := h
  unfold IsWhole at hrange
  unfold ReadsBack compact
  cases n with
  | ofNat m =>
      have hfits : m < wordLimit := by
        simp only [Int.ofNat_eq_natCast] at hrange
        unfold wordLimit
        omega
      have hvalue : Json.wholeValue? false (Nat.toDigits 10 m) = some (.whole m h) := by
        simp only [Json.wholeValue?, Decimal.readNat_toDigits, Bool.false_eq_true, if_false,
          if_pos hfits]
        exact dif_pos h
      have hhead : (Nat.toDigits 10 m).head? ≠ some '-' := by
        intro hhead
        have hdigit := Decimal.isDigit_of_mem_toDigits (List.mem_of_mem_head? hhead)
        exact absurd hdigit (by decide)
      rw [Decimal.toList_ofNat, Json.readNumber?_plain hhead, Json.readMagnitude?_toDigits, hvalue]
      rfl
  | negSucc m =>
      have hfits : m + 1 ≤ signedLimit := by
        unfold signedLimit
        omega
      have hvalue : Json.wholeValue? true (Nat.toDigits 10 (m + 1)) =
          some (.whole (Int.negSucc m) h) := by
        simp only [Json.wholeValue?, Decimal.readNat_toDigits, if_true, if_pos hfits,
          if_neg (Nat.succ_ne_zero m)]
        exact dif_pos h
      rw [Decimal.toList_negSucc, Json.readNumber?_minus, Json.readMagnitude?_toDigits, hvalue]

end Statechart
