import Mathlib.Data.List.DropRight
import Mathlib.Data.List.TakeWhile
import Statechart.Proofs.Expression.Grammar
import Statechart.Proofs.Success

/-!
# Reading tokens

The scanners read the tokens of the grammar, and as much as belongs to a token: a name or a number
ends where no character of names and no point follows.

- `Parted`                : nothing follows that a name or a number could go on with
- `parseText_append`, `of_parseText` : quoted text
- `scanNumber_text`, `of_scanNumber` : numbers
- `parseName_constant`, `parseName_variable`, `of_parseName` : constants and variables
-/

namespace Statechart

/-! ## Classes of characters -/

namespace Text

theorem exists_of_inRanges {table : List (Nat × Nat)} {c : Char} (h : inRanges table c = true) :
    ∃ r ∈ table, r.1 ≤ c.toNat ∧ c.toNat ≤ r.2 := by
  induction table with
  | nil => cases h
  | cons r rest ih =>
      rw [inRanges] at h
      split at h
      · cases h
      · rename_i hlow
        split at h
        · rename_i hhigh
          exact ⟨r, List.mem_cons_self, Nat.le_of_not_lt hlow, hhigh⟩
        · rcases ih h with ⟨r', hr', hbounds⟩
          exact ⟨r', List.mem_cons_of_mem r hr', hbounds⟩

/-- Tables without a common code point have no common character. -/
theorem inRanges_eq_false {table other : List (Nat × Nat)}
    (hapart : ∀ r ∈ table, ∀ q ∈ other, r.2 < q.1 ∨ q.2 < r.1) {c : Char}
    (h : inRanges table c = true) : inRanges other c = false := by
  cases hother : inRanges other c with
  | false => rfl
  | true =>
      rcases exists_of_inRanges h with ⟨r, hr, hlow, hhigh⟩
      rcases exists_of_inRanges hother with ⟨q, hq, hlow', hhigh'⟩
      have := hapart r hr q hq
      omega

end Text

theorem isNamePart_of_isNameStart {c : Char} (h : isNameStart c = true) : isNamePart c = true := by
  simp only [isNameStart, isNamePart, Bool.or_eq_true] at h ⊢
  rcases h with (h | h) | h
  · exact Or.inl (Or.inl (Or.inl h))
  · exact Or.inl (Or.inr h)
  · exact Or.inr h

theorem isNamePart_of_isDigit {c : Char} (h : Decimal.isDigit c = true) : isNamePart c = true := by
  have hbounds : 48 ≤ c.toNat ∧ c.toNat ≤ 57 := of_decide_eq_true h
  have hnumeric : Text.isNumeric c = true := by
    rw [Text.isNumeric, Text.numericRanges, Text.inRanges, if_neg (Nat.not_lt.2 hbounds.1),
      if_pos hbounds.2]
  simp [isNamePart, hnumeric]

theorem isDigit_of_isNameStart {c : Char} (h : isNameStart c = true) :
    Decimal.isDigit c = false := by
  cases hdigit : Decimal.isDigit c with
  | false => rfl
  | true =>
      have hbounds : 48 ≤ c.toNat ∧ c.toNat ≤ 57 := of_decide_eq_true hdigit
      have halphabetic : Text.isAlphabetic c = false := by
        rw [Text.isAlphabetic, Text.alphabeticRanges, Text.inRanges, if_pos (by omega)]
      have hunderscore : c ≠ '_' := by
        rintro rfl
        cases hdigit
      have hdollar : c ≠ '$' := by
        rintro rfl
        cases hdigit
      simp [isNameStart, halphabetic, hunderscore, hdollar] at h

theorem isNamePart_of_isBlank {c : Char} (h : Text.isBlank c = true) : isNamePart c = false := by
  have halphabetic : Text.isAlphabetic c = false := Text.inRanges_eq_false (by decide +kernel) h
  have hnumeric : Text.isNumeric c = false := Text.inRanges_eq_false (by decide +kernel) h
  have hunderscore : c ≠ '_' := by
    rintro rfl
    cases h
  have hdollar : c ≠ '$' := by
    rintro rfl
    cases h
  simp [isNamePart, halphabetic, hnumeric, hunderscore, hdollar]

theorem isBlank_of_isNamePart {c : Char} (h : isNamePart c = true) : Text.isBlank c = false := by
  cases hblank : Text.isBlank c with
  | false => rfl
  | true => cases h.symm.trans (isNamePart_of_isBlank hblank)

/-! ## Runs of characters -/

/-- A run stops where no further character of its class follows. -/
theorem takeWhile_append_dropWhile {p : Char → Bool} {run rest : List Char}
    (hrun : ∀ c ∈ run, p c = true) (hrest : ∀ c, rest.head? = some c → p c = false) :
    (run ++ rest).takeWhile p = run ∧ (run ++ rest).dropWhile p = rest := by
  rw [List.takeWhile_append_of_pos hrun, List.dropWhile_append_of_pos hrun]
  cases rest with
  | nil => simp
  | cons c rest =>
      have hstop : ¬ p c = true := by
        rw [hrest c rfl]
        exact Bool.false_ne_true
      rw [List.takeWhile_cons_of_neg hstop, List.dropWhile_cons_of_neg hstop]
      exact ⟨List.append_nil run, rfl⟩

theorem skipBlanks_append {gap s : List Char} (hgap : AllBlank gap) :
    skipBlanks (gap ++ s) = skipBlanks s :=
  List.dropWhile_append_of_pos hgap

theorem skipBlanks_of_not_isBlank {c : Char} {s : List Char} (h : Text.isBlank c = false) :
    skipBlanks (c :: s) = c :: s :=
  List.dropWhile_cons_of_neg (by rw [h]; exact Bool.false_ne_true)

theorem skipBlanks_skipBlanks (s : List Char) : skipBlanks (skipBlanks s) = skipBlanks s :=
  List.dropWhile_idempotent Text.isBlank s

/-- What is skipped are blanks. -/
theorem exists_gap (s : List Char) : ∃ gap, AllBlank gap ∧ s = gap ++ skipBlanks s :=
  ⟨s.takeWhile Text.isBlank, fun _ hc => (List.mem_takeWhile_imp hc),
    (List.takeWhile_append_dropWhile).symm⟩

/-- Nothing follows that a name or a number could go on with. -/
def Parted (rest : List Char) : Prop := ∀ c, rest.head? = some c → isNamePart c = false ∧ c ≠ '.'

/-! ## Quoted text -/

section Quoted

variable {quote : Char} {s text rest : List Char}

theorem parseText_quote : parseText quote (quote :: rest) = some ([], rest) := by
  rw [parseText.eq_def]
  exact if_pos rfl

theorem parseText_plain {c : Char} (hquote : c ≠ quote) (hbackslash : c ≠ '\\') :
    parseText quote (c :: s) = (parseText quote s).map fun (text, rest) => (c :: text, rest) := by
  rw [parseText.eq_def]
  exact (if_neg hquote).trans (if_neg hbackslash)

theorem parseText_escaped (hquote : quote ≠ '\\') (c : Char) :
    parseText quote ('\\' :: c :: s) =
      (parseText quote s).map fun (text, rest) => (unescape c :: text, rest) := by
  rw [parseText.eq_def]
  exact (if_neg hquote.symm).trans (if_pos rfl)

theorem parseText_append (hquote : quote ≠ '\\') {body : List Char}
    (h : Quoted quote body text) : parseText quote (body ++ quote :: rest) = some (text, rest) := by
  induction h with
  | nil => exact parseText_quote
  | plain hne hbackslash _ ih =>
      rw [List.cons_append, parseText_plain hne hbackslash, ih, Option.map]
  | escaped c _ ih =>
      rw [List.cons_append, List.cons_append, parseText_escaped hquote, ih, Option.map]

theorem of_parseText (hquote : quote ≠ '\\') :
    parseText quote s = some (text, rest) →
      ∃ body, s = body ++ quote :: rest ∧ Quoted quote body text := by
  -- one case for each character that is read, an escaped one together with its backslash
  induction s using parseText.induct quote generalizing text with
  | case1 =>
      intro h
      cases h
  | case2 s =>
      intro h
      rw [parseText_quote] at h
      cases h
      exact ⟨[], rfl, .nil⟩
  | case3 hne =>
      intro h
      have hnone : parseText quote ['\\'] = none := by
        rw [parseText.eq_def]
        exact (if_neg hne).trans (if_pos rfl)
      cases hnone.symm.trans h
  | case4 c s hne ih =>
      intro h
      rw [parseText_escaped hquote] at h
      rcases Option.map_eq_some_iff.1 h with ⟨⟨later, _⟩, hlater, heq⟩
      cases heq
      rcases ih hlater with ⟨body, rfl, hbody⟩
      exact ⟨'\\' :: c :: body, rfl, .escaped c hbody⟩
  | case5 c s hne hbackslash ih =>
      intro h
      rw [parseText_plain hne hbackslash] at h
      rcases Option.map_eq_some_iff.1 h with ⟨⟨later, _⟩, hlater, heq⟩
      cases heq
      rcases ih hlater with ⟨body, rfl, hbody⟩
      exact ⟨c :: body, rfl, .plain hne hbackslash hbody⟩

end Quoted

/-! ## Numbers -/

namespace NumberToken

/-- The point and the digits after it. -/
def fractionText (fraction : Option (List Char)) : List Char :=
  fraction.elim [] fun digits => '.' :: digits

def exponentText (exponent : Option (List Char × List Char)) : List Char :=
  exponent.elim [] fun e => e.1 ++ e.2

/-- A token as it is read, which may lack the digits of its exponent. -/
structure IsScanned (t : NumberToken) : Prop where
  whole : IsDigits t.whole
  fraction : ∀ digits, t.fraction = some digits → IsDigits digits
  mark : ∀ e, t.exponent = some e → e.1 ∈ marks
  exponent : ∀ e, t.exponent = some e → ∀ c ∈ e.2, Decimal.isDigit c = true

theorem IsToken.isScanned {t : NumberToken} (h : t.IsToken) : t.IsScanned :=
  { whole := h.whole
    fraction := h.fraction
    mark := h.mark
    exponent := fun e he => (h.exponent e he).2 }

end NumberToken

open NumberToken (fractionText exponentText marks)

section Numbers

variable {rest : List Char}

theorem scanFraction_append {fraction : Option (List Char)}
    (hfraction : ∀ digits, fraction = some digits → IsDigits digits)
    (hdigit : ∀ c, rest.head? = some c → Decimal.isDigit c = false)
    (hpoint : rest.head? ≠ some '.') :
    scanFraction (fractionText fraction ++ rest) = (fraction, rest) := by
  cases fraction with
  | none =>
      rw [fractionText, Option.elim, List.nil_append, scanFraction.eq_def]
      split
      · exact absurd rfl hpoint
      · rfl
  | some digits =>
      rcases hfraction digits rfl with ⟨hne, hdigits⟩
      cases digits with
      | nil => exact absurd rfl hne
      | cons d more =>
          have hfirst : Decimal.isDigit d = true := hdigits d List.mem_cons_self
          have hspan := takeWhile_append_dropWhile hdigits hdigit
          rw [List.cons_append] at hspan
          rw [fractionText, Option.elim, List.cons_append, List.cons_append, scanFraction,
            if_pos hfirst, hspan.1, hspan.2]

theorem scanExponent_append {exponent : Option (List Char × List Char)}
    (hmark : ∀ e, exponent = some e → e.1 ∈ marks)
    (hdigits : ∀ e, exponent = some e → IsDigits e.2)
    (hdigit : ∀ c, rest.head? = some c → Decimal.isDigit c = false)
    (hletter : ∀ c, rest.head? = some c → c ≠ 'e' ∧ c ≠ 'E') :
    scanExponent (exponentText exponent ++ rest) = (exponent, rest) := by
  cases exponent with
  | none =>
      cases rest with
      | nil => rfl
      | cons c rest =>
          have hne : ¬ (c = 'e' ∨ c = 'E') := not_or.2 (hletter c rfl)
          exact if_neg hne
  | some e =>
      rcases e with ⟨mark, digits⟩
      rcases hdigits _ rfl with ⟨hne, hall⟩
      have hspan := takeWhile_append_dropWhile hall hdigit
      cases digits with
      | nil => exact absurd rfl hne
      | cons d more =>
          -- the first digit is no sign, so a mark without a sign stays without one
          have hsign : ¬ (d = '+' ∨ d = '-') := by
            have hd := hall d List.mem_cons_self
            rintro (rfl | rfl) <;> cases hd
          rw [List.cons_append] at hspan
          have hmarks := hmark _ rfl
          simp only [marks, List.mem_cons, List.not_mem_nil, or_false] at hmarks
          rcases hmarks with rfl | rfl | rfl | rfl | rfl | rfl <;>
            simp [exponentText, scanExponent, hsign, hspan.1, hspan.2]

/-- What may follow a number is neither a digit nor the letter of an exponent. -/
theorem Parted.not_digit (h : Parted rest) :
    ∀ c, rest.head? = some c → Decimal.isDigit c = false := by
  intro c hc
  cases hdigit : Decimal.isDigit c with
  | false => rfl
  | true => cases (h c hc).1.symm.trans (isNamePart_of_isDigit hdigit)

theorem Parted.not_letter (h : Parted rest) : ∀ c, rest.head? = some c → c ≠ 'e' ∧ c ≠ 'E' := by
  intro c hc
  have hpart := (h c hc).1
  constructor
  · rintro rfl
    exact absurd hpart (by decide +kernel)
  · rintro rfl
    exact absurd hpart (by decide +kernel)

theorem Parted.not_point (h : Parted rest) : rest.head? ≠ some '.' := fun hc => (h '.' hc).2 rfl

/-- An exponent begins with a letter. -/
theorem head?_exponentText {exponent : Option (List Char × List Char)}
    (hmark : ∀ e, exponent = some e → e.1 ∈ marks) {c : Char}
    (hc : (exponentText exponent ++ rest).head? = some c) :
    c = 'e' ∨ c = 'E' ∨ rest.head? = some c := by
  cases exponent with
  | none => exact Or.inr (Or.inr hc)
  | some e =>
      rcases e with ⟨mark, digits⟩
      have hmarks := hmark _ rfl
      simp only [marks, List.mem_cons, List.not_mem_nil, or_false] at hmarks
      rcases hmarks with rfl | rfl | rfl | rfl | rfl | rfl <;>
        · cases hc
          simp

theorem head?_fractionText {fraction : Option (List Char)} {c : Char}
    (hc : (fractionText fraction ++ rest).head? = some c) : c = '.' ∨ rest.head? = some c := by
  cases fraction with
  | none => exact Or.inr hc
  | some digits =>
      cases hc
      exact Or.inl rfl

/-- A number token is read as a whole, if its exponent is. -/
theorem scanNumber_append {t : NumberToken} (ht : t.IsScanned)
    (hexponent : scanExponent (exponentText t.exponent ++ rest) = (t.exponent, rest))
    (hrest : Parted rest) : scanNumber (t.text ++ rest) = (t, rest) := by
  rcases t with ⟨whole, fraction, exponent⟩
  have hdigit : ∀ c, (exponentText exponent ++ rest).head? = some c →
      Decimal.isDigit c = false := by
    intro c hc
    rcases head?_exponentText ht.mark hc with rfl | rfl | hc
    · decide
    · decide
    · exact hrest.not_digit c hc
  have hpoint : (exponentText exponent ++ rest).head? ≠ some '.' := by
    intro hc
    rcases head?_exponentText ht.mark hc with heq | heq | hc
    · cases heq
    · cases heq
    · exact hrest.not_point hc
  have hfraction := scanFraction_append ht.fraction hdigit hpoint
  have hafter : ∀ c, (fractionText fraction ++ (exponentText exponent ++ rest)).head? = some c →
      Decimal.isDigit c = false := by
    intro c hc
    rcases head?_fractionText hc with rfl | hc
    · decide
    · exact hdigit c hc
  have hwhole := takeWhile_append_dropWhile ht.whole.2 hafter
  have htext : NumberToken.text ⟨whole, fraction, exponent⟩ ++ rest =
      whole ++ (fractionText fraction ++ (exponentText exponent ++ rest)) := by
    simp [NumberToken.text, fractionText, exponentText]
  rw [htext, scanNumber, hwhole.1, hwhole.2]
  simp only [hfraction, hexponent]

theorem scanNumber_text {t : NumberToken} (ht : t.IsToken) (hrest : Parted rest) :
    scanNumber (t.text ++ rest) = (t, rest) :=
  scanNumber_append ht.isScanned
    (scanExponent_append ht.mark ht.exponent hrest.not_digit hrest.not_letter) hrest

/-- The text of a token by itself is read as the token, digits in its exponent or not. -/
theorem scanNumber_alone {t : NumberToken} (ht : t.IsScanned) : scanNumber t.text = (t, []) := by
  have hnone : Parted [] := fun _ hc => nomatch hc
  have hexponent : scanExponent (exponentText t.exponent ++ []) = (t.exponent, []) := by
    by_cases hdigits : ∀ e, t.exponent = some e → e.2 ≠ []
    · exact scanExponent_append ht.mark (fun e he => ⟨hdigits e he, ht.exponent e he⟩)
        hnone.not_digit hnone.not_letter
    · push Not at hdigits
      rcases hdigits with ⟨⟨mark, digits⟩, he, rfl⟩
      have hmark := ht.mark _ he
      simp only [marks, List.mem_cons, List.not_mem_nil, or_false] at hmark
      rw [he]
      rcases hmark with rfl | rfl | rfl | rfl | rfl | rfl <;> rfl
  have hread := scanNumber_append ht hexponent hnone
  rwa [List.append_nil] at hread

theorem of_scanFraction {s : List Char} {fraction : Option (List Char)}
    (h : scanFraction s = (fraction, rest)) :
    s = fractionText fraction ++ rest ∧ ∀ digits, fraction = some digits → IsDigits digits := by
  rw [scanFraction.eq_def] at h
  split at h
  · rename_i d s
    split at h
    · rename_i hdigit
      cases h
      refine ⟨?_, ?_⟩
      · rw [fractionText, Option.elim, List.cons_append, List.takeWhile_append_dropWhile]
      · intro digits hdigits
        cases hdigits
        refine ⟨?_, fun c hc => List.mem_takeWhile_imp hc⟩
        rw [List.takeWhile_cons_of_pos hdigit]
        exact List.cons_ne_nil _ _
    · cases h
      exact ⟨rfl, fun _ h => (nomatch h)⟩
  · cases h
    exact ⟨rfl, fun _ h => (nomatch h)⟩

theorem of_scanExponent {s : List Char} {exponent : Option (List Char × List Char)}
    (h : scanExponent s = (exponent, rest)) :
    s = exponentText exponent ++ rest ∧
      ∀ e, exponent = some e → e.1 ∈ marks ∧ ∀ c ∈ e.2, Decimal.isDigit c = true := by
  -- what follows the mark is a run of digits, up to the rest
  have hrun : ∀ mark s : List Char, mark ∈ marks →
      (some (mark, s.takeWhile Decimal.isDigit), s.dropWhile Decimal.isDigit) = (exponent, rest) →
      mark ++ s = exponentText exponent ++ rest ∧
        ∀ e, exponent = some e → e.1 ∈ marks ∧ ∀ c ∈ e.2, Decimal.isDigit c = true := by
    intro mark s hmark h
    cases h
    constructor
    · rw [exponentText, Option.elim, List.append_assoc, List.takeWhile_append_dropWhile]
    · intro e he
      cases he
      exact ⟨hmark, fun c hc => List.mem_takeWhile_imp hc⟩
  have hnone : ∀ {s : List Char}, (none, s) = (exponent, rest) →
      s = exponentText exponent ++ rest ∧
        ∀ e, exponent = some e → e.1 ∈ marks ∧ ∀ c ∈ e.2, Decimal.isDigit c = true := by
    intro s h
    cases h
    exact ⟨rfl, fun _ h => (nomatch h)⟩
  rw [scanExponent.eq_def] at h
  cases s with
  | nil => exact hnone h
  | cons c s =>
      simp only at h
      split at h
      · rename_i hletter
        split at h
        · rename_i sign s
          split at h
          · rename_i hsign
            refine hrun [c, sign] s ?_ h
            rcases hletter with rfl | rfl <;> rcases hsign with rfl | rfl <;> decide
          · refine hrun [c] (sign :: s) ?_ h
            rcases hletter with rfl | rfl <;> decide
        · refine hrun [c] [] ?_ h
          rcases hletter with rfl | rfl <;> decide
      · exact hnone h

/-- A token that has a value has digits in its exponent. -/
theorem NumberToken.exponent_ne_nil {t : NumberToken} {n : Number} (h : t.value? = some n) :
    ∀ e, t.exponent = some e → e.2 ≠ [] := by
  rintro ⟨mark, digits⟩ hexponent rfl
  simp [NumberToken.value?, hexponent] at h

/-- Whatever is read of a number, nothing of the text is lost. -/
theorem isScanned_of_scanNumber {c : Char} {s : List Char} {t : NumberToken}
    (hc : Decimal.isDigit c = true) (h : scanNumber (c :: s) = (t, rest)) :
    c :: s = t.text ++ rest ∧ t.IsScanned := by
  rcases hfraction : scanFraction ((c :: s).dropWhile Decimal.isDigit) with ⟨fraction, later⟩
  rcases hexponent : scanExponent later with ⟨exponent, last⟩
  simp only [scanNumber, hfraction, hexponent] at h
  cases h
  rcases of_scanFraction hfraction with ⟨hsplit, hdigits⟩
  rcases of_scanExponent hexponent with ⟨hlater, hmarked⟩
  have hwhole : (c :: s).takeWhile Decimal.isDigit ≠ [] := by
    rw [List.takeWhile_cons_of_pos hc]
    exact List.cons_ne_nil _ _
  constructor
  · calc c :: s
        = (c :: s).takeWhile Decimal.isDigit ++ (c :: s).dropWhile Decimal.isDigit :=
          List.takeWhile_append_dropWhile.symm
      _ = (c :: s).takeWhile Decimal.isDigit ++
            (fractionText fraction ++ (exponentText exponent ++ rest)) := by rw [hsplit, hlater]
      _ = _ := by simp [NumberToken.text, fractionText, exponentText]
  · exact
      { whole := ⟨hwhole, fun d hd => List.mem_takeWhile_imp hd⟩
        fraction := hdigits
        mark := fun e he => (hmarked e he).1
        exponent := fun e he => (hmarked e he).2 }

theorem of_scanNumber {c : Char} {s : List Char} {t : NumberToken} {n : Number}
    (hc : Decimal.isDigit c = true) (h : scanNumber (c :: s) = (t, rest))
    (hvalue : t.value? = some n) : c :: s = t.text ++ rest ∧ t.IsToken := by
  rcases isScanned_of_scanNumber hc h with ⟨hsplit, ht⟩
  exact ⟨hsplit,
    { whole := ht.whole
      fraction := ht.fraction
      mark := ht.mark
      exponent := fun e he => ⟨NumberToken.exponent_ne_nil hvalue e he, ht.exponent e he⟩ }⟩

end Numbers

/-! ## Names -/

section Names

variable {rest : List Char}

theorem Parted.dotted (h : Parted rest) (members : List (List Char)) :
    ∀ c, (dotted members ++ rest).head? = some c → isNamePart c = false := by
  intro c hc
  cases members with
  | nil => exact (h c hc).1
  | cons m members =>
      cases hc
      decide +kernel

theorem parsePath_dotted (hrest : Parted rest) {members : List (List Char)}
    (hmembers : ∀ m ∈ members, IsMember m) {fuel : Nat} (hfuel : members.length < fuel) :
    parsePath fuel (dotted members ++ rest) = .ok (members.map String.ofList, rest) := by
  induction members generalizing fuel with
  | nil =>
      cases fuel with
      | zero => omega
      | succ fuel =>
          rw [dotted, List.flatMap_nil, List.nil_append, parsePath.eq_def]
          split
          · rename_i heq
            cases heq
          · exact absurd rfl (hrest.not_point)
          · rfl
  | cons m members ih =>
      rcases List.forall_mem_cons.1 hmembers with ⟨⟨hne, hparts⟩, hothers⟩
      cases fuel with
      | zero => omega
      | succ fuel =>
          have hspan := takeWhile_append_dropWhile hparts (hrest.dotted members)
          have hsplit : dotted (m :: members) ++ rest = '.' :: (m ++ (dotted members ++ rest)) := by
            simp [dotted]
          have hnonempty : ¬ m.isEmpty = true := fun h => hne (List.isEmpty_iff.1 h)
          rw [hsplit, parsePath, hspan.1, hspan.2, if_neg hnonempty,
            ih hothers (Nat.lt_of_succ_lt_succ hfuel)]
          rfl

theorem of_parsePath {fuel : Nat} {s : List Char} {path : List String}
    (h : parsePath fuel s = .ok (path, rest)) :
    ∃ members, s = dotted members ++ rest ∧ (∀ m ∈ members, IsMember m) ∧
      path = members.map String.ofList := by
  induction fuel generalizing s path with
  | zero => cases h
  | succ fuel ih =>
      rw [parsePath.eq_def] at h
      split at h
      · cases h
      · rename_i _ s heq
        cases heq
        simp only at h
        split at h
        · cases h
        · rename_i hname
          rcases bind_eq_ok_iff.1 h with ⟨⟨later, last⟩, hlater, h⟩
          cases h
          rcases ih hlater with ⟨members, hs, hmembers, rfl⟩
          have hmember : IsMember (s.takeWhile isNamePart) :=
            ⟨fun hnil => hname (List.isEmpty_iff.2 hnil), fun c hc => List.mem_takeWhile_imp hc⟩
          refine ⟨s.takeWhile isNamePart :: members, ?_, List.forall_mem_cons.2 ⟨hmember, hmembers⟩,
            rfl⟩
          have hsplit : s = s.takeWhile isNamePart ++ (dotted members ++ last) := by
            rw [← hs, List.takeWhile_append_dropWhile]
          simpa [dotted] using hsplit
      · cases h
        exact ⟨[], rfl, fun _ hm => absurd hm List.not_mem_nil, rfl⟩

theorem constant?_eq_some_iff {s : List Char} {v : Value} :
    constant? (String.ofList s) = some v ↔ (s, v) ∈ reserved := by
  have hword : ∀ word : String, String.ofList s = word ↔ s = word.toList := by
    intro word
    constructor
    · rintro rfl
      exact String.toList_ofList.symm
    · rintro rfl
      exact String.ofList_toList
  simp only [constant?, hword, reserved, List.mem_cons, List.not_mem_nil, Prod.mk.injEq, or_false]
  constructor
  · intro h
    split at h
    · rename_i hs
      cases h
      exact Or.inl ⟨hs, rfl⟩
    · split at h
      · rename_i hs
        cases h
        exact Or.inr (Or.inl ⟨hs, rfl⟩)
      · split at h
        · rename_i hs
          cases h
          exact Or.inr (Or.inr ⟨hs, rfl⟩)
        · cases h
  · rintro (⟨rfl, rfl⟩ | ⟨rfl, rfl⟩ | ⟨rfl, rfl⟩)
    · rfl
    · rfl
    · rfl

theorem constant?_eq_none_iff {s : List Char} :
    constant? (String.ofList s) = none ↔ s ∉ reserved.map (·.1) := by
  constructor
  · intro hnone hin
    rcases List.mem_map.1 hin with ⟨⟨_, v⟩, hv, rfl⟩
    cases hnone.symm.trans (constant?_eq_some_iff.2 hv)
  · intro hout
    cases hsome : constant? (String.ofList s) with
    | none => rfl
    | some v => exact absurd (List.mem_map.2 ⟨_, constant?_eq_some_iff.1 hsome, rfl⟩) hout

theorem length_lt_of_dotted (members : List (List Char)) :
    members.length < (dotted members ++ rest).length + 1 := by
  induction members with
  | nil => simp
  | cons m members ih =>
      simp only [dotted, List.flatMap_cons, List.length_append, List.length_cons] at ih ⊢
      omega

theorem parseName_constant (hrest : Parted rest) {word : List Char} {v : Value}
    (hword : (word, v) ∈ reserved) : parseName (word ++ rest) = .ok (.literal v, rest) := by
  have hparts : word.all isNamePart = true := by
    simp only [reserved, List.mem_cons, List.not_mem_nil, Prod.mk.injEq, or_false] at hword
    rcases hword with ⟨rfl, -⟩ | ⟨rfl, -⟩ | ⟨rfl, -⟩ <;> decide +kernel
  have hspan := takeWhile_append_dropWhile (List.all_eq_true.1 hparts) (hrest.dotted [])
  have hpath : parsePath ((dotted [] ++ rest).length + 1) (dotted [] ++ rest) = .ok ([], rest) :=
    parsePath_dotted hrest (fun _ hm => absurd hm List.not_mem_nil) (length_lt_of_dotted [])
  simp only [dotted, List.flatMap_nil, List.nil_append] at hspan hpath
  rw [parseName, hspan.1, hspan.2, hpath]
  simp only [bind, Except.bind, constant?_eq_some_iff.2 hword]

/-- A name is read with all its members. -/
theorem parseName_variable (hrest : Parted rest) {word : List Char} (hword : IsName word)
    {members : List (List Char)} (hmembers : ∀ m ∈ members, IsMember m)
    (hfree : members = [] → word ∉ reserved.map (·.1)) :
    parseName (word ++ (dotted members ++ rest)) =
      .ok (.variable (String.ofList word) (members.map String.ofList), rest) := by
  have hparts : ∀ c ∈ word, isNamePart c = true := by
    rcases hword with ⟨first, more, rfl, hfirst, hmore⟩
    exact List.forall_mem_cons.2 ⟨isNamePart_of_isNameStart hfirst, hmore⟩
  have hspan := takeWhile_append_dropWhile hparts (hrest.dotted members)
  rw [parseName, hspan.1, hspan.2, parsePath_dotted hrest hmembers (length_lt_of_dotted members)]
  cases members with
  | nil => simp only [bind, Except.bind, List.map_nil, constant?_eq_none_iff.2 (hfree rfl)]
  | cons m members => rfl

theorem of_parseName {c : Char} {s : List Char} {e : Expr} (hc : isNameStart c = true)
    (h : parseName (c :: s) = .ok (e, rest)) :
    ∃ used, c :: s = used ++ rest ∧ Phrase.primary.Derives used e := by
  have hfirst := isNamePart_of_isNameStart hc
  rw [parseName, List.takeWhile_cons_of_pos hfirst, List.dropWhile_cons_of_pos hfirst] at h
  rcases bind_eq_ok_iff.1 h with ⟨⟨path, later⟩, hpath, h⟩
  rcases of_parsePath hpath with ⟨members, hs, hmembers, rfl⟩
  have hname : IsName (c :: s.takeWhile isNamePart) :=
    ⟨c, _, rfl, hc, fun d hd => List.mem_takeWhile_imp hd⟩
  have hsplit : c :: s = (c :: s.takeWhile isNamePart) ++ (dotted members ++ later) := by
    rw [← hs, List.cons_append, List.takeWhile_append_dropWhile]
  cases members with
  | nil =>
      cases hconstant : constant? (String.ofList (c :: s.takeWhile isNamePart)) with
      | some v =>
          simp only [List.map_nil, hconstant] at h
          cases h
          exact ⟨_, hsplit, .constant (constant?_eq_some_iff.1 hconstant)⟩
      | none =>
          simp only [List.map_nil, hconstant] at h
          cases h
          have hfree := constant?_eq_none_iff.1 hconstant
          refine ⟨_, ?_, .name hname hmembers fun _ => hfree⟩
          rw [List.append_assoc]
          exact hsplit
  | cons m members =>
      cases h
      refine ⟨_, ?_, .name hname hmembers fun hnil => (nomatch hnil)⟩
      rw [List.append_assoc]
      exact hsplit

end Names

end Statechart
