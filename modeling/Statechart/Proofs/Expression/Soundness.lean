import Statechart.Proofs.Expression.Tokens

/-!
# What is parsed is derivable

Whatever the amount of fuel, a successful parse has read a phrase of the grammar, with the tree
that it returns.

- `Phrase.Reads`        : a phrase at the beginning of a text, blanks after it included
- `of_operator?`        : the operator found is one of the level
- `SoundWithin`         : soundness of all parsers, for some amount of fuel
- `soundWithin`         : by induction on the fuel
- `isExpression_of_parse` : whole texts
-/

namespace Statechart

/-! ## Reading a phrase -/

/-- A text begins with a phrase; blanks after the phrase may have been skipped. -/
def Phrase.Reads (p : Phrase) (s : List Char) (e : Expr) (rest : List Char) : Prop :=
  ∃ used gap, s = used ++ (gap ++ rest) ∧ AllBlank gap ∧ p.Derives used e

theorem AllBlank.append {gap gap' : List Char} (h : AllBlank gap) (h' : AllBlank gap') :
    AllBlank (gap ++ gap') := by
  intro c hc
  rcases List.mem_append.1 hc with hc | hc
  · exact h c hc
  · exact h' c hc

/-- There may be blanks in front of every phrase that has its own first token after blanks. -/
theorem Phrase.Derives.blanks {p : Phrase} {s gap : List Char} {e : Expr} (h : p.Derives s e)
    (hgap : AllBlank gap) : p ≠ .primary → p.Derives (gap ++ s) e := by
  induction h with
  | operand _ ih => exact fun _ => .operand (ih nofun)
  | binary hop _ hbetween hright ih _ =>
      intro _
      rw [← List.append_assoc]
      exact .binary hop (ih nofun) hbetween hright
  | tighter htighter _ ih => exact fun _ => .tighter htighter (ih nofun)
  | tightest htightest _ ih => exact fun _ => .tightest htightest (ih nofun)
  | not hbefore hoperand _ =>
      intro _
      rw [← List.append_assoc]
      exact .not (hgap.append hbefore) hoperand
  | negate hbefore hoperand _ =>
      intro _
      rw [← List.append_assoc]
      exact .negate (hgap.append hbefore) hoperand
  | primary hbefore hprimary _ =>
      intro _
      rw [← List.append_assoc]
      exact .primary (hgap.append hbefore) hprimary
  | lastItem _ hafter ih =>
      intro _
      rw [← List.append_assoc]
      exact .lastItem (ih nofun) hafter
  | item _ hafter hothers ih _ =>
      intro _
      rw [← List.append_assoc]
      exact .item (ih nofun) hafter hothers
  | _ => exact fun hne => absurd rfl hne

theorem of_operator? {level : Level} {s rest : List Char} {op : BinaryOp}
    (h : level.operator? s = some (op, rest)) :
    op ∈ level.operators ∧ s = op.symbol.toList ++ rest := by
  rcases List.exists_of_findSome?_eq_some h with ⟨found, hfound, heq⟩
  split at heq
  · rename_i hbegins
    cases heq
    rcases List.isPrefixOf_iff_prefix.1 hbegins with ⟨later, rfl⟩
    refine ⟨hfound, ?_⟩
    rw [← String.length_toList, List.drop_left]
  · cases heq

/-! ## All parsers -/

/-- What the parsers return with some amount of fuel is derivable. -/
structure SoundWithin (fuel : Nat) : Prop where
  level : ∀ {level s e rest}, parseLevel fuel level s = .ok (e, rest) →
    (Phrase.level level).Reads s e rest
  operand : ∀ {level s e rest}, parseOperand fuel level s = .ok (e, rest) →
    (Phrase.operand level).Reads s e rest
  /-- The operators of a level, after an operand and what is already joined to it. -/
  tail : ∀ {level before gap left s e rest}, (Phrase.level level).Derives before left →
    AllBlank gap → parseTail fuel level left s = .ok (e, rest) →
    (Phrase.level level).Reads (before ++ (gap ++ s)) e rest
  unary : ∀ {s e rest}, parseUnary fuel s = .ok (e, rest) →
    ∃ used, s = used ++ rest ∧ Phrase.unary.Derives used e
  primary : ∀ {s e rest}, parsePrimary fuel s = .ok (e, rest) →
    ∃ used, s = used ++ rest ∧ Phrase.primary.Derives used e
  items : ∀ {s es rest}, parseItems fuel s = .ok (es, rest) →
    ∃ used, s = used ++ ']' :: rest ∧ Phrase.items.Derives used (.list es)

section Steps

variable {fuel : Nat} {level : Level} {s rest : List Char} {e : Expr}

theorem SoundWithin.level_succ (h : SoundWithin fuel)
    (hparse : parseLevel (fuel + 1) level s = .ok (e, rest)) :
    (Phrase.level level).Reads s e rest := by
  rw [parseLevel] at hparse
  rcases bind_eq_ok_iff.1 hparse with ⟨⟨left, later⟩, hleft, htail⟩
  rcases h.operand hleft with ⟨used, gap, rfl, hgap, hused⟩
  exact h.tail (.operand hused) hgap htail

theorem SoundWithin.operand_succ (h : SoundWithin fuel)
    (hparse : parseOperand (fuel + 1) level s = .ok (e, rest)) :
    (Phrase.operand level).Reads s e rest := by
  rw [parseOperand] at hparse
  split at hparse
  · rename_i tighter htighter
    rcases h.level hparse with ⟨used, gap, rfl, hgap, hused⟩
    exact ⟨used, gap, rfl, hgap, .tighter htighter hused⟩
  · rename_i htightest
    rcases h.unary hparse with ⟨used, rfl, hused⟩
    exact ⟨used, [], rfl, fun _ hc => absurd hc List.not_mem_nil, .tightest htightest hused⟩

theorem SoundWithin.tail_succ (h : SoundWithin fuel) {before gap : List Char} {left : Expr}
    (hbefore : (Phrase.level level).Derives before left) (hgap : AllBlank gap)
    (hparse : parseTail (fuel + 1) level left s = .ok (e, rest)) :
    (Phrase.level level).Reads (before ++ (gap ++ s)) e rest := by
  rcases exists_gap s with ⟨skipped, hskipped, hs⟩
  rw [parseTail] at hparse
  split at hparse
  · cases hparse
    refine ⟨before, gap ++ skipped, ?_, hgap.append hskipped, hbefore⟩
    rw [List.append_assoc, ← hs]
  · rename_i op later hop
    rcases of_operator? hop with ⟨hmem, hsplit⟩
    rcases bind_eq_ok_iff.1 hparse with ⟨⟨right, last⟩, hright, htail⟩
    rcases h.operand hright with ⟨used, gap', rfl, hgap', hused⟩
    -- the right side is joined, and further operators follow the longer left side
    have hjoined := Phrase.Derives.binary hmem hbefore (hgap.append hskipped) hused
    have hreads := h.tail hjoined hgap' htail
    rw [hs, hsplit]
    simpa only [List.append_assoc] using hreads

theorem SoundWithin.unary_succ (h : SoundWithin fuel)
    (hparse : parseUnary (fuel + 1) s = .ok (e, rest)) :
    ∃ used, s = used ++ rest ∧ Phrase.unary.Derives used e := by
  rcases exists_gap s with ⟨gap, hgap, hs⟩
  rw [parseUnary] at hparse
  split at hparse
  · rename_i later hskip
    rcases bind_eq_ok_iff.1 hparse with ⟨⟨operand, last⟩, hoperand, hok⟩
    cases hok
    rcases h.unary hoperand with ⟨used, rfl, hused⟩
    refine ⟨gap ++ '!' :: used, ?_, .not hgap hused⟩
    rw [hs, hskip, List.append_assoc, List.cons_append]
  · rename_i later hskip
    rcases bind_eq_ok_iff.1 hparse with ⟨⟨operand, last⟩, hoperand, hok⟩
    cases hok
    rcases h.unary hoperand with ⟨used, rfl, hused⟩
    refine ⟨gap ++ '-' :: used, ?_, .negate hgap hused⟩
    rw [hs, hskip, List.append_assoc, List.cons_append]
  · rcases h.primary hparse with ⟨used, hskip, hused⟩
    refine ⟨gap ++ used, ?_, .primary hgap hused⟩
    rw [hs, hskip, List.append_assoc]

theorem of_parseNumber {c : Char} (hc : Decimal.isDigit c = true)
    (hparse : parseNumber (c :: s) = .ok (e, rest)) :
    ∃ used, c :: s = used ++ rest ∧ Phrase.primary.Derives used e := by
  rcases hscan : scanNumber (c :: s) with ⟨token, later⟩
  rw [parseNumber, hscan] at hparse
  simp only at hparse
  split at hparse
  · rename_i n hvalue
    cases hparse
    rcases of_scanNumber hc hscan hvalue with ⟨hsplit, htoken⟩
    exact ⟨token.text, hsplit, .number htoken hvalue⟩
  · cases hparse

theorem SoundWithin.primary_succ (h : SoundWithin fuel)
    (hparse : parsePrimary (fuel + 1) s = .ok (e, rest)) :
    ∃ used, s = used ++ rest ∧ Phrase.primary.Derives used e := by
  cases s with
  | nil => cases hparse
  | cons c s =>
      rw [parsePrimary] at hparse
      split at hparse
      · rename_i hc
        subst hc
        rcases bind_eq_ok_iff.1 hparse with ⟨⟨inner, later⟩, hinner, hclose⟩
        rcases h.level hinner with ⟨used, gap, rfl, hgap, hused⟩
        rcases exists_gap later with ⟨skipped, hskipped, hlater⟩
        simp only at hclose
        split at hclose
        · rename_i last hskip
          cases hclose
          refine ⟨_, ?_, .group hused (hgap.append hskipped)⟩
          rw [hlater, hskip]
          simp
        · cases hclose
      · split at hparse
        · rename_i hc
          subst hc
          rcases exists_gap s with ⟨gap, hgap, hs⟩
          split at hparse
          · rename_i later hskip
            cases hparse
            refine ⟨_, ?_, .emptyList hgap⟩
            rw [hs, hskip]
            simp
          · rcases bind_eq_ok_iff.1 hparse with ⟨⟨items, later⟩, hitems, hok⟩
            cases hok
            rcases h.items hitems with ⟨used, hskip, hused⟩
            refine ⟨_, ?_, .list (hused.blanks hgap nofun)⟩
            rw [hs, hskip]
            simp
        · split at hparse
          · rename_i hquote
            have hbackslash : c ≠ '\\' := by
              rintro rfl
              rcases hquote with h | h <;> cases h
            split at hparse
            · rename_i text later htext
              cases hparse
              rcases of_parseText hbackslash htext with ⟨body, rfl, hbody⟩
              refine ⟨_, ?_, .text hquote hbody⟩
              simp
            · cases hparse
          · split at hparse
            · rename_i hdigit
              exact of_parseNumber hdigit hparse
            · split at hparse
              · rename_i hname
                exact of_parseName hname hparse
              · cases hparse

theorem SoundWithin.items_succ (h : SoundWithin fuel) {es : List Expr}
    (hparse : parseItems (fuel + 1) s = .ok (es, rest)) :
    ∃ used, s = used ++ ']' :: rest ∧ Phrase.items.Derives used (.list es) := by
  rw [parseItems] at hparse
  rcases bind_eq_ok_iff.1 hparse with ⟨⟨item, later⟩, hitem, hnext⟩
  rcases h.level hitem with ⟨used, gap, rfl, hgap, hused⟩
  rcases exists_gap later with ⟨skipped, hskipped, hlater⟩
  simp only at hnext
  split at hnext
  · rename_i last hskip
    rcases bind_eq_ok_iff.1 hnext with ⟨⟨items, end_⟩, hitems, hok⟩
    cases hok
    rcases h.items hitems with ⟨others, rfl, hothers⟩
    refine ⟨_, ?_, .item hused (hgap.append hskipped) hothers⟩
    rw [hlater, hskip]
    simp
  · rename_i last hskip
    cases hnext
    refine ⟨_, ?_, .lastItem hused (hgap.append hskipped)⟩
    rw [hlater, hskip]
    simp
  · cases hnext

end Steps

theorem soundWithin (fuel : Nat) : SoundWithin fuel := by
  induction fuel with
  | zero =>
      -- without fuel nothing is returned
      constructor <;> intros <;> contradiction
  | succ fuel ih =>
      exact
        { level := ih.level_succ, operand := ih.operand_succ, tail := ih.tail_succ
          unary := ih.unary_succ, primary := ih.primary_succ, items := ih.items_succ }

/-! ## Whole texts -/

theorem head?_skipBlanks {s : List Char} {c : Char} (h : (skipBlanks s).head? = some c) :
    Text.isBlank c = false := by
  have hhead := List.head?_dropWhile_not Text.isBlank s
  rw [show s.dropWhile Text.isBlank = skipBlanks s from rfl, h] at hhead
  exact hhead

/-- A text without blanks at its ends. -/
structure IsTrimmed (s : List Char) : Prop where
  head : ∀ c, s.head? = some c → Text.isBlank c = false
  last : ∀ c, s.getLast? = some c → Text.isBlank c = false

/-- Trimming takes the blanks off both ends, and nothing else. -/
theorem trimBlanks_spec (s : List Char) :
    IsTrimmed (trimBlanks s) ∧ ∃ before after, s = before ++ (trimBlanks s ++ after) ∧
      AllBlank before ∧ AllBlank after := by
  rcases exists_gap s with ⟨before, hbefore, hs⟩
  rcases exists_gap (skipBlanks s).reverse with ⟨after, hafter, hreverse⟩
  have hsplit : skipBlanks s = trimBlanks s ++ after.reverse := by
    rw [trimBlanks, ← List.reverse_append, ← hreverse, List.reverse_reverse]
  constructor
  · constructor
    · intro c hc
      -- what is left of the text begins where the text without its first blanks begins
      refine head?_skipBlanks (s := s) ?_
      rw [hsplit, List.head?_append, hc]
      rfl
    · intro c hc
      rw [trimBlanks, List.getLast?_reverse] at hc
      exact head?_skipBlanks hc
  · refine ⟨before, after.reverse, ?_, hbefore, fun c hc => hafter c (List.mem_reverse.1 hc)⟩
    rw [← hsplit]
    exact hs

/-- Blanks at the end of a text without blanks there are none. -/
theorem IsTrimmed.eq_nil {s gap : List Char} (h : IsTrimmed (s ++ gap)) (hgap : AllBlank gap) :
    gap = [] := by
  cases hlast : gap.getLast? with
  | none => exact List.getLast?_eq_none_iff.1 hlast
  | some c =>
      have hblank : Text.isBlank c = true := hgap c (List.mem_of_getLast? hlast)
      have hfree : Text.isBlank c = false := h.last c (by rw [List.getLast?_append, hlast]; rfl)
      cases hblank.symm.trans hfree

theorem isExpression_of_parse {s : List Char} (htrimmed : IsTrimmed s) {e : Expr}
    (h : Expr.parse s = .ok e) : IsExpression s e := by
  unfold Expr.parse at h
  split at h
  · cases h
  · rcases bind_eq_ok_iff.1 h with ⟨⟨tree, rest⟩, hparse, hend⟩
    rcases (soundWithin _).level hparse with ⟨used, gap, rfl, hgap, hused⟩
    rcases exists_gap rest with ⟨skipped, hskipped, hrest⟩
    simp only at hend
    split at hend
    · rename_i hskip
      cases hend
      rw [hskip, List.append_nil] at hrest
      subst hrest
      have hnone := htrimmed.eq_nil (hgap.append hskipped)
      rw [hnone, List.append_nil]
      exact hused
    · cases hend

end Statechart
