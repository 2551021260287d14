import Statechart.Proofs.Expression.Completeness

/-!
# Parsing comes to an end

The fuel of a parse lasts, whatever the text: between two tokens a parse goes down through the
levels at most once, and every token takes a character.

- `Lasts`             : an outcome that was not cut short
- `LastsWithin`       : how much fuel lasts for each of the parsers
- `lastsWithin`       : by induction on the fuel
- `Expr.parse_lasts`, `Expression.cause_ne_exhausted` : whole texts
-/

namespace Statechart

/-! ## Outcomes -/

/-- A parse that was not cut short. -/
def Lasts {α : Type} (outcome : Parsing α) : Prop :=
  ∀ stuck, outcome = .error stuck → stuck.cause ≠ .exhausted

section Lasts

variable {α β : Type}

@[simp]
theorem lasts_ok (a : α) : Lasts (.ok a) := fun _ h => nomatch h

theorem lasts_error_iff {stuck : Stuck} :
    Lasts (.error stuck : Parsing α) ↔ stuck.cause ≠ .exhausted := by
  constructor
  · exact fun h => h stuck rfl
  · intro h _ heq
    cases heq
    exact h

theorem Lasts.bind {outcome : Parsing α} {next : α → Parsing β} (h : Lasts outcome)
    (hnext : ∀ a, outcome = .ok a → Lasts (next a)) : Lasts (outcome >>= next) := by
  cases outcome with
  | error stuck =>
      intro _ heq
      cases heq
      exact h stuck rfl
  | ok a => exact hnext a rfl

end Lasts

/-! ## What is left of a text -/

theorem length_skipBlanks_le (s : List Char) : (skipBlanks s).length ≤ s.length :=
  List.length_dropWhile_le Text.isBlank s

theorem Phrase.Reads.length_le {p : Phrase} {s rest : List Char} {e : Expr}
    (h : p.Reads s e rest) : rest.length ≤ s.length := by
  rcases h with ⟨used, gap, rfl, -, -⟩
  simp only [List.length_append]
  omega

/-- An operator takes at least a character. -/
theorem length_lt_of_operator? {level : Level} {s rest : List Char} {op : BinaryOp}
    (h : level.operator? s = some (op, rest)) : rest.length < s.length := by
  rcases of_operator? h with ⟨-, rfl⟩
  rcases op.exists_symbol with ⟨c, t, hsymbol⟩
  rw [hsymbol]
  simp only [List.cons_append, List.length_cons, List.length_append]
  omega

/-! ## Tokens -/

theorem lasts_parseNumber (s : List Char) : Lasts (parseNumber s) := by
  rw [parseNumber]
  simp only
  split
  · exact lasts_ok _
  · exact lasts_error_iff.2 (by simp)

theorem lasts_parsePath {fuel : Nat} {s : List Char} (hfuel : s.length < fuel) :
    Lasts (parsePath fuel s) := by
  induction fuel generalizing s with
  | zero => omega
  | succ fuel ih =>
      rw [parsePath.eq_def]
      split
      · rename_i heq
        cases heq
      · rename_i _ s heq
        cases heq
        simp only
        split
        · exact lasts_error_iff.2 (by simp)
        · have hlater : (s.dropWhile isNamePart).length ≤ s.length :=
            List.length_dropWhile_le isNamePart s
          simp only [List.length_cons] at hfuel
          exact (ih (by omega)).bind fun _ _ => lasts_ok _
      · exact lasts_ok _

theorem lasts_parseName (s : List Char) : Lasts (parseName s) := by
  refine (lasts_parsePath (Nat.lt_succ_self _)).bind fun found _ => ?_
  rcases found with ⟨path, rest⟩
  simp only
  split <;> exact lasts_ok _

/-! ## All parsers -/

/-- How much fuel lasts: the descent through all levels for each character, and what is left of
the descent in front of the first one. -/
structure LastsWithin (fuel : Nat) : Prop where
  level : ∀ {level s}, 20 * s.length + (2 * level.height + 4) ≤ fuel →
    Lasts (parseLevel fuel level s)
  operand : ∀ {level s}, 20 * s.length + (2 * level.height + 3) ≤ fuel →
    Lasts (parseOperand fuel level s)
  tail : ∀ {level left s}, 20 * s.length + 1 ≤ fuel → Lasts (parseTail fuel level left s)
  unary : ∀ {s}, 20 * s.length + 2 ≤ fuel → Lasts (parseUnary fuel s)
  primary : ∀ {s}, 20 * s.length + 1 ≤ fuel → Lasts (parsePrimary fuel s)
  items : ∀ {s}, 20 * s.length + 15 ≤ fuel → Lasts (parseItems fuel s)

section Steps

variable {fuel : Nat} {level : Level} {s : List Char}

theorem LastsWithin.level_succ (h : LastsWithin fuel)
    (hfuel : 20 * s.length + (2 * level.height + 4) ≤ fuel + 1) :
    Lasts (parseLevel (fuel + 1) level s) := by
  rw [parseLevel]
  refine (h.operand (by omega)).bind fun found hfound => ?_
  rcases found with ⟨left, rest⟩
  have hrest := ((soundWithin fuel).operand hfound).length_le
  exact h.tail (by omega)

theorem LastsWithin.operand_succ (h : LastsWithin fuel)
    (hfuel : 20 * s.length + (2 * level.height + 3) ≤ fuel + 1) :
    Lasts (parseOperand (fuel + 1) level s) := by
  rw [parseOperand]
  split
  · rename_i tighter htighter
    have hheight := Level.height_of_tighter? htighter
    exact h.level (by omega)
  · exact h.unary (by omega)

theorem LastsWithin.tail_succ (h : LastsWithin fuel) {left : Expr}
    (hfuel : 20 * s.length + 1 ≤ fuel + 1) : Lasts (parseTail (fuel + 1) level left s) := by
  rw [parseTail]
  split
  · exact lasts_ok _
  · rename_i op later hop
    have hlater := length_lt_of_operator? hop
    have hskip := length_skipBlanks_le s
    have hheight := level.height_le
    refine (h.operand (by omega)).bind fun found hfound => ?_
    rcases found with ⟨right, rest⟩
    have hrest := ((soundWithin fuel).operand hfound).length_le
    exact h.tail (by omega)

theorem LastsWithin.unary_succ (h : LastsWithin fuel)
    (hfuel : 20 * s.length + 2 ≤ fuel + 1) : Lasts (parseUnary (fuel + 1) s) := by
  have hskip := length_skipBlanks_le s
  rw [parseUnary]
  split
  · rename_i later heq
    rw [heq, List.length_cons] at hskip
    exact (h.unary (by omega)).bind fun _ _ => lasts_ok _
  · rename_i later heq
    rw [heq, List.length_cons] at hskip
    exact (h.unary (by omega)).bind fun _ _ => lasts_ok _
  · exact h.primary (by omega)

theorem LastsWithin.primary_succ (h : LastsWithin fuel)
    (hfuel : 20 * s.length + 1 ≤ fuel + 1) : Lasts (parsePrimary (fuel + 1) s) := by
  cases s with
  | nil => exact lasts_error_iff.2 (by simp)
  | cons c s =>
      rw [List.length_cons] at hfuel
      have hheight : Level.disjunction.height = 5 := rfl
      have hskip := length_skipBlanks_le s
      rw [parsePrimary]
      split
      · refine (h.level (by omega)).bind fun found _ => ?_
        rcases found with ⟨inner, rest⟩
        simp only
        split
        · exact lasts_ok _
        · exact lasts_error_iff.2 (by simp)
      · split
        · split
          · exact lasts_ok _
          · exact (h.items (by omega)).bind fun _ _ => lasts_ok _
        · split
          · split
            · exact lasts_ok _
            · exact lasts_error_iff.2 (by simp)
          · split
            · exact lasts_parseNumber _
            · split
              · exact lasts_parseName _
              · exact lasts_error_iff.2 (by simp)

theorem LastsWithin.items_succ (h : LastsWithin fuel)
    (hfuel : 20 * s.length + 15 ≤ fuel + 1) : Lasts (parseItems (fuel + 1) s) := by
  have hheight : Level.disjunction.height = 5 := rfl
  rw [parseItems]
  refine (h.level (by omega)).bind fun found hfound => ?_
  rcases found with ⟨item, rest⟩
  have hrest := ((soundWithin fuel).level hfound).length_le
  have hskip := length_skipBlanks_le rest
  simp only
  split
  · rename_i later heq
    rw [heq, List.length_cons] at hskip
    exact (h.items (by omega)).bind fun _ _ => lasts_ok _
  · exact lasts_ok _
  · exact lasts_error_iff.2 (by simp)

end Steps

theorem lastsWithin (fuel : Nat) : LastsWithin fuel := by
  induction fuel with
  | zero => constructor <;> intros <;> omega
  | succ fuel ih =>
      exact
        { level := ih.level_succ, operand := ih.operand_succ, tail := ih.tail_succ
          unary := ih.unary_succ, primary := ih.primary_succ, items := ih.items_succ }

/-! ## Whole texts -/

theorem Expr.parse_lasts (s : List Char) : Lasts (Expr.parse s) := by
  unfold Expr.parse
  split
  · exact lasts_error_iff.2 (by simp)
  · have hfuel : 20 * s.length + (2 * Level.disjunction.height + 4) ≤ parseFuel s := by
      rw [parseFuel, Level.height]
      omega
    refine ((lastsWithin _).level hfuel).bind fun found _ => ?_
    rcases found with ⟨tree, rest⟩
    simp only
    split
    · exact lasts_ok _
    · exact lasts_error_iff.2 (by simp)

theorem Expression.cause_ne_exhausted {source : String} {fault : SyntaxFault}
    (h : Expression.parse source = .error fault) : fault.cause ≠ .exhausted := by
  unfold Expression.parse at h
  simp only at h
  split at h
  · cases h
  · rename_i stuck hparse
    cases h
    exact Expr.parse_lasts _ stuck hparse

end Statechart
