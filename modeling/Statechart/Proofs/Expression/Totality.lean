import Statechart.Proofs.Expression.Positions
import Statechart.Proofs.Expression.Termination

/-!
# Reading is total

Reading goes the way of parsing, phrase by phrase, and parsing is never cut short. So reading comes
to an end on every text, with the expression or the fault that parsing ends with, from boundary to
boundary and without a slice that the text does not have.

- `FollowsWithin`          : all phrases, for some amount of fuel
- `followsWithin`          : by induction on the fuel
- `Expression.parse_total` : whole sources
-/

namespace Statechart

namespace Input

open Cursor

/-! ## Operators -/

section Operators

variable {input : String}

/-- The first operator that comes next, among those of a list. -/
theorem follows_findM? (ops : List BinaryOp) (s : List Char) :
    Follows input (ops.findM? fun op => comesNext input op.symbol) s
      (.ok ((ops.findSome? fun op => if op.symbol.toList.isPrefixOf s then
        some (op, s.drop op.symbol.length) else none).map (·.1), s)) := by
  induction ops with
  | nil => exact follows_pure none s
  | cons op ops ih =>
      refine (follows_comesNext op.symbol s).step ?_
      rw [List.findSome?_cons]
      cases op.symbol.toList.isPrefixOf s with
      | true => exact follows_pure (some op) s
      | false => exact ih

theorem follows_operator? (level : Level) (s : List Char) :
    Follows input (operator? input level) s (.ok ((level.operator? s).map (·.1), s)) :=
  follows_findM? level.operators s

end Operators

/-! ## All phrases -/

/-- Reading comes to what parsing within some fuel comes to. -/
structure FollowsWithin (input : String) (fuel : Nat) : Prop where
  level : ∀ level s, Follows input (readLevel input level) s (parseLevel fuel level s)
  operand : ∀ level s, Follows input (readOperand input level) s (parseOperand fuel level s)
  tail : ∀ level left s,
    Follows input (readTail input level left) s (parseTail fuel level left s)
  unary : ∀ s, Follows input (readUnary input) s (parseUnary fuel s)
  /-- Blanks are skipped once more in front of a primary. -/
  primary : ∀ s,
    Follows input (readPrimary input) s (parsePrimary fuel (Statechart.skipBlanks s))
  items : ∀ s, Follows input (readItems input) s (parseItems fuel s)

section Steps

variable {input : String} {fuel : Nat}

theorem FollowsWithin.level_succ (h : FollowsWithin input fuel) (level : Level) (s : List Char) :
    Follows input (readLevel input level) s (parseLevel (fuel + 1) level s) := by
  rw [readLevel, parseLevel]
  exact (h.operand level s).bind fun left rest _ => h.tail level left rest

theorem FollowsWithin.operand_succ (h : FollowsWithin input fuel) (level : Level)
    (s : List Char) :
    Follows input (readOperand input level) s (parseOperand (fuel + 1) level s) := by
  rw [readOperand, parseOperand]
  cases level.tighter? with
  | some tighter => exact h.level tighter s
  | none => exact h.unary s

theorem FollowsWithin.tail_succ (h : FollowsWithin input fuel) (level : Level) (left : Expr)
    (s : List Char) :
    Follows input (readTail input level left) s (parseTail (fuel + 1) level left s) := by
  rw [readTail, parseTail]
  refine (follows_skipBlanks s).step ?_
  refine (follows_operator? level _).step ?_
  cases hop : level.operator? (Statechart.skipBlanks s) with
  | none => exact follows_pure left _
  | some found =>
      rcases found with ⟨op, rest⟩
      rcases of_operator? hop with ⟨-, hsplit⟩
      simp only [Option.map_some]
      rw [hsplit, utf8ByteSize_eq]
      refine (follows_advance op.symbol.toList rest).step ?_
      refine (h.operand level rest).bind fun right last _ => ?_
      exact h.tail level (.binary op left right) last

theorem FollowsWithin.unary_succ (h : FollowsWithin input fuel) (s : List Char) :
    Follows input (readUnary input) s (parseUnary (fuel + 1) s) := by
  -- a primary looks for blanks once more, and finds none
  have hprimary := h.primary (Statechart.skipBlanks s)
  rw [skipBlanks_skipBlanks] at hprimary
  rw [readUnary, parseUnary]
  refine (follows_skipBlanks s).step ?_
  refine (follows_peek _).step ?_
  split
  · rename_i hhead
    rcases List.head?_eq_some_iff.1 hhead with ⟨rest, hrest⟩
    rw [hrest]
    exact (follows_advance_char (by decide) rest).step (h.unary rest).map
  · rename_i hhead
    rcases List.head?_eq_some_iff.1 hhead with ⟨rest, hrest⟩
    rw [hrest]
    exact (follows_advance_char (by decide) rest).step (h.unary rest).map
  · rename_i hnot hnegate
    split
    · rename_i heq
      exact absurd (congrArg List.head? heq) hnot
    · rename_i heq
      exact absurd (congrArg List.head? heq) hnegate
    · exact hprimary

theorem FollowsWithin.group (h : FollowsWithin input fuel) (s : List Char) :
    Follows input (readGroup input) ('(' :: s) (parsePrimary (fuel + 1) ('(' :: s)) := by
  rw [readGroup, parsePrimary, if_pos rfl]
  refine (follows_advance_char (by decide) s).step ?_
  refine (h.level .disjunction s).bind fun inner rest _ => ?_
  simp only
  refine (follows_skipBlanks rest).step ?_
  refine (follows_peek _).step ?_
  split
  · rename_i hhead
    rcases List.head?_eq_some_iff.1 hhead with ⟨last, hlast⟩
    rw [hlast]
    exact (follows_advance_char (by decide) last).step (follows_pure inner last)
  · rename_i hhead
    split
    · rename_i heq
      exact absurd (congrArg List.head? heq) hhead
    · exact follows_fail rfl

theorem FollowsWithin.list (h : FollowsWithin input fuel) (s : List Char) :
    Follows input (readList input) ('[' :: s) (parsePrimary (fuel + 1) ('[' :: s)) := by
  rw [readList, parsePrimary, if_neg (by decide), if_pos rfl]
  refine (follows_advance_char (by decide) s).step ?_
  refine (follows_skipBlanks s).step ?_
  refine (follows_peek _).step ?_
  split
  · rename_i hhead
    rcases List.head?_eq_some_iff.1 hhead with ⟨last, hlast⟩
    rw [hlast]
    exact (follows_advance_char (by decide) last).step (follows_pure (Expr.list []) last)
  · rename_i hhead
    split
    · rename_i heq
      exact absurd (congrArg List.head? heq) hhead
    · exact (h.items _).map

theorem FollowsWithin.primary_succ (h : FollowsWithin input fuel) (s : List Char) :
    Follows input (readPrimary input) s
      (parsePrimary (fuel + 1) (Statechart.skipBlanks s)) := by
  rw [readPrimary]
  refine (follows_skipBlanks s).step ?_
  refine (follows_peek _).step ?_
  cases Statechart.skipBlanks s with
  | nil => exact follows_fail rfl
  | cons c rest =>
      simp only [List.head?_cons]
      split
      · rename_i hc
        subst hc
        exact h.group rest
      · rename_i hgroup
        split
        · rename_i hc
          subst hc
          exact h.list rest
        · rename_i hlist
          rw [parsePrimary, if_neg hgroup, if_neg hlist]
          split
          · rename_i hquote
            exact follows_readQuoted hquote rest
          · split
            · rename_i hdigit
              exact follows_readNumber hdigit rest
            · split
              · exact follows_readName (c :: rest)
              · refine follows_fail ?_
                simp [Stuck.reason, SyntaxFault.message]

theorem FollowsWithin.items_succ (h : FollowsWithin input fuel) (s : List Char) :
    Follows input (readItems input) s (parseItems (fuel + 1) s) := by
  rw [readItems, parseItems]
  refine (h.level .disjunction s).bind fun item rest _ => ?_
  simp only
  refine (follows_skipBlanks rest).step ?_
  refine (follows_peek _).step ?_
  split
  · rename_i hhead
    rcases List.head?_eq_some_iff.1 hhead with ⟨later, hlater⟩
    rw [hlater]
    exact (follows_advance_char (by decide) later).step (h.items later).map
  · rename_i hhead
    rcases List.head?_eq_some_iff.1 hhead with ⟨later, hlater⟩
    rw [hlater]
    exact (follows_advance_char (by decide) later).step (follows_pure [item] later)
  · rename_i hcomma hbracket
    split
    · rename_i heq
      exact absurd (congrArg List.head? heq) hcomma
    · rename_i heq
      exact absurd (congrArg List.head? heq) hbracket
    · exact follows_fail rfl

end Steps

theorem followsWithin (input : String) (fuel : Nat) : FollowsWithin input fuel := by
  induction fuel with
  | zero => constructor <;> intros <;> exact follows_exhausted
  | succ fuel ih =>
      exact
        { level := ih.level_succ, operand := ih.operand_succ, tail := ih.tail_succ
          unary := ih.unary_succ, primary := ih.primary_succ, items := ih.items_succ }

/-! ## Whole texts -/

theorem follows_readExpression (input : String) :
    Follows input (readExpression input) input.toList
      (Expr.parse input.toList >>= fun tree => .ok (tree, [])) := by
  have hempty : input.isEmpty = input.toList.isEmpty := by
    rw [← isEmpty_ofList, String.ofList_toList]
  rw [readExpression, Expr.parse, hempty]
  split
  · exact follows_fail rfl
  · rw [bind_assoc]
    refine ((followsWithin input _).level .disjunction input.toList).bind fun tree rest _ => ?_
    refine (follows_skipBlanks rest).step ?_
    refine follows_offset fun front hfront => ?_
    have hsize : input.utf8ByteSize =
        byteSize front + byteSize (Statechart.skipBlanks rest) := by
      rw [utf8ByteSize_eq, hfront, byteSize_append]
    simp only
    cases hnext : Statechart.skipBlanks rest with
    | nil =>
        rw [hnext, byteSize, Nat.add_zero] at hsize
        rw [if_pos (Nat.le_of_eq hsize)]
        exact follows_pure tree []
    | cons c later =>
        rw [hnext] at hsize hfront
        have hpos := byteSize_pos c later
        -- the slice that is quoted goes from the cursor to the end
        have hend : input.toList = front ++ ((c :: later) ++ []) := by
          rw [List.append_nil]
          exact hfront
        rw [if_neg (by omega), hsize, ← byteSize_append]
        exact (follows_slice hend _).step (follows_fail rfl)

end Input

/-- Reading a source comes to an end, and to what parsing it comes to. -/
theorem Cursor.parse_eq (source : String) :
    ∃ c : Cursor, c.IsSound (trimmed source) ∧
      parse source =
        some ((Expression.parse source).mapError fun fault => .invalid fault.message, c) := by
  have htext : (trimmed source).toList = trimBlanks source.toList := String.toList_ofList
  have hread := Input.follows_readExpression (trimmed source) start (at_start _)
  unfold parse Expression.parse
  simp only
  rw [← htext]
  cases hparsed : Expr.parse (trimmed source).toList with
  | ok tree =>
      rw [hparsed] at hread
      rcases hread with ⟨c, houtcome, hc⟩
      exact ⟨c, hc.sound, Reading.outcome_bind_ok houtcome⟩
  | error stuck =>
      rw [hparsed] at hread
      rcases hread (Expr.parse_lasts _ stuck hparsed) with ⟨c, houtcome, hc⟩
      exact ⟨c, hc, Reading.outcome_bind_error houtcome⟩

/-- On every source reading comes to an end, with what parsing ends with: an expression, or the
message of a fault, which is never that the search was cut short. All the way the cursor is
within the text and between characters, and so are the ends of all slices. -/
theorem Expression.parse_total (source : String) :
    ∃ c : Cursor,
      ((∃ e, parse source = .ok e ∧ Cursor.parse source = some (.ok e, c)) ∨
        (∃ fault, parse source = .error fault ∧ fault.cause ≠ .exhausted ∧
          Cursor.parse source = some (.error (.invalid fault.message), c))) ∧
      (∀ p ∈ c.visited, p ≤ (Cursor.trimmed source).utf8ByteSize ∧
        Text.IsBoundary (Cursor.trimmed source) p) ∧
      (∀ ends ∈ c.sliced, ends.1 ≤ ends.2 ∧ ends.2 ≤ (Cursor.trimmed source).utf8ByteSize ∧
        Text.IsBoundary (Cursor.trimmed source) ends.1 ∧
        Text.IsBoundary (Cursor.trimmed source) ends.2) := by
  rcases Cursor.parse_eq source with ⟨c, hc, hread⟩
  refine ⟨c, ?_, fun p hp => ⟨(hc.visited p hp).le, hc.visited p hp⟩, ?_⟩
  · cases hparse : parse source with
    | ok e =>
        rw [hparse] at hread
        exact Or.inl ⟨e, rfl, hread⟩
    | error fault =>
        rw [hparse] at hread
        exact Or.inr ⟨fault, rfl, cause_ne_exhausted hparse, hread⟩
  · intro ends hends
    rcases hc.sliced ends hends with ⟨hstart, hstop, hle⟩
    exact ⟨hle, hstop.le, hstart, hstop⟩

end Statechart
