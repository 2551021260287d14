import Statechart.Proofs.Expression.Cursor
import Statechart.Proofs.Expression.Tokens

/-!
# Where a cursor stands

Reading from a boundary in front of some rest of a text is parsing that rest: steps of as many
bytes as the characters have lead from boundary to boundary, and between boundaries there are
slices. Parsing that was cut short says nothing about reading.

- `Cursor.IsSound`, `Cursor.At` : only boundaries so far, and in front of which rest
- `Follows`      : reading that comes to what parsing comes to
- `Follows.bind` : step by step
- `follows_readQuoted`, `follows_readNumber`, `follows_readName` : tokens
-/

namespace Statechart

/-! ## Cursors at boundaries -/

namespace Cursor

/-- Every position so far is a boundary, and the text has every slice so far. -/
structure IsSound (input : String) (c : Cursor) : Prop where
  visited : ∀ p ∈ c.visited, Text.IsBoundary input p
  sliced : ∀ ends ∈ c.sliced, Text.IsBoundary input ends.1 ∧ Text.IsBoundary input ends.2 ∧
    ends.1 ≤ ends.2

/-- The cursor stands in front of a rest of the text. -/
structure At (input : String) (rest : List Char) (c : Cursor) : Prop where
  place : ∃ front, input.toList = front ++ rest ∧ c.position = byteSize front
  sound : c.IsSound input

theorem at_start (input : String) : start.At input input.toList := by
  constructor
  · exact ⟨[], rfl, rfl⟩
  · constructor
    · intro p hp
      cases List.mem_singleton.1 hp
      exact String.Pos.Raw.isValid_zero
    · intro ends hends
      cases hends

end Cursor

/-- What is said of a fault, by what is left of the text. -/
def Stuck.reason (input : String) (stuck : Stuck) : String :=
  SyntaxFault.message
    ⟨stuck.cause, byteSize input.toList - byteSize stuck.rest, String.ofList stuck.rest⟩

/-- An outcome of reading that is the outcome of parsing. -/
def Agrees {α : Type} (input : String) :
    Parsing (α × List Char) → Option (Except Halt α × Cursor) → Prop
  | .ok (a, rest), outcome => ∃ c, outcome = some (.ok a, c) ∧ c.At input rest
  | .error stuck, outcome => stuck.cause ≠ .exhausted →
      ∃ c, outcome = some (.error (.invalid (stuck.reason input)), c) ∧ c.IsSound input

/-- In front of a rest of the text, reading comes to what parsing the rest comes to. -/
def Follows {α : Type} (input : String) (m : Reading α) (s : List Char)
    (parsed : Parsing (α × List Char)) : Prop :=
  ∀ c : Cursor, c.At input s → Agrees input parsed (m.outcome c)

/-! ## One step after the other -/

section Steps

variable {α β : Type} {input : String} {m : Reading α} {next : α → Reading β}
  {s rest : List Char} {a : α}

theorem Reading.outcome_bind_ok {c c' : Cursor} (h : m.outcome c = some (.ok a, c')) :
    (m >>= next).outcome c = (next a).outcome c' := by
  rw [outcome, ExceptT.run_bind, StateT.run_bind]
  rw [outcome] at h
  rw [h]
  rfl

theorem Reading.outcome_bind_error {c c' : Cursor} {halt : Halt}
    (h : m.outcome c = some (.error halt, c')) :
    (m >>= next).outcome c = some (.error halt, c') := by
  rw [outcome, ExceptT.run_bind, StateT.run_bind]
  rw [outcome] at h
  rw [h]
  rfl

theorem follows_pure (a : α) (s : List Char) : Follows input (pure a) s (.ok (a, s)) :=
  fun c hc => ⟨c, rfl, hc⟩

theorem follows_exhausted {s rest : List Char} : Follows input m s (.error ⟨.exhausted, rest⟩) :=
  fun _ _ hcause => absurd rfl hcause

theorem Follows.bind {parsed : Parsing (α × List Char)}
    {later : α × List Char → Parsing (β × List Char)} (h : Follows input m s parsed)
    (hnext : ∀ a rest, parsed = .ok (a, rest) → Follows input (next a) rest (later (a, rest))) :
    Follows input (m >>= next) s (parsed >>= later) := by
  intro c hc
  have hread := h c hc
  rcases parsed with stuck | ⟨a, rest⟩
  · intro hcause
    rcases hread hcause with ⟨c', hm, hc'⟩
    exact ⟨c', Reading.outcome_bind_error hm, hc'⟩
  · rcases hread with ⟨c', hm, hc'⟩
    rw [Reading.outcome_bind_ok hm]
    exact hnext a rest rfl c' hc'

/-- A step that is sure to succeed. -/
theorem Follows.step {parsed : Parsing (β × List Char)} (h : Follows input m s (.ok (a, rest)))
    (hnext : Follows input (next a) rest parsed) : Follows input (m >>= next) s parsed := by
  have hbind : Follows input (m >>= next) s ((.ok (a, rest) : Parsing _) >>= fun _ => parsed) := by
    refine h.bind fun a' rest' heq => ?_
    cases heq
    exact hnext
  exact hbind

theorem Follows.map {f : α → β} {parsed : Parsing (α × List Char)}
    (h : Follows input m s parsed) :
    Follows input (m >>= fun a => pure (f a)) s
      (parsed >>= fun found => .ok (f found.1, found.2)) :=
  h.bind fun a rest _ => follows_pure (f a) rest

end Steps

/-! ## Looks and steps -/

namespace Input

open Cursor

section Looks

variable {α : Type} {input : String} {s : List Char}

/-- The offset of a cursor is the size of what is in front of it. -/
theorem follows_offset {next : Nat → Reading α} {parsed : Parsing (α × List Char)}
    (h : ∀ front, input.toList = front ++ s → Follows input (next (byteSize front)) s parsed) :
    Follows input (offset >>= next) s parsed := by
  intro c hc
  rcases hc.place with ⟨front, hfront, hposition⟩
  have hoffset : offset.outcome c = some (.ok (byteSize front), c) := by
    rw [← hposition]
    rfl
  rw [Reading.outcome_bind_ok hoffset]
  exact h front hfront c hc

theorem follows_fail {cause : SyntaxCause} {text : String} {stuck : Stuck}
    (h : SyntaxFault.message ⟨cause, byteSize input.toList - byteSize s, text⟩ =
      stuck.reason input) : Follows input (fail (α := α) cause text) s (.error stuck) := by
  refine follows_offset fun front hfront => ?_
  have hsize : byteSize input.toList - byteSize s = byteSize front := by
    rw [hfront, byteSize_append, Nat.add_sub_cancel]
  rw [hsize] at h
  intro c hc _
  refine ⟨c, ?_, hc.sound⟩
  rw [← h]
  rfl

/-- The bytes of what comes next lead to the boundary behind it. -/
theorem follows_advance (word rest : List Char) :
    Follows input (advance (byteSize word)) (word ++ rest) (.ok ((), rest)) := by
  intro c hc
  rcases hc.place with ⟨front, hfront, hposition⟩
  have hafter : input.toList = (front ++ word) ++ rest :=
    hfront.trans (List.append_assoc _ _ _).symm
  have hsize : c.position + byteSize word = byteSize (front ++ word) := by
    rw [hposition, byteSize_append]
  refine ⟨_, rfl, ⟨front ++ word, hafter, hsize⟩, ?_, hc.sound.sliced⟩
  intro p hp
  rcases List.mem_cons.1 hp with rfl | hp
  · rw [hsize]
    exact Text.isBoundary_of_split hafter
  · exact hc.sound.visited p hp

theorem follows_slice {front word rest : List Char}
    (h : input.toList = front ++ (word ++ rest)) (s : List Char) :
    Follows input (slice input (byteSize front) (byteSize (front ++ word))) s
      (.ok (String.ofList word, s)) := by
  have hafter : input.toList = (front ++ word) ++ rest := h.trans (List.append_assoc _ _ _).symm
  have hle : byteSize front ≤ byteSize (front ++ word) := by
    rw [byteSize_append]
    exact Nat.le_add_right _ _
  have hslice := Text.slice?_of_split h
  intro c hc
  refine ⟨{ c with sliced := (byteSize front, byteSize (front ++ word)) :: c.sliced }, ?_,
    hc.place, hc.sound.visited, ?_⟩
  · unfold slice
    rw [hslice]
    rfl
  · intro ends hends
    rcases List.mem_cons.1 hends with rfl | hends
    · exact ⟨Text.isBoundary_of_split h, Text.isBoundary_of_split hafter, hle⟩
    · exact hc.sound.sliced ends hends

theorem follows_ahead (word rest : List Char) :
    Follows input (ahead input (byteSize word)) (word ++ rest) (.ok (rest, word ++ rest)) := by
  refine follows_offset fun front hfront => ?_
  have hsplit : input.toList = (front ++ word) ++ (rest ++ []) := by
    rw [hfront, List.append_nil, List.append_assoc]
  have hend : input.utf8ByteSize = byteSize (front ++ word ++ rest) := by
    rw [utf8ByteSize_eq, hfront, List.append_assoc]
  rw [← byteSize_append, hend]
  refine (follows_slice hsplit _).step ?_
  rw [String.toList_ofList]
  exact follows_pure _ _

theorem follows_since {front word rest : List Char}
    (h : input.toList = front ++ (word ++ rest)) :
    Follows input (since input (byteSize front)) rest (.ok (String.ofList word, rest)) := by
  refine follows_offset fun front' hfront' => ?_
  have heq : front' = front ++ word := by
    rw [h, ← List.append_assoc] at hfront'
    exact (List.append_cancel_right hfront').symm
  rw [heq]
  exact follows_slice h rest

theorem follows_peek (s : List Char) : Follows input (peek input) s (.ok (s.head?, s)) :=
  (follows_ahead [] s).step (follows_pure _ _)

theorem follows_comesNext (symbol : String) (s : List Char) :
    Follows input (comesNext input symbol) s (.ok (symbol.toList.isPrefixOf s, s)) :=
  (follows_ahead [] s).step (follows_pure _ _)

end Looks

/-! ## Tokens -/

section Tokens

variable {input : String}

/-- A single character that is gone over. -/
theorem follows_advance_char {c : Char} {bytes : Nat} (hbytes : bytes = c.utf8Size)
    (rest : List Char) : Follows input (advance bytes) (c :: rest) (.ok ((), rest)) := by
  subst hbytes
  exact follows_advance [c] rest

theorem follows_skipWhile {p : Char → Bool} {width : Char → Nat}
    (hwidth : ∀ c, p c = true → width c = c.utf8Size) (s : List Char) :
    Follows input (skipWhile input p width) s (.ok ((), s.dropWhile p)) := by
  induction s with
  | nil =>
      rw [skipWhile]
      exact (follows_peek []).step (follows_pure () [])
  | cons c s ih =>
      rw [skipWhile]
      refine (follows_peek (c :: s)).step ?_
      by_cases hc : p c = true
      · rw [List.dropWhile_cons_of_pos hc]
        simp only [List.head?_cons, if_pos hc]
        exact (follows_advance_char (hwidth c hc) s).step ih
      · rw [List.dropWhile_cons_of_neg hc]
        simp only [List.head?_cons, if_neg hc]
        exact follows_pure () (c :: s)

theorem follows_skipBlanks (s : List Char) :
    Follows input (skipBlanks input) s (.ok ((), Statechart.skipBlanks s)) :=
  follows_skipWhile (fun _ _ => rfl) s

/-- Digits are characters of one byte. -/
theorem utf8Size_of_isDigit {c : Char} (h : Decimal.isDigit c = true) : 1 = c.utf8Size := by
  have hbounds : 48 ≤ c.toNat ∧ c.toNat ≤ 57 := of_decide_eq_true h
  have hsmall : c.val ≤ 0x7F := by
    rw [UInt32.le_iff_toNat_le]
    exact Nat.le_trans hbounds.2 (by decide)
  exact (Char.utf8Size_eq_one_iff.2 hsmall).symm

theorem follows_skipDigits (s : List Char) :
    Follows input (skipDigits input) s (.ok ((), s.dropWhile Decimal.isDigit)) :=
  follows_skipWhile (fun _ => utf8Size_of_isDigit) s

theorem follows_readWord (s : List Char) :
    Follows input (readWord input) s
      (.ok (String.ofList (s.takeWhile isNamePart), s.dropWhile isNamePart)) := by
  refine follows_offset fun front hfront => ?_
  refine (follows_skipWhile (fun _ _ => rfl) s).step ?_
  rw [← List.takeWhile_append_dropWhile (p := isNamePart) (l := s)] at hfront
  exact follows_since hfront

/-- Without a closing quote the fault is at the end. -/
def closed (found : Option (List Char × List Char)) : Parsing (List Char × List Char) :=
  found.elim (.error ⟨.unclosedText, []⟩) .ok

theorem closed_map (d : Char) (found : Option (List Char × List Char)) :
    closed (found.map fun (text, rest) => (d :: text, rest)) =
      (closed found >>= fun found => .ok (d :: found.1, found.2)) := by
  cases found <;> rfl

theorem follows_readText {quote : Char} (hquote : quote ≠ '\\') (s : List Char) :
    Follows input (readText input quote) s (closed (parseText quote s)) := by
  -- one case for each character that is read, an escaped one together with its backslash
  induction s using parseText.induct quote with
  | case1 =>
      rw [readText]
      exact (follows_peek []).step (follows_fail rfl)
  | case2 s =>
      rw [readText, parseText_quote]
      refine (follows_peek (quote :: s)).step ?_
      refine (follows_advance_char rfl s).step ?_
      rw [if_pos rfl]
      exact follows_pure [] s
  | case3 hne =>
      have hnone : parseText quote ['\\'] = none := by
        rw [parseText.eq_def]
        exact (if_neg hne).trans (if_pos rfl)
      rw [readText, hnone]
      refine (follows_peek ['\\']).step ?_
      refine (follows_advance_char rfl []).step ?_
      rw [if_neg hne, if_pos rfl]
      exact (follows_peek []).step (follows_fail rfl)
  | case4 c s hne ih =>
      rw [readText, parseText_escaped hquote, closed_map]
      refine (follows_peek ('\\' :: c :: s)).step ?_
      refine (follows_advance_char rfl (c :: s)).step ?_
      rw [if_neg hne, if_pos rfl]
      refine (follows_peek (c :: s)).step ?_
      refine (follows_advance_char rfl s).step ?_
      exact ih.map
  | case5 c s hne hbackslash ih =>
      rw [readText, parseText_plain hne hbackslash, closed_map]
      refine (follows_peek (c :: s)).step ?_
      refine (follows_advance_char rfl s).step ?_
      rw [if_neg hne, if_neg hbackslash]
      exact ih.map

/-- Quotes are single bytes, and no backslashes. -/
theorem follows_readQuoted {c : Char} (hc : c = '"' ∨ c = '\'') (s : List Char) :
    Follows input (readQuoted input c) (c :: s)
      (match parseText c s with
      | some (text, rest) => .ok (.literal (.text (String.ofList text)), rest)
      | none => .error ⟨.unclosedText, []⟩) := by
  have hbyte : 1 = c.utf8Size := by rcases hc with rfl | rfl <;> decide
  have hbackslash : c ≠ '\\' := by rcases hc with rfl | rfl <;> decide
  have hread : Follows input _ s (closed (parseText c s)) := follows_readText hbackslash s
  refine (follows_advance_char hbyte s).step ?_
  cases hfound : parseText c s with
  | none =>
      rw [hfound] at hread
      exact hread.map
  | some found =>
      rw [hfound] at hread
      exact hread.map

/-! ## Numbers -/

theorem follows_skipFraction (s : List Char) :
    Follows input (skipFraction input) s (.ok ((), (scanFraction s).2)) := by
  refine (follows_peek s).step ?_
  split
  · rename_i hhead
    rcases List.head?_eq_some_iff.1 hhead with ⟨s, rfl⟩
    refine (follows_ahead ['.'] s).step ?_
    cases s with
    | nil => exact follows_pure () ['.']
    | cons d s =>
        rw [scanFraction]
        simp only [List.head?_cons]
        split
        · refine (follows_advance_char (by decide) (d :: s)).step ?_
          exact follows_skipDigits (d :: s)
        · exact follows_pure () ('.' :: d :: s)
  · rename_i hhead
    rw [scanFraction.eq_def]
    split
    · exact absurd rfl hhead
    · exact follows_pure () s

theorem follows_skipSign (c : Char) (s : List Char) :
    Follows input (skipSign input) (c :: s)
      (.ok ((), if c = '+' ∨ c = '-' then s else c :: s)) := by
  refine (follows_peek (c :: s)).step ?_
  simp only [List.head?_cons]
  split
  · rename_i hsign
    refine follows_advance_char ?_ s
    rcases hsign with rfl | rfl <;> decide
  · exact follows_pure () (c :: s)

theorem follows_skipExponent (s : List Char) :
    Follows input (skipExponent input) s (.ok ((), (scanExponent s).2)) := by
  refine (follows_peek s).step ?_
  cases s with
  | nil => exact follows_pure () []
  | cons c s =>
      rw [scanExponent.eq_def]
      simp only [List.head?_cons]
      split
      · rename_i hletter
        refine (follows_advance_char (by rcases hletter with rfl | rfl <;> decide) s).step ?_
        cases s with
        | nil =>
            refine ((follows_peek []).step (follows_pure () [])).step ?_
            exact follows_skipDigits []
        | cons d s =>
            refine (follows_skipSign d s).step ?_
            simp only
            split
            · exact follows_skipDigits s
            · exact follows_skipDigits (d :: s)
      · exact follows_pure () (c :: s)

theorem follows_readNumber {c : Char} (hc : Decimal.isDigit c = true) (s : List Char) :
    Follows input (readNumber input) (c :: s) (parseNumber (c :: s)) := by
  rcases hscan : scanNumber (c :: s) with ⟨token, rest⟩
  rcases isScanned_of_scanNumber hc hscan with ⟨hsplit, htoken⟩
  have hrest : (scanExponent (scanFraction ((c :: s).dropWhile Decimal.isDigit)).2).2 = rest :=
    congrArg Prod.snd hscan
  refine follows_offset fun front hfront => ?_
  refine (follows_skipDigits (c :: s)).step ?_
  refine (follows_skipFraction _).step ?_
  refine (follows_skipExponent _).step ?_
  rw [hrest]
  rw [hsplit] at hfront
  refine (follows_since hfront).step ?_
  -- the text of the token alone stands for the same number
  rw [number?, String.toList_ofList, scanNumber_alone htoken, parseNumber, hscan]
  simp only
  cases token.value? with
  | none => exact follows_fail rfl
  | some n => exact follows_pure (Expr.literal (.number n)) rest

/-! ## Names -/

/-- No member follows where no point comes next. -/
theorem parsePath_of_head? {fuel : Nat} {s : List Char} (h : s.head? ≠ some '.') :
    parsePath (fuel + 1) s = .ok ([], s) := by
  rw [parsePath.eq_def]
  split
  · rename_i heq
    cases heq
  · exact absurd rfl h
  · rfl

/-- After a point there is a member, or a fault. -/
theorem ne_nil_of_parsePath {fuel : Nat} {s rest : List Char} {path : List String}
    (h : parsePath (fuel + 1) ('.' :: s) = .ok (path, rest)) : path ≠ [] := by
  rw [parsePath] at h
  simp only at h
  split at h
  · cases h
  · rcases bind_eq_ok_iff.1 h with ⟨found, _, hok⟩
    cases hok
    exact List.cons_ne_nil _ _

theorem isEmpty_ofList (s : List Char) : (String.ofList s).isEmpty = s.isEmpty := by
  rw [Bool.eq_iff_iff, String.isEmpty_iff, String.ofList_eq_empty_iff, List.isEmpty_iff]

theorem follows_readPath (fuel : Nat) (s : List Char) :
    Follows input (readPath input) s (parsePath fuel s) := by
  induction fuel generalizing s with
  | zero => exact follows_exhausted
  | succ fuel ih =>
      rw [readPath]
      refine (follows_peek s).step ?_
      split
      · rename_i hhead
        rcases List.head?_eq_some_iff.1 hhead with ⟨s, rfl⟩
        rw [parsePath]
        refine (follows_advance_char (by decide) s).step ?_
        refine (follows_readWord s).step ?_
        rw [isEmpty_ofList]
        simp only
        split
        · rename_i hnone
          -- no character of names was gone over, so the cursor is still behind the point
          have hsplit := List.takeWhile_append_dropWhile (p := isNamePart) (l := s)
          rw [List.isEmpty_iff.1 hnone, List.nil_append] at hsplit
          rw [hsplit]
          exact follows_fail rfl
        · exact (ih (s.dropWhile isNamePart)).map
      · rename_i hhead
        rw [parsePath_of_head? hhead]
        exact follows_pure [] s

theorem follows_readName (s : List Char) :
    Follows input (readName input) s (parseName s) := by
  refine (follows_readWord s).step ?_
  refine (follows_peek _).step ?_
  rw [parseName]
  simp only
  have hpath : Follows input (readPath input) (s.dropWhile isNamePart) _ :=
    follows_readPath ((s.dropWhile isNamePart).length + 1) (s.dropWhile isNamePart)
  by_cases hhead : (s.dropWhile isNamePart).head? = some '.'
  · rw [if_pos hhead]
    refine hpath.bind fun path rest hfound => ?_
    rcases List.head?_eq_some_iff.1 hhead with ⟨later, hlater⟩
    rw [hlater] at hfound
    have hne := ne_nil_of_parsePath hfound
    cases path with
    | nil => exact absurd rfl hne
    | cons member path => exact follows_pure _ rest
  · rw [if_neg hhead]
    rw [parsePath_of_head? hhead] at hpath ⊢
    cases hconstant : constant? (String.ofList (s.takeWhile isNamePart)) with
    | some value => exact follows_pure (Expr.literal value) _
    | none => exact hpath.step (follows_pure _ _)

end Tokens

end Input

end Statechart
