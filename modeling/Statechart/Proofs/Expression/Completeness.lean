import Statechart.Proofs.Expression.Soundness

/-!
# What is derivable is parsed

The parsers take every phrase of the grammar to its end, whatever follows, as long as what follows
parts the last token and is no operator that binds tighter. With that, the parser accepts exactly
the grammar, and every expression has one tree.

- `Level.Ends`             : no operator of a level follows
- `Begins`                 : the first token of a phrase
- `Accepts`                : what completeness says of each kind of phrase
- `Phrase.Derives.accepts` : by induction on derivations
- `Expression.parse_accepts_grammar` : both directions, and that trees are unique
-/

namespace Statechart

/-! ## Operators -/

theorem BinaryOp.exists_symbol (op : BinaryOp) : ∃ c t, op.symbol.toList = c :: t := by
  cases op with
  | compare op => cases op <;> exact ⟨_, _, rfl⟩
  | arith op => cases op <;> exact ⟨_, _, rfl⟩
  | _ => exact ⟨_, _, rfl⟩

namespace Level

/-- How many levels are tighter. -/
def height : Level → Nat
  | .disjunction => 5
  | .conjunction => 4
  | .equality => 3
  | .comparison => 2
  | .sum => 1
  | .product => 0

theorem height_le (level : Level) : level.height ≤ 5 := by
  cases level <;> decide

theorem height_of_tighter? {level tighter : Level} (h : level.tighter? = some tighter) :
    level.height = tighter.height + 1 := by
  cases level <;> cases h <;> rfl

/-- No operator of the level comes next. -/
def Ends (level : Level) (rest : List Char) : Prop :=
  ∀ op ∈ level.operators, op.symbol.toList.head? ≠ (skipBlanks rest).head?

theorem Ends.operator? {level : Level} {rest : List Char} (h : level.Ends rest) :
    level.operator? (skipBlanks rest) = none := by
  cases hfound : level.operator? (skipBlanks rest) with
  | none => rfl
  | some found =>
      rcases found with ⟨op, later⟩
      rcases of_operator? hfound with ⟨hop, hsplit⟩
      rcases op.exists_symbol with ⟨c, t, hsymbol⟩
      refine absurd ?_ (h op hop)
      rw [hsplit, hsymbol]
      rfl

theorem ends_nil (level : Level) : level.Ends [] := by
  intro op _ hhead
  rcases op.exists_symbol with ⟨c, t, hsymbol⟩
  rw [hsymbol] at hhead
  cases hhead

theorem ends_append {level : Level} {gap : List Char} (hgap : AllBlank gap) {c : Char}
    (hc : Text.isBlank c = false) (hop : ∀ op ∈ level.operators, op.symbol.toList.head? ≠ some c)
    (rest : List Char) : level.Ends (gap ++ c :: rest) := by
  intro op hmem
  rw [skipBlanks_append hgap, skipBlanks_of_not_isBlank hc]
  exact hop op hmem

/-- Symbols of different levels begin differently. -/
theorem eq_of_head? {level other : Level} {op op' : BinaryOp} (hop : op ∈ level.operators)
    (hop' : op' ∈ other.operators) (h : op.symbol.toList.head? = op'.symbol.toList.head?) :
    level = other := by
  have hall : ∀ level ∈ [disjunction, conjunction, equality, comparison, sum, product],
      ∀ other ∈ [disjunction, conjunction, equality, comparison, sum, product],
      ∀ op ∈ level.operators, ∀ op' ∈ other.operators,
        op.symbol.toList.head? = op'.symbol.toList.head? → level = other := by decide +kernel
  exact hall level (by cases level <;> decide) other (by cases other <;> decide) op hop op' hop' h

/-- An operator is found in front of whatever does not make a longer one of it. -/
theorem operator?_append {level : Level} {op : BinaryOp} (hop : op ∈ level.operators)
    {rest : List Char} (hrest : rest.head? ≠ some '=') :
    level.operator? (op.symbol.toList ++ rest) = some (op, rest) := by
  have hapart : ∀ c, ¬ [c, '='].isPrefixOf (c :: rest) = true := by
    intro c hbegins
    rcases List.isPrefixOf_iff_prefix.1 hbegins with ⟨later, heq⟩
    cases heq
    exact hrest rfl
  cases level <;> simp only [operators, List.mem_cons, List.not_mem_nil, or_false] at hop
  case comparison =>
    rcases hop with rfl | rfl | rfl | rfl
    · rfl
    · rfl
    · refine (List.findSome?_cons_of_isNone ?_).trans rfl
      exact Option.isNone_iff_eq_none.2 (if_neg (hapart '<'))
    · refine (List.findSome?_cons_of_isNone rfl).trans
        ((List.findSome?_cons_of_isNone ?_).trans rfl)
      exact Option.isNone_iff_eq_none.2 (if_neg (hapart '>'))
  all_goals
    rcases hop with rfl | rfl | rfl <;> rfl
end Level

/-! ## First tokens -/

/-- The characters with which a primary begins. -/
def Begins (c : Char) : Prop :=
  c ∈ ['(', '[', '"', '\''] ∨ Decimal.isDigit c = true ∨ isNameStart c = true

theorem Begins.not_isBlank {c : Char} (h : Begins c) : Text.isBlank c = false := by
  rcases h with h | h | h
  · simp only [List.mem_cons, List.not_mem_nil, or_false] at h
    rcases h with rfl | rfl | rfl | rfl <;> decide
  · exact isBlank_of_isNamePart (isNamePart_of_isDigit h)
  · exact isBlank_of_isNamePart (isNamePart_of_isNameStart h)

/-- Neither a unary operator nor the rest of a longer binary one, nor the end of a list. -/
theorem Begins.ne {c d : Char} (h : Begins c) (hd : d ∈ ['!', '-', '=', ']']) : c ≠ d := by
  rintro rfl
  simp only [List.mem_cons, List.not_mem_nil, or_false] at hd
  rcases h with h | h | h
  · rcases hd with rfl | rfl | rfl | rfl <;> revert h <;> decide
  · rcases hd with rfl | rfl | rfl | rfl <;> revert h <;> decide
  · rcases hd with rfl | rfl | rfl | rfl <;> revert h <;> decide +kernel

theorem isName_of_reserved {s : List Char} {v : Value} (h : (s, v) ∈ reserved) : IsName s := by
  simp only [reserved, List.mem_cons, List.not_mem_nil, Prod.mk.injEq, or_false] at h
  rcases h with ⟨rfl, -⟩ | ⟨rfl, -⟩ | ⟨rfl, -⟩ <;>
    exact ⟨_, _, rfl, by decide +kernel, List.all_eq_true.1 (by decide +kernel)⟩

theorem Phrase.Derives.begins {s : List Char} {e : Expr} (h : Phrase.primary.Derives s e) :
    ∃ c t, s = c :: t ∧ Begins c := by
  cases h with
  | group => exact ⟨_, _, rfl, Or.inl (by decide)⟩
  | emptyList => exact ⟨_, _, rfl, Or.inl (by decide)⟩
  | list => exact ⟨_, _, rfl, Or.inl (by decide)⟩
  | text hquote =>
      refine ⟨_, _, rfl, Or.inl ?_⟩
      rcases hquote with rfl | rfl <;> decide
  | @number t _ ht =>
      rcases ht.whole with ⟨hne, hdigits⟩
      rcases List.exists_cons_of_ne_nil hne with ⟨c, more, hwhole⟩
      refine ⟨c, t.text.tail, ?_, Or.inr (Or.inl (hdigits c (hwhole ▸ List.mem_cons_self)))⟩
      rw [NumberToken.text, hwhole]
      rfl
  | constant hword =>
      rcases isName_of_reserved hword with ⟨c, more, rfl, hc, -⟩
      exact ⟨c, more, rfl, Or.inr (Or.inr hc)⟩
  | name hname =>
      rcases hname with ⟨c, more, rfl, hc, -⟩
      exact ⟨c, _, rfl, Or.inr (Or.inr hc)⟩

/-- A text has a first token, after blanks, that no operator and no list ends with. -/
def Starts (s : List Char) : Prop :=
  ∃ gap c t, s = gap ++ c :: t ∧ AllBlank gap ∧ Text.isBlank c = false ∧ c ≠ '=' ∧ c ≠ ']'

theorem Starts.append {s : List Char} (h : Starts s) (after : List Char) : Starts (s ++ after) := by
  rcases h with ⟨gap, c, t, rfl, hc⟩
  exact ⟨gap, c, t ++ after, by rw [List.append_assoc, List.cons_append], hc⟩

theorem Starts.head? {s : List Char} (h : Starts s) : s.head? ≠ some '=' := by
  rcases h with ⟨gap, c, t, rfl, hgap, -, hc, -⟩
  intro hhead
  cases gap with
  | nil =>
      cases hhead
      exact hc rfl
  | cons b gap =>
      cases hhead
      exact absurd (hgap '=' List.mem_cons_self) (by decide)

theorem Phrase.Derives.starts {p : Phrase} {s : List Char} {e : Expr} (h : p.Derives s e) :
    p ≠ .primary → Starts s := by
  induction h with
  | operand _ ih => exact fun _ => ih nofun
  | binary _ _ _ _ ih _ => exact fun _ => (ih nofun).append _
  | tighter _ _ ih => exact fun _ => ih nofun
  | tightest _ _ ih => exact fun _ => ih nofun
  | not hgap => exact fun _ => ⟨_, _, _, rfl, hgap, by decide, by decide, by decide⟩
  | negate hgap => exact fun _ => ⟨_, _, _, rfl, hgap, by decide, by decide, by decide⟩
  | primary hgap h =>
      intro _
      rcases h.begins with ⟨c, t, rfl, hc⟩
      exact ⟨_, c, t, rfl, hgap, hc.not_isBlank, hc.ne (by decide), hc.ne (by decide)⟩
  | lastItem _ _ ih => exact fun _ => (ih nofun).append _
  | item _ _ _ ih _ => exact fun _ => (ih nofun).append _
  | _ => exact fun hne => absurd rfl hne

/-! ## What follows a phrase -/

theorem parted_nil : Parted [] := fun _ hc => (nomatch hc)

theorem parted_append {gap : List Char} (hgap : AllBlank gap) {c : Char}
    (hpart : isNamePart c = false) (hpoint : c ≠ '.') (rest : List Char) :
    Parted (gap ++ c :: rest) := by
  intro d hd
  cases gap with
  | nil =>
      cases hd
      exact ⟨hpart, hpoint⟩
  | cons b gap =>
      cases hd
      have hblank := hgap d List.mem_cons_self
      refine ⟨isNamePart_of_isBlank hblank, ?_⟩
      rintro rfl
      cases hblank

/-- No operator that binds tighter than a level follows. -/
def Closes (level : Level) (rest : List Char) : Prop :=
  Parted rest ∧ ∀ tighter : Level, tighter.height < level.height → tighter.Ends rest

/-- After a whole expression comes a bracket or a comma, or nothing. -/
theorem ends_of_closer {gap : List Char} (hgap : AllBlank gap) {c : Char}
    (hc : c ∈ [')', ']', ',']) (rest : List Char) :
    Parted (gap ++ c :: rest) ∧ ∀ level : Level, level.Ends (gap ++ c :: rest) := by
  have hclass : Text.isBlank c = false ∧ isNamePart c = false ∧ c ≠ '.' := by
    simp only [List.mem_cons, List.not_mem_nil, or_false] at hc
    rcases hc with rfl | rfl | rfl <;> decide +kernel
  refine ⟨parted_append hgap hclass.2.1 hclass.2.2 rest, fun level => ?_⟩
  refine Level.ends_append hgap hclass.1 ?_ rest
  simp only [List.mem_cons, List.not_mem_nil, or_false] at hc
  cases level <;> rcases hc with rfl | rfl | rfl <;> decide

/-- The left side of an operator is followed by it, perhaps after blanks. -/
theorem closes_of_operator {level : Level} {op : BinaryOp} (hop : op ∈ level.operators)
    {gap : List Char} (hgap : AllBlank gap) (rest : List Char) :
    Closes level (gap ++ (op.symbol.toList ++ rest)) ∧
      skipBlanks (gap ++ (op.symbol.toList ++ rest)) = op.symbol.toList ++ rest := by
  have hmarks : ∀ level ∈ [Level.disjunction, .conjunction, .equality, .comparison, .sum, .product],
      ∀ op ∈ level.operators, op.symbol.toList.head?.all (fun c =>
        !Text.isBlank c && !isNamePart c && c != '.') = true := by decide +kernel
  rcases op.exists_symbol with ⟨c, t, hsymbol⟩
  have hhead : op.symbol.toList.head? = some c := by rw [hsymbol]; rfl
  have hclass : Text.isBlank c = false ∧ isNamePart c = false ∧ c ≠ '.' := by
    have hmark := hmarks level (by cases level <;> decide) op hop
    rw [hhead] at hmark
    simpa [and_assoc] using hmark
  rw [hsymbol, List.cons_append]
  refine ⟨⟨parted_append hgap hclass.2.1 hclass.2.2 _, ?_⟩, ?_⟩
  · intro tighter hheight
    refine Level.ends_append hgap hclass.1 ?_ _
    intro op' hop' heq
    have hsame := Level.eq_of_head? hop' hop (heq.trans hhead.symm)
    rw [hsame] at hheight
    exact Nat.lt_irrefl _ hheight
  · rw [skipBlanks_append hgap, skipBlanks_of_not_isBlank hclass.1]

/-! ## All phrases -/

/-- What completeness says of a phrase: with enough fuel it is read to its end. A level is read up
to its operators, whatever these lead to. -/
def Accepts : Phrase → List Char → Expr → Prop
  | .level level, s, e => ∀ input rest fuel result,
      skipBlanks input = skipBlanks (s ++ rest) → Closes level rest →
      20 * (s ++ rest).length + (2 * level.height + 4) ≤ fuel →
      (∀ fuel, 20 * rest.length + 1 ≤ fuel → parseTail fuel level e rest = .ok result) →
      parseLevel fuel level input = .ok result
  | .operand level, s, e => ∀ input rest fuel,
      skipBlanks input = skipBlanks (s ++ rest) → Closes level rest →
      20 * (s ++ rest).length + (2 * level.height + 3) ≤ fuel →
      ∃ later, parseOperand fuel level input = .ok (e, later) ∧ skipBlanks later = skipBlanks rest
  | .unary, s, e => ∀ input rest fuel,
      skipBlanks input = skipBlanks (s ++ rest) → Parted rest →
      20 * (s ++ rest).length + 2 ≤ fuel → parseUnary fuel input = .ok (e, rest)
  | .primary, s, e => ∀ rest fuel, Parted rest → 20 * (s ++ rest).length + 1 ≤ fuel →
      parsePrimary fuel (s ++ rest) = .ok (e, rest)
  | .items, s, e => ∀ input rest fuel,
      skipBlanks input = skipBlanks (s ++ ']' :: rest) →
      20 * (s ++ ']' :: rest).length + 15 ≤ fuel →
      ∃ es, e = .list es ∧ parseItems fuel input = .ok (es, rest)

section Accepts

variable {level : Level} {s gap t : List Char} {e left right : Expr}

/-- Further operators are looked for after blanks. -/
theorem parseTail_congr {fuel : Nat} (hfuel : 1 ≤ fuel) {input rest : List Char}
    (h : skipBlanks input = skipBlanks rest) :
    parseTail fuel level e input = parseTail fuel level e rest := by
  cases fuel with
  | zero => omega
  | succ fuel => rw [parseTail, parseTail, h]

theorem parseTail_of_ends {fuel : Nat} (hfuel : 1 ≤ fuel) {rest : List Char}
    (h : level.Ends rest) : parseTail fuel level e rest = .ok (e, skipBlanks rest) := by
  cases fuel with
  | zero => omega
  | succ fuel => rw [parseTail, h.operator?]

theorem Accepts.joined (h : Accepts (.operand level) s e) : Accepts (.level level) s e := by
  intro input rest fuel result hinput hcloses hfuel htail
  cases fuel with
  | zero => omega
  | succ fuel =>
      rcases h input rest fuel hinput hcloses (by omega) with ⟨later, hoperand, hlater⟩
      rw [List.length_append] at hfuel
      have hrest : parseTail fuel level e later = parseTail fuel level e rest :=
        parseTail_congr (by omega) hlater
      rw [parseLevel, hoperand]
      exact hrest.trans (htail fuel (by omega))

theorem Accepts.binary {op : BinaryOp} (hop : op ∈ level.operators)
    (hleft : Accepts (.level level) s left) (hgap : AllBlank gap)
    (hright : Accepts (.operand level) t right) (hstarts : Starts t) :
    Accepts (.level level) (s ++ (gap ++ (op.symbol.toList ++ t))) (.binary op left right) := by
  intro input rest fuel result hinput hcloses hfuel htail
  have hassoc : (s ++ (gap ++ (op.symbol.toList ++ t))) ++ rest =
      s ++ (gap ++ (op.symbol.toList ++ (t ++ rest))) := by simp
  rw [hassoc] at hinput hfuel
  rcases closes_of_operator hop hgap (t ++ rest) with ⟨hnext, hskip⟩
  -- the left side is read up to the operator, and the tail goes on from there
  refine hleft input _ fuel result hinput hnext hfuel ?_
  intro fuel hfuel
  have hsymbol : 1 ≤ op.symbol.toList.length := by
    rcases op.exists_symbol with ⟨c, rest, hsymbol⟩
    rw [hsymbol]
    exact Nat.succ_le_succ (Nat.zero_le _)
  have hheight := level.height_le
  rw [List.length_append, List.length_append] at hfuel
  cases fuel with
  | zero => omega
  | succ fuel =>
      rcases hright (t ++ rest) rest fuel rfl hcloses (by omega) with ⟨later, hoperand, hlater⟩
      rw [List.length_append] at hfuel
      have hrest : parseTail fuel level (.binary op left right) later =
          parseTail fuel level (.binary op left right) rest := parseTail_congr (by omega) hlater
      rw [parseTail, hskip, Level.operator?_append hop (hstarts.append rest).head?]
      simp only [hoperand]
      exact hrest.trans (htail fuel (by omega))

/-- A level is read to the end where none of its operators follows. -/
theorem Accepts.to_end (h : Accepts (.level level) s e) {input rest : List Char} {fuel : Nat}
    (hinput : skipBlanks input = skipBlanks (s ++ rest)) (hparted : Parted rest)
    (hends : ∀ other : Level, other.height ≤ level.height → other.Ends rest)
    (hfuel : 20 * (s ++ rest).length + (2 * level.height + 4) ≤ fuel) :
    parseLevel fuel level input = .ok (e, skipBlanks rest) := by
  have hcloses : Closes level rest := ⟨hparted, fun other hlt => hends other (Nat.le_of_lt hlt)⟩
  refine h input rest fuel _ hinput hcloses hfuel ?_
  intro fuel hfuel
  exact parseTail_of_ends (by omega) (hends level (Nat.le_refl _))

theorem Accepts.tighter {tighter : Level} (htighter : level.tighter? = some tighter)
    (h : Accepts (.level tighter) s e) : Accepts (.operand level) s e := by
  intro input rest fuel hinput hcloses hfuel
  have hheight := Level.height_of_tighter? htighter
  cases fuel with
  | zero => omega
  | succ fuel =>
      refine ⟨skipBlanks rest, ?_, skipBlanks_skipBlanks rest⟩
      rw [parseOperand, htighter]
      refine h.to_end hinput hcloses.1 ?_ (by omega)
      intro other hle
      exact hcloses.2 other (by omega)

theorem Accepts.tightest (htightest : level.tighter? = none) (h : Accepts .unary s e) :
    Accepts (.operand level) s e := by
  intro input rest fuel hinput hcloses hfuel
  cases fuel with
  | zero => omega
  | succ fuel =>
      refine ⟨rest, ?_, rfl⟩
      rw [parseOperand, htightest]
      exact h input rest fuel hinput hcloses.1 (by omega)

theorem Accepts.not (hgap : AllBlank gap) (h : Accepts .unary s e) :
    Accepts .unary (gap ++ '!' :: s) (.unary .not e) := by
  intro input rest fuel hinput hparted hfuel
  rw [List.append_assoc, List.cons_append] at hinput hfuel
  rw [skipBlanks_append hgap, skipBlanks_of_not_isBlank (by decide)] at hinput
  rw [List.length_append, List.length_cons] at hfuel
  cases fuel with
  | zero => omega
  | succ fuel =>
      rw [parseUnary, hinput]
      simp only [h (s ++ rest) rest fuel rfl hparted (by omega)]
      rfl

theorem Accepts.negate (hgap : AllBlank gap) (h : Accepts .unary s e) :
    Accepts .unary (gap ++ '-' :: s) (.unary .negate e) := by
  intro input rest fuel hinput hparted hfuel
  rw [List.append_assoc, List.cons_append] at hinput hfuel
  rw [skipBlanks_append hgap, skipBlanks_of_not_isBlank (by decide)] at hinput
  rw [List.length_append, List.length_cons] at hfuel
  cases fuel with
  | zero => omega
  | succ fuel =>
      rw [parseUnary, hinput]
      simp only [h (s ++ rest) rest fuel rfl hparted (by omega)]
      rfl

theorem Accepts.unary (hgap : AllBlank gap) (h : Accepts .primary s e)
    (hbegins : ∃ c t, s = c :: t ∧ Begins c) : Accepts .unary (gap ++ s) e := by
  intro input rest fuel hinput hparted hfuel
  rcases hbegins with ⟨c, t, rfl, hc⟩
  rw [List.append_assoc, List.length_append] at hfuel
  rw [List.append_assoc, skipBlanks_append hgap, List.cons_append,
    skipBlanks_of_not_isBlank hc.not_isBlank] at hinput
  cases fuel with
  | zero => omega
  | succ fuel =>
      rw [parseUnary, hinput]
      split
      · rename_i heq
        cases heq
        exact absurd rfl (hc.ne (by decide))
      · rename_i heq
        cases heq
        exact absurd rfl (hc.ne (by decide))
      · exact h rest fuel hparted (by omega)

theorem Accepts.group (hgap : AllBlank gap) (h : Accepts (.level .disjunction) s e) :
    Accepts .primary ('(' :: (s ++ (gap ++ [')']))) e := by
  intro rest fuel _ hfuel
  have hassoc : '(' :: (s ++ (gap ++ [')'])) ++ rest = '(' :: (s ++ (gap ++ ')' :: rest)) := by simp
  rw [hassoc] at hfuel ⊢
  rw [List.length_cons] at hfuel
  rcases ends_of_closer hgap (c := ')') (by decide) rest with ⟨hparted, hends⟩
  have hclass : Text.isBlank ')' = false := by decide
  cases fuel with
  | zero => omega
  | succ fuel =>
      have hinner : parseLevel fuel .disjunction (s ++ (gap ++ ')' :: rest)) =
          .ok (e, skipBlanks (gap ++ ')' :: rest)) :=
        h.to_end rfl hparted (fun other _ => hends other) (by rw [Level.height]; omega)
      rw [skipBlanks_append hgap, skipBlanks_of_not_isBlank (by decide)] at hinner
      rw [parsePrimary, if_pos rfl, hinner]
      simp only [bind, Except.bind, skipBlanks_of_not_isBlank hclass]

theorem Accepts.emptyList (hgap : AllBlank gap) :
    Accepts .primary ('[' :: (gap ++ [']'])) (.list []) := by
  intro rest fuel _ hfuel
  have hassoc : '[' :: (gap ++ [']']) ++ rest = '[' :: (gap ++ ']' :: rest) := by simp
  have hskip : skipBlanks (gap ++ ']' :: rest) = ']' :: rest := by
    rw [skipBlanks_append hgap, skipBlanks_of_not_isBlank (by decide)]
  cases fuel with
  | zero => omega
  | succ fuel =>
      rw [hassoc, parsePrimary, if_neg (by decide), if_pos rfl, hskip]
      rfl

theorem Accepts.list (h : Accepts .items s e) (hstarts : Starts s) :
    Accepts .primary ('[' :: (s ++ [']'])) e := by
  intro rest fuel _ hfuel
  have hassoc : '[' :: (s ++ [']']) ++ rest = '[' :: (s ++ ']' :: rest) := by simp
  rw [hassoc] at hfuel ⊢
  rw [List.length_cons] at hfuel
  cases fuel with
  | zero => omega
  | succ fuel =>
      rcases h (skipBlanks (s ++ ']' :: rest)) rest fuel (skipBlanks_skipBlanks _) (by omega) with
        ⟨es, rfl, hitems⟩
      rcases hstarts.append (']' :: rest) with ⟨gap, c, t, hs, hgap, hblank, -, hc⟩
      have hskip : skipBlanks (s ++ ']' :: rest) = c :: t := by
        rw [hs, skipBlanks_append hgap, skipBlanks_of_not_isBlank hblank]
      rw [parsePrimary, if_neg (by decide), if_pos rfl]
      split
      · rename_i heq
        cases hskip.symm.trans heq
        exact absurd rfl hc
      · rw [hitems]
        rfl

theorem Accepts.lastItem (hgap : AllBlank gap) (h : Accepts (.level .disjunction) s e) :
    Accepts .items (s ++ gap) (.list [e]) := by
  intro input rest fuel hinput hfuel
  rw [List.append_assoc] at hinput hfuel
  rcases ends_of_closer hgap (c := ']') (by decide) rest with ⟨hparted, hends⟩
  cases fuel with
  | zero => omega
  | succ fuel =>
      have hitem : parseLevel fuel .disjunction input =
          .ok (e, skipBlanks (gap ++ ']' :: rest)) :=
        h.to_end hinput hparted (fun other _ => hends other) (by rw [Level.height]; omega)
      rw [skipBlanks_append hgap, skipBlanks_of_not_isBlank (by decide)] at hitem
      have hclass : Text.isBlank ']' = false := by decide
      refine ⟨[e], rfl, ?_⟩
      rw [parseItems, hitem]
      simp only [bind, Except.bind, skipBlanks_of_not_isBlank hclass]

theorem Accepts.item {es : List Expr} (hgap : AllBlank gap)
    (h : Accepts (.level .disjunction) s e) (hothers : Accepts .items t (.list es)) :
    Accepts .items (s ++ (gap ++ ',' :: t)) (.list (e :: es)) := by
  intro input rest fuel hinput hfuel
  have hassoc : s ++ (gap ++ ',' :: t) ++ ']' :: rest =
      s ++ (gap ++ ',' :: (t ++ ']' :: rest)) := by simp
  rw [hassoc] at hinput hfuel
  rcases ends_of_closer hgap (c := ',') (by decide) (t ++ ']' :: rest) with ⟨hparted, hends⟩
  cases fuel with
  | zero => omega
  | succ fuel =>
      have hitem : parseLevel fuel .disjunction input =
          .ok (e, skipBlanks (gap ++ ',' :: (t ++ ']' :: rest))) :=
        h.to_end hinput hparted (fun other _ => hends other) (by rw [Level.height]; omega)
      rw [skipBlanks_append hgap, skipBlanks_of_not_isBlank (by decide)] at hitem
      rw [List.length_append, List.length_append, List.length_cons] at hfuel
      rcases hothers (t ++ ']' :: rest) rest fuel rfl (by omega) with ⟨_, heq, hitems⟩
      cases heq
      have hclass : Text.isBlank ',' = false := by decide
      refine ⟨e :: es, rfl, ?_⟩
      rw [parseItems, hitem]
      simp only [bind, Except.bind, skipBlanks_of_not_isBlank hclass, hitems]

theorem Accepts.text {quote : Char} (hquote : quote = '"' ∨ quote = '\'') {body text : List Char}
    (h : Quoted quote body text) :
    Accepts .primary (quote :: (body ++ [quote])) (.literal (.text (String.ofList text))) := by
  intro rest fuel _ hfuel
  have hassoc : quote :: (body ++ [quote]) ++ rest = quote :: (body ++ quote :: rest) := by simp
  have hclass : quote ≠ '\\' ∧ quote ≠ '(' ∧ quote ≠ '[' := by
    rcases hquote with rfl | rfl <;> decide
  cases fuel with
  | zero => omega
  | succ fuel =>
      rw [hassoc, parsePrimary, if_neg hclass.2.1, if_neg hclass.2.2, if_pos hquote,
        parseText_append hclass.1 h]

theorem Accepts.number {token : NumberToken} {n : Number} (htoken : token.IsToken)
    (hvalue : token.value? = some n) : Accepts .primary token.text (.literal (.number n)) := by
  intro rest fuel hparted hfuel
  have hread : parseNumber (token.text ++ rest) = .ok (.literal (.number n), rest) := by
    rw [parseNumber, scanNumber_text htoken hparted]
    simp only [hvalue]
  rcases htoken.whole with ⟨hne, hdigits⟩
  rcases List.exists_cons_of_ne_nil hne with ⟨c, more, hwhole⟩
  have hc : Decimal.isDigit c = true := hdigits c (hwhole ▸ List.mem_cons_self)
  have htext : token.text ++ rest = c :: (token.text ++ rest).tail := by
    rw [NumberToken.text, hwhole]
    rfl
  have hclass : c ≠ '(' ∧ c ≠ '[' ∧ ¬ (c = '"' ∨ c = '\'') := by
    refine ⟨?_, ?_, ?_⟩
    · rintro rfl
      cases hc
    · rintro rfl
      cases hc
    · rintro (rfl | rfl) <;> cases hc
  cases fuel with
  | zero => omega
  | succ fuel =>
      rw [htext, parsePrimary, if_neg hclass.1, if_neg hclass.2.1, if_neg hclass.2.2, if_pos hc,
        ← htext]
      exact hread

/-- A name is told from the other primaries by its first character. -/
theorem parsePrimary_of_isName (h : IsName s) (after : List Char) (fuel : Nat) :
    parsePrimary (fuel + 1) (s ++ after) = parseName (s ++ after) := by
  rcases h with ⟨c, more, rfl, hc, -⟩
  have hclass : c ≠ '(' ∧ c ≠ '[' ∧ ¬ (c = '"' ∨ c = '\'') := by
    refine ⟨?_, ?_, ?_⟩
    · rintro rfl
      exact absurd hc (by decide +kernel)
    · rintro rfl
      exact absurd hc (by decide +kernel)
    · rintro (rfl | rfl) <;> exact absurd hc (by decide +kernel)
  have hdigit : ¬ Decimal.isDigit c = true := by
    rw [isDigit_of_isNameStart hc]
    exact Bool.false_ne_true
  rw [List.cons_append, parsePrimary, if_neg hclass.1, if_neg hclass.2.1, if_neg hclass.2.2,
    if_neg hdigit, if_pos hc]

theorem Accepts.constant {v : Value} (h : (s, v) ∈ reserved) :
    Accepts .primary s (.literal v) := by
  intro rest fuel hparted hfuel
  cases fuel with
  | zero => omega
  | succ fuel =>
      rw [parsePrimary_of_isName (isName_of_reserved h), parseName_constant hparted h]

theorem Accepts.name (h : IsName s) {members : List (List Char)}
    (hmembers : ∀ m ∈ members, IsMember m) (hfree : members = [] → s ∉ reserved.map (·.1)) :
    Accepts .primary (s ++ dotted members)
      (.variable (String.ofList s) (members.map String.ofList)) := by
  intro rest fuel hparted hfuel
  cases fuel with
  | zero => omega
  | succ fuel =>
      rw [List.append_assoc, parsePrimary_of_isName h,
        parseName_variable hparted h hmembers hfree]

end Accepts

/-- The parsers read every phrase of the grammar. -/
theorem Phrase.Derives.accepts {p : Phrase} {s : List Char} {e : Expr} (h : p.Derives s e) :
    Accepts p s e := by
  induction h with
  | operand _ ih => exact ih.joined
  | binary hop _ hgap hright ihleft ihright =>
      exact Accepts.binary hop ihleft hgap ihright (hright.starts nofun)
  | tighter htighter _ ih => exact ih.tighter htighter
  | tightest htightest _ ih => exact ih.tightest htightest
  | not hgap _ ih => exact ih.not hgap
  | negate hgap _ ih => exact ih.negate hgap
  | primary hgap h ih => exact ih.unary hgap h.begins
  | group _ hgap ih => exact ih.group hgap
  | emptyList hgap => exact Accepts.emptyList hgap
  | list h ih => exact ih.list (h.starts nofun)
  | lastItem _ hgap ih => exact ih.lastItem hgap
  | item _ hgap _ ih ihothers => exact ih.item hgap ihothers
  | text hquote hbody => exact Accepts.text hquote hbody
  | number htoken hvalue => exact Accepts.number htoken hvalue
  | constant hword => exact Accepts.constant hword
  | name hname hmembers hfree => exact Accepts.name hname hmembers hfree

/-! ## Whole texts -/

theorem parse_of_isExpression {s : List Char} {e : Expr} (h : IsExpression s e) :
    Expr.parse s = .ok e := by
  have hne : ¬ s.isEmpty = true := by
    rcases h.starts nofun with ⟨gap, c, t, rfl, -⟩
    simp
  have hlevel : parseLevel (parseFuel s) .disjunction s = .ok (e, skipBlanks []) :=
    h.accepts.to_end (by rw [List.append_nil]) parted_nil (fun other _ => other.ends_nil)
      (by rw [List.append_nil, parseFuel, Level.height]; omega)
  rw [Expr.parse, if_neg hne, hlevel]
  rfl

namespace Expression

theorem parse_eq_ok_iff {source : String} {e : Expression} :
    parse source = .ok e ↔
      e.source = source ∧ IsExpression (trimBlanks source.toList) e.tree := by
  constructor
  · intro h
    unfold parse at h
    simp only at h
    split at h
    · rename_i tree htree
      cases h
      exact ⟨rfl, isExpression_of_parse (trimBlanks_spec _).1 htree⟩
    · cases h
  · rintro ⟨rfl, h⟩
    simp only [parse, parse_of_isExpression h]

/-- A source is accepted if it is an expression but for blanks around it, and then the tree is the
only one that the grammar has for it. -/
theorem parse_accepts_grammar (source : String) :
    (Succeeds (parse source) ↔ ∃ tree, IsExpression (trimBlanks source.toList) tree) ∧
      (∀ e, parse source = .ok e → e.source = source ∧
        ∀ tree, IsExpression (trimBlanks source.toList) tree ↔ tree = e.tree) := by
  constructor
  · constructor
    · rintro ⟨e, h⟩
      exact ⟨e.tree, (parse_eq_ok_iff.1 h).2⟩
    · rintro ⟨tree, h⟩
      exact ⟨⟨source, tree⟩, parse_eq_ok_iff.2 ⟨rfl, h⟩⟩
  · intro e h
    rcases parse_eq_ok_iff.1 h with ⟨hsource, htree⟩
    refine ⟨hsource, fun tree => ⟨fun hother => ?_, fun heq => heq ▸ htree⟩⟩
    have hsame := (parse_of_isExpression hother).symm.trans (parse_of_isExpression htree)
    cases hsame
    rfl

theorem parse_accepts_grammar_words :
    ∃ e, parse "!a.b - true - true.c" = .ok e ∧
      e.tree matches .binary _ (.binary _ (.unary _ (.variable _ _)) (.literal _)) (.variable _ _) ∧
      ∀ tree, IsExpression (trimBlanks "!a.b - true - true.c".toList) tree ↔ tree = e.tree := by
  have hread : (parse "!a.b - true - true.c").toOption.any (fun e => e.tree matches
      .binary _ (.binary _ (.unary _ (.variable _ _)) (.literal _)) (.variable _ _)) = true := by
    decide +kernel
  cases hparse : parse "!a.b - true - true.c" with
  | ok e =>
      rw [hparse] at hread
      exact ⟨e, rfl, hread, ((parse_accepts_grammar _).2 e hparse).2⟩
  | error fault =>
      rw [hparse] at hread
      cases hread

end Expression

end Statechart
