import Statechart.Expression.Parser

/-!
# Slices by bytes

Places in a text are counted in bytes, and not every count is a place: a text is cut between its
characters only.

- `byteSize_append`, `utf8ByteSize_eq` : how many bytes characters take
- `Text.IsBoundary`, `Text.isBoundary_iff` : the places between characters
- `Text.slice?`, `Text.slice?_of_split` : what stands between two places
-/

namespace Statechart

/-! ## Bytes of characters -/

theorem byteSize_append (s t : List Char) : byteSize (s ++ t) = byteSize s + byteSize t := by
  induction s with
  | nil => exact (Nat.zero_add _).symm
  | cons c s ih => rw [List.cons_append, byteSize, byteSize, ih, Nat.add_assoc]

theorem byteSize_pos (c : Char) (s : List Char) : 0 < byteSize (c :: s) :=
  Nat.add_pos_left c.utf8Size_pos _

theorem utf8ByteSize_ofList (s : List Char) : (String.ofList s).utf8ByteSize = byteSize s := by
  induction s with
  | nil => rfl
  | cons c s ih =>
      rw [String.ofList_cons, String.utf8ByteSize_append, String.utf8ByteSize_singleton, ih]
      rfl

theorem utf8ByteSize_eq (s : String) : s.utf8ByteSize = byteSize s.toList := by
  rw [← utf8ByteSize_ofList, String.ofList_toList]

namespace Text

/-! ## Boundaries -/

/-- An offset in bytes that is neither past the end of a text nor inside of a character. -/
def IsBoundary (s : String) (offset : Nat) : Prop := (String.Pos.Raw.mk offset).IsValid s

instance (s : String) (offset : Nat) : Decidable (IsBoundary s offset) :=
  inferInstanceAs (Decidable ((String.Pos.Raw.mk offset).IsValid s))

variable {s : String} {front word rest : List Char}

theorem eq_append_of_split (h : s.toList = front ++ rest) :
    s = String.ofList front ++ String.ofList rest := by
  rw [← String.ofList_append, ← h, String.ofList_toList]

theorem mk_byteSize (front : List Char) :
    String.Pos.Raw.mk (byteSize front) = (String.ofList front).rawEndPos := by
  rw [String.Pos.Raw.ext_iff, String.byteIdx_rawEndPos, utf8ByteSize_ofList]

/-- A boundary has a number of whole characters in front of it. -/
theorem isBoundary_iff {offset : Nat} :
    IsBoundary s offset ↔ ∃ front rest, s.toList = front ++ rest ∧ offset = byteSize front := by
  rw [IsBoundary, String.Pos.Raw.isValid_iff_exists_append]
  constructor
  · rintro ⟨before, after, rfl, hoffset⟩
    refine ⟨before.toList, after.toList, String.toList_append, ?_⟩
    rw [← utf8ByteSize_eq]
    exact congrArg String.Pos.Raw.byteIdx hoffset
  · rintro ⟨front, rest, hsplit, rfl⟩
    exact ⟨.ofList front, .ofList rest, eq_append_of_split hsplit, mk_byteSize front⟩

theorem isBoundary_of_split (h : s.toList = front ++ rest) : IsBoundary s (byteSize front) :=
  isBoundary_iff.2 ⟨front, rest, h, rfl⟩

theorem IsBoundary.le {offset : Nat} (h : IsBoundary s offset) : offset ≤ s.utf8ByteSize := by
  rcases isBoundary_iff.1 h with ⟨front, rest, hsplit, rfl⟩
  rw [utf8ByteSize_eq, hsplit, byteSize_append]
  exact Nat.le_add_right _ _

/-! ## Slices -/

/-- The text between two boundaries, the first of which is not behind the second. -/
def slice? (s : String) (start stop : Nat) : Option String :=
  if h : IsBoundary s start ∧ IsBoundary s stop ∧ start ≤ stop then
    some (s.slice ⟨⟨start⟩, h.1⟩ ⟨⟨stop⟩, h.2.1⟩ h.2.2).copy
  else none

theorem slice?_of_split (h : s.toList = front ++ (word ++ rest)) :
    slice? s (byteSize front) (byteSize (front ++ word)) = some (String.ofList word) := by
  have hstop : s.toList = (front ++ word) ++ rest := h.trans (List.append_assoc _ _ _).symm
  have hle : byteSize front ≤ byteSize (front ++ word) := by
    rw [byteSize_append]
    exact Nat.le_add_right _ _
  have hbefore : (⟨⟨byteSize front⟩, isBoundary_of_split h⟩ : s.Pos).Splits
      (.ofList front) (.ofList word ++ .ofList rest) := by
    rw [← String.ofList_append]
    exact ⟨eq_append_of_split h, mk_byteSize front⟩
  have hafter : (⟨⟨byteSize (front ++ word)⟩, isBoundary_of_split hstop⟩ : s.Pos).Splits
      (.ofList front ++ .ofList word) (.ofList rest) := by
    rw [← String.ofList_append]
    exact ⟨eq_append_of_split hstop, mk_byteSize (front ++ word)⟩
  rcases String.copy_slice_eq_iff_splits.2 ⟨_, _, hbefore, hafter⟩ with ⟨_, hcopy⟩
  rw [slice?, dif_pos ⟨isBoundary_of_split h, isBoundary_of_split hstop, hle⟩, hcopy]

example : slice? "né!" 1 3 = some "é" ∧ slice? "né!" 1 2 = none ∧ slice? "né!" 1 5 = none := by
  decide

end Text

end Statechart
