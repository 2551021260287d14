import Mathlib.Algebra.Group.Nat.Defs
import Mathlib.Tactic.SplitIfs
import Statechart.Table

/-!
# Bytewise order

Texts are compared character by character. Their bytes come out in the same order: a character
begins with a byte that grows with it, and where these bytes agree so does the number of bytes that
follow, each with six more bits of the character.

- `Text.bytes`             : the bytes of a text
- `Text.encode_eq`         : a character as a leading byte and continuation bytes
- `Text.lt_iff_bytes_lt`   : the order of texts is the order of their bytes
- `Text.bytes_isPrefix_iff` : texts begin with each other as their bytes do
-/

namespace Statechart
namespace Text

/-- The bytes of a text, in order. -/
def bytes (s : String) : List UInt8 := s.toUTF8.data.toList

theorem bytes_eq_flatMap (s : String) : bytes s = s.toList.flatMap String.utf8EncodeChar := by
  have h : s.toByteArray = s.toList.utf8Encode := by
    rw [← String.toByteArray_ofList, String.ofList_toList]
  rw [bytes, String.toUTF8, h, List.utf8Encode, List.toList_data_toByteArray]

/-! ## Characters -/

/-- How many bytes follow the leading one. -/
def width (n : Nat) : Nat :=
  if n ≤ 127 then 0 else if n ≤ 2047 then 1 else if n ≤ 65535 then 2 else 3

/-- The leading byte tells how many follow. -/
def lead (n : Nat) : Nat :=
  if n ≤ 127 then n else if n ≤ 2047 then n / 64 + 192 else if n ≤ 65535 then n / 4096 + 224
  else n / 262144 + 240

/-- The bytes that follow, each with six bits, the last six in the last one. -/
def continuation : Nat → Nat → List UInt8
  | 0, _ => []
  | k + 1, n => UInt8.ofNat (n / 64 ^ k % 64 + 128) :: continuation k n

theorem encode_eq (c : Char) :
    String.utf8EncodeChar c =
      UInt8.ofNat (lead c.val.toNat) :: continuation (width c.val.toNat) c.val.toNat := by
  have hvalid : c.val.toNat < 1114112 := by
    rcases c.valid with h | h <;> omega
  unfold String.utf8EncodeChar lead width
  generalize c.val.toNat = n at hvalid
  simp only
  -- the leading bits need no mask, since the character is below the bound for its width
  split_ifs <;> simp (disch := omega) [continuation, Nat.mod_eq_of_lt]

/-- Of two characters the greater has the greater leading byte, or all but the following bytes
agree. -/
theorem lead_cases {m n : Nat} (h : m < n) :
    lead m < lead n ∨
      (lead m = lead n ∧ width m = width n ∧ m / 64 ^ width m = n / 64 ^ width m) := by
  unfold lead width
  split_ifs <;>
    simp only [Nat.reducePow, Nat.pow_zero, Nat.pow_one, Nat.div_one, true_and] <;> omega

theorem lead_lt {n : Nat} (h : n < 1114112) : lead n < 256 := by
  unfold lead
  split_ifs <;> omega

/-- A smaller byte decides, whatever follows. -/
theorem ofNat_cons_lt {a b : Nat} (h : a < b) (hb : b < 256) (u w : List UInt8) :
    UInt8.ofNat a :: u < UInt8.ofNat b :: w := by
  refine List.cons_lt_cons_iff.2 (.inl ?_)
  rw [UInt8.lt_iff_toNat_lt, UInt8.toNat_ofNat_of_lt' (Nat.lt_trans h hb),
    UInt8.toNat_ofNat_of_lt' hb]
  exact h

theorem continuation_lt {m n : Nat} (h : m < n) (k : Nat) (hhigh : m / 64 ^ k = n / 64 ^ k)
    (u w : List UInt8) : continuation k m ++ u < continuation k n ++ w := by
  -- on the number of bytes; the bits before them agree
  induction k with
  | zero =>
      rw [Nat.pow_zero, Nat.div_one, Nat.div_one] at hhigh
      exact absurd hhigh (Nat.ne_of_lt h)
  | succ k ih =>
      simp only [continuation, List.cons_append]
      have hle : m / 64 ^ k ≤ n / 64 ^ k := Nat.div_le_div_right (Nat.le_of_lt h)
      rw [Nat.pow_succ, ← Nat.div_div_eq_div_mul, ← Nat.div_div_eq_div_mul] at hhigh
      rcases Nat.eq_or_lt_of_le hle with heq | hlt
      · rw [heq]
        exact List.cons_lt_cons_iff.2 (.inr ⟨rfl, ih heq⟩)
      · exact ofNat_cons_lt (by omega) (by omega) _ _

theorem encode_lt {c d : Char} (h : c < d) (u w : List UInt8) :
    String.utf8EncodeChar c ++ u < String.utf8EncodeChar d ++ w := by
  have hvalid : d.val.toNat < 1114112 := by
    rcases d.valid with h | h <;> omega
  rw [encode_eq, encode_eq, List.cons_append, List.cons_append]
  rcases lead_cases (show c.val.toNat < d.val.toNat from h) with hlead | ⟨hlead, hwidth, hhigh⟩
  · exact ofNat_cons_lt hlead (lead_lt hvalid) _ _
  · rw [hlead, ← hwidth]
    exact List.cons_lt_cons_iff.2 (.inr ⟨rfl, continuation_lt h _ hhigh u w⟩)

/-! ## Texts -/

theorem flatMap_encode_lt {cs ds : List Char} (h : cs < ds) :
    cs.flatMap String.utf8EncodeChar < ds.flatMap String.utf8EncodeChar := by
  induction cs generalizing ds with
  | nil =>
      cases ds with
      | nil => exact absurd h (Std.lt_irrefl)
      | cons d others =>
          rw [List.flatMap_cons, encode_eq]
          exact List.nil_lt_cons _ _
  | cons c rest ih =>
      cases ds with
      | nil => exact absurd h (List.not_lt_nil _)
      | cons d others =>
          rw [List.flatMap_cons, List.flatMap_cons]
          rcases List.cons_lt_cons_iff.1 h with hlt | ⟨rfl, hrest⟩
          · exact encode_lt hlt _ _
          · exact List.append_left_lt (ih hrest)

/-- The order of texts is the order of their bytes. -/
theorem lt_iff_bytes_lt {s t : String} : s < t ↔ bytes s < bytes t := by
  rw [bytes_eq_flatMap, bytes_eq_flatMap]
  constructor
  · exact flatMap_encode_lt
  · intro h
    rcases Std.lt_trichotomy s t with hlt | rfl | hgt
    · exact hlt
    · exact absurd h Std.lt_irrefl
    · exact absurd (List.lt_trans h (flatMap_encode_lt hgt)) Std.lt_irrefl

/-- A text begins with another if its bytes do: no character is cut off in the middle. -/
theorem bytes_isPrefix_iff {s t : String} : bytes s <+: bytes t ↔ s.toList <+: t.toList := by
  rw [bytes_eq_flatMap, bytes_eq_flatMap]
  constructor
  · rintro ⟨rest, hrest⟩
    refine List.isPrefix_of_utf8Encode_append_eq_utf8Encode rest.toByteArray ?_
    rw [List.utf8Encode, List.utf8Encode, ← List.toByteArray_append, hrest]
  · rintro ⟨rest, hrest⟩
    rw [← hrest, List.flatMap_append]
    exact List.prefix_append _ _

end Text
end Statechart
