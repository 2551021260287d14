/-!
# Code point ranges

Character properties are tables of inclusive code point ranges in ascending order.

- `inRanges` : membership of a character in such a table
- `isBlank`  : the Unicode property `White_Space`
-/

namespace Statechart
namespace Text

/-- The scan stops at the first range that begins beyond the character. -/
def inRanges : List (Nat × Nat) → Char → Bool
  | [], _ => false
  | (low, high) :: rest, c =>
      if c.toNat < low then false
      else if c.toNat ≤ high then true
      else inRanges rest c

/-! ## White space -/

def blankRanges : List (Nat × Nat) :=
  [(0x9, 0xd), (0x20, 0x20), (0x85, 0x85), (0xa0, 0xa0), (0x1680, 0x1680), (0x2000, 0x200a),
   (0x2028, 0x2029), (0x202f, 0x202f), (0x205f, 0x205f), (0x3000, 0x3000)]

def isBlank (c : Char) : Bool :=
  inRanges blankRanges c

end Text
end Statechart
