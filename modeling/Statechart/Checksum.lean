import Statechart.Text.Quoted

/-!
# Checksums

The 32-bit cyclic redundancy check of a byte sequence by the Castagnoli polynomial, bits taken
from the lowest up.

- `Checksum.shift`    : one bit of the division
- `Checksum.absorb`   : one byte
- `Checksum.ofBytes`  : a byte sequence
- `Checksum.text`     : the checksum of a text as eight hexadecimal digits
-/

namespace Statechart
namespace Checksum

/-- The Castagnoli polynomial, its coefficients reversed. -/
def polynomial : BitVec 32 := 0x82f63b78#32

def shift (register : BitVec 32) : BitVec 32 :=
  if register.getLsbD 0 then (register >>> 1) ^^^ polynomial else register >>> 1

def shifts : Nat → BitVec 32 → BitVec 32
  | 0, register => register
  | n + 1, register => shifts n (shift register)

def absorb (register : BitVec 32) (byte : UInt8) : BitVec 32 :=
  shifts 8 (register ^^^ BitVec.ofNat 32 byte.toNat)

/-- The register starts with ones and is inverted at the end. -/
def ofBytes (bytes : List UInt8) : BitVec 32 :=
  ~~~(bytes.foldl absorb (BitVec.allOnes 32))

def text (s : String) : String :=
  Text.hexText 8 (ofBytes s.toUTF8.toList).toNat

end Checksum
end Statechart
