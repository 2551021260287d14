/-!
# Quoted text

Text between double quotes, with escapes for quotes, backslashes and control characters.

- `hexDigit`, `hexText` : lower-case hexadecimal digits
- `escape`              : the written form of one character
- `quote`               : the written form of a text
- `byteLength`          : the size of a text in bytes
-/

namespace Statechart
namespace Text

/-! ## Hexadecimal digits -/

def hexDigit (n : Nat) : Char :=
  if n < 10 then Char.ofNat (48 + n) else Char.ofNat (87 + n)

/-- The last `width` hexadecimal digits of a number. -/
def hexText (width : Nat) (n : Nat) : String :=
  String.ofList ((List.range width).reverse.map fun i => hexDigit (n / Nat.pow 16 i % 16))

/-! ## Escapes -/

/-- Control characters without a letter of their own are written by their code. -/
def escape (c : Char) : List Char :=
  if c = '"' then ['\\', '"']
  else if c = '\\' then ['\\', '\\']
  else if c = '\n' then ['\\', 'n']
  else if c = '\t' then ['\\', 't']
  else if c = '\r' then ['\\', 'r']
  else if c = '\x08' then ['\\', 'b']
  else if c = '\x0c' then ['\\', 'f']
  else if c.toNat < 32 then
    ['\\', 'u', '0', '0', hexDigit (c.toNat / 16), hexDigit (c.toNat % 16)]
  else [c]

def quote (s : String) : String :=
  "\"" ++ String.ofList (s.toList.flatMap escape) ++ "\""

def byteLength (s : String) : Nat := s.utf8ByteSize

end Text
end Statechart
