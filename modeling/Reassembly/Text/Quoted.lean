import Reassembly.Bytes

/-!
# Octet strings as quoted text

Descriptions show octet strings between quotes. Printable ASCII stands for itself, a few
octets have a short escape, and every other octet is written as two hexadecimal digits.
-/

namespace Reassembly

namespace Text

namespace Quoted

/-- The hexadecimal digit of a number below sixteen. -/
def hexDigit (number : Nat) : Char :=
  if number < 10 then Char.ofNat (0x30 + number) else Char.ofNat (0x57 + number)

def escape (octet : UInt8) : List Char :=
  if octet = Bytes.lf then ['\\', 'n']
  else if octet = Bytes.cr then ['\\', 'r']
  else if octet = Bytes.tab then ['\\', 't']
  else if octet = 0x5C then ['\\', '\\']
  else if octet = 0x22 then ['\\', '"']
  else if octet = 0x00 then ['\\', '0']
  else if 0x20 ≤ octet ∧ octet < 0x7F then [Char.ofNat octet.toNat]
  else ['\\', 'x', hexDigit (octet.toNat / 16), hexDigit (octet.toNat % 16)]

/-- The quoted text of an octet string. -/
def quote (octets : Bytes) : String :=
  .ofList ('b' :: '"' :: octets.flatMap escape ++ ['"'])

end Quoted

end Text

end Reassembly
