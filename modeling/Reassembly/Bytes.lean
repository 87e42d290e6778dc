/-!
# Octet strings

Everything that crosses the wire is a list of octets. This file names the octets that
separate the parts of a request text, and writes ASCII literals as octets.
-/

namespace Reassembly

/-- A sequence of octets. -/
abbrev Bytes := List UInt8

namespace Bytes

@[match_pattern, reducible] def tab : UInt8 := 0x09

@[match_pattern, reducible] def lf : UInt8 := 0x0A

@[match_pattern, reducible] def cr : UInt8 := 0x0D

@[match_pattern, reducible] def space : UInt8 := 0x20

@[match_pattern, reducible] def colon : UInt8 := 0x3A

/-- The octets of an ASCII text, one for each character. -/
def ascii (text : String) : Bytes := text.toList.map fun char => char.toNat.toUInt8

/-- The two octets that end every line of a request head. -/
def crlf : Bytes := [cr, lf]

end Bytes

end Reassembly
