import Reassembly.Bytes

/-!
# Classes of octets in a request

Which octets may stand where in the text of a request: in a token, such as a method or
a header name, in the target of the request line, and in the value of a header.
-/

namespace Reassembly

namespace Octet

def isDigit (octet : UInt8) : Bool := 0x30 ≤ octet && octet ≤ 0x39

def isUpper (octet : UInt8) : Bool := 0x41 ≤ octet && octet ≤ 0x5A

def isLower (octet : UInt8) : Bool := 0x61 ≤ octet && octet ≤ 0x7A

def isAlphanumeric (octet : UInt8) : Bool := isDigit octet || isUpper octet || isLower octet

/-- The lower-case form of an ASCII letter; any other octet is left alone. -/
def toLower (octet : UInt8) : UInt8 := if isUpper octet then octet + 0x20 else octet

/-- An octet above the ASCII range. -/
def isHigh (octet : UInt8) : Bool := 0x80 ≤ octet

/-- Space or tab. -/
def isBlank (octet : UInt8) : Bool := octet = Bytes.space || octet = Bytes.tab

def isToken (octet : UInt8) : Bool :=
  isAlphanumeric octet || (Bytes.ascii "!#$%&'*+-.^_`|~").contains octet

/-- An octet of the target of a request line. -/
def isTarget (octet : UInt8) : Bool := (0x21 ≤ octet && octet ≤ 0x7E) || isHigh octet

/-- An octet of the value of a header. -/
def isValue (octet : UInt8) : Bool := isTarget octet || isBlank octet

end Octet

/-- An octet string with its ASCII letters in lower case. -/
def Bytes.toLower (octets : Bytes) : Bytes := octets.map Octet.toLower

end Reassembly
