import Reassembly.Bytes

/-!
# Reading octets as UTF-8

A scanner reads octets one at a time and yields a piece for every encoded character and
one for every maximal run of octets that begins a character but does not finish it. From
the pieces follow both uses: an octet string is well formed if no piece is ill formed, and
its lenient reading puts one replacement character in the place of each ill-formed piece.
-/

namespace Reassembly

namespace Text

namespace Utf8

/-- What the scanner finds. -/
inductive Piece where
  /-- One encoded character. -/
  | scalar (char : Char)
  /-- Octets that begin no character, or begin one and do not go on with it. -/
  | illFormed
  deriving DecidableEq, Repr

/-- A character of several octets whose beginning has been read. -/
structure Begun where
  /-- How many octets follow the next one. -/
  afterNext : Nat
  /-- The least octet that may come next. -/
  low : UInt8
  /-- The greatest octet that may come next. -/
  high : UInt8
  /-- The bits read so far. -/
  bits : Nat
  deriving DecidableEq, Repr

/-- What the scanner has found, latest first, and where it stands. -/
structure Scan where
  found : List Piece := []
  begun : Option Begun := none
  deriving DecidableEq, Repr

/-- Reads the first octet of a character. The bounds on the second octet exclude encodings
longer than needed, surrogates and numbers above the last code point. -/
def Scan.lead (found : List Piece) (octet : UInt8) : Scan :=
  let bits := octet.toNat
  if octet < 0x80 then ⟨.scalar (Char.ofNat bits) :: found, none⟩
  else if octet < 0xC2 then ⟨.illFormed :: found, none⟩
  else if octet < 0xE0 then ⟨found, some ⟨0, 0x80, 0xBF, bits % 0x20⟩⟩
  else if octet = 0xE0 then ⟨found, some ⟨1, 0xA0, 0xBF, bits % 0x10⟩⟩
  else if octet = 0xED then ⟨found, some ⟨1, 0x80, 0x9F, bits % 0x10⟩⟩
  else if octet < 0xF0 then ⟨found, some ⟨1, 0x80, 0xBF, bits % 0x10⟩⟩
  else if octet = 0xF0 then ⟨found, some ⟨2, 0x90, 0xBF, bits % 0x08⟩⟩
  else if octet < 0xF4 then ⟨found, some ⟨2, 0x80, 0xBF, bits % 0x08⟩⟩
  else if octet = 0xF4 then ⟨found, some ⟨2, 0x80, 0x8F, bits % 0x08⟩⟩
  else ⟨.illFormed :: found, none⟩

def Scan.read (scan : Scan) (octet : UInt8) : Scan :=
  match scan.begun with
  | none => .lead scan.found octet
  | some begun =>
      if begun.low ≤ octet ∧ octet ≤ begun.high then
        let bits := begun.bits * 0x40 + octet.toNat % 0x40
        match begun.afterNext with
        | 0 => ⟨.scalar (Char.ofNat bits) :: scan.found, none⟩
        | afterNext + 1 => ⟨scan.found, some ⟨afterNext, 0x80, 0xBF, bits⟩⟩
      else .lead (.illFormed :: scan.found) octet

/-- The pieces of an octet string, in order. -/
def pieces (octets : Bytes) : List Piece :=
  let scan := octets.foldl Scan.read {}
  let found := if scan.begun.isSome then .illFormed :: scan.found else scan.found
  found.reverse

def isValid (octets : Bytes) : Bool :=
  (pieces octets).all (· ≠ .illFormed)

/-- The text of an octet string, with a replacement character for what is ill formed. -/
def decodeLenient (octets : Bytes) : String :=
  .ofList <| (pieces octets).map fun
    | .scalar char => char
    | .illFormed => '\uFFFD'

def encode (text : String) : Bytes := text.toUTF8.toList

end Utf8

end Text

end Reassembly
