import Reassembly.Request.Octets
import Reassembly.Text.Utf8
import Reassembly.Version

/-!
# Reading the head of a request

The head of a request is its request line, its header lines and the blank line after them.
Each reader takes what it reads off the front of the input and returns the rest. A reader
fails at the first octet that cannot stand where it stands. Input that ends before such
an octet was met is not malformed, only incomplete. A line ends with a line feed, alone or
after a carriage return.
-/

namespace Reassembly

structure Field where
  name : Bytes
  value : Bytes
  deriving DecidableEq, Repr

/-- The head of a request, as it is spelled. -/
structure Head where
  method : Bytes
  target : Bytes
  version : Version
  /-- The header fields in order of arrival. -/
  fields : List Field
  deriving DecidableEq, Repr

namespace Head

/-- The part of a head in which an octet is out of place. -/
inductive Fault where
  | newLine
  | token
  | version
  | fieldName
  | fieldValue
  deriving DecidableEq, Repr

def Fault.message : Fault → String
  | newLine => "invalid new line"
  | token => "invalid token"
  | version => "invalid HTTP version"
  | fieldName => "invalid header name"
  | fieldValue => "invalid header value"

/-- Why a head was not read. -/
inductive ReadError where
  /-- The input ends inside the head. -/
  | incomplete
  | tooManyFields
  | malformed (fault : Fault)
  deriving DecidableEq, Repr

/-- A function that reads something off the front of its input. -/
abbrev Reader (Value : Type) := Bytes → Except ReadError (Value × Bytes)

/-- The number of header lines that a head may have. -/
def maxFields : Nat := 64

def readNewLine (fault : Fault) : Bytes → Except ReadError Bytes
  | Bytes.lf :: rest => .ok rest
  | Bytes.cr :: Bytes.lf :: rest => .ok rest
  | [] | [Bytes.cr] => .error .incomplete
  | _ => .error (.malformed fault)

/-- Reads blank lines until something else comes. -/
def skipNewLines : Bytes → Except ReadError Bytes
  | Bytes.lf :: rest => skipNewLines rest
  | Bytes.cr :: Bytes.lf :: rest => skipNewLines rest
  | [Bytes.cr] => .error .incomplete
  | Bytes.cr :: _ => .error (.malformed .newLine)
  | input => .ok input

/-- Reads the method and the space after it. -/
def readMethod : Reader Bytes := fun input =>
  let method := input.takeWhile Octet.isToken
  match input.dropWhile Octet.isToken with
  | [] => .error .incomplete
  | next :: rest =>
      if next = Bytes.space ∧ method ≠ [] then .ok (method, rest)
      else .error (.malformed .token)

/-- Reads the target, which must be readable as UTF-8, and the space after it. -/
def readTarget : Reader Bytes := fun input =>
  let target := input.takeWhile Octet.isTarget
  match input.dropWhile Octet.isTarget with
  | [] => .error .incomplete
  | next :: rest =>
      if next = Bytes.space ∧ target ≠ [] ∧ Text.Utf8.isValid target then .ok (target, rest)
      else .error (.malformed .token)

def readVersion : Reader Version := fun input =>
  if (Bytes.ascii "HTTP/1.0").isPrefixOf input then .ok (.http10, input.drop 8)
  else if (Bytes.ascii "HTTP/1.1").isPrefixOf input then .ok (.http11, input.drop 8)
  else if input.isPrefixOf (Bytes.ascii "HTTP/1.") then .error .incomplete
  else .error (.malformed .version)

/-- An octet string without the spaces and tabs at its end. -/
def trimEnd (octets : Bytes) : Bytes := (octets.reverse.dropWhile Octet.isBlank).reverse

/-- Reads one header line. Spaces and tabs around the value do not belong to it. -/
def readField : Reader Field := fun input =>
  let name := input.takeWhile Octet.isToken
  match input.dropWhile Octet.isToken with
  | [] => .error .incomplete
  | next :: rest =>
      if next = Bytes.colon ∧ name ≠ [] then do
        let rest := rest.dropWhile Octet.isBlank
        let value := trimEnd (rest.takeWhile Octet.isValue)
        let rest ← readNewLine .fieldValue (rest.dropWhile Octet.isValue)
        pure ({ name, value }, rest)
      else .error (.malformed .fieldName)

/-- Reads header lines up to and including the blank line that ends them. The line after
the last one allowed is still read, so that a fault in it is the one reported. -/
def readFields (allowed : Nat) : Reader (List Field) := fun input =>
  match input with
  | [] | Bytes.lf :: _ | Bytes.cr :: _ => do
      let rest ← readNewLine .newLine input
      pure ([], rest)
  | _ => do
      let (field, rest) ← readField input
      match allowed with
      | 0 => throw .tooManyFields
      | allowed + 1 =>
          let (later, rest) ← readFields allowed rest
          pure (field :: later, rest)

/-- Reads a head. What is left of the input is the body. -/
def read : Reader Head := fun input => do
  let input ← skipNewLines input
  let (method, input) ← readMethod input
  let (target, input) ← readTarget input
  let (version, input) ← readVersion input
  let input ← readNewLine .newLine input
  let (fields, body) ← readFields maxFields input
  pure ({ method, target, version, fields }, body)

end Head

end Reassembly
