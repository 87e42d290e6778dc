import Reassembly.Request.Octets

/-!
# Request targets

The target of a request line is a path with an optional query, an absolute address with
a scheme and an authority before the path, an authority alone, or `*`. A fragment is no
part of a target and is dropped.
-/

namespace Reassembly

/-- What a request asks for. -/
structure Target where
  scheme : Option Bytes := none
  authority : Option Bytes := none
  path : Bytes
  query : Option Bytes := none
  deriving DecidableEq, Repr

namespace Target

/-- Why a target was not read. -/
inductive Fault where
  | tooLong
  | empty
  /-- An octet that cannot stand where it stands. -/
  | octet
  | authority
  | schemeTooLong
  /-- The parts do not fit together. -/
  | format
  deriving DecidableEq, Repr

def Fault.message : Fault → String
  | tooLong => "uri too long"
  | empty => "empty string"
  | octet => "invalid uri character"
  | authority => "invalid authority"
  | schemeTooLong => "scheme too long"
  | format => "invalid format"

@[match_pattern, reducible] def slash : UInt8 := 0x2F

@[match_pattern, reducible] def questionMark : UInt8 := 0x3F

@[match_pattern, reducible] def hash : UInt8 := 0x23

@[match_pattern, reducible] def star : UInt8 := 0x2A

@[reducible] def atSign : UInt8 := 0x40

def maxLength : Nat := 65534

def maxSchemeLength : Nat := 64

/-- The number of colons that are read before an authority is given up. Even an address of
eight groups has no more. -/
def maxColons : Nat := 8

def endsAuthority (octet : UInt8) : Bool :=
  octet = slash || octet = questionMark || octet = hash

def endsPath (octet : UInt8) : Bool := octet = questionMark || octet = hash

def isSchemeOctet (octet : UInt8) : Bool :=
  Octet.isAlphanumeric octet || (Bytes.ascii "+-.~").contains octet

/-- An octet of an authority that has no meaning of its own there. -/
def isAuthorityOctet (octet : UInt8) : Bool :=
  Octet.isAlphanumeric octet || (Bytes.ascii "!$&'()*+,-.;=_~").contains octet

def isPathOctet (octet : UInt8) : Bool :=
  Octet.isTarget octet && !(Bytes.ascii "#<>?`").contains octet

def isQueryOctet (octet : UInt8) : Bool :=
  Octet.isTarget octet && !(Bytes.ascii "\"#<>").contains octet

/-- What the octets of an authority read so far mean. -/
structure AuthorityScan where
  /-- Colons since the last `@` or `]`. -/
  colons : Nat := 0
  /-- A `[` has been read. -/
  opened : Bool := false
  /-- A `]` has been read. -/
  closed : Bool := false
  /-- A `%` has been read since the last `@` or `]`. -/
  percent : Bool := false
  deriving DecidableEq, Repr

def AuthorityScan.read (scan : AuthorityScan) (octet : UInt8) :
    Except Fault AuthorityScan :=
  if octet = Bytes.colon then
    if scan.colons < maxColons then .ok { scan with colons := scan.colons + 1 }
    else .error .authority
  else if octet = 0x5B then
    if scan.opened || scan.percent then .error .authority else .ok { scan with opened := true }
  else if octet = 0x5D then
    if scan.opened && !scan.closed then
      .ok { scan with closed := true, colons := 0, percent := false }
    else .error .authority
  else if octet = atSign then .ok { scan with colons := 0, percent := false }
  else if octet = 0x25 then .ok { scan with percent := true }
  else if isAuthorityOctet octet then .ok scan
  else .error .octet

/-- Whether an authority may end here: its bracket is closed, at most one colon follows the
host, and the host has no `%`. -/
def AuthorityScan.isComplete (scan : AuthorityScan) : Bool :=
  scan.opened = scan.closed && scan.colons ≤ 1 && !scan.percent

/-- Reads an authority off the front of the input and returns the rest. If there is no input, the
fault is that of an empty target, also behind a scheme: `http://` is refused as empty. -/
def readAuthority (input : Bytes) : Except Fault (Bytes × Bytes) := do
  if input.isEmpty then
    throw .empty
  else
    let authority := input.takeWhile (!endsAuthority ·)
    let scan ← authority.foldlM AuthorityScan.read {}
    if scan.isComplete && authority.getLast? ≠ some atSign then
      pure (authority, input.dropWhile (!endsAuthority ·))
    else
      throw .authority

/-- Reads a path and, after a question mark, a query. An empty path means the root. -/
def readPath (input : Bytes) : Except Fault (Bytes × Option Bytes) :=
  let path := input.takeWhile (!endsPath ·)
  let query :=
    match input.dropWhile (!endsPath ·) with
    | questionMark :: rest => some (rest.takeWhile (· ≠ hash))
    | _ => none
  if path.all isPathOctet && (query.getD []).all isQueryOctet then
    .ok (if path.isEmpty then [slash] else path, query)
  else
    .error .octet

/-- Reads a scheme off the front of the input, if there is one, and returns the rest. The
two schemes of the protocol itself are known in any case and kept in lower case. -/
def readScheme (input : Bytes) : Except Fault (Option Bytes × Bytes) :=
  if Bytes.toLower (input.take 7) = Bytes.ascii "http://" then
    .ok (some (Bytes.ascii "http"), input.drop 7)
  else if Bytes.toLower (input.take 8) = Bytes.ascii "https://" then
    .ok (some (Bytes.ascii "https"), input.drop 8)
  else
    match input.dropWhile isSchemeOctet with
    | Bytes.colon :: slash :: slash :: rest =>
        let scheme := input.takeWhile isSchemeOctet
        if input.length ≤ 3 then .ok (none, input)
        else if scheme.length ≤ maxSchemeLength then .ok (some scheme, rest)
        else .error .schemeTooLong
    | _ => .ok (none, input)

def parse (input : Bytes) : Except Fault Target :=
  if maxLength < input.length then .error .tooLong
  else
    match input with
    | [star] => .ok { path := [star] }
    | [questionMark] | [hash] => .error .octet
    | slash :: _ => do
        let (path, query) ← readPath input
        pure { path, query }
    | _ => do
        let (scheme, rest) ← readScheme input
        let (authority, rest) ← readAuthority rest
        match scheme with
        | none =>
            if rest.isEmpty then pure { authority := some authority, path := [] }
            else throw .format
        | some scheme =>
            if authority.isEmpty then throw .format
            else
              let (path, query) ← readPath rest
              pure { scheme := some scheme, authority := some authority, path, query }

def text (target : Target) : Bytes :=
  target.scheme.elim [] (· ++ Bytes.ascii "://")
    ++ target.authority.getD []
    ++ target.path
    ++ target.query.elim [] (questionMark :: ·)

end Target

end Reassembly
