import Reassembly.Bytes

/-!
# Pseudo-headers

A request arrives with its method, scheme, path and authority in header fields whose names
start with a colon. They are collected before the request line can be written, each of
them at most once.
-/

namespace Reassembly

/-- The pseudo-headers of a request. -/
inductive PseudoField where
  | method
  | scheme
  | path
  | authority
  deriving DecidableEq, Repr

namespace PseudoField

/-- The name of a pseudo-header as it arrives. -/
def name : PseudoField → String
  | method => ":method"
  | scheme => ":scheme"
  | path => ":path"
  | authority => ":authority"

def all : List PseudoField := [method, scheme, path, authority]

/-- The pseudo-header of exactly this name, if there is one. -/
def ofName? (octets : Bytes) : Option PseudoField :=
  all.find? fun field => octets = Bytes.ascii field.name

end PseudoField

/-- Whether a header field of this name is a pseudo-header. -/
def isPseudoName (name : Bytes) : Bool := name.head? = some Bytes.colon

/-- The pseudo-headers received so far. -/
structure PseudoHeaders where
  method : Option Bytes := none
  scheme : Option Bytes := none
  path : Option Bytes := none
  authority : Option Bytes := none
  deriving DecidableEq, Repr

namespace PseudoHeaders

def get? (headers : PseudoHeaders) : PseudoField → Option Bytes
  | .method => headers.method
  | .scheme => headers.scheme
  | .path => headers.path
  | .authority => headers.authority

def put (headers : PseudoHeaders) (value : Bytes) : PseudoField → PseudoHeaders
  | .method => { headers with method := some value }
  | .scheme => { headers with scheme := some value }
  | .path => { headers with path := some value }
  | .authority => { headers with authority := some value }

@[simp]
theorem get?_put_self (headers : PseudoHeaders) (value : Bytes) (field : PseudoField) :
    (headers.put value field).get? field = some value := by
  cases field <;> rfl

theorem get?_put_of_ne (headers : PseudoHeaders) (value : Bytes) {field other : PseudoField}
    (differ : other ≠ field) : (headers.put value field).get? other = headers.get? other := by
  cases field <;> cases other <;> simp_all [put, get?]

end PseudoHeaders

end Reassembly
