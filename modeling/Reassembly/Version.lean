/-!
# Protocol versions

A request line may name the version of the protocol it is written for. Every published
version can be configured, but request text exists for `HTTP/1.0` and `HTTP/1.1` only.
-/

namespace Reassembly

/-- The published versions of the protocol. -/
inductive Version where
  | http09
  | http10
  | http11
  | http2
  | http3
  deriving DecidableEq, Repr

namespace Version

/-- The name of a version, as a request line spells it. -/
def name : Version → String
  | http09 => "HTTP/0.9"
  | http10 => "HTTP/1.0"
  | http11 => "HTTP/1.1"
  | http2 => "HTTP/2.0"
  | http3 => "HTTP/3.0"

/-- Whether requests of this version have a textual head. -/
def isTextual : Version → Bool
  | http10 | http11 => true
  | http09 | http2 | http3 => false

end Version

end Reassembly
