import Reassembly.Delivery.Sink
import Reassembly.HeadLine
import Reassembly.Stream.PseudoHeaders
import Reassembly.Text.Utf8

/-!
# What can go wrong on a stream

A call on a stream fails because the peer broke the order of a request, because a line is
too long for its segment or has no textual form, because no segment can be allocated, or
because the sink refuses a delivery. Only the first of these is a fault of the peer.
-/

namespace Reassembly

/-- The ways in which a peer breaks the order of a request. -/
inductive Violation where
  | headerAfterEnd
  | dataAfterEnd
  | endOfHeadersAfterEnd
  | pseudoHeaderAfterStart
  | pseudoHeaderWithoutValue (name : Bytes)
  | duplicatePseudoHeader (name : Bytes)
  /-- The request starts before a pseudo-header that its request line needs. -/
  | missing (field : PseudoField)
  deriving DecidableEq, Repr

def Violation.reason : Violation → String
  | headerAfterEnd => "header after end of stream"
  | dataAfterEnd => "data after end of stream"
  | endOfHeadersAfterEnd => "end of headers after end of stream"
  | pseudoHeaderAfterStart => "pseudo header after request start"
  | pseudoHeaderWithoutValue name =>
      s!"pseudo header without value {Text.Utf8.decodeLenient name}"
  | duplicatePseudoHeader name => s!"duplicate pseudo header {Text.Utf8.decodeLenient name}"
  | missing field => s!"header start but {field.name} missing"

/-- Why a call on a stream failed. -/
inductive StreamError where
  | violation (fault : Violation)
  /-- Something needs more octets than a segment offers. -/
  | tooLarge (needed available : Nat)
  | outOfMemory (error : AllocationError)
  | unsupportedVersion (version : Version)
  /-- The sink refused a delivery. -/
  | refused (cause : Delivery.Refusal)
  deriving DecidableEq, Repr

namespace StreamError

def message : StreamError → String
  | violation fault => s!"protocol violation: {fault.reason}"
  | tooLarge needed available =>
      s!"too large, needs {needed} bytes but a segment only offers {available}"
  | outOfMemory error => error.message
  | unsupportedVersion version => s!"unsupported request line version: {version.name}"
  | refused cause => s!"delivery queue error: {cause.message}"

def ofEncodeError : EncodeError → StreamError
  | .tooLarge needed available => .tooLarge needed available
  | .unsupportedVersion version => .unsupportedVersion version

end StreamError

end Reassembly
