import Reassembly.Segment

/-!
# Where streams deliver to

A stream hands its segments, one after the other, to a sink, and at the end a marker that
nothing more follows. A sink may refuse either. It gives a refused segment back, so that
the stream can keep it and try again.
-/

namespace Reassembly

/-- Identifies a stream among those that share a sink. -/
abbrev StreamId := UInt32

namespace Delivery

/-- What is delivered for a stream. -/
inductive Item where
  /-- The contents of one segment. -/
  | chunk (octets : Bytes)
  /-- Nothing more follows for this stream. -/
  | endOfStream
  deriving DecidableEq, Repr

/-- Why a sink refuses a delivery. -/
inductive Refusal where
  /-- The sink takes nothing any more. -/
  | closed
  /-- The end of this stream was delivered before. -/
  | streamEnded (stream : StreamId)
  deriving DecidableEq, Repr

def Refusal.message : Refusal → String
  | closed => "delivery queue is closed"
  | streamEnded stream => s!"stream {stream} already ended"

/-- A refused segment, given back with the cause. -/
structure Rejection where
  segment : Segment
  cause : Refusal
  deriving DecidableEq, Repr

def Rejection.message (rejection : Rejection) : String :=
  s!"failed to append segment: {rejection.cause.message}"

/-- Something that streams can deliver to. -/
class Sink (Queue : Type) where
  /-- Delivers a segment of a stream, or gives it back. -/
  append : StreamId → Segment → EStateM Rejection Queue Unit
  /-- Delivers the end of a stream. -/
  appendEnd : StreamId → EStateM Refusal Queue Unit

end Delivery

end Reassembly
