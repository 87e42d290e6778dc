import Reassembly.Lifecycle
import Reassembly.Session
import Reassembly.Stream.Error
import Reassembly.Text.Quoted

/-!
# Streams

A stream is one request on its way in. It remembers the pseudo-headers until the request
line is written, collects request text in one segment at a time, and knows which of its
halves are closed. This file holds what a stream is; `Reassembly.Stream.Feed` says what
the calls on it do.
-/

namespace Reassembly

/-- Identifies an observer of state changes. -/
abbrev ObserverId := Nat

/-- The head of the response that belongs to a request. -/
structure ResponseHead where
  status : Nat
  deriving DecidableEq, Repr

/-- One request being put together. -/
structure Stream where
  id : StreamId
  session : Session
  lifecycle : Lifecycle := .idle
  pseudo : PseudoHeaders := {}
  /-- The request line has been written. -/
  requestStarted : Bool := false
  /-- The header section has been ended. -/
  endOfHeaders : Bool := false
  aborted : Bool := false
  /-- The sink has accepted the end of this stream. -/
  endDelivered : Bool := false
  /-- The segment that is being filled. -/
  work : Option Segment := none
  responseHead : Option ResponseHead := none
  /-- Who is told about state changes. -/
  observer : Option ObserverId := none
  deriving DecidableEq, Repr

/-- What an observer is told when a stream changes state. -/
structure Notice where
  observer : ObserverId
  stream : StreamId
  old : Lifecycle
  new : Lifecycle
  deriving DecidableEq, Repr

namespace Stream

/-- The octets that are written but not delivered yet. -/
def pending (stream : Stream) : Bytes := stream.work.elim [] Segment.bytes

/-- A description of an optional part of a stream. -/
def describePart (part : Option String) : String :=
  match part with
  | none => "None"
  | some text => s!"Some({text})"

/-- A description of a stream: its request line as far as known, and how far it has come. -/
def describe (stream : Stream) : String :=
  let pseudo (field : PseudoField) :=
    describePart ((stream.pseudo.get? field).map Text.Quoted.quote)
  String.intercalate ", " [
    s!"Stream \x7b id: {stream.id}",
    s!"session_id: {stream.session.id}",
    s!"state: {stream.lifecycle.name}",
    s!"method: {pseudo .method}",
    s!"scheme: {pseudo .scheme}",
    s!"path: {pseudo .path}",
    s!"authority: {pseudo .authority}",
    s!"end_of_headers: {stream.endOfHeaders}",
    s!"aborted: {stream.aborted}",
    s!"work: {describePart (stream.work.map Segment.describe)}",
    ".. \x7d"]

end Stream

end Reassembly
