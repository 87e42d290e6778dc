import Reassembly.Delivery.Sink

/-!
# A sink with prescribed answers

A scripted sink answers deliveries from two lists, one for segments and one for ends of
streams, and keeps a log of every delivery that was attempted. It stands for an arbitrary
sink: whatever a sink answers to a stream, some script gives the same answers.
-/

namespace Reassembly

namespace Delivery

/-- One attempted delivery and what became of it. -/
structure Attempt where
  stream : StreamId
  item : Item
  /-- Why the delivery was refused, if it was. -/
  refusal : Option Refusal
  deriving DecidableEq, Repr

/-- A sink that answers by script, and accepts everything once the script is used up. -/
structure Scripted where
  /-- The answers to the next segments. -/
  segmentAnswers : List (Option Refusal) := []
  /-- The answers to the next ends of streams. -/
  endAnswers : List (Option Refusal) := []
  /-- Every delivery attempted so far, oldest first. -/
  log : List Attempt := []
  deriving DecidableEq, Repr

namespace Scripted

def append (stream : StreamId) (segment : Segment) : EStateM Rejection Scripted Unit :=
  fun sink =>
    let refusal := sink.segmentAnswers.head?.join
    let next := { sink with
      segmentAnswers := sink.segmentAnswers.tail
      log := sink.log ++ [{ stream, item := .chunk segment.bytes, refusal }] }
    match refusal with
    | none => .ok () next
    | some cause => .error { segment, cause } next

def appendEnd (stream : StreamId) : EStateM Refusal Scripted Unit := fun sink =>
  let refusal := sink.endAnswers.head?.join
  let next := { sink with
    endAnswers := sink.endAnswers.tail
    log := sink.log ++ [{ stream, item := .endOfStream, refusal }] }
  match refusal with
  | none => .ok () next
  | some cause => .error cause next

instance : Sink Scripted where
  append := append
  appendEnd := appendEnd

/-- The deliveries that were accepted, oldest first. -/
def accepted (sink : Scripted) : List (StreamId × Item) :=
  sink.log.filterMap fun attempt =>
    if attempt.refusal.isNone then some (attempt.stream, attempt.item) else none

end Scripted

end Delivery

end Reassembly
