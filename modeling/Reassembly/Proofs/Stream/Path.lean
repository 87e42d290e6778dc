import Reassembly.Proofs.Delivery.Log
import Reassembly.Proofs.Stream.Outcomes

/-!
# Paths of a feed

Whatever a call does, it does in moves: it opens, fills, drops or delivers a segment, it
delivers the end of the stream, or it notes something that concerns neither the segment nor
the sink. `Feed.Move` lists these moves with the octets that each of them adds, and
`Feed.Path` strings them together. A property that every move keeps is kept by every call,
also by one that fails half-way.

The lifecycle stays the same along a path. The moves that open and fill segments require
the input half to be open, and those that end the stream require it to be closed.
-/

namespace Reassembly

namespace Feed

open Delivery (Sink LoggingSink Rejection Refusal)

variable {Queue : Type}

/-- The feed with another segment, or none, to be filled. -/
def withWork (feed : Feed Queue) (work : Option Segment) : Feed Queue :=
  { feed with stream := { feed.stream with work } }

/-- The capacity of the segments that a stream opens. -/
abbrev capacity (feed : Feed Queue) : Nat := feed.stream.session.config.segmentCapacity

/-- The segment being filled, if any, has the capacity that the session asks for. -/
def WellSized (feed : Feed Queue) : Prop :=
  ∀ segment, feed.stream.work = some segment → segment.capacity = feed.capacity

section Moves

variable [LoggingSink Queue]

/-- One thing that happens in the course of a call, and the octets that it adds. -/
inductive Move : Feed Queue → Bytes → Feed Queue → Prop where
  | note {feed : Feed Queue} (pseudo : PseudoHeaders)
      (requestStarted endOfHeaders aborted : Bool) (responseHead : Option ResponseHead)
      (observer : Option ObserverId) :
      Move feed [] { feed with stream := { feed.stream with
        pseudo, requestStarted, endOfHeaders, aborted, responseHead, observer } }
  | openSegment {feed : Feed Queue} (inputOpen : feed.stream.lifecycle.isInputClosed = false)
      (work : feed.stream.work = none) :
      Move feed [] (feed.withWork (some (.empty feed.capacity)))
  | fill {feed : Feed Queue} {segment : Segment} (octets : Bytes)
      (inputOpen : feed.stream.lifecycle.isInputClosed = false)
      (work : feed.stream.work = some segment) :
      Move feed (octets.take segment.remaining) (feed.withWork (some (segment.append octets).2))
  | drop {feed : Feed Queue} {segment : Segment} (work : feed.stream.work = some segment)
      (empty : segment.bytes = []) :
      Move feed [] (feed.withWork none)
  | deliver {feed : Feed Queue} {segment : Segment} {next : Queue}
      (work : feed.stream.work = some segment) (nonempty : segment.bytes ≠ [])
      (accepted : (Sink.append feed.stream.id segment).run feed.queue = .ok () next) :
      Move feed [] ({ feed with queue := next }.withWork none)
  | refuse {feed : Feed Queue} {segment : Segment} {rejection : Rejection} {next : Queue}
      (work : feed.stream.work = some segment) (nonempty : segment.bytes ≠ [])
      (refused : (Sink.append feed.stream.id segment).run feed.queue = .error rejection next) :
      Move feed [] { feed with queue := next }
  | deliverEnd {feed : Feed Queue} {next : Queue}
      (inputClosed : feed.stream.lifecycle.isInputClosed = true)
      (work : feed.stream.work = none) (undelivered : feed.stream.endDelivered = false)
      (accepted : (Sink.appendEnd feed.stream.id).run feed.queue = .ok () next) :
      Move feed [] { feed with
        queue := next, stream := { feed.stream with endDelivered := true } }
  | refuseEnd {feed : Feed Queue} {cause : Refusal} {next : Queue}
      (inputClosed : feed.stream.lifecycle.isInputClosed = true)
      (work : feed.stream.work = none) (undelivered : feed.stream.endDelivered = false)
      (refused : (Sink.appendEnd feed.stream.id).run feed.queue = .error cause next) :
      Move feed [] { feed with queue := next }

/-- Moves one after the other, and the octets that they add. -/
inductive Path : Feed Queue → Bytes → Feed Queue → Prop where
  | refl (feed : Feed Queue) : Path feed [] feed
  | step {before middle after : Feed Queue} {octets later : Bytes}
      (move : Move before octets middle) (rest : Path middle later after) :
      Path before (octets ++ later) after

variable {before middle after : Feed Queue} {octets later : Bytes}

theorem Move.path (move : Move before octets after) : Path before octets after := by
  have path := Path.step move (Path.refl after)
  rwa [List.append_nil] at path

theorem Path.trans (first : Path before octets middle) (second : Path middle later after) :
    Path before (octets ++ later) after := by
  induction first with
  | refl feed => exact second
  | step move rest ih =>
      rw [List.append_assoc]
      exact .step move (ih second)

/-- Moves that add nothing, after others. -/
theorem Path.trans_nil (first : Path before octets middle) (second : Path middle [] after) :
    Path before octets after := by
  have path := first.trans second
  rwa [List.append_nil] at path

/-- A property that every move keeps holds at the end of a path if it holds at the start. -/
theorem Path.keeps {property : Feed Queue → Prop}
    (kept : ∀ {before octets after}, Move before octets after → property before → property after)
    (path : Path before octets after) (start : property before) : property after := by
  induction path with
  | refl feed => exact start
  | step move rest ih => exact ih (kept move start)

theorem Path.lifecycle_eq (path : Path before octets after) :
    after.stream.lifecycle = before.stream.lifecycle := by
  induction path with
  | refl feed => rfl
  | step move rest ih => cases move <;> exact ih

theorem Path.id_eq (path : Path before octets after) : after.stream.id = before.stream.id := by
  induction path with
  | refl feed => rfl
  | step move rest ih => cases move <;> exact ih

theorem Path.session_eq (path : Path before octets after) :
    after.stream.session = before.stream.session := by
  induction path with
  | refl feed => rfl
  | step move rest ih => cases move <;> exact ih

/-- Once the input half is closed, nothing is added any more. -/
theorem Path.octets_eq_nil (path : Path before octets after)
    (inputClosed : before.stream.lifecycle.isInputClosed = true) : octets = [] := by
  induction path with
  | refl feed => rfl
  | step move rest ih =>
      have stillClosed := move.path.lifecycle_eq ▸ inputClosed
      rw [ih stillClosed, List.append_nil]
      cases move with
      | fill octets inputOpen work =>
          rw [inputClosed] at inputOpen
          cases inputOpen
      | _ => rfl

theorem Move.wellSized (move : Move before octets after) (sized : before.WellSized) :
    after.WellSized := by
  intro segment work
  cases move with
  | openSegment inputOpen absent =>
      cases work
      rfl
  | fill octets inputOpen present =>
      have filledCapacity := sized _ present
      cases work
      exact filledCapacity
  | drop present empty => cases work
  | deliver present nonempty accepted => cases work
  | note => exact sized segment work
  | refuse => exact sized segment work
  | deliverEnd => exact sized segment work
  | refuseEnd => exact sized segment work

theorem Path.wellSized (path : Path before octets after) (sized : before.WellSized) :
    after.WellSized :=
  path.keeps Move.wellSized sized

end Moves

end Feed

end Reassembly
