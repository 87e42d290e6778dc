import Reassembly.Proofs.Delivery.Recorded
import Reassembly.Proofs.Stream.Mirror
import Reassembly.Proofs.Stream.Success

/-!
# What a stream delivers to a queue

A stream does the same to a queue and to a recorded one. So what a call delivers to a queue
can be read off a log, and the queue conserves it: a call does nothing to the queue except
to deliver to it.
-/

namespace Reassembly

namespace Delivery.Recorded

/-- The log has no say in what the queue answers. -/
theorem run_delivery_eq {Fault : Type} (delivery : EStateM Fault Queue Unit)
    (stream : StreamId) (item : Item) (cause : Fault → Refusal) (recorded : Recorded) :
    delivery.run recorded.queue
      = mapState Recorded.queue ((noting delivery stream item cause).run recorded) := by
  rw [EStateM.run, EStateM.run, noting, EStateM.run]
  cases delivery recorded.queue with
  | ok _ queue => rfl
  | error fault queue => rfl

theorem sinkMap : SinkMap Recorded.queue where
  append_eq _ _ recorded := run_delivery_eq _ _ _ _ recorded
  appendEnd_eq _ recorded := run_delivery_eq _ _ _ _ recorded

/-- The queue takes whatever the stream delivers. -/
def Accepts (id : StreamId) (recorded : Recorded) : Prop := recorded.queue.refusal? id = none

theorem willing : Feed.Willing Accepts where
  append id segment recorded accepts := by
    refine ⟨_, run_noting_of_ok (Queue.run_append_of_willing accepts segment), ?_⟩
    have opened := Queue.refusal?_eq_none_iff.mp accepts
    have notEnded : (recorded.queue.lane id).ended = false := opened.2
    apply Queue.refusal?_eq_none_iff.mpr
    refine ⟨opened.1, ?_⟩
    simp [Queue.hasEnd, Lane.add, notEnded]
  appendEnd id recorded accepts :=
    ⟨_, run_noting_of_ok (Queue.run_appendEnd_of_willing accepts)⟩

/-- What accepting an item keeps, deliveries keep, of what has been accepted and of the queue. -/
theorem keeps_of_accept {id : StreamId} {property : List (StreamId × Item) → Queue → Prop}
    (kept : ∀ accepted queue item, queue.refusal? id = none → property accepted queue →
      property (accepted ++ [(id, item)]) (queue.add id item)) :
    Keeps id fun recorded : Recorded => property recorded.accepted recorded.queue where
  append_ok holds accepted := by
    have noted := noting_eq_ok accepted
    rcases Queue.eq_add_of_append_eq_ok noted.1 with ⟨willing, added⟩
    rw [accepted_of_accepted noted.2, added]
    exact kept _ _ _ willing holds
  append_error holds refused := by
    have noted := noting_eq_error refused
    rw [accepted_of_refused noted.2, (Queue.append_error noted.1).2]
    exact holds
  appendEnd_ok holds accepted := by
    have noted := noting_eq_ok accepted
    rcases Queue.eq_add_of_appendEnd_eq_ok noted.1 with ⟨willing, added⟩
    rw [accepted_of_accepted noted.2, added]
    exact kept _ _ _ willing holds
  appendEnd_error holds refused := by
    have noted := noting_eq_error refused
    rw [accepted_of_refused noted.2, Queue.appendEnd_error noted.1]
    exact holds

end Delivery.Recorded

namespace Delivery.Queue

/-- A delivery that a queue refuses leaves it as it was. So what accepting an item keeps,
deliveries keep. -/
theorem keeps_of_add {id : StreamId} {property : Queue → Prop}
    (kept : ∀ queue item, queue.refusal? id = none → property queue →
      property (queue.add id item)) : Keeps id property where
  append_ok holds accepted := by
    rcases eq_add_of_append_eq_ok accepted with ⟨willing, rfl⟩
    exact kept _ _ willing holds
  append_error holds refused := by
    rw [(append_error refused).2]
    exact holds
  appendEnd_ok holds accepted := by
    rcases eq_add_of_appendEnd_eq_ok accepted with ⟨willing, rfl⟩
    exact kept _ _ willing holds
  appendEnd_error holds refused := by
    rw [appendEnd_error refused]
    exact holds

end Delivery.Queue

namespace Feed

open Delivery (Queue Recorded)

variable {before after : Feed Recorded} {octets : Bytes} {start : Queue}

/-- Whatever a stream does, the log tells all that it has done to the queue. -/
theorem Move.faithful (move : Move before octets after)
    (faithful : before.queue.Faithful start) : after.queue.Faithful start := by
  cases move with
  | deliver work nonempty accepted =>
      have noted := Recorded.noting_eq_ok accepted
      exact faithful.accept noted.2 (Queue.conserves_append_ok faithful.sound noted.1)
  | refuse work nonempty refused =>
      have noted := Recorded.noting_eq_error refused
      exact faithful.refuse noted.2 (Queue.append_error noted.1).2
  | deliverEnd inputClosed work undelivered accepted =>
      have noted := Recorded.noting_eq_ok accepted
      exact faithful.accept noted.2 (Queue.conserves_appendEnd_ok faithful.sound noted.1)
  | refuseEnd inputClosed work undelivered refused =>
      have noted := Recorded.noting_eq_error refused
      exact faithful.refuse noted.2 (Queue.appendEnd_error noted.1)
  | note => exact faithful
  | openSegment => exact faithful
  | fill => exact faithful
  | drop => exact faithful

end Feed

namespace Stream.Call

open Delivery (Queue Recorded Item)
open Feed (Move)

/-- The stream of a feed fills segments of the size that its session asks for, and the log
of its queue is complete. -/
structure Accounted (start : Queue) (feed : Feed Recorded) : Prop where
  sized : feed.WellSized
  faithful : feed.queue.Faithful start

variable {start : Queue}

theorem run_accounted (call : Call) {before : Feed Recorded}
    (accounted : Accounted start before) : Accounted start (call.run before).2 := by
  apply run_keeps
  · intro feed call accounted
    constructor
    · exact start_wellSized call accounted.sized
    · rw [Call.start, Feed.moved_eq]
      exact accounted.faithful
  · intro before octets after move accounted
    exact ⟨move.wellSized accounted.sized, move.faithful accounted.faithful⟩
  · exact accounted

/-- What a call delivers to a queue. -/
def delivered (call : Call) (stream : Stream) (queue : Queue) : List (StreamId × Item) :=
  (call.run ({ stream, queue := { queue } } : Feed Recorded)).2.queue.accepted

/-- What accepting an item keeps holds of what a call has delivered and of the queue after it. -/
theorem run_delivered (call : Call) (stream : Stream) {queue : Queue}
    {motive : List (StreamId × Item) → Queue → Prop}
    (kept : ∀ accepted queue item, queue.refusal? stream.id = none → motive accepted queue →
      motive (accepted ++ [(stream.id, item)]) (queue.add stream.id item))
    (start : motive [] queue) :
    motive (call.delivered stream queue) (call.run { stream, queue }).2.queue := by
  let recorded : Feed Recorded := { stream, queue := { queue } }
  have before : motive recorded.queue.accepted recorded.queue.queue := start
  have after := call.queue_run (Recorded.keeps_of_accept kept) rfl before
  have mirrored : call.run ({ stream, queue } : Feed Queue)
      = ((call.run recorded).1, (call.run recorded).2.mapQueue Recorded.queue) :=
    run_mapQueue Recorded.sinkMap call recorded
  rw [mirrored]
  exact after

/-- A call on a stream does nothing to a queue except to deliver to it. -/
theorem conserves_run (call : Call) {stream : Stream} {queue : Queue} (sound : queue.Sound)
    (sized : ({ stream, queue } : Feed Queue).WellSized) :
    queue.Conserves { accepted := call.delivered stream queue }
        (call.run { stream, queue }).2.queue ∧
      (call.run { stream, queue }).2.WellSized := by
  let recorded : Feed Recorded := { stream, queue := { queue } }
  have accounted : Accounted queue recorded := ⟨sized, .refl sound⟩
  have after := run_accounted call accounted
  have mirrored : call.run ({ stream, queue } : Feed Queue)
      = ((call.run recorded).1, (call.run recorded).2.mapQueue Recorded.queue) :=
    run_mapQueue Recorded.sinkMap call recorded
  rw [mirrored]
  exact ⟨after.faithful, after.sized⟩

end Stream.Call

end Reassembly
