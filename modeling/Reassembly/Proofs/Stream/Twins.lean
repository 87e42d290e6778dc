import Reassembly.Proofs.Stream.InputSide

/-!
# Streams on related sinks

Two feeds of the same stream are twins if their sinks are related in some way. If related sinks
answer the deliveries of the stream alike, and are still related after them, then a call on one
twin does what it does on the other: it answers alike and leaves twins behind.

A sink is related to itself by any property that it has. So what deliveries for a stream
keep of a sink is kept by every call on the stream.
-/

namespace Reassembly

open Delivery (Sink Rejection Refusal)

variable {Left Right : Type}

/-- A property of sinks that the deliveries for a stream keep, accepted or not. -/
structure Delivery.Keeps {Queue : Type} [Sink Queue] (id : StreamId)
    (property : Queue → Prop) : Prop where
  append_ok {segment : Segment} {queue next : Queue} : property queue →
    (Sink.append id segment).run queue = .ok () next → property next
  append_error {segment : Segment} {queue next : Queue} {rejection : Rejection} :
    property queue → (Sink.append id segment).run queue = .error rejection next → property next
  appendEnd_ok {queue next : Queue} : property queue →
    (Sink.appendEnd id).run queue = .ok () next → property next
  appendEnd_error {queue next : Queue} {cause : Refusal} : property queue →
    (Sink.appendEnd id).run queue = .error cause next → property next

theorem Delivery.Keeps.coupling {Queue : Type} [Sink Queue] {id : StreamId}
    {property : Queue → Prop} (keeps : Keeps id property) :
    Coupling id fun left right : Queue => right = left ∧ property left where
  append segment := by
    rintro _ queue ⟨rfl, holds⟩
    cases answer : (Sink.append id segment).run queue with
    | ok _ next => exact .ok () ⟨rfl, keeps.append_ok holds answer⟩
    | error rejection next => exact .error rejection ⟨rfl, keeps.append_error holds answer⟩
  appendEnd := by
    rintro _ queue ⟨rfl, holds⟩
    cases answer : (Sink.appendEnd id).run queue with
    | ok _ next => exact .ok () ⟨rfl, keeps.appendEnd_ok holds answer⟩
    | error cause next => exact .error cause ⟨rfl, keeps.appendEnd_error holds answer⟩

namespace Feed

/-- Two feeds of the same stream, whose sinks are related. -/
structure Twins (id : StreamId) (related : Left → Right → Prop) (left : Feed Left)
    (right : Feed Right) : Prop where
  id_eq : left.stream.id = id
  stream_eq : right.stream = left.stream
  notices_eq : right.notices = left.notices
  queues : related left.queue right.queue

variable {id : StreamId} {related : Left → Right → Prop} {left : Feed Left} {right : Feed Right}

theorem Twins.sameInput (twins : Twins id related left right) :
    SameInput id related left right :=
  ⟨twins.id_eq, congrArg Stream.inputSide twins.stream_eq, twins.queues⟩

theorem Twins.outputSide_eq (twins : Twins id related left right) :
    right.outputSide = left.outputSide := by
  rw [outputSide, outputSide, twins.stream_eq, twins.notices_eq]

/-- Feeds with the same two sides are twins. -/
theorem twins_of_sides (same : SameInput id related left right)
    (output : right.outputSide = left.outputSide) : Twins id related left right where
  id_eq := same.id_eq
  stream_eq := stream_eq_of_sides same.side_eq output
  notices_eq := congrArg OutputSide.notices output
  queues := same.queues

end Feed

namespace Stream.Call

open Feed (SameInput Twins)

variable [Sink Left] [Sink Right] {id : StreamId} {related : Left → Right → Prop}

/-- A call answers twins alike and leaves twins behind. -/
theorem run_twins (coupling : Delivery.Coupling id related) {left : Feed Left}
    {right : Feed Right} (twins : Twins id related left right) (call : Call) :
    (call.run right).1 = (call.run left).1 ∧
      Twins id related (call.run left).2 (call.run right).2 := by
  have output : (call.run right).2.outputSide = (call.run left).2.outputSide := by
    rw [outputSide_run, outputSide_run, twins.outputSide_eq]
  have made : (call.run right).1 = (call.run left).1 ∧
      SameInput id related (call.run left).2 (call.run right).2 := by
    cases onInput : call.isInput with
    | true => exact run_sameInput coupling twins.sameInput onInput
    | false =>
        refine ⟨?_, ?_⟩
        · rw [answer_of_outside onInput, answer_of_outside onInput, twins.outputSide_eq]
        · exact run_left_outside (run_right_outside twins.sameInput onInput) onInput
  exact ⟨made.1, Feed.twins_of_sides made.2 output⟩

section Keeping

variable {Queue : Type} [Sink Queue] {property : Queue → Prop}

/-- What deliveries for a stream keep of a sink, every call on the stream keeps. -/
theorem queue_run (keeps : Delivery.Keeps id property) (call : Call) {feed : Feed Queue}
    (id_eq : feed.stream.id = id) (holds : property feed.queue) :
    property (call.run feed).2.queue := by
  have twins : Twins id (fun left right => right = left ∧ property left) feed feed :=
    ⟨id_eq, rfl, rfl, rfl, holds⟩
  exact (run_twins keeps.coupling twins call).2.queues.2

/-- What deliveries for a stream keep of a sink is kept throughout a run of the stream. -/
theorem queue_runAll (keeps : Delivery.Keeps id property) (calls : List Call)
    {feed : Feed Queue} (id_eq : feed.stream.id = id) (holds : property feed.queue) :
    property (runAll calls feed).2.queue := by
  induction calls generalizing feed with
  | nil => exact holds
  | cons call later ih =>
      exact ih ((id_run call feed).trans id_eq) (queue_run keeps call id_eq holds)

end Keeping

end Stream.Call

end Reassembly
