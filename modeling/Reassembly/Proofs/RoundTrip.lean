import Reassembly.Proofs.Consumer
import Reassembly.Proofs.Request.Grouping
import Reassembly.Proofs.Stream.Announcement
import Reassembly.Proofs.Stream.Delivered

/-!
# From a message to the request that is assembled

A message that is announced to a fresh stream, delivered through a queue and assembled by
a consumer comes out as it went in. The stream puts its text into segments, the queue keeps
the segments apart from those of other streams and in order, and the consumer reads the text
that they spell together. None of the three sees the boundaries that the others draw.
-/

namespace Reassembly

open Delivery (Item Queue Recorded LoggingSink acceptedFor_append)

namespace Feed

/-- The queue holds for the stream what it held at first, followed by what it has accepted. -/
def Stacked (start : List Item) (feed : Feed Recorded) : Prop :=
  feed.queue.queue.items feed.stream.id = start ++ feed.accepted

variable {start : List Item} {before after : Feed Recorded} {octets : Bytes}

theorem Move.stacked (move : Move before octets after) (stacked : before.Stacked start) :
    after.Stacked start := by
  have items_eq : before.queue.queue.items before.stream.id = start ++ before.accepted := stacked
  cases move with
  | deliver work nonempty accepted =>
      have log := LoggingSink.append_ok accepted
      have added := (Queue.eq_add_of_append_eq_ok (Recorded.noting_eq_ok accepted).1).2
      simp [Stacked, Feed.accepted, withWork, log, added, acceptedFor_append, items_eq]
  | refuse work nonempty refused =>
      have log := (LoggingSink.append_error refused).2
      have same := (Queue.append_error (Recorded.noting_eq_error refused).1).2
      simp [Stacked, Feed.accepted, log, same, acceptedFor_append, items_eq]
  | deliverEnd inputClosed work undelivered accepted =>
      have log := LoggingSink.appendEnd_ok accepted
      have added := (Queue.eq_add_of_appendEnd_eq_ok (Recorded.noting_eq_ok accepted).1).2
      simp [Stacked, Feed.accepted, log, added, acceptedFor_append, items_eq]
  | refuseEnd inputClosed work undelivered refused =>
      have log := LoggingSink.appendEnd_error refused
      have same := Queue.appendEnd_error (Recorded.noting_eq_error refused).1
      simp [Stacked, Feed.accepted, log, same, acceptedFor_append, items_eq]
  | note => exact items_eq
  | openSegment => exact items_eq
  | fill => exact items_eq
  | drop => exact items_eq

/-- Nothing that a stream does puts anything between the items of its lane. -/
theorem runAll_stacked (calls : List Stream.Call) (stacked : before.Stacked start) :
    (Stream.Call.runAll calls before).2.Stacked start := by
  apply Stream.Call.runAll_keeps
  · intro feed call stacked
    rw [Stream.Call.start, moved_eq]
    exact stacked
  · exact Move.stacked
  · exact stacked

/-- A run on a queue is the image of the same run on a recorded one. -/
theorem runAll_recorded (calls : List Stream.Call) (id : StreamId) (session : Session)
    (queue : Queue) :
    let recorded := Stream.Call.runAll calls (fresh id session ({ queue } : Recorded))
    Stream.Call.runAll calls (fresh id session queue)
      = (recorded.1, recorded.2.mapQueue Recorded.queue) :=
  Stream.Call.runAll_mapQueue Recorded.sinkMap calls (fresh id session ({ queue } : Recorded))

/-- What waits in a queue for a stream that has delivered its end: what the stream has emitted,
in chunks, and the end. -/
theorem exists_chunks_of_delivered (calls : List Stream.Call) {id : StreamId} {session : Session}
    {queue : Queue} (unused : queue.lane id = {})
    (delivered : (Stream.Call.runAll calls
      (fresh id session ({ queue } : Recorded))).2.stream.endDelivered = true) :
    ∃ chunks : List Bytes,
      (Stream.Call.runAll calls (fresh id session queue)).2.queue.items id
          = chunks.map .chunk ++ [.endOfStream] ∧
        chunks.flatten
          = (Stream.Call.runAll calls (fresh id session ({ queue } : Recorded))).2.emitted := by
  have nothing : queue.items id = [] := by
    rw [Queue.items, unused]
  have stacked : (fresh id session ({ queue } : Recorded)).Stacked [] := nothing
  have items_eq := runAll_stacked calls stacked
  have same_id := (Stream.Call.runAll_belongsTo id session ({ queue } : Recorded) calls).id_eq
  have orderly := runAll_orderly calls (fresh_orderly id session ({ queue } : Recorded) rfl)
  rcases orderly.accepted_eq_of_delivered delivered with ⟨chunks, accepted_eq, flatten_eq⟩
  rw [runAll_recorded]
  refine ⟨chunks, ?_, flatten_eq⟩
  rw [Stacked, same_id, List.nil_append] at items_eq
  exact items_eq.trans accepted_eq

end Feed

namespace Message

open Reassembly.Stream (Call)

variable {message : Message} {target : Target} {order : List (PseudoField × Bytes)}
  {session : Session}

/-- What waits in a queue once a message has been announced: its text in chunks, and the end of
the stream. -/
theorem exists_chunks (wellFormed : message.WellFormed target) (suits : Suits session message)
    (perm : order.Perm message.announced) {id : StreamId} {queue : Queue}
    (isOpen : queue.isClosed = false) (unused : queue.lane id = {}) :
    (∀ answer ∈ (Call.runAll (message.calls order) (Feed.fresh id session queue)).1,
        answer = .ok .done) ∧
      ∃ chunks : List Bytes,
        (Call.runAll (message.calls order) (Feed.fresh id session queue)).2.queue.items id
            = chunks.map .chunk ++ [.endOfStream] ∧
          chunks.flatten = message.text := by
  have notEnded : queue.hasEnd id = false := by
    rw [Queue.hasEnd, unused]
  have accepting : Recorded.Accepts id { queue } :=
    Queue.refusal?_eq_none_iff.mpr ⟨isOpen, notEnded⟩
  have emits := runAll_calls Recorded.willing wellFormed suits perm accepting rfl
  rcases Feed.exists_chunks_of_delivered (message.calls order) unused emits.2.1 with
    ⟨chunks, waiting, flatten_eq⟩
  refine ⟨?_, chunks, waiting, flatten_eq.trans emits.2.2⟩
  rw [Feed.runAll_recorded]
  exact emits.1

/-- A message that is announced to a fresh stream and assembled by a consumer comes out as it
went in, unless it has more header lines than a head may have. -/
theorem round_trip (wellFormed : message.WellFormed target) (suits : Suits session message)
    (perm : order.Perm message.announced) (id : StreamId) {queue : Queue}
    (isOpen : queue.isClosed = false) (unused : queue.lane id = {}) (name : String) :
    let run := Call.runAll (message.calls order) (Feed.fresh id session queue)
    let consumer : Consumer := { name, want := .request, stream := id }
    (∀ answer ∈ run.1, answer = .ok .done) ∧
    (∃ after left, consumer.advance run.2.queue = (.finished after, left) ∧
      after.result = .request (if message.fields.length ≤ Head.maxFields
        then .ok (message.request target) else .error .tooManyFields) ∧
      left.lane id = {}) ∧
    ∀ fieldName, FieldGroup.valuesOf fieldName (message.request target).fieldGroups
      = (message.fields.filter (Bytes.toLower ·.name = fieldName)).map (·.value.trim) := by
  intro run consumer
  rcases exists_chunks wellFormed suits perm isOpen unused with ⟨answers, chunks, waiting, text⟩
  have waits : run.2.queue.items consumer.stream = chunks.map .chunk ++ [.endOfStream] := waiting
  refine ⟨answers, ?_, ?_⟩
  · rcases Consumer.advance_request rfl rfl waits with ⟨after, left, advanced, result, lane⟩
    refine ⟨after, left, advanced, ?_, lane⟩
    rw [result, text, assemble_text wellFormed]
  · intro fieldName
    rw [Request.valuesOf_fieldGroups]
    simp only [request, List.filter_map, List.map_map]
    rfl

/-- A message with an authority, two header fields of one name, and a body in two pieces. -/
def greeting : Message where
  version := .http11
  method := Bytes.ascii "POST"
  path := Bytes.ascii "/hello?to=all"
  scheme := some (Bytes.ascii "https")
  authority := some (Bytes.ascii "host")
  headers := [
    { name := Bytes.ascii "X-Mark", value := Bytes.ascii " one\t" },
    { name := Bytes.ascii "x-mark", value := Bytes.ascii "two" }]
  data := [Bytes.ascii "good ", Bytes.ascii "day"]

/-- The request that is assembled from it. -/
def greetingRequest : Request where
  method := Bytes.ascii "POST"
  target := { path := Bytes.ascii "/hello", query := some (Bytes.ascii "to=all") }
  version := .http11
  fields := [
    { name := Bytes.ascii "host", value := Bytes.ascii "host" },
    { name := Bytes.ascii "x-mark", value := Bytes.ascii "one" },
    { name := Bytes.ascii "x-mark", value := Bytes.ascii "two" }]
  body := Bytes.ascii "good day"

theorem round_trip_greeting :
    let session : Session := { config := { segmentCapacity := 32, requestVersion := some .http11 } }
    let order := greeting.announced.reverse
    let run := Call.runAll (greeting.calls order) (Feed.fresh 7 session ({} : Queue))
    let consumer : Consumer := { name := "reader", want := .request, stream := 7 }
    (∀ answer ∈ run.1, answer = .ok .done) ∧
    ∃ after left, consumer.advance run.2.queue = (.finished after, left) ∧
      after.result = .request (.ok greetingRequest) ∧ left.lane 7 = {} := by
  intro session order run consumer
  have wellFormed : greeting.WellFormed greetingRequest.target := by
    have spelled {octets : Bytes} {belongs : UInt8 → Bool} (all : octets.all belongs = true) :
        ∀ octet ∈ octets, belongs octet = true := List.all_eq_true.mp all
    refine ⟨rfl, ⟨by decide, spelled rfl⟩, by decide, spelled rfl, by decide, rfl, ?_, ?_, ?_⟩
    · rintro scheme ⟨⟩
      decide
    · rintro authority ⟨⟩
      exact ⟨by decide, spelled rfl⟩
    · intro field field_mem
      rcases List.mem_cons.mp field_mem with rfl | field_mem
      · exact ⟨⟨⟨by decide, spelled rfl⟩, spelled rfl⟩, by decide⟩
      · cases List.mem_singleton.mp field_mem
        exact ⟨⟨⟨by decide, spelled rfl⟩, spelled rfl⟩, by decide⟩
  have suits : Suits session greeting := ⟨rfl, by decide, by decide⟩
  have perm : order.Perm greeting.announced := List.reverse_perm _
  have isOpen : ({} : Queue).isClosed = false := rfl
  have trip := round_trip wellFormed suits perm 7 isOpen rfl "reader"
  rcases trip.2.1 with ⟨after, left, advanced, result, lane⟩
  have few : greeting.fields.length ≤ Head.maxFields := by decide
  have received : greeting.request greetingRequest.target = greetingRequest := by decide
  rw [if_pos few, received] at result
  clear_value order session
  exact ⟨trip.1, after, left, advanced, result, lane⟩

end Message

end Reassembly
