import Reassembly.Proofs.Consumer
import Reassembly.Proofs.Delivery.Chronicle

/-!
# A consumer and everyone else

A consumer that is after all of a stream need not run without a break: between any two items
that it takes, others may deliver to its stream, close the queue, or do what they like with
other streams. `Interleaved` holds of the states that are reached in this way, in whatever
order the steps follow each other. In each of them what the consumer has taken and what still
waits for it add up to what has been accepted for the stream, and this alone decides what the
consumer comes to.
-/

namespace Reassembly

open Delivery (Item Lane Queue)

namespace Delivery

/-- The chunks that come before the end of a stream. -/
def chunksBeforeEnd : List Item → List Bytes
  | .chunk octets :: later => octets :: chunksBeforeEnd later
  | _ => []

@[simp]
theorem chunksBeforeEnd_chunks (chunks : List Bytes) :
    chunksBeforeEnd (chunks.map .chunk) = chunks := by
  induction chunks with
  | nil => rfl
  | cons octets later ih => simp [chunksBeforeEnd, ih]

@[simp]
theorem chunksBeforeEnd_ended (chunks : List Bytes) (later : List Item) :
    chunksBeforeEnd (chunks.map .chunk ++ .endOfStream :: later) = chunks := by
  induction chunks with
  | nil => rfl
  | cons octets others ih => simp [chunksBeforeEnd, ih]

namespace Queue

/-- Whatever happened to the queue, the entry of the stream is what it was, and the queue was
not opened again. -/
structure Spares (before : Queue) (stream : StreamId) (after : Queue) : Prop where
  entry_eq : after.lanes.get? stream = before.lanes.get? stream
  stays_closed : before.isClosed = true → after.isClosed = true

variable {before middle after queue : Queue} {stream other : StreamId}

theorem Spares.refl (queue : Queue) (stream : StreamId) : queue.Spares stream queue :=
  ⟨rfl, id⟩

theorem Spares.trans (first : before.Spares stream middle) (second : middle.Spares stream after) :
    before.Spares stream after where
  entry_eq := second.entry_eq.trans first.entry_eq
  stays_closed closed := second.stays_closed (first.stays_closed closed)

theorem Spares.lane_eq (spares : before.Spares stream after) :
    after.lane stream = before.lane stream := by
  rw [lane, lane, spares.entry_eq]

theorem Spares.items_eq (spares : before.Spares stream after) :
    after.items stream = before.items stream :=
  congrArg Lane.items spares.lane_eq

theorem spares_add (differ : stream ≠ other) (item : Item) :
    queue.Spares stream (queue.add other item) where
  entry_eq := Table.get?_set_of_ne _ _ differ
  stays_closed := id

theorem spares_afterTaking (differ : stream ≠ other) (item : Item) (others : List Item) :
    queue.Spares stream (queue.afterTaking other item others) where
  entry_eq := by
    cases item with
    | chunk octets => exact Table.get?_set_of_ne _ _ differ
    | endOfStream => exact Table.get?_erase_of_ne _ differ
  stays_closed := id

theorem spares_pop (differ : stream ≠ other) : queue.Spares stream (queue.pop other).2 := by
  cases waiting : queue.items other with
  | nil =>
      rw [pop_of_items_eq_nil waiting]
      exact .refl queue stream
  | cons item others =>
      rw [pop_of_items_eq_cons waiting]
      exact spares_afterTaking differ item others

theorem spares_release (differ : stream ≠ other) :
    queue.Spares stream (queue.release other).2 where
  entry_eq := Table.get?_erase_of_ne _ differ
  stays_closed := id

theorem spares_close (queue : Queue) (stream : StreamId) : queue.Spares stream queue.close where
  entry_eq := rfl
  stays_closed _ := rfl

end Queue

end Delivery

namespace Consumer

open Delivery (chunksBeforeEnd)

variable {consumer current done : Consumer} {queue after left : Queue}
  {accepted : List Item} {progress : Option Progress}

section Elsewhere

variable {stream : StreamId}

theorem stream_draw (consumer : Consumer) (limit : Nat) (queue : Queue) :
    (consumer.draw limit queue).1.stream = consumer.stream := by
  induction limit generalizing consumer queue with
  | zero => rfl
  | succ limit ih =>
      unfold draw
      split
      · rfl
      · split
        · rfl
        · exact ih _ _

theorem stream_advance (consumer : Consumer) (queue : Queue) :
    (consumer.advance queue).1.consumer.stream = consumer.stream := by
  have drawn := stream_draw consumer (queue.pending consumer.stream) queue
  have settles := consumer.settles_advance queue
  generalize consumer.advance queue = result at settles ⊢
  cases settles with
  | _ => exact drawn

theorem spares_draw (consumer : Consumer) (differ : stream ≠ consumer.stream) (limit : Nat)
    (queue : Queue) : queue.Spares stream (consumer.draw limit queue).2 := by
  induction limit generalizing consumer queue with
  | zero => exact .refl queue stream
  | succ limit ih =>
      cases satisfied : consumer.isSatisfied with
      | true =>
          rw [draw_of_isSatisfied satisfied]
          exact .refl queue stream
      | false =>
          cases waiting : queue.items consumer.stream with
          | nil =>
              rw [draw_of_items_eq_nil satisfied waiting]
              exact .refl queue stream
          | cons item others =>
              rw [draw_of_items_eq_cons satisfied waiting]
              have rest := ih (consumer.withMore [item]) differ
              exact (Queue.spares_afterTaking differ item others).trans (rest _)

/-- A consumer that runs touches no stream but its own. -/
theorem spares_advance (consumer : Consumer) (differ : stream ≠ consumer.stream)
    (queue : Queue) : queue.Spares stream (consumer.advance queue).2 := by
  have drawn := spares_draw consumer differ (queue.pending consumer.stream) queue
  have same_stream := stream_draw consumer (queue.pending consumer.stream) queue
  have settles := consumer.settles_advance queue
  generalize consumer.advance queue = result at settles ⊢
  cases settles with
  | givesUp unsatisfied closed want =>
      rw [← same_stream] at differ
      exact drawn.trans (Queue.spares_release differ)
  | satisfied => exact drawn
  | stops => exact drawn
  | waits => exact drawn

end Elsewhere

section Turns

/-- What a consumer does between two moments at which others may get at the queue: it takes
one item, or sees that there is none. -/
def turn (consumer : Consumer) (queue : Queue) : Progress × Queue :=
  if queue.pending consumer.stream = 0 then consumer.advance queue
  else
    let (drawn, left) := consumer.draw 1 queue
    (if drawn.isSatisfied then .finished drawn else .waiting drawn, left)

variable {item : Item} {others : List Item}

theorem turn_of_items_eq_nil (waiting : queue.items consumer.stream = []) :
    consumer.turn queue = consumer.advance queue :=
  if_pos (congrArg List.length waiting)

theorem turn_of_items_eq_cons (unsatisfied : consumer.isSatisfied = false)
    (waiting : queue.items consumer.stream = item :: others) :
    consumer.turn queue
      = (if (consumer.withMore [item]).isSatisfied then .finished (consumer.withMore [item])
          else .waiting (consumer.withMore [item]),
        queue.afterTaking consumer.stream item others) := by
  have some_waits : queue.pending consumer.stream ≠ 0 := by simp [Queue.pending, waiting]
  rw [turn, if_neg some_waits, draw_of_items_eq_cons unsatisfied waiting]
  rfl

/-- A consumer that runs on after it has taken a chunk gets as far as one that runs without a
break. -/
theorem advance_of_items_eq_chunk (unsatisfied : consumer.isSatisfied = false)
    {octets : Bytes} (waiting : queue.items consumer.stream = .chunk octets :: others) :
    consumer.advance queue
      = (consumer.withMore [.chunk octets]).advance
        (queue.afterTaking consumer.stream (.chunk octets) others) := by
  have before : queue.pending consumer.stream = others.length + 1 := by
    simp [Queue.pending, waiting]
  have after : (queue.afterTaking consumer.stream (.chunk octets) others).pending
      consumer.stream = others.length := by
    simp [Queue.pending, Queue.items]
  rw [advance, advance, before, stream_withMore, after, draw_of_items_eq_cons unsatisfied waiting]

theorem advance_of_satisfying (unsatisfied : consumer.isSatisfied = false)
    (satisfies : (consumer.withMore [item]).isSatisfied = true)
    (waiting : queue.items consumer.stream = item :: others) :
    consumer.advance queue
      = (.finished (consumer.withMore [item]),
        queue.afterTaking consumer.stream item others) := by
  have before : queue.pending consumer.stream = others.length + 1 := by
    simp [Queue.pending, waiting]
  rw [advance, before, draw_of_items_eq_cons unsatisfied waiting, draw_of_isSatisfied satisfies]
  exact if_pos satisfies

/-- The queue as a consumer leaves it that finds it closed before it is satisfied. -/
def leave (consumer : Consumer) (queue : Queue) : Queue :=
  if consumer.want = .request then (queue.release consumer.stream).2 else queue

theorem lane_leave (sound : (queue.lane consumer.stream).Sound) :
    ((consumer.leave queue).lane consumer.stream).Sound := by
  unfold leave
  split
  · rw [Queue.lane_release_self]
    exact Lane.sound_empty
  · exact sound

theorem items_leave (empty : queue.items consumer.stream = []) :
    (consumer.leave queue).items consumer.stream = [] := by
  unfold leave
  split
  · exact congrArg Lane.items (Queue.lane_release_self queue consumer.stream)
  · exact empty

theorem isClosed_leave (consumer : Consumer) (queue : Queue) :
    (consumer.leave queue).isClosed = queue.isClosed := by
  unfold leave
  split
  · rfl
  · rfl

theorem entry_leave (consumer : Consumer) (want : consumer.want = .request) (queue : Queue) :
    (consumer.leave queue).lanes.get? consumer.stream = none := by
  rw [leave, if_pos want]
  exact Table.get?_erase_self _ _

theorem advance_of_items_eq_nil (unsatisfied : consumer.isSatisfied = false)
    (waiting : queue.items consumer.stream = []) :
    consumer.advance queue
      = if queue.isClosed then (.finished consumer, consumer.leave queue)
        else (.waiting consumer, queue) := by
  have settles := consumer.settles_advance queue
  have nothing : queue.pending consumer.stream = 0 := congrArg List.length waiting
  rw [nothing] at settles
  generalize consumer.advance queue = result at settles ⊢
  cases settles with
  | satisfied satisfied => exact absurd unsatisfied (by simpa [draw] using satisfied)
  | stops unsatisfied closed want =>
      have left_eq : consumer.leave queue = queue := if_neg want
      have closed : queue.isClosed = true := closed
      rw [if_pos closed, left_eq]
      rfl
  | givesUp unsatisfied closed want =>
      have left_eq : consumer.leave queue = (queue.release consumer.stream).2 := if_pos want
      have closed : queue.isClosed = true := closed
      rw [if_pos closed, left_eq]
      rfl
  | waits unsatisfied isOpen =>
      have isOpen : queue.isClosed = false := isOpen
      rw [isOpen]
      rfl

/-- A consumer that finishes in a turn finishes alike if it runs without a break. -/
theorem advance_eq_of_turn_eq (unsatisfied : consumer.isSatisfied = false)
    (finishes : consumer.turn queue = (.finished done, left)) :
    consumer.advance queue = (.finished done, left) := by
  cases waiting : queue.items consumer.stream with
  | nil => rwa [turn_of_items_eq_nil waiting] at finishes
  | cons item others =>
      rw [turn_of_items_eq_cons unsatisfied waiting] at finishes
      cases satisfies : (consumer.withMore [item]).isSatisfied with
      | true =>
          rw [advance_of_satisfying unsatisfied satisfies waiting]
          rwa [if_pos satisfies] at finishes
      | false =>
          rw [satisfies] at finishes
          cases finishes

variable (whole : consumer.want ≠ .item) (unsatisfied : consumer.isSatisfied = false)

include whole unsatisfied

theorem turn_of_chunk {octets : Bytes}
    (waiting : queue.items consumer.stream = .chunk octets :: others) :
    consumer.turn queue
      = (.waiting (consumer.withMore [.chunk octets]),
        queue.afterTaking consumer.stream (.chunk octets) others) := by
  rw [turn_of_items_eq_cons unsatisfied waiting, unsatisfied_of_chunk whole]
  rfl

theorem turn_of_end (waiting : queue.items consumer.stream = .endOfStream :: others) :
    consumer.turn queue
      = (.finished (consumer.withMore [.endOfStream]),
        queue.afterTaking consumer.stream .endOfStream others) := by
  rw [turn_of_items_eq_cons unsatisfied waiting]
  exact congrArg (·, _) (if_pos (satisfied_of_end whole []))

end Turns

section Standing

/-- The states that are reached while a stream has a single consumer: what has been accepted
for the stream, the queue, and how far the consumer got if it has started. Others may deliver
to the stream whenever they like, and do anything that leaves its entry alone; nobody else
takes from it or releases it. -/
inductive Interleaved (consumer : Consumer) : List Item → Queue → Option Progress → Prop where
  | nothing : Interleaved consumer [] {} none
  | deliver {accepted : List Item} {queue : Queue} {progress : Option Progress}
      (reached : Interleaved consumer accepted queue progress)
      (willing : queue.refusal? consumer.stream = none) (item : Item) :
      Interleaved consumer (accepted ++ [item]) (queue.add consumer.stream item) progress
  | elsewhere {accepted : List Item} {queue after : Queue} {progress : Option Progress}
      (reached : Interleaved consumer accepted queue progress)
      (spares : queue.Spares consumer.stream after) :
      Interleaved consumer accepted after progress
  | start {accepted : List Item} {queue : Queue}
      (reached : Interleaved consumer accepted queue none) :
      Interleaved consumer accepted queue (some (.waiting consumer))
  | turn {accepted : List Item} {queue : Queue} {current : Consumer}
      (reached : Interleaved consumer accepted queue (some (.waiting current))) :
      Interleaved consumer accepted (current.turn queue).2 (some (current.turn queue).1)

/-- How a consumer stands that is after all of a stream. What has been accepted for the stream
is what the consumer has taken and what waits for it; only what is accepted after it has taken
the end is none of its business. -/
inductive Standing (consumer : Consumer) (accepted : List Item) (queue : Queue) :
    Option Progress → Prop where
  | unstarted (accepted_eq : accepted = queue.items consumer.stream) :
      Standing consumer accepted queue none
  | underway (chunks : List Bytes)
      (accepted_eq : accepted = chunks.map .chunk ++ queue.items consumer.stream) :
      Standing consumer accepted queue (some (.waiting (consumer.withMore (chunks.map .chunk))))
  | whole (chunks : List Bytes)
      (accepted_eq : accepted = chunks.map .chunk ++ .endOfStream :: queue.items consumer.stream)
      (gone : queue.items consumer.stream = [] → queue.lanes.get? consumer.stream = none) :
      Standing consumer accepted queue
        (some (.finished (consumer.withMore (chunks.map .chunk ++ [.endOfStream]))))
  | cutShort (chunks : List Bytes) (accepted_eq : accepted = chunks.map .chunk)
      (closed : queue.isClosed = true) (empty : queue.items consumer.stream = [])
      (gone : consumer.want = .request → queue.lanes.get? consumer.stream = none) :
      Standing consumer accepted queue (some (.finished (consumer.withMore (chunks.map .chunk))))

theorem Standing.deliver (standing : Standing consumer accepted queue progress)
    (willing : queue.refusal? consumer.stream = none) (item : Item) :
    Standing consumer (accepted ++ [item]) (queue.add consumer.stream item) progress := by
  have grown := queue.items_add_self consumer.stream item
  cases standing with
  | unstarted accepted_eq =>
      refine .unstarted ?_
      rw [accepted_eq, grown]
  | underway chunks accepted_eq =>
      refine .underway chunks ?_
      rw [accepted_eq, grown, List.append_assoc]
  | whole chunks accepted_eq gone =>
      refine .whole chunks ?_ ?_
      · rw [accepted_eq, grown, List.append_assoc, List.cons_append]
      · intro empty
        rw [grown] at empty
        cases List.append_ne_nil_of_right_ne_nil _ (List.cons_ne_nil _ _) empty
  | cutShort chunks accepted_eq closed empty gone =>
      have isOpen := (Queue.refusal?_eq_none_iff.mp willing).1
      rw [closed] at isOpen
      cases isOpen

theorem Standing.elsewhere (standing : Standing consumer accepted queue progress)
    (spares : queue.Spares consumer.stream after) :
    Standing consumer accepted after progress := by
  cases standing with
  | unstarted accepted_eq => exact .unstarted (by rw [spares.items_eq, accepted_eq])
  | underway chunks accepted_eq =>
      exact .underway chunks (by rw [spares.items_eq, accepted_eq])
  | whole chunks accepted_eq gone =>
      refine .whole chunks (by rw [spares.items_eq, accepted_eq]) ?_
      rw [spares.items_eq, spares.entry_eq]
      exact gone
  | cutShort chunks accepted_eq closed empty gone =>
      refine .cutShort chunks accepted_eq (spares.stays_closed closed) ?_ ?_
      · rw [spares.items_eq, empty]
      · rw [spares.entry_eq]
        exact gone

variable (whole : consumer.want ≠ .item) (fresh : consumer.taken = [])

include whole fresh

theorem unsatisfied_of_chunks (chunks : List Bytes) :
    (consumer.withMore (chunks.map .chunk)).isSatisfied = false := by
  rw [isSatisfied_eq_atEnd (by rwa [want_withMore]), atEnd, withMore, fresh, List.nil_append]
  rcases List.eq_nil_or_concat chunks with rfl | ⟨earlier, last, rfl⟩
  · rfl
  · simp

theorem Standing.unsatisfied
    (standing : Standing consumer accepted queue (some (.waiting current))) :
    current.isSatisfied = false ∧ current.stream = consumer.stream := by
  cases standing with
  | underway chunks accepted_eq => exact ⟨unsatisfied_of_chunks whole fresh chunks, rfl⟩

omit whole in
theorem Standing.taken_append
    (standing : Standing consumer accepted queue (some (.waiting current))) :
    current.taken ++ queue.items consumer.stream = accepted := by
  cases standing with
  | underway chunks accepted_eq => rw [accepted_eq, withMore, fresh, List.nil_append]

/-- A turn takes a chunk, takes the end, or finds nothing. -/
theorem Standing.turn (standing : Standing consumer accepted queue (some (.waiting current)))
    (sound : (queue.lane consumer.stream).Sound) :
    ((current.turn queue).2.lane consumer.stream).Sound ∧
      Standing consumer accepted (current.turn queue).2 (some (current.turn queue).1) := by
  cases standing with
  | underway chunks accepted_eq =>
      have unsatisfied := unsatisfied_of_chunks whole fresh chunks
      cases waiting : queue.items consumer.stream with
      | nil =>
          have empty : queue.items (consumer.withMore (chunks.map .chunk)).stream = [] := waiting
          rw [turn_of_items_eq_nil empty, advance_of_items_eq_nil unsatisfied empty]
          cases closed : queue.isClosed with
          | true =>
              rw [if_pos rfl]
              refine ⟨lane_leave sound, .cutShort chunks ?_ ?_ (items_leave empty) ?_⟩
              · rw [accepted_eq, waiting, List.append_nil]
              · exact (isClosed_leave _ queue).trans closed
              · intro want
                exact entry_leave (consumer.withMore (chunks.map .chunk)) want queue
          | false => exact ⟨sound, .underway chunks accepted_eq⟩
      | cons item others =>
          have whole_after : (consumer.withMore (chunks.map .chunk)).want ≠ .item := whole
          cases item with
          | chunk octets =>
              have taken : chunks.map Item.chunk ++ [.chunk octets]
                  = (chunks ++ [octets]).map .chunk := by simp
              rw [turn_of_chunk whole_after unsatisfied waiting, withMore_withMore, taken]
              refine ⟨?_, .underway _ ?_⟩
              · rw [stream_withMore, Queue.lane_afterTaking_chunk]
                exact sound.rest waiting
              · rw [accepted_eq, waiting]
                simp [Queue.items]
          | endOfStream =>
              cases sound.eq_nil_of_endOfStream waiting
              have lane := Queue.lane_afterTaking_endOfStream queue consumer.stream []
              have empty : (queue.afterTaking consumer.stream .endOfStream []).items
                  consumer.stream = [] := congrArg Lane.items lane
              rw [turn_of_end whole_after unsatisfied waiting, withMore_withMore, stream_withMore]
              refine ⟨?_, .whole chunks ?_ ?_⟩
              · rw [lane]
                exact Lane.sound_empty
              · rw [accepted_eq, waiting, empty]
              · exact fun _ => Table.get?_erase_self _ _

theorem Interleaved.stands (reached : Interleaved consumer accepted queue progress) :
    (queue.lane consumer.stream).Sound ∧ Standing consumer accepted queue progress := by
  induction reached with
  | nothing => exact ⟨Lane.sound_empty, .unstarted rfl⟩
  | @deliver accepted queue progress reached willing item ih =>
      have notEnded : (queue.lane consumer.stream).ended = false :=
        (Queue.refusal?_eq_none_iff.mp willing).2
      refine ⟨?_, ih.2.deliver willing item⟩
      rw [Queue.lane_add_self]
      exact ih.1.add notEnded item
  | elsewhere reached spares ih =>
      refine ⟨?_, ih.2.elsewhere spares⟩
      rw [spares.lane_eq]
      exact ih.1
  | start reached ih =>
      cases ih.2 with
      | unstarted accepted_eq =>
          have nothing_taken : consumer.withMore (([] : List Bytes).map .chunk) = consumer := by
            simp [withMore]
          have standing : Standing consumer _ _
              (some (.waiting (consumer.withMore (([] : List Bytes).map .chunk)))) :=
            .underway [] accepted_eq
          rw [nothing_taken] at standing
          exact ⟨ih.1, standing⟩
  | turn reached ih => exact ih.2.turn whole fresh ih.1

end Standing

section Outcome

/-- What a consumer that is after all of a stream is due, given what has been accepted for the
stream and whether the queue is closed: nothing yet, as long as the end may still come. -/
def due (consumer : Consumer) (accepted : List Item) (closed : Bool) : Option Result :=
  match consumer.want with
  | .item => none
  | .chunks =>
      if .endOfStream ∈ accepted ∨ closed then some (.chunks (chunksBeforeEnd accepted)) else none
  | .request =>
      if .endOfStream ∈ accepted then
        some (.request (Request.assemble consumer.stream (chunksBeforeEnd accepted).flatten))
      else if closed then some (.request (.error (.incomplete consumer.stream)))
      else none

/-- What a consumer ends up with, if it has finished. -/
def Progress.result? : Progress → Option Result
  | finished consumer => some consumer.result
  | waiting _ => none

/-- Nothing of the stream waits. After a consumer that was after a request, nothing at all is
kept for the stream. -/
structure Cleared (consumer : Consumer) (queue : Queue) : Prop where
  empty : queue.items consumer.stream = []
  gone : consumer.want = .request → queue.lanes.get? consumer.stream = none

variable (whole : consumer.want ≠ .item) (fresh : consumer.taken = [])

include whole

theorem due_of_open (chunks : List Bytes) : consumer.due (chunks.map .chunk) false = none := by
  cases want : consumer.want with
  | item => exact absurd want whole
  | chunks => simp [due, want]
  | request => simp [due, want]

/-- A consumer to which nothing is left while the queue is open is due nothing yet. -/
theorem Standing.due_eq_none
    (standing : Standing consumer accepted queue (some (.waiting current)))
    (empty : queue.items consumer.stream = []) (isOpen : queue.isClosed = false) :
    consumer.due accepted queue.isClosed = none := by
  cases standing with
  | underway chunks accepted_eq =>
      rw [accepted_eq, empty, List.append_nil, isOpen]
      exact due_of_open whole chunks

include fresh

theorem due_of_end (chunks : List Bytes) (later : List Item) (closed : Bool) :
    consumer.due (chunks.map .chunk ++ .endOfStream :: later) closed
      = some (consumer.withMore (chunks.map .chunk ++ [.endOfStream])).result := by
  have atEnd := atEnd_withMore_end consumer (chunks.map .chunk)
  have taken := chunks_withMore_end fresh chunks
  cases want : consumer.want with
  | item => exact absurd want whole
  | chunks => simp [due, result, want, taken]
  | request => simp [due, result, want, taken, atEnd]

theorem due_of_closed (chunks : List Bytes) :
    consumer.due (chunks.map .chunk) true
      = some (consumer.withMore (chunks.map .chunk)).result := by
  have unfinished := unsatisfied_of_chunks whole fresh chunks
  rw [isSatisfied_eq_atEnd (by rwa [want_withMore])] at unfinished
  have taken := chunks_withMore fresh chunks
  cases want : consumer.want with
  | item => exact absurd want whole
  | chunks => simp [due, result, want, taken]
  | request => simp [due, result, want, unfinished]

/-- A consumer that has finished has come to what it is due. -/
theorem Standing.due_eq (standing : Standing consumer accepted queue (some (.finished done))) :
    consumer.due accepted queue.isClosed = some done.result := by
  cases standing with
  | whole chunks accepted_eq gone =>
      rw [accepted_eq]
      exact due_of_end whole fresh chunks _ _
  | cutShort chunks accepted_eq closed empty gone =>
      rw [accepted_eq, closed]
      exact due_of_closed whole fresh chunks

omit whole fresh in
theorem Standing.cleared (standing : Standing consumer accepted queue (some (.finished done)))
    (empty : queue.items consumer.stream = []) : consumer.Cleared queue := by
  refine ⟨empty, ?_⟩
  cases standing with
  | whole chunks accepted_eq gone => exact fun _ => gone empty
  | cutShort chunks accepted_eq closed empty gone => exact gone

/-- A consumer that has run as far as it can, and how the queue stands then. -/
structure Exhausted (consumer : Consumer) (accepted : List Item) (queue : Queue)
    (after : Progress × Queue) : Prop where
  reached : Interleaved consumer accepted after.2 (some after.1)
  empty : after.2.items consumer.stream = []
  isClosed_eq : after.2.isClosed = queue.isClosed
  isOpen (current : Consumer) : after.1 = .waiting current → after.2.isClosed = false

/-- To run without a break is to take one turn after the other while no one else does anything. -/
theorem Interleaved.exhausted
    (reached : Interleaved consumer accepted queue (some (.waiting current))) :
    Exhausted consumer accepted queue (current.advance queue) := by
  generalize waiting : queue.items consumer.stream = items
  induction items generalizing queue current with
  | nil =>
      cases (reached.stands whole fresh).2 with
      | underway chunks accepted_eq =>
          have unsatisfied := unsatisfied_of_chunks whole fresh chunks
          have empty : queue.items (consumer.withMore (chunks.map .chunk)).stream = [] := waiting
          have turned := reached.turn
          rw [turn_of_items_eq_nil empty, advance_of_items_eq_nil unsatisfied empty] at turned
          rw [advance_of_items_eq_nil unsatisfied empty]
          cases closed : queue.isClosed with
          | true =>
              rw [closed, if_pos rfl] at turned
              refine ⟨turned, items_leave empty, isClosed_leave _ queue, ?_⟩
              intro current waits
              cases waits
          | false =>
              rw [closed, if_neg Bool.false_ne_true] at turned
              exact ⟨turned, waiting, rfl, fun _ _ => closed⟩
  | cons item others ih =>
      cases (reached.stands whole fresh).2 with
      | underway chunks accepted_eq =>
          have sound := (reached.stands whole fresh).1
          have unsatisfied := unsatisfied_of_chunks whole fresh chunks
          have whole_after : (consumer.withMore (chunks.map .chunk)).want ≠ .item := whole
          have turned := reached.turn
          cases item with
          | chunk octets =>
              rw [turn_of_chunk whole_after unsatisfied waiting] at turned
              rw [advance_of_items_eq_chunk unsatisfied waiting]
              have rest := ih turned (by simp [Queue.items])
              exact ⟨rest.reached, rest.empty, rest.isClosed_eq, rest.isOpen⟩
          | endOfStream =>
              cases sound.eq_nil_of_endOfStream waiting
              have lane := Queue.lane_afterTaking_endOfStream queue consumer.stream []
              rw [turn_of_end whole_after unsatisfied waiting] at turned
              rw [advance_of_satisfying unsatisfied (satisfied_of_end whole_after []) waiting]
              refine ⟨turned, congrArg Lane.items lane, rfl, ?_⟩
              intro current waits
              cases waits

/-- What a consumer has taken and what waits for it is what has been accepted. If it runs as far
as it can it finishes exactly if there is something that it is due, and then with just that.
The turn in which it finishes leaves nothing of its stream behind. -/
theorem Interleaved.outcome
    (reached : Interleaved consumer accepted queue (some (.waiting current))) :
    current.taken ++ queue.items consumer.stream = accepted ∧
      (current.advance queue).1.result? = consumer.due accepted queue.isClosed ∧
      ∀ done left, current.turn queue = (.finished done, left) →
        consumer.due accepted queue.isClosed = some done.result ∧ consumer.Cleared left := by
  have exhausted := reached.exhausted whole fresh
  have standing := (exhausted.reached.stands whole fresh).2
  have before := (reached.stands whole fresh).2
  refine ⟨before.taken_append fresh, ?_, ?_⟩
  · rw [← exhausted.isClosed_eq]
    cases far : (current.advance queue).1 with
    | finished done =>
        rw [far] at standing
        exact (standing.due_eq whole fresh).symm
    | waiting starved =>
        rw [far] at standing
        exact (standing.due_eq_none whole exhausted.empty (exhausted.isOpen starved far)).symm
  · intro done left finishes
    rw [advance_eq_of_turn_eq (before.unsatisfied whole fresh).1 finishes] at exhausted standing
    rw [← exhausted.isClosed_eq]
    exact ⟨standing.due_eq whole fresh, standing.cleared exhausted.empty⟩

end Outcome

end Consumer

end Reassembly
