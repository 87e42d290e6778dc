import Reassembly.Delivery.Sink
import Reassembly.Table

/-!
# The delivery queue

The queue keeps one lane for each stream, in which items wait in the order of delivery.
A lane that holds the end of its stream takes nothing more. Taking that end, or releasing
the stream, removes the lane. A closed queue takes nothing more at all, but what it holds
can still be taken.

The queue counts the times at which it wakes the consumers that wait at it: whenever it
accepts an item, and when it is closed.

`Queue.items` is the view of the queue that the lemmas are about: they say what an
operation on one stream does to the items of that stream, and that it leaves the items of
every other stream alone.
-/

namespace Reassembly

namespace Delivery

/-- The items that wait for one stream. -/
structure Lane where
  /-- The items, oldest first. -/
  items : List Item := []
  /-- The end of the stream has been delivered. -/
  ended : Bool := false
  deriving DecidableEq, Repr

def Lane.add (lane : Lane) (item : Item) : Lane where
  items := lane.items ++ [item]
  ended := lane.ended || item = .endOfStream

/-- Items of many streams, waiting to be taken. -/
structure Queue where
  lanes : Table StreamId Lane := .empty
  /-- Number of items in all lanes. -/
  size : Nat := 0
  isClosed : Bool := false
  /-- How often waiting consumers have been woken. -/
  wakeUps : Nat := 0
  deriving DecidableEq, Repr

namespace Queue

/-- The lane of a stream; one that has none yet has an empty one. -/
def lane (queue : Queue) (stream : StreamId) : Lane := (queue.lanes.get? stream).getD {}

def items (queue : Queue) (stream : StreamId) : List Item := (queue.lane stream).items

def pending (queue : Queue) (stream : StreamId) : Nat := (queue.items stream).length

/-- Whether the end of a stream waits to be taken. -/
def hasEnd (queue : Queue) (stream : StreamId) : Bool := (queue.lane stream).ended

def isEmpty (queue : Queue) : Bool := queue.size = 0

/-- Why nothing can be delivered for a stream, if so. -/
def refusal? (queue : Queue) (stream : StreamId) : Option Refusal :=
  if queue.isClosed then some .closed
  else if queue.hasEnd stream then some (.streamEnded stream)
  else none

/-- Puts an item at the end of a lane and wakes whoever waits. -/
def add (queue : Queue) (stream : StreamId) (item : Item) : Queue :=
  { queue with
    lanes := queue.lanes.set stream ((queue.lane stream).add item)
    size := queue.size + 1
    wakeUps := queue.wakeUps + 1 }

/-- Delivers the contents of a segment, or gives the segment back. -/
def append (stream : StreamId) (segment : Segment) : EStateM Rejection Queue Unit :=
  fun queue =>
    match queue.refusal? stream with
    | none => .ok () (queue.add stream (.chunk segment.bytes))
    | some cause => .error { segment, cause } queue

def appendEnd (stream : StreamId) : EStateM Refusal Queue Unit := fun queue =>
  match queue.refusal? stream with
  | none => .ok () (queue.add stream .endOfStream)
  | some cause => .error cause queue

instance : Sink Queue where
  append := append
  appendEnd := appendEnd

/-- The queue once an item of a stream has been taken from before the others. Taking the
end of the stream removes its lane. -/
def afterTaking (queue : Queue) (stream : StreamId) (item : Item) (others : List Item) :
    Queue :=
  { queue with
    lanes :=
      if item = .endOfStream then queue.lanes.erase stream
      else queue.lanes.set stream { queue.lane stream with items := others }
    size := queue.size - 1 }

def pop (queue : Queue) (stream : StreamId) : Option Item × Queue :=
  match queue.items stream with
  | [] => (none, queue)
  | item :: others => (some item, queue.afterTaking stream item others)

/-- Discards all that is kept for a stream and tells how many items that were. -/
def release (queue : Queue) (stream : StreamId) : Nat × Queue :=
  let discarded := queue.pending stream
  (discarded,
    { queue with lanes := queue.lanes.erase stream, size := queue.size - discarded })

/-- Refuses all further deliveries and wakes whoever waits. -/
def close (queue : Queue) : Queue :=
  { queue with isClosed := true, wakeUps := queue.wakeUps + 1 }

theorem refusal?_eq_none_iff {queue : Queue} {stream : StreamId} :
    queue.refusal? stream = none ↔ queue.isClosed = false ∧ queue.hasEnd stream = false := by
  cases closed : queue.isClosed <;> cases ended : queue.hasEnd stream <;>
    simp [refusal?, closed, ended]

@[simp]
theorem lane_add_self (queue : Queue) (stream : StreamId) (item : Item) :
    (queue.add stream item).lane stream = (queue.lane stream).add item := by
  simp [lane, add]

theorem lane_add_of_ne (queue : Queue) {stream other : StreamId} (item : Item)
    (differ : other ≠ stream) : (queue.add stream item).lane other = queue.lane other := by
  simp [lane, add, Table.get?_set_of_ne, differ]

@[simp]
theorem items_add_self (queue : Queue) (stream : StreamId) (item : Item) :
    (queue.add stream item).items stream = queue.items stream ++ [item] := by
  simp [items, Lane.add]

theorem items_add_of_ne (queue : Queue) {stream other : StreamId} (item : Item)
    (differ : other ≠ stream) : (queue.add stream item).items other = queue.items other := by
  rw [items, lane_add_of_ne queue item differ, items]

@[simp]
theorem isClosed_add (queue : Queue) (stream : StreamId) (item : Item) :
    (queue.add stream item).isClosed = queue.isClosed := rfl

@[simp]
theorem isClosed_pop (queue : Queue) (stream : StreamId) :
    (queue.pop stream).2.isClosed = queue.isClosed := by
  unfold pop
  split
  · rfl
  · rfl

@[simp]
theorem isClosed_release (queue : Queue) (stream : StreamId) :
    (queue.release stream).2.isClosed = queue.isClosed := rfl

@[simp]
theorem isClosed_close (queue : Queue) : queue.close.isClosed = true := rfl

theorem pop_of_items_eq_nil {queue : Queue} {stream : StreamId}
    (waiting : queue.items stream = []) : queue.pop stream = (none, queue) := by
  simp [pop, waiting]

theorem pop_of_items_eq_cons {queue : Queue} {stream : StreamId} {item : Item}
    {others : List Item} (waiting : queue.items stream = item :: others) :
    queue.pop stream = (some item, queue.afterTaking stream item others) := by
  simp [pop, waiting]

@[simp]
theorem lane_afterTaking_chunk (queue : Queue) (stream : StreamId) (octets : Bytes)
    (others : List Item) :
    (queue.afterTaking stream (.chunk octets) others).lane stream
      = { queue.lane stream with items := others } := by
  simp [afterTaking, lane]

@[simp]
theorem lane_afterTaking_endOfStream (queue : Queue) (stream : StreamId)
    (others : List Item) :
    (queue.afterTaking stream .endOfStream others).lane stream = {} := by
  simp [afterTaking, lane]

theorem lane_afterTaking_of_ne (queue : Queue) {stream other : StreamId} (item : Item)
    (others : List Item) (differ : other ≠ stream) :
    (queue.afterTaking stream item others).lane other = queue.lane other := by
  cases item <;>
    simp [afterTaking, lane, Table.get?_erase_of_ne, Table.get?_set_of_ne, differ]

@[simp]
theorem lane_release_self (queue : Queue) (stream : StreamId) :
    (queue.release stream).2.lane stream = {} := by
  simp [release, lane]

theorem lane_release_of_ne (queue : Queue) {stream other : StreamId}
    (differ : other ≠ stream) : (queue.release stream).2.lane other = queue.lane other := by
  simp [release, lane, Table.get?_erase_of_ne, differ]

end Queue

end Delivery

end Reassembly
