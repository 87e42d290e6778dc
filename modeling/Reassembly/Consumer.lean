import Reassembly.Delivery.Queue
import Reassembly.Request.Assembly

/-!
# Consumers

A consumer takes the items of one stream from a delivery queue: a single item, all chunks
up to the end of the stream, or a whole request. It goes on as long as there are items. If
they run out too early it waits, and keeps what it has taken, until the queue wakes it.
A closed queue that has run out of items makes it finish with what it has.
-/

namespace Reassembly

open Delivery (Item Queue)

/-- What a consumer is after. -/
inductive Want where
  /-- The next item. -/
  | item
  /-- The chunks up to the end of the stream. -/
  | chunks
  /-- The request that the chunks up to the end of the stream spell. -/
  | request
  deriving DecidableEq, Repr

/-- Someone who takes items of a stream. -/
structure Consumer where
  name : String
  want : Want
  stream : StreamId
  /-- The items taken so far, oldest first. -/
  taken : List Item := []
  deriving DecidableEq, Repr

namespace Consumer

/-- What a consumer ends up with. -/
inductive Result where
  | item (item : Option Item)
  | chunks (chunks : List Bytes)
  | request (request : Except AssemblyError Request)
  deriving Repr

/-- Whether the end of the stream has been taken. -/
def atEnd (consumer : Consumer) : Bool := consumer.taken.getLast? = some .endOfStream

/-- Whether a consumer has what it is after. -/
def isSatisfied (consumer : Consumer) : Bool :=
  match consumer.want with
  | .item => !consumer.taken.isEmpty
  | .chunks | .request => consumer.atEnd

def chunks (consumer : Consumer) : List Bytes :=
  consumer.taken.filterMap fun
    | .chunk octets => some octets
    | .endOfStream => none

/-- What the items taken so far amount to if no more are to be had. -/
def result (consumer : Consumer) : Result :=
  match consumer.want with
  | .item => .item consumer.taken.head?
  | .chunks => .chunks consumer.chunks
  | .request => .request <|
      if consumer.atEnd then Request.assemble consumer.stream consumer.chunks.flatten
      else .error (.incomplete consumer.stream)

/-- Takes items until the consumer is satisfied or none is left, and `limit` at most. -/
def draw (consumer : Consumer) (limit : Nat) (queue : Queue) : Consumer × Queue :=
  match limit with
  | 0 => (consumer, queue)
  | limit + 1 =>
      if consumer.isSatisfied then (consumer, queue)
      else
        match queue.pop consumer.stream with
        | (none, queue) => (consumer, queue)
        | (some item, queue) =>
            draw { consumer with taken := consumer.taken ++ [item] } limit queue

/-- How far a consumer got. -/
inductive Progress where
  /-- It has taken all it will ever take. -/
  | finished (consumer : Consumer)
  | waiting (consumer : Consumer)
  deriving DecidableEq, Repr

/-- Lets a consumer run as far as it can. One that is after a request gives up its stream
if the queue is closed before the end of the stream came. -/
def advance (consumer : Consumer) (queue : Queue) : Progress × Queue :=
  let (consumer, queue) := consumer.draw (queue.pending consumer.stream) queue
  if consumer.isSatisfied then (.finished consumer, queue)
  else if queue.isClosed then
    match consumer.want with
    | .item | .chunks => (.finished consumer, queue)
    | .request => (.finished consumer, (queue.release consumer.stream).2)
  else (.waiting consumer, queue)

end Consumer

end Reassembly
