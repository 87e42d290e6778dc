import Reassembly.Connection
import Reassembly.Consumer

/-!
# Hubs

A hub joins producers and consumers: the streams of a connection deliver to its queue, and
consumers take from it or wait at it. After every operation that woke the waiting
consumers each of them runs, in the order in which they came, as far as it can.
-/

namespace Reassembly

open Delivery (Item Queue Rejection Refusal)

/-- A connection with a delivery queue, and the consumers that wait at it. -/
structure Hub where
  connection : Connection Queue
  /-- The waiting consumers, in the order in which they came. -/
  waiting : List Consumer := []
  deriving DecidableEq, Repr

namespace Hub

/-- Something done at a hub. -/
inductive Operation where
  | act (handle : Nat) (action : Connection.Action)
  /-- Delivers octets in a segment of exactly their size. -/
  | append (stream : StreamId) (octets : Bytes)
  | appendEnd (stream : StreamId)
  /-- Takes an item without waiting for it. -/
  | pop (stream : StreamId)
  | release (stream : StreamId)
  | close
  | consume (consumer : Consumer)
  /-- Drops the waiting consumers of this name, and what they have taken. -/
  | cancel (name : String)
  deriving DecidableEq, Repr

inductive Reply where
  | done
  | noStream
  | stream (answer : Stream.Answer)
  | rejected (rejection : Rejection)
  | refused (cause : Refusal)
  | item (item : Option Item)
  | count (count : Nat)
  | progress (progress : Consumer.Progress)

/-- What follows from an operation. -/
structure Outcome where
  reply : Reply
  /-- What observers are told meanwhile. -/
  notices : List Notice := []
  /-- The waiting consumers that finished, in the order in which they came. -/
  woken : List Consumer := []
  hub : Hub

def queue (hub : Hub) : Queue := hub.connection.queue

def withQueue (hub : Hub) (queue : Queue) : Hub :=
  { hub with connection := { hub.connection with queue } }

/-- Does what an operation says, and lets no waiting consumer run. -/
def perform (hub : Hub) : Operation → Outcome
  | .act handle action =>
      let outcome := hub.connection.act handle action
      { reply := outcome.answer.elim .noStream .stream
        notices := outcome.notices
        hub := { hub with connection := outcome.connection } }
  | .append stream octets =>
      match (Queue.append stream (.ofBytes octets)).run hub.queue with
      | .ok _ queue => { reply := .done, hub := hub.withQueue queue }
      | .error rejection queue => { reply := .rejected rejection, hub := hub.withQueue queue }
  | .appendEnd stream =>
      match (Queue.appendEnd stream).run hub.queue with
      | .ok _ queue => { reply := .done, hub := hub.withQueue queue }
      | .error cause queue => { reply := .refused cause, hub := hub.withQueue queue }
  | .pop stream =>
      let (item, queue) := hub.queue.pop stream
      { reply := .item item, hub := hub.withQueue queue }
  | .release stream =>
      let (discarded, queue) := hub.queue.release stream
      { reply := .count discarded, hub := hub.withQueue queue }
  | .close => { reply := .done, hub := hub.withQueue hub.queue.close }
  | .consume consumer =>
      let (progress, queue) := consumer.advance hub.queue
      let hub := hub.withQueue queue
      match progress with
      | .finished _ => { reply := .progress progress, hub }
      | .waiting consumer =>
          { reply := .progress progress
            hub := { hub with waiting := hub.waiting ++ [consumer] } }
  | .cancel name =>
      let (cancelled, waiting) := hub.waiting.partition (·.name = name)
      { reply := .count cancelled.length, hub := { hub with waiting } }

/-- Lets consumers run one after the other, and lists those that finished and those that
still wait. -/
def runConsumers : List Consumer → Queue →
    List Consumer × List Consumer × Queue
  | [], queue => ([], [], queue)
  | consumer :: later, queue =>
      let (progress, queue) := consumer.advance queue
      let (finished, waiting, queue) := runConsumers later queue
      match progress with
      | .finished consumer => (consumer :: finished, waiting, queue)
      | .waiting consumer => (finished, consumer :: waiting, queue)

/-- Does what an operation says, then lets the waiting consumers run if it woke them. -/
def step (hub : Hub) (operation : Operation) : Outcome :=
  let outcome := hub.perform operation
  let queue := outcome.hub.queue
  if queue.wakeUps = hub.queue.wakeUps then outcome
  else
    let (woken, waiting, queue) := runConsumers outcome.hub.waiting queue
    { outcome with woken, hub := { outcome.hub.withQueue queue with waiting } }

end Hub

end Reassembly
