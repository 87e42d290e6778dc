import Reassembly.Stream.Call
import Reassembly.Table

/-!
# Connections

A connection is a session with a sink and the streams that deliver to it. Each stream is
reached through a numbered handle, which can be given to another stream later.
-/

namespace Reassembly

/-- A session, its sink and its streams. -/
structure Connection (Queue : Type) where
  session : Session
  queue : Queue
  /-- The streams by handle. -/
  streams : Table Nat Stream := .empty
  deriving DecidableEq, Repr

namespace Connection

open Delivery (Sink)

variable {Queue : Type}

/-- Something done to the stream of a handle. -/
inductive Action where
  /-- Puts a new stream in the place of the one there, which is dropped. -/
  | create (stream : StreamId)
  | call (call : Stream.Call)
  /-- Drops the stream. What it has not delivered is lost. -/
  | destroy
  deriving DecidableEq, Repr

/-- What follows from an action. -/
structure Outcome (Queue : Type) where
  /-- What the action answers, unless the handle has no stream. -/
  answer : Option Stream.Answer
  /-- What observers are told meanwhile. -/
  notices : List Notice := []
  connection : Connection Queue

/-- Does something to the stream of a handle. -/
def act [Sink Queue] (connection : Connection Queue) (handle : Nat) (action : Action) :
    Outcome Queue :=
  match action, connection.streams.get? handle with
  | .create id, _ =>
      let stream : Stream := { id, session := connection.session }
      { answer := some (.ok .done)
        connection := { connection with streams := connection.streams.set handle stream } }
  | .call call, some stream =>
      let (answer, feed) := call.run { stream, queue := connection.queue }
      { answer := some answer
        notices := feed.notices
        connection := { connection with
          queue := feed.queue
          streams := connection.streams.set handle feed.stream } }
  | .destroy, some _ =>
      { answer := some (.ok .done)
        connection := { connection with streams := connection.streams.erase handle } }
  | .call _, none | .destroy, none => { answer := none, connection }

end Connection

end Reassembly
