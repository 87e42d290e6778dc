import Reassembly.Proofs.Delivery.Chronicle
import Reassembly.Proofs.Hub.Conservation

/-!
# The chronicle of a hub

The chronicle of the queue of a hub is read off what the operations do themselves and what the
consumers that they let run take and give up. The queue is reached with this chronicle, so it
is consistent with it after every run: streams, consumers and those who handle the queue
directly may do whatever they like in whatever order.
-/

namespace Reassembly

open Delivery (Event Item Queue)
open Delivery.Queue (Reached)

namespace Consumer

/-- A consumer that is after a request and finishes without the end of its stream has given the
stream up. -/
def Progress.gaveUp : Progress → Bool
  | finished consumer => consumer.want = .request && !consumer.isSatisfied
  | waiting _ => false

/-- What happens to the lane of a consumer when it is let run and gets so far. -/
def events (consumer : Consumer) (progress : Progress) : List Event :=
  (progress.consumer.taken.drop consumer.taken.length).map (.taken consumer.stream)
    ++ if progress.gaveUp then [.released consumer.stream] else []

variable {queue : Queue} {chronicle : List Event}

theorem reached_drawing_nothing (consumer : Consumer) (reached : Reached chronicle queue) :
    ∃ items, consumer = consumer.withMore items ∧
      Reached (chronicle ++ items.map (.taken consumer.stream)) queue := by
  refine ⟨[], ?_, ?_⟩
  · simp [withMore]
  · simpa using reached

/-- Whatever a consumer draws, it takes one item after the other. -/
theorem reached_draw (consumer : Consumer) (limit : Nat) (reached : Reached chronicle queue) :
    ∃ items, (consumer.draw limit queue).1 = consumer.withMore items ∧
      Reached (chronicle ++ items.map (.taken consumer.stream)) (consumer.draw limit queue).2 := by
  induction limit generalizing consumer queue chronicle with
  | zero => exact reached_drawing_nothing consumer reached
  | succ limit ih =>
      cases satisfied : consumer.isSatisfied with
      | true =>
          rw [draw_of_isSatisfied satisfied]
          exact reached_drawing_nothing consumer reached
      | false =>
          cases waiting : queue.items consumer.stream with
          | nil =>
              rw [draw_of_items_eq_nil satisfied waiting]
              exact reached_drawing_nothing consumer reached
          | cons item others =>
              rw [draw_of_items_eq_cons satisfied waiting]
              rcases ih (consumer.withMore [item]) (reached.take waiting) with ⟨items, drawn, later⟩
              refine ⟨item :: items, ?_, ?_⟩
              · rw [drawn]
                simp [withMore]
              · simpa [withMore] using later

/-- Whatever a consumer does, its events tell. -/
theorem reached_advance (consumer : Consumer) (reached : Reached chronicle queue) :
    Reached (chronicle ++ consumer.events (consumer.advance queue).1)
      (consumer.advance queue).2 := by
  rcases reached_draw consumer (queue.pending consumer.stream) reached with ⟨items, drawn, later⟩
  have settles := consumer.settles_advance queue
  generalize consumer.advance queue = result at settles ⊢
  generalize consumer.draw (queue.pending consumer.stream) queue = after at drawn later settles
  rcases after with ⟨after, left⟩
  dsimp only at drawn later settles
  have taken : after.taken.drop consumer.taken.length = items := by simp [drawn, withMore]
  have sameStream : after.stream = consumer.stream := by
    rw [drawn]
    rfl
  cases settles with
  | satisfied satisfied =>
      simpa [events, Progress.consumer, Progress.gaveUp, taken, satisfied] using later
  | stops unsatisfied closed want =>
      simpa [events, Progress.consumer, Progress.gaveUp, taken, want] using later
  | waits => simpa [events, Progress.consumer, Progress.gaveUp, taken] using later
  | givesUp unsatisfied closed want =>
      have released := later.release consumer.stream
      simpa [events, Progress.consumer, Progress.gaveUp, taken, unsatisfied, want, sameStream]
        using released

end Consumer

namespace Stream.Call

variable {queue : Queue} {chronicle : List Event}

/-- The events of accepting these items. -/
def acceptances (items : List (StreamId × Item)) : List Event :=
  items.map fun entry => .accepted entry.1 entry.2

/-- Whatever a call delivers, its acceptances tell. -/
theorem reached_run (call : Call) (stream : Stream) (reached : Reached chronicle queue) :
    Reached (chronicle ++ acceptances (call.delivered stream queue))
      (call.run { stream, queue }).2.queue := by
  apply call.run_delivered stream
    (motive := fun accepted queue => Reached (chronicle ++ acceptances accepted) queue)
  · intro accepted queue item willing told
    have more := told.add willing item
    rw [List.append_assoc] at more
    simpa [acceptances] using more
  · simpa [acceptances] using reached

end Stream.Call

namespace Hub

open Stream.Call (acceptances)

/-- What an operation itself does to the lanes of the queue. -/
def performedEvents (hub : Hub) (operation : Operation) : List Event :=
  match operation with
  | .release stream => [.released stream]
  | operation =>
      acceptances (hub.performed operation).accepted
        ++ (hub.performed operation).departed.map fun departure =>
          .taken departure.stream departure.item

def consumerEvents (ran : List (Consumer × Consumer.Progress)) : List Event :=
  ran.flatMap fun entry => entry.1.events entry.2

/-- What an operation, and the consumers that it lets run, do to the lanes of the queue. -/
def events (hub : Hub) (operation : Operation) : List Event :=
  hub.performedEvents operation ++ consumerEvents (hub.ran operation)

/-- The chronicle of operations one after the other. -/
def chronicle : List Operation → Hub → List Event
  | [], _ => []
  | operation :: later, hub => hub.events operation ++ chronicle later (hub.step operation).hub

variable {hub : Hub} {past : List Event}

theorem reached_act (reached : Reached past hub.queue) (handle : Nat)
    (action : Connection.Action) :
    Reached (past ++ hub.performedEvents (.act handle action))
      (hub.perform (.act handle action)).hub.queue := by
  have after := queueAfter_act hub handle action
  generalize (hub.perform (.act handle action)).hub.queue = queue at after ⊢
  cases after with
  | quiet same nothing =>
      rw [same]
      simpa [performedEvents, nothing, acceptances] using reached
  | @call call stream present made =>
      rw [made]
      simpa [performedEvents, performed, present] using call.reached_run stream reached

/-- Whatever an operation does itself, and the consumer that it starts, its events tell. -/
theorem reached_perform (reached : Reached past hub.queue) (operation : Operation) :
    Reached (past ++ hub.performedEvents operation ++ consumerEvents (hub.started operation))
      (hub.perform operation).hub.queue := by
  cases operation with
  | act handle action =>
      simpa [started, consumerEvents] using reached_act reached handle action
  | append stream octets =>
      cases answer : (Queue.append stream (.ofBytes octets)).run hub.queue with
      | ok _ queue =>
          rcases Queue.eq_add_of_append_eq_ok answer with ⟨willing, rfl⟩
          have added : Reached (past ++ [.accepted stream (.chunk octets)])
              (hub.queue.add stream (.chunk (Segment.ofBytes octets).bytes)) :=
            reached.add willing (.chunk octets)
          simp only [performedEvents, performed, started, perform, answer]
          simpa [acceptances, consumerEvents] using added
      | error rejection queue =>
          rcases Queue.append_error answer with ⟨_, rfl⟩
          simp only [performedEvents, performed, started, perform, answer]
          simpa [acceptances, consumerEvents] using reached
  | appendEnd stream =>
      cases answer : (Queue.appendEnd stream).run hub.queue with
      | ok _ queue =>
          rcases Queue.eq_add_of_appendEnd_eq_ok answer with ⟨willing, rfl⟩
          simp only [performedEvents, performed, started, perform, answer]
          simpa [acceptances, consumerEvents] using reached.add willing .endOfStream
      | error cause queue =>
          have unchanged := Queue.appendEnd_error answer
          simp only [performedEvents, performed, started, perform, answer]
          simpa [acceptances, consumerEvents, unchanged] using reached
  | pop stream =>
      simp only [performedEvents, performed, started, perform]
      cases waiting : hub.queue.items stream with
      | nil =>
          rw [Queue.pop_of_items_eq_nil waiting]
          simpa [acceptances, consumerEvents, Delivery.Traffic.leaving] using reached
      | cons item others =>
          rw [Queue.pop_of_items_eq_cons waiting]
          simpa [acceptances, consumerEvents, Delivery.Traffic.leaving] using reached.take waiting
  | release stream =>
      simpa [performedEvents, started, consumerEvents, perform] using reached.release stream
  | close =>
      simpa [performedEvents, performed, started, acceptances, consumerEvents, perform]
        using reached.close
  | consume consumer =>
      have advanced := consumer.reached_advance reached
      cases progress : (consumer.advance hub.queue).1 with
      | finished after =>
          rw [progress] at advanced
          simp only [performedEvents, performed, started, perform, progress]
          simpa [acceptances, consumerEvents] using advanced
      | waiting after =>
          rw [progress] at advanced
          simp only [performedEvents, performed, started, perform, progress]
          simpa [acceptances, consumerEvents] using advanced
  | cancel name =>
      simpa [performedEvents, performed, started, acceptances, consumerEvents, perform] using reached

theorem reached_runConsumers (consumers : List Consumer) {queue : Queue}
    (reached : Reached past queue) :
    Reached (past ++ consumerEvents (round consumers queue))
      (runConsumers consumers queue).2.2 := by
  induction consumers generalizing past queue with
  | nil => simpa [round, runConsumers, consumerEvents] using reached
  | cons consumer later ih =>
      have whole := ih (consumer.reached_advance reached)
      rw [runConsumers_cons]
      simpa [round, consumerEvents] using whole

theorem reached_step (reached : Reached past hub.queue) (operation : Operation) :
    Reached (past ++ hub.events operation) (hub.step operation).hub.queue := by
  have first := reached_perform reached operation
  have split : past ++ hub.events operation
      = past ++ hub.performedEvents operation ++ consumerEvents (hub.started operation)
        ++ consumerEvents (hub.awoken operation) := by
    simp [events, ran, consumerEvents]
  rw [split]
  unfold awoken step
  dsimp only
  split
  · simpa [consumerEvents] using first
  · exact reached_runConsumers _ first

theorem reached_runAll (operations : List Operation) (reached : Reached past hub.queue) :
    Reached (past ++ chronicle operations hub) (runAll operations hub).queue := by
  induction operations generalizing past hub with
  | nil => simpa [chronicle, runAll] using reached
  | cons operation later ih =>
      have rest := ih (reached_step reached operation)
      rwa [List.append_assoc] at rest

/-- The queue of a hub is consistent with its chronicle, after every run. -/
theorem queue_consistent (session : Session) (operations : List Operation) :
    (runAll operations (fresh session)).queue.Consistent
      (chronicle operations (fresh session)) := by
  have start : Reached [] (fresh session).queue := .empty
  have reached := reached_runAll operations start
  rw [List.nil_append] at reached
  exact reached.consistent

end Hub

end Reassembly
