import Reassembly.Proofs.Delivery.Conservation
import Reassembly.Proofs.Delivery.Log

/-!
# Recorded queues

A recorded queue is a delivery queue with a log of every delivery attempted at it. It
answers as the queue does, and its log tells what the queue has accepted.
-/

namespace Reassembly

namespace Delivery

/-- A queue with a log of every delivery attempted at it. -/
structure Recorded where
  queue : Queue
  /-- Every delivery attempted so far, oldest first. -/
  log : List Attempt := []
  deriving DecidableEq, Repr

namespace Recorded

/-- Attempts a delivery at the queue and notes the answer. -/
def noting {Fault : Type} (delivery : EStateM Fault Queue Unit) (stream : StreamId) (item : Item)
    (cause : Fault → Refusal) : EStateM Fault Recorded Unit := fun recorded =>
  match delivery.run recorded.queue with
  | .ok _ queue =>
      .ok () { queue, log := recorded.log ++ [{ stream, item, refusal := none }] }
  | .error fault queue =>
      .error fault
        { queue, log := recorded.log ++ [{ stream, item, refusal := some (cause fault) }] }

def append (stream : StreamId) (segment : Segment) : EStateM Rejection Recorded Unit :=
  noting (Queue.append stream segment) stream (.chunk segment.bytes) Rejection.cause

def appendEnd (stream : StreamId) : EStateM Refusal Recorded Unit :=
  noting (Queue.appendEnd stream) stream .endOfStream id

section Noting

variable {Fault : Type} {delivery : EStateM Fault Queue Unit} {stream : StreamId} {item : Item}
  {cause : Fault → Refusal} {recorded next : Recorded}

theorem run_noting_of_ok {queue : Queue} (accepted : delivery.run recorded.queue = .ok () queue) :
    (noting delivery stream item cause).run recorded
      = .ok () { queue, log := recorded.log ++ [{ stream, item, refusal := none }] } := by
  rw [EStateM.run, noting, accepted]

theorem noting_eq_ok
    (accepted : (noting delivery stream item cause).run recorded = .ok () next) :
    delivery.run recorded.queue = .ok () next.queue ∧
      next.log = recorded.log ++ [{ stream, item, refusal := none }] := by
  cases answer : delivery.run recorded.queue with
  | ok _ queue =>
      rw [run_noting_of_ok answer] at accepted
      cases accepted
      exact ⟨rfl, rfl⟩
  | error fault queue =>
      rw [EStateM.run, noting, answer] at accepted
      cases accepted

theorem noting_eq_error {fault : Fault}
    (refused : (noting delivery stream item cause).run recorded = .error fault next) :
    delivery.run recorded.queue = .error fault next.queue ∧
      next.log = recorded.log ++ [{ stream, item, refusal := some (cause fault) }] := by
  cases answer : delivery.run recorded.queue with
  | ok _ queue =>
      rw [run_noting_of_ok answer] at refused
      cases refused
  | error fault queue =>
      rw [EStateM.run, noting, answer] at refused
      cases refused
      exact ⟨rfl, rfl⟩

end Noting

instance : LoggingSink Recorded where
  append := append
  appendEnd := appendEnd
  log := Recorded.log
  append_ok accepted := (noting_eq_ok accepted).2
  append_error refused :=
    ⟨(Queue.append_error (noting_eq_error refused).1).1, (noting_eq_error refused).2⟩
  appendEnd_ok accepted := (noting_eq_ok accepted).2
  appendEnd_error refused := (noting_eq_error refused).2

/-- The deliveries that were accepted, oldest first. -/
def accepted (recorded : Recorded) : List (StreamId × Item) :=
  recorded.log.filterMap fun attempt =>
    if attempt.refusal.isNone then some (attempt.stream, attempt.item) else none

theorem accepted_of_accepted {recorded next : Recorded} {stream : StreamId} {item : Item}
    (log : next.log = recorded.log ++ [{ stream, item, refusal := none }]) :
    next.accepted = recorded.accepted ++ [(stream, item)] := by
  simp [accepted, log]

theorem accepted_of_refused {recorded next : Recorded} {stream : StreamId} {item : Item}
    {cause : Refusal}
    (log : next.log = recorded.log ++ [{ stream, item, refusal := some cause }]) :
    next.accepted = recorded.accepted := by
  simp [accepted, log]

/-- The log of a recorded queue says all that has happened to the queue since a moment. -/
def Faithful (start : Queue) (recorded : Recorded) : Prop :=
  start.Conserves { accepted := recorded.accepted } recorded.queue

variable {start : Queue} {recorded next : Recorded}

theorem Faithful.accept {stream : StreamId} {item : Item} (faithful : Faithful start recorded)
    (log : next.log = recorded.log ++ [{ stream, item, refusal := none }])
    (step : recorded.queue.Conserves { accepted := [(stream, item)] } next.queue) :
    Faithful start next := by
  have later := faithful.trans step
  unfold Faithful
  rw [accepted_of_accepted log]
  exact later

theorem Faithful.refuse {stream : StreamId} {item : Item} {cause : Refusal}
    (faithful : Faithful start recorded)
    (log : next.log = recorded.log ++ [{ stream, item, refusal := some cause }])
    (unchanged : next.queue = recorded.queue) : Faithful start next := by
  unfold Faithful
  rw [accepted_of_refused log, unchanged]
  exact faithful

end Recorded

end Delivery

end Reassembly
