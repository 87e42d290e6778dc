import Reassembly.Delivery.Scripted

/-!
# Sinks that keep a log

What a stream has delivered is read off a log of all attempted deliveries. A logging sink
is a sink with such a log that gives back every segment it refuses. The scripted sink is
one: since its answers are arbitrary, what holds for its log holds for every sequence of
answers that a sink may give.
-/

namespace Reassembly

/-- Where an entry may stand in a log that has just grown by one. -/
theorem eq_or_split_of_concat_eq {Entry : Type} {log earlier later : List Entry}
    {added entry : Entry} (split : log ++ [added] = earlier ++ entry :: later) :
    (earlier = log ∧ entry = added ∧ later = []) ∨
      ∃ rest, log = earlier ++ entry :: rest := by
  rcases List.eq_nil_or_concat later with rfl | ⟨rest, final, rfl⟩
  · left
    rcases List.append_inj' split rfl with ⟨same, entry_eq⟩
    cases entry_eq
    exact ⟨same.symm, rfl, rfl⟩
  · right
    refine ⟨rest, ?_⟩
    rw [List.concat_eq_append, ← List.cons_append, ← List.append_assoc] at split
    exact (List.append_inj' split rfl).1

namespace Delivery

/-- The octets that an item carries. -/
def Item.octets : Item → Bytes
  | .chunk octets => octets
  | .endOfStream => []

/-- The items accepted for a stream, oldest first. -/
def acceptedFor (stream : StreamId) (log : List Attempt) : List Item :=
  log.filterMap fun attempt =>
    if attempt.stream = stream ∧ attempt.refusal = none then some attempt.item else none

theorem acceptedFor_append (stream : StreamId) (earlier later : List Attempt) :
    acceptedFor stream (earlier ++ later)
      = acceptedFor stream earlier ++ acceptedFor stream later :=
  List.filterMap_append

@[simp]
theorem acceptedFor_nil (stream : StreamId) : acceptedFor stream [] = [] := rfl

@[simp]
theorem acceptedFor_accepted (stream : StreamId) (item : Item) :
    acceptedFor stream [{ stream, item, refusal := none }] = [item] := by
  simp [acceptedFor]

@[simp]
theorem acceptedFor_refused (stream other : StreamId) (item : Item) (cause : Refusal) :
    acceptedFor stream [{ stream := other, item, refusal := some cause }] = [] := by
  simp [acceptedFor]

/-- A sink with a log of every delivery attempted at it. It gives back the segments that it
refuses. -/
class LoggingSink (Queue : Type) extends Sink Queue where
  log : Queue → List Attempt
  append_ok {stream : StreamId} {segment : Segment} {queue next : Queue} :
    (append stream segment).run queue = .ok () next →
      log next = log queue ++ [{ stream, item := .chunk segment.bytes, refusal := none }]
  append_error {stream : StreamId} {segment : Segment} {queue next : Queue}
      {rejection : Rejection} :
    (append stream segment).run queue = .error rejection next →
      rejection.segment = segment ∧
        log next
          = log queue ++
            [{ stream, item := .chunk segment.bytes, refusal := some rejection.cause }]
  appendEnd_ok {stream : StreamId} {queue next : Queue} :
    (appendEnd stream).run queue = .ok () next →
      log next = log queue ++ [{ stream, item := .endOfStream, refusal := none }]
  appendEnd_error {stream : StreamId} {queue next : Queue} {cause : Refusal} :
    (appendEnd stream).run queue = .error cause next →
      log next = log queue ++ [{ stream, item := .endOfStream, refusal := some cause }]

namespace Scripted

theorem run_append_of_accepted {sink : Scripted} (answer : sink.segmentAnswers.head?.join = none)
    (stream : StreamId) (segment : Segment) :
    (append stream segment).run sink
      = .ok () { sink with
          segmentAnswers := sink.segmentAnswers.tail
          log := sink.log ++
            [{ stream, item := .chunk segment.bytes, refusal := none }] } := by
  simp only [append, EStateM.run, answer]

theorem run_append_of_refused {sink : Scripted} {cause : Refusal}
    (answer : sink.segmentAnswers.head?.join = some cause)
    (stream : StreamId) (segment : Segment) :
    (append stream segment).run sink
      = .error { segment, cause } { sink with
          segmentAnswers := sink.segmentAnswers.tail
          log := sink.log ++
            [{ stream, item := .chunk segment.bytes, refusal := some cause }] } := by
  simp only [append, EStateM.run, answer]

theorem run_appendEnd_of_accepted {sink : Scripted}
    (answer : sink.endAnswers.head?.join = none) (stream : StreamId) :
    (appendEnd stream).run sink
      = .ok () { sink with
          endAnswers := sink.endAnswers.tail
          log := sink.log ++ [{ stream, item := .endOfStream, refusal := none }] } := by
  simp only [appendEnd, EStateM.run, answer]

theorem run_appendEnd_of_refused {sink : Scripted} {cause : Refusal}
    (answer : sink.endAnswers.head?.join = some cause) (stream : StreamId) :
    (appendEnd stream).run sink
      = .error cause { sink with
          endAnswers := sink.endAnswers.tail
          log := sink.log ++ [{ stream, item := .endOfStream, refusal := some cause }] } := by
  simp only [appendEnd, EStateM.run, answer]

instance : LoggingSink Scripted where
  log := Scripted.log
  append_ok := by
    intro stream segment queue next accepted
    change (append stream segment).run queue = .ok () next at accepted
    cases answer : queue.segmentAnswers.head?.join with
    | none =>
        rw [run_append_of_accepted answer] at accepted
        cases accepted
        rfl
    | some cause =>
        rw [run_append_of_refused answer] at accepted
        cases accepted
  append_error := by
    intro stream segment queue next rejection refused
    change (append stream segment).run queue = .error rejection next at refused
    cases answer : queue.segmentAnswers.head?.join with
    | none =>
        rw [run_append_of_accepted answer] at refused
        cases refused
    | some cause =>
        rw [run_append_of_refused answer] at refused
        cases refused
        exact ⟨rfl, rfl⟩
  appendEnd_ok := by
    intro stream queue next accepted
    change (appendEnd stream).run queue = .ok () next at accepted
    cases answer : queue.endAnswers.head?.join with
    | none =>
        rw [run_appendEnd_of_accepted answer] at accepted
        cases accepted
        rfl
    | some cause =>
        rw [run_appendEnd_of_refused answer] at accepted
        cases accepted
  appendEnd_error := by
    intro stream queue next cause refused
    change (appendEnd stream).run queue = .error cause next at refused
    cases answer : queue.endAnswers.head?.join with
    | none =>
        rw [run_appendEnd_of_accepted answer] at refused
        cases refused
    | some cause =>
        rw [run_appendEnd_of_refused answer] at refused
        cases refused
        rfl

end Scripted

end Delivery

end Reassembly
