import Reassembly.Proofs.Stream.Writing

/-!
# What a stream holds

As long as no call is under way, all that matters about the segment of a stream is which octets it
holds, not even whether there is a segment while there are none. This file says of the programs
that fill and deliver segments what they do to these octets: each equation runs one program and
gives the result and everything that has changed.
-/

namespace Reassembly

/-- A segment with as many of these octets as it can hold. -/
def Segment.holding (capacity : Nat) (octets : Bytes) : Segment :=
  ((empty capacity).append octets).2

namespace Segment

@[simp]
theorem capacity_holding (capacity : Nat) (octets : Bytes) :
    (holding capacity octets).capacity = capacity := rfl

@[simp]
theorem bytes_holding (capacity : Nat) (octets : Bytes) :
    (holding capacity octets).bytes = octets.take capacity := by
  simp [holding, remaining, size]

@[simp]
theorem holding_nil (capacity : Nat) : holding capacity [] = empty capacity := by
  ext1
  · rfl
  · rw [bytes_holding, List.take_nil, bytes_empty]

theorem append_holding (capacity : Nat) (octets more : Bytes) :
    ((holding capacity octets).append more).2 = holding capacity (octets ++ more) :=
  append_append _ _ _

theorem remaining_holding {capacity : Nat} {octets : Bytes} (fits : octets.length ≤ capacity) :
    (holding capacity octets).remaining = capacity - octets.length := by
  rw [remaining, size, bytes_holding, capacity_holding, List.take_of_length_le fits]

theorem holding_take (capacity : Nat) (octets : Bytes) :
    holding capacity (octets.take capacity) = holding capacity octets := by
  ext1
  · rfl
  · rw [bytes_holding, bytes_holding, List.take_take, Nat.min_self]

theorem eq_holding (segment : Segment) : segment = holding segment.capacity segment.bytes := by
  ext1
  · rfl
  · rw [bytes_holding, List.take_of_length_le segment.fits]

end Segment

/-- A line goes behind what a segment holds, if there is room for it. -/
theorem HeadLine.run_write_holding {line : HeadLine} {capacity : Nat} {octets : Bytes}
    (fits : octets.length ≤ capacity) (supported : line.unsupportedVersion? = none) :
    line.write.run (.holding capacity octets)
      = if octets.length + line.text.length ≤ capacity then
          .ok () (.holding capacity (octets ++ line.text))
        else
          .error (.tooLarge line.text.length (capacity - octets.length))
            (.holding capacity octets) := by
  have remaining := Segment.remaining_holding fits
  split
  · rw [write_of_le_remaining supported (by omega), Segment.append_holding]
  · rw [write_of_remaining_lt supported (by omega), remaining]

namespace Feed

open Delivery (Sink LoggingSink Rejection)

variable {Queue : Type} {before : Feed Queue}

theorem pending_length_le (sized : before.WellSized) :
    before.stream.pending.length ≤ before.capacity := by
  unfold Stream.pending
  cases work : before.stream.work with
  | none => exact Nat.zero_le _
  | some segment => exact sized segment work ▸ segment.fits

theorem holding_pending (sized : before.WellSized) {segment : Segment}
    (work : before.stream.work = some segment) :
    Segment.holding before.capacity before.stream.pending = segment := by
  rw [Stream.pending, work, ← sized segment work]
  exact segment.eq_holding.symm

/-- Whether or not there was a segment, there is one that holds what is pending. -/
theorem run_openWork (sized : before.WellSized)
    (allocatable : before.capacity < Segment.allocationLimit) :
    openWork.run before
      = .ok (.holding before.capacity before.stream.pending)
        (before.withWork (some (.holding before.capacity before.stream.pending))) := by
  cases work : before.stream.work with
  | none =>
      have holds : Segment.holding before.capacity before.stream.pending
          = .empty before.capacity := by
        rw [Stream.pending, work]
        exact Segment.holding_nil before.capacity
      rw [run_openWork_of_none work allocatable, holds]
      rfl
  | some segment =>
      rw [run_openWork_of_some work, holding_pending sized work, withWork_eq_self work]

variable {line : HeadLine}

theorem run_writeInPlace (sized : before.WellSized)
    (allocatable : before.capacity < Segment.allocationLimit)
    (supported : line.unsupportedVersion? = none) :
    (writeInPlace line).run before
      = if before.stream.pending.length + line.text.length ≤ before.capacity then
          .ok () (before.withWork
            (some (.holding before.capacity (before.stream.pending ++ line.text))))
        else
          .error (.tooLarge line.text.length (before.capacity - before.stream.pending.length))
            (before.withWork (some (.holding before.capacity before.stream.pending))) := by
  unfold writeInPlace
  rw [EStateM.run_bind, run_openWork sized allocatable]
  dsimp only
  rw [HeadLine.run_write_holding (pending_length_le sized) supported]
  by_cases room : before.stream.pending.length + line.text.length ≤ before.capacity
  · simp only [room, if_true]
    rfl
  · simp only [room, if_false]
    rfl

variable [LoggingSink Queue]

theorem run_push (sized : before.WellSized) :
    push.run before
      = if before.stream.pending = [] then .ok () (before.withWork none)
        else
          match (Sink.append before.stream.id
              (.holding before.capacity before.stream.pending)).run before.queue with
          | .ok _ queue => .ok () ({ before with queue }.withWork none)
          | .error rejection queue => .error (.refused rejection.cause) { before with queue } := by
  cases work : before.stream.work with
  | none =>
      have nothing : before.stream.pending = [] := by
        rw [Stream.pending, work]
        rfl
      rw [run_push_of_none work, if_pos nothing, withWork_eq_self work]
  | some segment =>
      have pending : before.stream.pending = segment.bytes := by
        rw [Stream.pending, work]
        rfl
      rw [holding_pending sized work, pending]
      by_cases empty : segment.bytes = []
      · rw [run_push_of_empty work empty, if_pos empty]
      · rw [if_neg empty]
        cases answer : (Sink.append before.stream.id segment).run before.queue with
        | ok _ queue => exact run_push_of_accepted work empty answer
        | error rejection queue => exact run_push_of_refused work empty answer

/-- A line that goes into a fresh segment, once what is pending is delivered. -/
theorem run_push_writeInPlace (sized : before.WellSized)
    (allocatable : before.capacity < Segment.allocationLimit)
    (supported : line.unsupportedVersion? = none) (used : before.stream.pending ≠ []) :
    (do push; writeInPlace line).run before
      = match (Sink.append before.stream.id
            (.holding before.capacity before.stream.pending)).run before.queue with
        | .ok _ queue =>
            if line.text.length ≤ before.capacity then
              .ok () ({ before with queue }.withWork (some (.holding before.capacity line.text)))
            else
              .error (.tooLarge line.text.length before.capacity)
                ({ before with queue }.withWork (some (.empty before.capacity)))
        | .error rejection queue => .error (.refused rejection.cause) { before with queue } := by
  rw [EStateM.run_bind, run_push sized, if_neg used]
  cases (Sink.append before.stream.id (.holding before.capacity before.stream.pending)).run
      before.queue with
  | error rejection queue => rfl
  | ok _ queue =>
      let emptied := { before with queue }.withWork none
      have emptiedSized : emptied.WellSized := by
        intro segment work
        cases work
      have nothing : emptied.stream.pending = [] := rfl
      have written := run_writeInPlace emptiedSized allocatable supported
      rw [nothing, List.nil_append, List.length_nil, Nat.zero_add, Nat.sub_zero,
        Segment.holding_nil] at written
      exact written

/-- A line goes behind what is pending or, once that is delivered, into a fresh segment. -/
theorem run_writeLine (sized : before.WellSized)
    (allocatable : before.capacity < Segment.allocationLimit)
    (supported : line.unsupportedVersion? = none) :
    (writeLine line).run before
      = if before.stream.pending.length + line.text.length ≤ before.capacity then
          .ok () (before.withWork
            (some (.holding before.capacity (before.stream.pending ++ line.text))))
        else if before.stream.pending = [] then
          .error (.tooLarge line.text.length before.capacity)
            (before.withWork (some (.empty before.capacity)))
        else
          match (Sink.append before.stream.id
              (.holding before.capacity before.stream.pending)).run before.queue with
          | .ok _ queue =>
              if line.text.length ≤ before.capacity then
                .ok () ({ before with queue }.withWork
                  (some (.holding before.capacity line.text)))
              else
                .error (.tooLarge line.text.length before.capacity)
                  ({ before with queue }.withWork (some (.empty before.capacity)))
          | .error rejection queue =>
              .error (.refused rejection.cause) ({ before with queue }.withWork
                (some (.holding before.capacity before.stream.pending))) := by
  let opened := before.withWork (some (.holding before.capacity before.stream.pending))
  unfold writeLine
  rw [EStateM.run_bind, run_openWork sized allocatable]
  dsimp only
  rw [HeadLine.run_write_holding (pending_length_le sized) supported]
  by_cases room : before.stream.pending.length + line.text.length ≤ before.capacity
  · simp only [room, if_true]
    rfl
  · simp only [room, if_false]
    by_cases nothing : before.stream.pending = []
    · simp only [nothing, List.length_nil, Nat.sub_zero, Segment.holding_nil, if_true]
      rfl
    · have openedSized : opened.WellSized := by
        intro segment work
        cases work
        rfl
      have holds : (Segment.holding before.capacity before.stream.pending).bytes
          = before.stream.pending :=
        (Segment.bytes_holding _ _).trans (List.take_of_length_le (pending_length_le sized))
      have openedPending : opened.stream.pending = before.stream.pending := holds
      have used : (Segment.holding before.capacity before.stream.pending).isEmpty = false := by
        rw [Bool.eq_false_iff, ne_eq, Segment.isEmpty_iff, holds]
        exact nothing
      have written := run_push_writeInPlace openedSized allocatable supported
        (openedPending ▸ nothing)
      rw [openedPending] at written
      rw [used, if_neg Bool.false_ne_true, if_neg nothing]
      exact written

end Feed

end Reassembly
