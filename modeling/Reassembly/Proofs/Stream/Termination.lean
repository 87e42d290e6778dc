import Reassembly.Proofs.Stream.Ledger

/-!
# How a stream ends

The end of a stream is accepted once, and it is the last thing that is ever attempted for
the stream. It is attempted only when every octet that the stream will ever emit has been
accepted. These facts are read off the log of the sink; the invariant behind them,
`Feed.Orderly`, says where in the log an end of the stream may stand.

Closing may be tried again after it failed. What waited at the first attempt is accepted
exactly once, by whichever attempt gets so far.
-/

namespace Reassembly

namespace Feed

open Delivery (Attempt Item LoggingSink Scripted acceptedFor acceptedFor_append)

variable {Queue : Type} [LoggingSink Queue] {before after : Feed Queue} {octets : Bytes}

/-- What holds of a feed at any time. -/
structure Orderly (feed : Feed Queue) : Prop where
  sized : feed.WellSized
  /-- Every delivery is attempted for this stream. -/
  own : ∀ attempt ∈ feed.log, attempt.stream = feed.stream.id
  /-- No attempted chunk is empty or larger than a segment. -/
  chunks : ∀ attempt ∈ feed.log, ∀ octets, attempt.item = .chunk octets →
    0 < octets.length ∧ octets.length ≤ feed.capacity
  /-- The end is attempted when all octets have been accepted. -/
  ends : ∀ earlier attempt later, feed.log = earlier ++ attempt :: later →
    attempt.item = .endOfStream →
      feed.stream.lifecycle.isInputClosed = true ∧
        (acceptedFor feed.stream.id earlier).flatMap Item.octets = feed.emitted
  /-- Nothing is attempted after an accepted end. -/
  final : ∀ earlier attempt later, feed.log = earlier ++ attempt :: later →
    attempt.item = .endOfStream → attempt.refusal = none →
      later = [] ∧ feed.stream.endDelivered = true
  /-- A delivered end stands last in the log, and no segment is left. -/
  delivered : feed.stream.endDelivered = true →
    feed.stream.lifecycle.isInputClosed = true ∧ feed.stream.work = none ∧
      ∃ earlier, feed.log =
        earlier ++ [{ stream := feed.stream.id, item := .endOfStream, refusal := none }]

/-- Nothing changes that an orderly feed depends on, and nothing is emitted. -/
theorem Orderly.of_same_log (orderly : before.Orderly) (sized : after.WellSized)
    (same_id : after.stream.id = before.stream.id)
    (same_capacity : after.capacity = before.capacity)
    (same_log : after.log = before.log)
    (same_delivered : after.stream.endDelivered = before.stream.endDelivered)
    (closed_stays : before.stream.lifecycle.isInputClosed = true →
      after.stream.lifecycle.isInputClosed = true)
    (absent_stays : before.stream.lifecycle.isInputClosed = true → before.stream.work = none →
      after.stream.work = none)
    (same_emitted : before.stream.lifecycle.isInputClosed = true →
      after.emitted = before.emitted) :
    after.Orderly where
  sized := sized
  own := by
    rw [same_log, same_id]
    exact orderly.own
  chunks := by
    rw [same_log, same_capacity]
    exact orderly.chunks
  ends := by
    rw [same_log, same_id]
    intro earlier attempt later split isEnd
    rcases orderly.ends earlier attempt later split isEnd with ⟨inputClosed, complete⟩
    exact ⟨closed_stays inputClosed, complete.trans (same_emitted inputClosed).symm⟩
  final := by
    rw [same_log, same_delivered]
    exact orderly.final
  delivered := by
    rw [same_log, same_delivered, same_id]
    intro delivered
    rcases orderly.delivered delivered with ⟨inputClosed, absent, last⟩
    exact ⟨closed_stays inputClosed, absent_stays inputClosed absent, last⟩

/-- One more delivery has been attempted, of what may be attempted now. -/
theorem Orderly.of_grown_log (orderly : before.Orderly) {added : Attempt}
    (undelivered : before.stream.endDelivered = false) (sized : after.WellSized)
    (same_id : after.stream.id = before.stream.id)
    (same_capacity : after.capacity = before.capacity)
    (same_lifecycle : after.stream.lifecycle = before.stream.lifecycle)
    (same_emitted : after.emitted = before.emitted)
    (grown_log : after.log = before.log ++ [added])
    (own_added : added.stream = before.stream.id)
    (chunk_fits : ∀ octets, added.item = .chunk octets →
      0 < octets.length ∧ octets.length ≤ before.capacity)
    (end_timely : added.item = .endOfStream →
      before.stream.lifecycle.isInputClosed = true ∧ before.stream.pending = [])
    (end_noted : added.item = .endOfStream → added.refusal = none →
      after.stream.endDelivered = true)
    (delivered : after.stream.endDelivered = true →
      before.stream.lifecycle.isInputClosed = true ∧ after.stream.work = none ∧
        added = { stream := after.stream.id, item := .endOfStream, refusal := none }) :
    after.Orderly where
  sized := sized
  own := by
    rw [grown_log, same_id]
    intro attempt attempt_mem
    rcases List.mem_append.mp attempt_mem with old_mem | new_mem
    · exact orderly.own attempt old_mem
    · rw [List.mem_singleton.mp new_mem]
      exact own_added
  chunks := by
    rw [grown_log, same_capacity]
    intro attempt attempt_mem
    rcases List.mem_append.mp attempt_mem with old_mem | new_mem
    · exact orderly.chunks attempt old_mem
    · rw [List.mem_singleton.mp new_mem]
      exact chunk_fits
  ends := by
    rw [grown_log, same_id, same_lifecycle, same_emitted]
    intro earlier attempt later split isEnd
    rcases eq_or_split_of_concat_eq split with ⟨rfl, rfl, rfl⟩ | ⟨rest, oldSplit⟩
    · rcases end_timely isEnd with ⟨inputClosed, nothingPending⟩
      refine ⟨inputClosed, ?_⟩
      rw [emitted, nothingPending, List.append_nil]
      rfl
    · exact orderly.ends earlier attempt rest oldSplit isEnd
  final := by
    rw [grown_log]
    intro earlier attempt later split isEnd accepted
    rcases eq_or_split_of_concat_eq split with ⟨rfl, rfl, rfl⟩ | ⟨rest, oldSplit⟩
    · exact ⟨rfl, end_noted isEnd accepted⟩
    · have ended := (orderly.final earlier attempt rest oldSplit isEnd accepted).2
      rw [undelivered] at ended
      cases ended
  delivered := by
    intro ended
    rcases delivered ended with ⟨inputClosed, absent, added_eq⟩
    refine ⟨same_lifecycle ▸ inputClosed, absent, before.log, ?_⟩
    rw [grown_log, added_eq]

theorem Orderly.undelivered_of_work (orderly : before.Orderly) {segment : Segment}
    (work : before.stream.work = some segment) : before.stream.endDelivered = false := by
  cases delivered : before.stream.endDelivered with
  | false => rfl
  | true =>
      have absent := (orderly.delivered delivered).2.1
      rw [work] at absent
      cases absent

theorem Move.orderly (move : Move before octets after) (orderly : before.Orderly) :
    after.Orderly := by
  have sized := move.wellSized orderly.sized
  have emitted_eq := move.emitted_eq
  cases move with
  | note =>
      exact orderly.of_same_log sized rfl rfl rfl rfl (fun closed => closed)
        (fun _ absent => absent) (fun _ => rfl)
  | openSegment inputOpen work =>
      refine orderly.of_same_log sized rfl rfl rfl rfl (fun closed => closed) ?_ ?_ <;>
        simp [inputOpen]
  | fill data inputOpen work =>
      refine orderly.of_same_log sized rfl rfl rfl rfl (fun closed => closed) ?_ ?_ <;>
        simp [inputOpen]
  | drop work empty =>
      refine orderly.of_same_log sized rfl rfl rfl rfl (fun closed => closed) ?_ ?_
      · intro _ _
        rfl
      · intro _
        rwa [List.append_nil] at emitted_eq
  | @deliver segment next work nonempty accepted =>
      have undelivered := orderly.undelivered_of_work work
      have fits := orderly.sized segment work ▸ segment.fits
      have nonzero := List.length_pos_iff.mpr nonempty
      rw [List.append_nil] at emitted_eq
      refine orderly.of_grown_log undelivered sized rfl rfl rfl emitted_eq
        (LoggingSink.append_ok accepted) rfl ?_ ?_ ?_ ?_
      · intro octets chunk
        cases chunk
        exact ⟨nonzero, fits⟩
      · intro isEnd
        cases isEnd
      · intro isEnd
        cases isEnd
      · intro delivered
        exact absurd (undelivered.symm.trans delivered) Bool.false_ne_true
  | @refuse segment rejection next work nonempty refused =>
      have undelivered := orderly.undelivered_of_work work
      have fits := orderly.sized segment work ▸ segment.fits
      have nonzero := List.length_pos_iff.mpr nonempty
      rw [List.append_nil] at emitted_eq
      refine orderly.of_grown_log undelivered sized rfl rfl rfl emitted_eq
        (LoggingSink.append_error refused).2 rfl ?_ ?_ ?_ ?_
      · intro octets chunk
        cases chunk
        exact ⟨nonzero, fits⟩
      · intro isEnd
        cases isEnd
      · intro isEnd
        cases isEnd
      · intro delivered
        exact absurd (undelivered.symm.trans delivered) Bool.false_ne_true
  | deliverEnd inputClosed work undelivered accepted =>
      rw [List.append_nil] at emitted_eq
      refine orderly.of_grown_log undelivered sized rfl rfl rfl emitted_eq
        (LoggingSink.appendEnd_ok accepted) rfl ?_ ?_ ?_ ?_
      · intro octets chunk
        cases chunk
      · intro _
        exact ⟨inputClosed, by simp [Stream.pending, work]⟩
      · intro _ _
        rfl
      · intro _
        exact ⟨inputClosed, work, rfl⟩
  | refuseEnd inputClosed work undelivered refused =>
      rw [List.append_nil] at emitted_eq
      refine orderly.of_grown_log undelivered sized rfl rfl rfl emitted_eq
        (LoggingSink.appendEnd_error refused) rfl ?_ ?_ ?_ ?_
      · intro octets chunk
        cases chunk
      · intro _
        exact ⟨inputClosed, by simp [Stream.pending, work]⟩
      · intro _ accepted
        cases accepted
      · intro delivered
        exact absurd (undelivered.symm.trans delivered) Bool.false_ne_true

theorem start_orderly (call : Stream.Call) (orderly : before.Orderly) :
    (call.start before).Orderly := by
  have same_emitted : (call.start before).emitted = before.emitted := emitted_moved before _
  have closed_stays : before.stream.lifecycle.isInputClosed = true →
      (call.start before).stream.lifecycle.isInputClosed = true :=
    Stream.Call.isInputClosed_start call
  rw [Stream.Call.start, moved_eq] at same_emitted closed_stays ⊢
  exact orderly.of_same_log orderly.sized rfl rfl rfl rfl closed_stays (fun _ absent => absent)
    (fun _ => same_emitted)

/-- Every run leaves an orderly feed behind. -/
theorem runAll_orderly (calls : List Stream.Call) (orderly : before.Orderly) :
    (Stream.Call.runAll calls before).2.Orderly :=
  Stream.Call.runAll_keeps start_orderly Move.orderly calls orderly

theorem fresh_orderly (id : StreamId) (session : Session) (queue : Queue)
    (unused : LoggingSink.log queue = []) : (fresh id session queue).Orderly := by
  have nothing : (fresh id session queue).log = [] := unused
  refine ⟨Stream.Call.fresh_wellSized id session queue, ?_, ?_, ?_, ?_, ?_⟩
  · simp [nothing]
  · simp [nothing]
  · simp [nothing]
  · simp [nothing]
  · intro delivered
    cases delivered

section Closed

/-- The input half is closed, and this is what the stream has emitted. -/
structure ClosedWith (emission : Bytes) (feed : Feed Queue) : Prop where
  inputClosed : feed.stream.lifecycle.isInputClosed = true
  emitted_eq : feed.emitted = emission

theorem ClosedWith.start {emission : Bytes} (call : Stream.Call)
    (closed : before.ClosedWith emission) : (call.start before).ClosedWith emission where
  inputClosed := Stream.Call.isInputClosed_start call closed.inputClosed
  emitted_eq := (emitted_moved before _).trans closed.emitted_eq

theorem Move.closedWith {emission : Bytes} (move : Move before octets after)
    (closed : before.ClosedWith emission) : after.ClosedWith emission where
  inputClosed := move.path.lifecycle_eq ▸ closed.inputClosed
  emitted_eq := by
    rw [move.emitted_eq, move.path.octets_eq_nil closed.inputClosed, List.append_nil]
    exact closed.emitted_eq

/-- Once the input half is closed, no call emits anything. -/
theorem emitted_runAll_of_closed (calls : List Stream.Call)
    (inputClosed : before.stream.lifecycle.isInputClosed = true) :
    (Stream.Call.runAll calls before).2.emitted = before.emitted := by
  have start : before.ClosedWith before.emitted := ⟨inputClosed, rfl⟩
  have closed : (Stream.Call.runAll calls before).2.ClosedWith before.emitted :=
    Stream.Call.runAll_keeps ClosedWith.start Move.closedWith calls start
  exact closed.emitted_eq

theorem emitted_run_closeInput (before : Feed Queue) :
    (Stream.Call.closeInput.run before).2.stream.lifecycle.isInputClosed = true ∧
      (Stream.Call.closeInput.run before).2.emitted = before.emitted := by
  rcases Stream.Call.exists_path .closeInput before with ⟨octets, path⟩
  have inputClosed :
      (Stream.Call.closeInput.start before).stream.lifecycle.isInputClosed = true := by
    rw [Stream.Call.start, moved_eq]
    exact Lifecycle.isInputClosed_closeInput _
  constructor
  · rw [path.lifecycle_eq]
    exact inputClosed
  · rw [path.emitted_eq, path.octets_eq_nil inputClosed, List.append_nil, Stream.Call.start,
      emitted_moved]

end Closed

section Ended

theorem exists_attempt_of_mem_acceptedFor {stream : StreamId} {log : List Attempt} {item : Item}
    (item_mem : item ∈ acceptedFor stream log) :
    ∃ attempt ∈ log, attempt.item = item ∧ attempt.refusal = none := by
  rcases List.mem_filterMap.mp item_mem with ⟨attempt, attempt_mem, found⟩
  refine ⟨attempt, attempt_mem, ?_⟩
  split at found
  · rename_i isAccepted
    exact ⟨Option.some.inj found, isAccepted.2⟩
  · cases found

theorem exists_chunks_of_no_end {items : List Item} (noEnd : Item.endOfStream ∉ items) :
    ∃ chunks : List Bytes, items = chunks.map Item.chunk ∧
      items.flatMap Item.octets = chunks.flatten := by
  induction items with
  | nil => exact ⟨[], rfl, rfl⟩
  | cons item later ih =>
      rw [List.mem_cons, not_or] at noEnd
      rcases ih noEnd.2 with ⟨chunks, rfl, octets_eq⟩
      cases item with
      | endOfStream => exact absurd rfl noEnd.1
      | chunk octets =>
          refine ⟨octets :: chunks, rfl, ?_⟩
          rw [List.flatMap_cons, octets_eq]
          rfl

/-- Before the last attempt, no end of the stream was accepted. -/
theorem Orderly.no_end_before (orderly : before.Orderly) {earlier : List Attempt}
    {last : Attempt} (split : before.log = earlier ++ [last]) :
    Item.endOfStream ∉ acceptedFor before.stream.id earlier := by
  intro isAccepted
  rcases exists_attempt_of_mem_acceptedFor isAccepted with ⟨attempt, attempt_mem, isEnd, taken⟩
  rcases List.append_of_mem attempt_mem with ⟨front, back, earlier_eq⟩
  rw [earlier_eq, List.append_assoc, List.cons_append] at split
  have nothingLater := (orderly.final front attempt (back ++ [last]) split isEnd taken).1
  simp at nothingLater

/-- A stream whose end is delivered has delivered all it emitted, and the end once. -/
theorem Orderly.accepted_eq_of_delivered (orderly : before.Orderly)
    (delivered : before.stream.endDelivered = true) :
    ∃ chunks : List Bytes, before.accepted = chunks.map Item.chunk ++ [.endOfStream] ∧
      chunks.flatten = before.emitted := by
  rcases orderly.delivered delivered with ⟨_, _, earlier, split⟩
  rcases exists_chunks_of_no_end (orderly.no_end_before split) with ⟨chunks, items_eq, octets_eq⟩
  have complete := (orderly.ends earlier _ [] split rfl).2
  refine ⟨chunks, ?_, ?_⟩
  · rw [accepted, split, acceptedFor_append, items_eq]
    simp
  · rw [← octets_eq, complete]

theorem Orderly.count_end_le_one (orderly : before.Orderly) :
    before.accepted.count .endOfStream ≤ 1 := by
  cases delivered : before.stream.endDelivered with
  | true =>
      rcases orderly.accepted_eq_of_delivered delivered with ⟨chunks, accepted_eq, _⟩
      have noEnd : Item.endOfStream ∉ chunks.map Item.chunk := by simp
      rw [accepted_eq, List.count_append, List.count_eq_zero.mpr noEnd]
      simp
  | false =>
      have noEnd : Item.endOfStream ∉ before.accepted := by
        intro isAccepted
        rcases exists_attempt_of_mem_acceptedFor isAccepted with
          ⟨attempt, attempt_mem, isEnd, taken⟩
        rcases List.append_of_mem attempt_mem with ⟨front, back, split⟩
        have ended := (orderly.final front attempt back split isEnd taken).2
        rw [delivered] at ended
        cases ended
      rw [List.count_eq_zero.mpr noEnd]
      exact Nat.zero_le 1

end Ended

end Feed

end Reassembly
