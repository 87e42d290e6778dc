import Reassembly.Proofs.Stream.Holding
import Reassembly.Proofs.Stream.Ledger

/-!
# How data fills segments

A piece of the body goes where the pending octets end. Taken together, the two are cut into pieces
of the size of a segment. A piece is delivered when there is more to come after it, so the last
piece always stays with the stream, even if it fills its segment. If the sink refuses a piece, this
piece is the one that stays, and those after it are lost.

The stream does not know these pieces. It makes one pass after the other over what is left of the
data, and the first pass may find a full segment and write nothing. `passes_fill_le` counts the
passes, and the equation `run_addData` says for every sink that they come to the run of the sink
over the pieces. The rest is read off it: what a scripted sink logs, and that data may be passed on
in two calls.
-/

namespace Reassembly

namespace Bytes

variable {size : Nat}

/-- Pieces of this size, in order; only the last one may be shorter. Pieces of no octets at all
cannot hold anything, so there are none of size zero. -/
@[semireducible]
def cut (size : Nat) (octets : Bytes) : List Bytes :=
  if size = 0 ∨ octets = [] then [] else octets.take size :: cut size (octets.drop size)
termination_by octets.length
decreasing_by
  rename_i some_left
  rw [not_or, ← ne_eq octets, ← List.length_pos_iff] at some_left
  rw [List.length_drop]
  omega

@[simp]
theorem cut_nil (size : Nat) : cut size [] = [] := by
  rw [cut, if_pos (.inr rfl)]

theorem cut_of_ne_nil {octets : Bytes} (size_pos : 0 < size) (nonempty : octets ≠ []) :
    cut size octets = octets.take size :: cut size (octets.drop size) := by
  rw [cut, if_neg]
  rintro (none | empty)
  · omega
  · exact nonempty empty

theorem cut_of_length_le {octets : Bytes} (nonempty : octets ≠ [])
    (fits : octets.length ≤ size) : cut size octets = [octets] := by
  have size_pos : 0 < size := by
    have length_pos := List.length_pos_iff.mpr nonempty
    omega
  rw [cut_of_ne_nil size_pos nonempty, List.take_of_length_le fits, List.drop_of_length_le fits,
    cut_nil]

theorem cut_ne_nil {octets : Bytes} (size_pos : 0 < size) (nonempty : octets ≠ []) :
    cut size octets ≠ [] := by
  rw [cut_of_ne_nil size_pos nonempty]
  exact List.cons_ne_nil _ _

/-- Pieces of an octet string. All but the last are of this size, and the last one is not empty. -/
structure Pieces (size : Nat) (octets : Bytes) (pieces : List Bytes) : Prop where
  flatten_eq : pieces.flatten = octets
  whole : ∀ piece ∈ pieces.dropLast, piece.length = size
  last : ∀ piece ∈ pieces, 0 < piece.length ∧ piece.length ≤ size

theorem pieces_cut (size_pos : 0 < size) (octets : Bytes) :
    Pieces size octets (cut size octets) := by
  by_cases empty : octets = []
  · rw [empty, cut_nil]
    exact ⟨rfl, by simp, by simp⟩
  · by_cases fits : octets.length ≤ size
    · have length_pos := List.length_pos_iff.mpr empty
      rw [cut_of_length_le empty fits]
      exact ⟨by simp, by simp, by simp [length_pos, fits]⟩
    · have shorter : (octets.drop size).length < octets.length := by
        simp only [List.length_drop]
        omega
      have left : octets.drop size ≠ [] := by
        rw [← List.length_pos_iff, List.length_drop]
        omega
      have taken : (octets.take size).length = size := by
        simp only [List.length_take]
        omega
      have rest := pieces_cut size_pos (octets.drop size)
      rw [cut_of_ne_nil size_pos empty]
      refine ⟨?_, ?_, ?_⟩
      · rw [List.flatten_cons, rest.flatten_eq, List.take_append_drop]
      · rw [List.dropLast_cons_of_ne_nil (cut_ne_nil size_pos left)]
        intro piece piece_mem
        rcases List.mem_cons.mp piece_mem with rfl | later
        · exact taken
        · exact rest.whole piece later
      · intro piece piece_mem
        rcases List.mem_cons.mp piece_mem with rfl | later
        · omega
        · exact rest.last piece later
termination_by octets.length

theorem length_le_of_mem_cut {octets piece : Bytes} (piece_mem : piece ∈ cut size octets) :
    piece.length ≤ size := by
  rcases Nat.eq_zero_or_pos size with none | size_pos
  · rw [cut, if_pos (.inl none)] at piece_mem
    cases piece_mem
  · exact ((pieces_cut size_pos octets).last piece piece_mem).2

/-- What is left of the pieces if all but the last are taken away. -/
def lastPiece (pieces : List Bytes) : Bytes := pieces.getLast?.getD []

@[simp]
theorem lastPiece_nil : lastPiece [] = [] := rfl

@[simp]
theorem lastPiece_singleton (piece : Bytes) : lastPiece [piece] = piece := rfl

theorem lastPiece_append {earlier later : List Bytes} (nonempty : later ≠ []) :
    lastPiece (earlier ++ later) = lastPiece later := by
  rw [lastPiece, lastPiece, List.getLast?_append_of_ne_nil _ nonempty]

theorem lastPiece_cons {piece : Bytes} {later : List Bytes} (nonempty : later ≠ []) :
    lastPiece (piece :: later) = lastPiece later :=
  @lastPiece_append [piece] later nonempty

theorem length_lastPiece_cut_le (octets : Bytes) :
    (lastPiece (cut size octets)).length ≤ size := by
  rw [lastPiece]
  cases last : (cut size octets).getLast? with
  | none => exact Nat.zero_le _
  | some piece => exact length_le_of_mem_cut (List.mem_of_getLast? last)

/-- What comes later is cut together with the last piece of what came before. -/
theorem cut_append (size_pos : 0 < size) (octets more : Bytes) :
    cut size (octets ++ more)
      = (cut size octets).dropLast ++ cut size (lastPiece (cut size octets) ++ more) := by
  by_cases empty : octets = []
  · subst empty
    simp
  · by_cases fits : octets.length ≤ size
    · simp [cut_of_length_le empty fits]
    · have shorter : (octets.drop size).length < octets.length := by
        simp only [List.length_drop]
        omega
      have left : octets.drop size ≠ [] := by
        rw [← List.length_pos_iff, List.length_drop]
        omega
      have more_left := cut_ne_nil size_pos left
      have together : octets ++ more ≠ [] := List.append_ne_nil_of_left_ne_nil empty more
      rw [cut_of_ne_nil size_pos together, cut_of_ne_nil size_pos empty,
        List.dropLast_cons_of_ne_nil more_left, lastPiece_cons more_left, List.cons_append,
        ← cut_append size_pos, List.take_append_of_le_length (by omega),
        List.drop_append_of_le_length (by omega)]
termination_by octets.length

theorem eq_nil_of_lastPiece_cut (size_pos : 0 < size) {octets : Bytes}
    (nothing : lastPiece (cut size octets) = []) : octets = [] := by
  by_contra nonempty
  have last := List.getLast_mem (cut_ne_nil size_pos nonempty)
  have length_pos := ((pieces_cut size_pos octets).last _ last).1
  rw [lastPiece, List.getLast?_eq_some_getLast (cut_ne_nil size_pos nonempty),
    Option.getD_some] at nothing
  rw [nothing] at length_pos
  exact Nat.lt_irrefl 0 length_pos

theorem dropLast_cut_append (size_pos : 0 < size) (octets more : Bytes) :
    (cut size (octets ++ more)).dropLast
      = (cut size octets).dropLast ++
        (cut size (lastPiece (cut size octets) ++ more)).dropLast := by
  by_cases nothing : lastPiece (cut size octets) ++ more = []
  · rcases List.append_eq_nil_iff.mp nothing with ⟨noLast, rfl⟩
    cases eq_nil_of_lastPiece_cut size_pos noLast
    simp
  · rw [cut_append size_pos, List.dropLast_append_of_ne_nil (cut_ne_nil size_pos nothing)]

theorem lastPiece_cut_append (size_pos : 0 < size) (octets more : Bytes) :
    lastPiece (cut size (octets ++ more))
      = lastPiece (cut size (lastPiece (cut size octets) ++ more)) := by
  by_cases nothing : lastPiece (cut size octets) ++ more = []
  · rcases List.append_eq_nil_iff.mp nothing with ⟨noLast, rfl⟩
    cases eq_nil_of_lastPiece_cut size_pos noLast
    simp
  · rw [cut_append size_pos, lastPiece_append (cut_ne_nil size_pos nothing)]

end Bytes

namespace Feed

open Delivery (Sink LoggingSink Rejection)

section Passes

variable {Queue : Type} [Sink Queue]

/-- What becomes of a feed and data if one pass is made after the other until nothing is left or
a pass fails, and how many passes that takes. -/
inductive Passes :
    Nat → Bytes → Feed Queue → EStateM.Result StreamError (Feed Queue) Unit → Prop where
  | last {data : Bytes} {before after : Feed Queue}
      (pass : (fillOnce data).run before = .ok [] after) :
      Passes 1 data before (.ok () after)
  | failed {data : Bytes} {before after : Feed Queue} {error : StreamError}
      (pass : (fillOnce data).run before = .error error after) :
      Passes 1 data before (.error error after)
  | again {count : Nat} {data rest : Bytes} {before middle : Feed Queue}
      {result : EStateM.Result StreamError (Feed Queue) Unit}
      (pass : (fillOnce data).run before = .ok rest middle) (more : rest ≠ [])
      (others : Passes count rest middle result) :
      Passes (count + 1) data before result

/-- Every pass but the first writes something, and so may the first. -/
theorem passes_fill (data : Bytes) (before : Feed Queue) :
    ∃ count, (count = 1 ∨ count ≤ data.length + before.stream.work.isSome.toNat) ∧
      Passes count data before ((fill data).run before) := by
  induction data, before using fill.induct with
  | case1 data before error after failed =>
      refine ⟨1, .inl rfl, ?_⟩
      rw [fill_eq, EStateM.run_bind, failed]
      exact .failed failed
  | case2 data before rest after passed nothingLeft =>
      refine ⟨1, .inl rfl, ?_⟩
      rw [List.isEmpty_iff.mp nothingLeft] at passed
      rw [fill_eq, EStateM.run_bind, passed]
      exact .last passed
  | case3 data before rest after passed more ih =>
      rcases ih with ⟨count, bound, others⟩
      have shorter := shorter_of_fillOnce passed more
      have left : rest ≠ [] := mt List.isEmpty_iff.mpr more
      have left_pos := List.length_pos_iff.mpr left
      refine ⟨count + 1, .inr (by omega), ?_⟩
      rw [fill_eq, EStateM.run_bind, passed]
      dsimp only
      rw [if_neg more]
      exact .again passed left others

/-- The loop ends. Only a segment that is full before the first pass takes nothing in it. -/
theorem passes_fill_le (data : Bytes) (before : Feed Queue) :
    ∃ count ≤ data.length + 1, Passes count data before ((fill data).run before) := by
  rcases passes_fill data before with ⟨count, bound, passes⟩
  have one_at_most := Bool.toNat_le before.stream.work.isSome
  exact ⟨count, by omega, passes⟩

end Passes

variable {Queue : Type} [LoggingSink Queue] {before : Feed Queue}

/-- Delivers pieces in segments of their own. -/
def deliverPieces (feed : Feed Queue) (pieces : List Bytes) : EStateM Rejection Queue Unit :=
  pieces.forM fun piece => Sink.append feed.stream.id (.holding feed.capacity piece)

/-- How a feed comes out of delivering all pieces but the last. -/
def keepingLast (feed : Feed Queue) (pieces : List Bytes) :
    EStateM.Result StreamError (Feed Queue) Unit :=
  match (feed.deliverPieces pieces.dropLast).run feed.queue with
  | .ok _ queue =>
      .ok () ({ feed with queue }.withWork
        (some (.holding feed.capacity (Bytes.lastPiece pieces))))
  | .error rejection queue =>
      .error (.refused rejection.cause) ({ feed with queue }.withWork (some rejection.segment))

theorem keepingLast_cons (before : Feed Queue) (piece : Bytes) {later : List Bytes}
    (more : later ≠ []) :
    before.keepingLast (piece :: later)
      = match (Sink.append before.stream.id (.holding before.capacity piece)).run before.queue with
        | .ok _ queue => keepingLast { before with queue } later
        | .error rejection queue =>
            .error (.refused rejection.cause)
              ({ before with queue }.withWork (some rejection.segment)) := by
  have delivery : before.deliverPieces (piece :: later.dropLast)
      = Sink.append before.stream.id (.holding before.capacity piece) >>= fun _ =>
        before.deliverPieces later.dropLast := rfl
  rw [keepingLast, List.dropLast_cons_of_ne_nil more, Bytes.lastPiece_cons more, delivery,
    EStateM.run_bind]
  cases (Sink.append before.stream.id (.holding before.capacity piece)).run before.queue with
  | ok _ queue => rfl
  | error rejection queue => rfl

theorem keepingLast_of_length_le {octets : Bytes} (fits : octets.length ≤ before.capacity) :
    before.keepingLast (Bytes.cut before.capacity octets)
      = .ok () (before.withWork (some (.holding before.capacity octets))) := by
  by_cases nothing : octets = []
  · rw [nothing, Bytes.cut_nil]
    rfl
  · rw [Bytes.cut_of_length_le nothing fits]
    rfl

theorem run_push_withWork {segment : Segment} (used : segment.bytes ≠ []) :
    push.run (before.withWork (some segment))
      = match (Sink.append before.stream.id segment).run before.queue with
        | .ok _ queue => .ok () ({ before with queue }.withWork none)
        | .error rejection queue =>
            .error (.refused rejection.cause)
              ({ before with queue }.withWork (some rejection.segment)) := by
  cases answer : (Sink.append before.stream.id segment).run before.queue with
  | ok _ queue => exact run_push_of_accepted rfl used answer
  | error rejection queue =>
      have back : rejection.segment = segment := (LoggingSink.append_error answer).1
      dsimp only
      rw [back]
      exact run_push_of_refused rfl used answer

/-- What is pending and the data together either fit one segment, or fill one that is delivered. -/
theorem run_fillOnce (sized : before.WellSized)
    (allocatable : before.capacity < Segment.allocationLimit) (data : Bytes) :
    let total := before.stream.pending ++ data
    let filled := Segment.holding before.capacity total
    (fillOnce data).run before
      = if total.length ≤ before.capacity then .ok [] (before.withWork (some filled))
        else if before.capacity = 0 then
          .error (.tooLarge total.length 0) (before.withWork (some filled))
        else
          match (Sink.append before.stream.id filled).run before.queue with
          | .ok _ queue =>
              .ok (total.drop before.capacity) ({ before with queue }.withWork none)
          | .error rejection queue =>
              .error (.refused rejection.cause)
                ({ before with queue }.withWork (some rejection.segment)) := by
  intro total filled
  let segment := Segment.holding before.capacity before.stream.pending
  have filled_eq : (segment.append data).2 = filled := Segment.append_holding _ _ _
  have rest_eq : data.drop (segment.append data).1 = total.drop before.capacity := by
    have fits := pending_length_le sized
    rw [Segment.drop_written, Segment.remaining_holding fits, List.drop_append,
      List.drop_of_length_le fits, List.nil_append]
  have empty_iff : filled.isEmpty = true ↔ before.capacity = 0 ∨ total = [] := by
    rw [Segment.isEmpty_iff, Segment.bytes_holding, List.take_eq_nil_iff]
  unfold fillOnce
  rw [EStateM.run_bind, run_openWork sized allocatable]
  change EStateM.run (if (data.drop (segment.append data).1).isEmpty = true then
      pure (data.drop (segment.append data).1)
    else if (decide ((segment.append data).1 = 0) && (segment.append data).2.isEmpty) = true then
      throw (.tooLarge (data.drop (segment.append data).1).length before.capacity)
    else do
      push
      pure (data.drop (segment.append data).1))
    (before.withWork (some (segment.append data).2)) = _
  by_cases fits : total.length ≤ before.capacity
  · rw [rest_eq, filled_eq, if_pos fits, List.drop_of_length_le fits]
    rfl
  · have nonempty : total ≠ [] := List.length_pos_iff.mp (by omega)
    have left : (total.drop before.capacity).isEmpty = false := by
      rw [List.isEmpty_eq_false_iff, ← List.length_pos_iff, List.length_drop]
      omega
    by_cases noRoom : before.capacity = 0
    · have empty := empty_iff.mpr (.inl noRoom)
      have nothingWritten : (segment.append data).1 = 0 :=
        (Segment.isEmpty_append_iff.mp (filled_eq.symm ▸ empty)).2
      rw [nothingWritten] at rest_eq ⊢
      rw [rest_eq, filled_eq, left, empty, if_neg fits, if_pos noRoom, noRoom]
      rfl
    · have used : filled.bytes ≠ [] := by
        rw [ne_eq, ← Segment.isEmpty_iff, empty_iff]
        rintro (none | nothing)
        · exact noRoom none
        · exact nonempty nothing
      have notEmpty : filled.isEmpty = false := by
        rw [Bool.eq_false_iff, ne_eq, Segment.isEmpty_iff]
        exact used
      rw [rest_eq, filled_eq, left, notEmpty, Bool.and_false, if_neg Bool.false_ne_true,
        if_neg Bool.false_ne_true, if_neg fits, if_neg noRoom, EStateM.run_bind,
        run_push_withWork used]
      cases (Sink.append before.stream.id filled).run before.queue with
      | ok _ queue => rfl
      | error rejection queue => rfl

/-- Data for a stream whose segments have room. Of the pieces of all octets that are then pending,
all but the last are delivered. -/
theorem run_fill {before : Feed Queue} (sized : before.WellSized)
    (allocatable : before.capacity < Segment.allocationLimit) (roomy : 0 < before.capacity)
    (data : Bytes) :
    (fill data).run before
      = before.keepingLast (Bytes.cut before.capacity (before.stream.pending ++ data)) := by
  rw [fill_eq, EStateM.run_bind, run_fillOnce sized allocatable]
  by_cases fits : (before.stream.pending ++ data).length ≤ before.capacity
  · rw [if_pos fits, keepingLast_of_length_le fits]
    rfl
  · have left_pos : 0 < ((before.stream.pending ++ data).drop before.capacity).length := by
      rw [List.length_drop]
      omega
    have left := List.length_pos_iff.mp left_pos
    have nonempty : before.stream.pending ++ data ≠ [] := List.length_pos_iff.mp (by omega)
    rw [if_neg fits, if_neg (Nat.ne_of_gt roomy), Bytes.cut_of_ne_nil roomy nonempty,
      keepingLast_cons before _ (Bytes.cut_ne_nil roomy left), Segment.holding_take]
    cases (Sink.append before.stream.id (.holding before.capacity
        (before.stream.pending ++ data))).run before.queue with
    | error rejection queue => rfl
    | ok _ queue =>
        let emptied := { before with queue }.withWork none
        have emptiedSized : emptied.WellSized := by
          intro segment work
          cases work
        have others := run_fill emptiedSized allocatable roomy
          ((before.stream.pending ++ data).drop before.capacity)
        dsimp only
        rw [if_neg (by simpa using left)]
        exact others
termination_by (before.stream.pending ++ data).length
decreasing_by
  change ([] ++ _ : Bytes).length < _
  rw [List.nil_append]
  simp only [List.length_drop] at left_pos ⊢
  omega

theorem run_addData_of_open (inputOpen : before.stream.lifecycle.isInputClosed = false)
    (data : Bytes) : (addData data).run before = (fill data).run before := by
  unfold addData
  rw [EStateM.run_bind, EStateM.run_get]
  dsimp only
  rw [EStateM.run_bind, inputOpen]
  rfl

theorem run_addData (inputOpen : before.stream.lifecycle.isInputClosed = false)
    (sized : before.WellSized) (allocatable : before.capacity < Segment.allocationLimit)
    (roomy : 0 < before.capacity) (data : Bytes) :
    (addData data).run before
      = before.keepingLast (Bytes.cut before.capacity (before.stream.pending ++ data)) := by
  rw [run_addData_of_open inputOpen, run_fill sized allocatable roomy]

theorem run_addData_of_no_room (inputOpen : before.stream.lifecycle.isInputClosed = false)
    (sized : before.WellSized) (noRoom : before.capacity = 0) (data : Bytes) :
    (addData data).run before
      = if data = [] then .ok () (before.withWork (some (.empty 0)))
        else .error (.tooLarge data.length 0) (before.withWork (some (.empty 0))) := by
  have allocatable : before.capacity < Segment.allocationLimit := by
    rw [noRoom]
    decide
  have nothing : before.stream.pending = [] := by
    have fits := pending_length_le sized
    exact List.eq_nil_of_length_eq_zero (by omega)
  have empty : Segment.holding 0 data = .empty 0 := by
    rw [← Segment.holding_take, List.take_zero, Segment.holding_nil]
  rw [run_addData_of_open inputOpen, fill_eq, EStateM.run_bind, run_fillOnce sized allocatable,
    nothing, noRoom, List.nil_append, empty]
  cases data with
  | nil => rfl
  | cons octet rest => rfl

/-- Data may be passed on in two calls. -/
theorem run_addData_append (inputOpen : before.stream.lifecycle.isInputClosed = false)
    (sized : before.WellSized) (allocatable : before.capacity < Segment.allocationLimit)
    (roomy : 0 < before.capacity) (data more : Bytes) :
    (do addData data; addData more).run before = (addData (data ++ more)).run before := by
  let pieces := Bytes.cut before.capacity (before.stream.pending ++ data)
  have delivery : before.deliverPieces
        (Bytes.cut before.capacity (before.stream.pending ++ data ++ more)).dropLast
      = before.deliverPieces pieces.dropLast >>= fun _ => before.deliverPieces
          (Bytes.cut before.capacity (Bytes.lastPiece pieces ++ more)).dropLast := by
    rw [Bytes.dropLast_cut_append roomy]
    exact List.forM_append
  have last : Bytes.lastPiece
        (Bytes.cut before.capacity (before.stream.pending ++ data ++ more))
      = Bytes.lastPiece (Bytes.cut before.capacity (Bytes.lastPiece pieces ++ more)) :=
    Bytes.lastPiece_cut_append roomy _ more
  rw [EStateM.run_bind, run_addData inputOpen sized allocatable roomy,
    run_addData inputOpen sized allocatable roomy, ← List.append_assoc, keepingLast, keepingLast,
    delivery, EStateM.run_bind, last]
  cases (before.deliverPieces pieces.dropLast).run before.queue with
  | error rejection queue => rfl
  | ok _ queue =>
      let middle := { before with queue }.withWork
        (some (.holding before.capacity (Bytes.lastPiece pieces)))
      have middleSized : middle.WellSized := by
        intro segment work
        cases work
        rfl
      have pending : middle.stream.pending = Bytes.lastPiece pieces := by
        have fits : (Bytes.lastPiece pieces).length ≤ before.capacity :=
          Bytes.length_lastPiece_cut_le _
        exact (Segment.bytes_holding _ _).trans (List.take_of_length_le fits)
      have middleOpen : middle.stream.lifecycle.isInputClosed = false := inputOpen
      have second := run_addData middleOpen middleSized allocatable roomy more
      rw [pending] at second
      exact second

end Feed

namespace Delivery

/-- The attempt to deliver a chunk of a stream that was accepted. -/
def Attempt.accepted (stream : StreamId) (octets : Bytes) : Attempt :=
  { stream, item := .chunk octets, refusal := none }

/-- The attempt to deliver a chunk of a stream that was refused. -/
def Attempt.refused (stream : StreamId) (octets : Bytes) (cause : Refusal) : Attempt :=
  { stream, item := .chunk octets, refusal := some cause }

namespace Scripted

/-- The answer to the segment that comes after this many others. -/
def answerAfter (sink : Scripted) (count : Nat) : Option Refusal := sink.segmentAnswers[count]?.join

/-- The sink after attempts to deliver segments. -/
def having (sink : Scripted) (attempts : List Attempt) : Scripted :=
  { sink with
    segmentAnswers := sink.segmentAnswers.drop attempts.length
    log := sink.log ++ attempts }

theorem having_append (sink : Scripted) (earlier later : List Attempt) :
    sink.having (earlier ++ later) = (sink.having earlier).having later := by
  simp [having]

theorem answerAfter_having (sink : Scripted) (attempts : List Attempt) (count : Nat) :
    (sink.having attempts).answerAfter count = sink.answerAfter (attempts.length + count) := by
  simp [answerAfter, having]

theorem run_append_eq (sink : Scripted) (stream : StreamId) (segment : Segment) :
    (Sink.append stream segment).run sink
      = match sink.answerAfter 0 with
        | none => .ok () (sink.having [.accepted stream segment.bytes])
        | some cause =>
            .error { segment, cause } (sink.having [.refused stream segment.bytes cause]) := by
  have answer : sink.segmentAnswers.head?.join = sink.answerAfter 0 := by
    rw [answerAfter, List.head?_eq_getElem?]
  have used : sink.segmentAnswers.tail = sink.segmentAnswers.drop 1 := List.drop_one.symm
  change (append stream segment).run sink = _
  cases given : sink.answerAfter 0 with
  | none =>
      rw [run_append_of_accepted (answer.trans given), used]
      rfl
  | some cause =>
      rw [run_append_of_refused (answer.trans given), used]
      rfl

end Scripted

end Delivery

namespace Feed

open Delivery (Attempt Scripted Sink Refusal)

variable {feed : Feed Scripted} {pieces : List Bytes}

theorem run_append_holding {piece : Bytes} (fits : piece.length ≤ feed.capacity)
    (sink : Scripted) :
    (Sink.append feed.stream.id (.holding feed.capacity piece)).run sink
      = match sink.answerAfter 0 with
        | none => .ok () (sink.having [.accepted feed.stream.id piece])
        | some cause =>
            .error { segment := .holding feed.capacity piece, cause }
              (sink.having [.refused feed.stream.id piece cause]) := by
  rw [Scripted.run_append_eq, Segment.bytes_holding, List.take_of_length_le fits]

/-- Pieces that are accepted are logged, and those after them are delivered. -/
theorem run_deliverPieces_append {earlier : List Bytes}
    (fit : ∀ piece ∈ earlier, piece.length ≤ feed.capacity) {sink : Scripted}
    (accepted : ∀ count < earlier.length, sink.answerAfter count = none) (later : List Bytes) :
    (feed.deliverPieces (earlier ++ later)).run sink
      = (feed.deliverPieces later).run (sink.having (earlier.map (.accepted feed.stream.id))) := by
  induction earlier generalizing sink with
  | nil => simp [Scripted.having]
  | cons piece others ih =>
      have delivery : feed.deliverPieces (piece :: others ++ later)
          = Sink.append feed.stream.id (.holding feed.capacity piece) >>= fun _ =>
            feed.deliverPieces (others ++ later) := rfl
      have first : sink.answerAfter 0 = none := accepted 0 (by simp)
      have grown : sink.having ((piece :: others).map (.accepted feed.stream.id))
          = (sink.having [.accepted feed.stream.id piece]).having
            (others.map (.accepted feed.stream.id)) :=
        Scripted.having_append sink [.accepted feed.stream.id piece] _
      rw [delivery, EStateM.run_bind, run_append_holding (fit piece List.mem_cons_self), first,
        grown]
      apply ih
      · intro other other_mem
        exact fit other (List.mem_cons_of_mem piece other_mem)
      · intro count bound
        rw [Scripted.answerAfter_having]
        apply accepted
        simp only [List.length_cons, List.length_nil]
        omega

/-- The feed after attempts to deliver segments, with these octets pending. -/
def having (feed : Feed Scripted) (attempts : List Attempt) (pending : Bytes) : Feed Scripted :=
  { feed with queue := feed.queue.having attempts }.withWork
    (some (.holding feed.capacity pending))

variable (fit : ∀ piece ∈ pieces, piece.length ≤ feed.capacity)

include fit

theorem keepingLast_of_accepted
    (accepted : ∀ count < pieces.dropLast.length, feed.queue.answerAfter count = none) :
    feed.keepingLast pieces
      = .ok () (feed.having (pieces.dropLast.map (.accepted feed.stream.id))
          (Bytes.lastPiece pieces)) := by
  have fitEarlier : ∀ piece ∈ pieces.dropLast, piece.length ≤ feed.capacity :=
    fun piece piece_mem => fit piece (List.mem_of_mem_dropLast piece_mem)
  have delivered := run_deliverPieces_append fitEarlier accepted []
  rw [List.append_nil] at delivered
  rw [keepingLast, delivered]
  rfl

theorem keepingLast_of_refused {earlier later : List Bytes} {piece : Bytes} {cause : Refusal}
    (split : pieces.dropLast = earlier ++ piece :: later)
    (accepted : ∀ count < earlier.length, feed.queue.answerAfter count = none)
    (refused : feed.queue.answerAfter earlier.length = some cause) :
    feed.keepingLast pieces
      = .error (.refused cause)
        (feed.having (earlier.map (.accepted feed.stream.id)
          ++ [.refused feed.stream.id piece cause]) piece) := by
  have fits : ∀ other ∈ earlier ++ piece :: later, other.length ≤ feed.capacity := by
    rw [← split]
    exact fun other other_mem => fit other (List.mem_of_mem_dropLast other_mem)
  rcases List.forall_mem_append.mp fits with ⟨fitEarlier, fitOthers⟩
  have delivered := run_deliverPieces_append fitEarlier accepted (piece :: later)
  have delivery : feed.deliverPieces (piece :: later)
      = Sink.append feed.stream.id (.holding feed.capacity piece) >>= fun _ =>
        feed.deliverPieces later := rfl
  have answer : (feed.queue.having (earlier.map (.accepted feed.stream.id))).answerAfter 0
      = some cause := by
    rw [Scripted.answerAfter_having, List.length_map]
    exact refused
  rw [delivery, EStateM.run_bind, run_append_holding (fitOthers piece List.mem_cons_self), answer]
    at delivered
  rw [keepingLast, split, delivered, having, Scripted.having_append]

end Feed

namespace Stream.Call

open Delivery (Attempt Scripted Refusal)

theorem run_addData_eq (data : Bytes) (feed : Feed Scripted) :
    (addData data).run feed
      = match (Feed.addData data).run feed with
        | .ok _ after => (.ok .done, after)
        | .error error after => (.error error, after) := by
  simp only [run, program, EStateM.run_bind]
  cases (Feed.addData data).run feed with
  | ok _ after => rfl
  | error error after => rfl

/-- Two pieces of data in two calls, the second of which is made if the first succeeds. -/
def addDataTwice (data more : Bytes) (feed : Feed Scripted) : Answer × Feed Scripted :=
  match (addData data).run feed with
  | (.ok _, middle) => (addData more).run middle
  | (.error error, middle) => (.error error, middle)

theorem addDataTwice_eq (data more : Bytes) (feed : Feed Scripted) :
    addDataTwice data more feed
      = match (do Feed.addData data; Feed.addData more).run feed with
        | .ok _ after => (.ok .done, after)
        | .error error after => (.error error, after) := by
  rw [addDataTwice, run_addData_eq, EStateM.run_bind]
  cases (Feed.addData data).run feed with
  | ok _ after => exact run_addData_eq more after
  | error error after => rfl

section Reachable

variable {before : Feed Scripted} (inputOpen : before.stream.lifecycle.isInputClosed = false)
  (sized : before.WellSized)

include inputOpen sized

theorem run_addData_of_no_room (noRoom : before.capacity = 0) (data : Bytes) :
    (addData data).run before
      = (if data = [] then .ok .done else .error (.tooLarge data.length 0),
          before.having [] []) := by
  have nothingDone : before.having [] [] = before.withWork (some (.empty 0)) := by
    simp [Feed.having, Scripted.having, noRoom]
  rw [run_addData_eq, Feed.run_addData_of_no_room inputOpen sized noRoom, nothingDone]
  by_cases nothing : data = []
  · simp only [nothing, if_true]
  · simp only [nothing, if_false]

/-- Two calls come to what one call comes to. Only the size of what no segment has room for is not
the same. -/
theorem addDataTwice_outcome (allocatable : before.capacity < Segment.allocationLimit)
    (data more : Bytes) :
    let twice := addDataTwice data more before
    let once := (addData (data ++ more)).run before
    twice.2 = once.2 ∧
      (twice.1 = once.1 ∨ before.capacity = 0 ∧ ∃ first whole,
        twice.1 = .error (.tooLarge first 0) ∧ once.1 = .error (.tooLarge whole 0)) := by
  intro twice once
  rcases Nat.eq_zero_or_pos before.capacity with noRoom | roomy
  · have once_eq := run_addData_of_no_room inputOpen sized noRoom (data ++ more)
    have first := run_addData_of_no_room inputOpen sized noRoom data
    simp only [twice, once, addDataTwice, first, once_eq]
    by_cases nothing : data = []
    · have middleSized : (before.having [] []).WellSized := by
        intro segment work
        cases work
        rfl
      have middleOpen : (before.having [] []).stream.lifecycle.isInputClosed = false := inputOpen
      have second := run_addData_of_no_room middleOpen middleSized noRoom more
      have again : (before.having [] []).having [] [] = before.having [] [] := by
        simp [Feed.having, Feed.withWork, Scripted.having]
      rw [again] at second
      simp only [nothing, if_true, List.nil_append, second, true_or, and_self]
    · have together : data ++ more ≠ [] := List.append_ne_nil_of_left_ne_nil nothing more
      simp only [nothing, together, if_false]
      exact ⟨trivial, .inr ⟨noRoom, _, _, rfl, rfl⟩⟩
  · have same : twice = once := by
      simp only [twice, once]
      rw [addDataTwice_eq, run_addData_eq,
        Feed.run_addData_append inputOpen sized allocatable roomy]
    exact ⟨congrArg Prod.snd same, .inl (congrArg Prod.fst same)⟩

end Reachable

/-- What data does to any stream whose input is open. It ends after at most one pass more than there
are octets. The octets that are then pending are cut into pieces; those before the last are
delivered in order, up to the first one that is refused, and the last one that was reached
stays. -/
theorem addData_segments (id : StreamId) (session : Session) (sink : Scripted)
    (calls : List Call) (data more : Bytes) :
    let before := (runAll calls (Feed.fresh id session sink)).2
    let capacity := session.config.segmentCapacity
    let pieces := Bytes.cut capacity (before.stream.pending ++ data)
    let twice := addDataTwice data more before
    let once := (addData (data ++ more)).run before
    before.stream.lifecycle.isInputClosed = false → capacity < Segment.allocationLimit →
    (∃ count ≤ data.length + 1,
      Feed.Passes count data before ((Feed.addData data).run before)) ∧
    (0 < capacity →
      Bytes.Pieces capacity (before.stream.pending ++ data) pieces ∧
      ((∀ count < pieces.dropLast.length, before.queue.answerAfter count = none) →
        (addData data).run before
          = (.ok .done, before.having (pieces.dropLast.map (.accepted id))
              (Bytes.lastPiece pieces))) ∧
      ∀ earlier piece later cause, pieces.dropLast = earlier ++ piece :: later →
        (∀ count < earlier.length, before.queue.answerAfter count = none) →
        before.queue.answerAfter earlier.length = some cause →
        (addData data).run before
          = (.error (.refused cause),
              before.having (earlier.map (.accepted id) ++ [.refused id piece cause]) piece)) ∧
    (capacity = 0 → data ≠ [] →
      (addData data).run before = (.error (.tooLarge data.length 0), before.having [] [])) ∧
    twice.2 = once.2 ∧
      (twice.1 = once.1 ∨ capacity = 0 ∧ ∃ first whole,
        twice.1 = .error (.tooLarge first 0) ∧ once.1 = .error (.tooLarge whole 0)) := by
  intro before capacity pieces twice once inputOpen allocatable
  have belongs := runAll_belongsTo id session sink calls
  have sized : before.WellSized := belongs.sized
  have id_eq : before.stream.id = id := belongs.id_eq
  have capacity_eq : before.capacity = capacity := by
    rw [Feed.capacity, belongs.session_eq]
  have fit : ∀ piece ∈ pieces, piece.length ≤ before.capacity := by
    intro piece piece_mem
    rw [capacity_eq]
    exact Bytes.length_le_of_mem_cut piece_mem
  rw [← capacity_eq] at allocatable
  refine ⟨?_, ?_, ?_, ?_⟩
  · rw [Feed.run_addData_of_open inputOpen]
    exact Feed.passes_fill_le data before
  · intro roomy
    have runs := run_addData_eq data before
    rw [Feed.run_addData inputOpen sized allocatable (by omega), capacity_eq] at runs
    refine ⟨Bytes.pieces_cut roomy _, ?_, ?_⟩
    · intro accepted
      rw [runs, Feed.keepingLast_of_accepted fit accepted, id_eq]
    · intro earlier piece later cause split accepted refused
      rw [runs, Feed.keepingLast_of_refused fit split accepted refused, id_eq]
  · intro noRoom nonempty
    rw [run_addData_of_no_room inputOpen sized (capacity_eq.trans noRoom), if_neg nonempty]
  · rw [← capacity_eq]
    exact addDataTwice_outcome inputOpen sized allocatable data more

/-- The sink closes after it has accepted one segment of four octets. -/
theorem addData_segments_closing :
    let session : Session := { config := { segmentCapacity := 4 } }
    let sink : Scripted := { segmentAnswers := [none, some .closed] }
    let before := (runAll [addData (Bytes.ascii "ab")] (Feed.fresh 1 session sink)).2
    before.stream.lifecycle.isInputClosed = false ∧
      (addData (Bytes.ascii "cdefghijk")).run before
        = (.error (.refused .closed), before.having
            [.accepted 1 (Bytes.ascii "abcd"), .refused 1 (Bytes.ascii "efgh") .closed]
            (Bytes.ascii "efgh")) := by
  intro session sink before
  have inputOpen : before.stream.lifecycle.isInputClosed = false := by decide
  have segments := addData_segments 1 session sink [addData (Bytes.ascii "ab")]
    (Bytes.ascii "cdefghijk") [] inputOpen (by decide)
  have refused := (segments.2.1 (by decide)).2.2 [Bytes.ascii "abcd"] (Bytes.ascii "efgh") [] .closed
    (by decide) (by decide) (by decide)
  exact ⟨inputOpen, refused⟩

end Stream.Call

end Reassembly
