import Reassembly.Proofs.Stream.Additions
import Reassembly.Proofs.Stream.Drafting
import Reassembly.Proofs.Stream.Twins

/-!
# Calls that find no room

A head line goes behind what waits in the segment. If it does not fit there, it goes into a
fresh segment, so it finds room unless it is longer than a segment. The request line is the
exception: it is written in place, however little room the data before it has left. These
are the only two ways in which a call on the head runs out of room, and in both it does.
-/

namespace Reassembly

/-- Whether something found no room. -/
def StreamError.isTooLarge : StreamError → Bool
  | .tooLarge _ _ => true
  | _ => false

theorem StreamError.isTooLarge_iff {error : StreamError} :
    error.isTooLarge = true ↔ ∃ needed available, error = .tooLarge needed available := by
  cases error <;> simp [isTooLarge]

namespace Stream

/-- There is no room for these lines: one of them is longer than a segment, or the first one
opens the request and does not fit behind what waits in the segment. -/
def Exceeds (stream : Stream) (lines : List HeadLine) : Prop :=
  (stream.requestStarted = false ∧ ∃ line ∈ lines.head?,
    stream.session.config.segmentCapacity < stream.pending.length + line.text.length) ∨
  ∃ line ∈ lines, stream.session.config.segmentCapacity < line.text.length

/-- The request can be started, and every line of the call can be written, but not all of them
find room. -/
def Call.Overflows (call : Call) (stream : Stream) : Prop :=
  call.fault? stream = none ∧
    (∀ line ∈ call.lines stream, line.unsupportedVersion? = none) ∧
    stream.Exceeds (call.lines stream)

variable {stream : Stream} {line : HeadLine} {others : List HeadLine}

theorem not_exceeds_nil : ¬stream.Exceeds [] := by
  simp [Exceeds]

theorem exceeds_of_started (started : stream.requestStarted = true) :
    stream.Exceeds others ↔
      ∃ line ∈ others, stream.session.config.segmentCapacity < line.text.length := by
  simp [Exceeds, started]

/-- The first line of a request is written in place, so it is the tighter bound that counts. -/
theorem exceeds_cons_of_unstarted (unstarted : stream.requestStarted = false) :
    stream.Exceeds (line :: others) ↔
      stream.session.config.segmentCapacity < stream.pending.length + line.text.length ∨
        ∃ line ∈ others, stream.session.config.segmentCapacity < line.text.length := by
  simp only [Exceeds, unstarted, true_and, List.head?_cons, Option.mem_some_iff, exists_eq_left',
    List.mem_cons, exists_eq_or_imp]
  rw [← or_assoc, or_iff_left_of_imp (Nat.lt_add_left _)]

/-- A request that can be started has a line that opens it, and at most one more. -/
theorem exists_openingLines (unstarted : stream.requestStarted = false)
    (faultless : stream.startFault? = none) :
    ∃ method path, stream.pseudo.method = some method ∧ stream.pseudo.path = some path ∧
      stream.openingLines = .request method path stream.session.config.requestVersion
        :: (stream.pseudo.authority.map (.field Feed.hostName)).toList := by
  unfold startFault? at faultless
  unfold openingLines requestLines
  rw [unstarted, if_neg Bool.false_ne_true] at faultless ⊢
  cases method : stream.pseudo.method with
  | none => simp [method] at faultless
  | some verb =>
      cases path : stream.pseudo.path with
      | none => simp [method, path] at faultless
      | some target => exact ⟨verb, target, rfl, rfl, rfl⟩

/-- A line after those that open the request adds its own length, whatever waits. -/
theorem exceeds_openingLines_concat (faultless : stream.startFault? = none) :
    stream.Exceeds (stream.openingLines ++ [line]) ↔
      stream.Exceeds stream.openingLines ∨
        stream.session.config.segmentCapacity < line.text.length := by
  cases started : stream.requestStarted with
  | true =>
      have noLines : stream.openingLines = [] := if_pos started
      simp [exceeds_of_started started, noLines]
  | false =>
      rcases exists_openingLines started faultless with ⟨_, _, _, _, lines⟩
      rw [lines, List.cons_append, exceeds_cons_of_unstarted started,
        exceeds_cons_of_unstarted started]
      simp only [List.mem_append, List.mem_singleton, or_and_right, exists_or, exists_eq_left,
        or_assoc]

end Stream

namespace Delivery.Scripted

/-- The sink accepts everything from now on. -/
def Generous (_ : StreamId) (sink : Scripted) : Prop :=
  (∀ answer ∈ sink.segmentAnswers, answer = none) ∧ ∀ answer ∈ sink.endAnswers, answer = none

theorem generous_empty (id : StreamId) (log : List Attempt) : Generous id ⟨[], [], log⟩ := by
  constructor
  · intro answer answer_mem
    cases answer_mem
  · intro answer answer_mem
    cases answer_mem

/-- The next answer of a script that accepts everything. -/
theorem join_head?_eq_none {answers : List (Option Refusal)}
    (accepting : ∀ answer ∈ answers, answer = none) : answers.head?.join = none := by
  cases answers with
  | nil => rfl
  | cons answer later => exact accepting answer List.mem_cons_self

theorem forall_mem_tail {answers : List (Option Refusal)}
    (accepting : ∀ answer ∈ answers, answer = none) : ∀ answer ∈ answers.tail, answer = none :=
  fun answer answer_mem => accepting answer (List.mem_of_mem_tail answer_mem)

theorem willing_generous : Feed.Willing Generous where
  append id segment sink := by
    rintro ⟨segments, ends⟩
    exact ⟨_, run_append_of_accepted (join_head?_eq_none segments) id segment,
      forall_mem_tail segments, ends⟩
  appendEnd id sink := by
    rintro ⟨_, ends⟩
    exact ⟨_, run_appendEnd_of_accepted (join_head?_eq_none ends) id⟩

theorem keeps_generous (id : StreamId) : Keeps id (Generous id) where
  append_ok {segment sink next} := by
    rintro ⟨segments, ends⟩ accepted
    change (append id segment).run sink = .ok () next at accepted
    rw [run_append_of_accepted (join_head?_eq_none segments)] at accepted
    cases accepted
    exact ⟨forall_mem_tail segments, ends⟩
  append_error {segment sink next rejection} := by
    rintro ⟨segments, _⟩ refused
    change (append id segment).run sink = .error rejection next at refused
    rw [run_append_of_accepted (join_head?_eq_none segments)] at refused
    cases refused
  appendEnd_ok {sink next} := by
    rintro ⟨segments, ends⟩ accepted
    change (appendEnd id).run sink = .ok () next at accepted
    rw [run_appendEnd_of_accepted (join_head?_eq_none ends)] at accepted
    cases accepted
    exact ⟨segments, forall_mem_tail ends⟩
  appendEnd_error {sink next cause} := by
    rintro ⟨_, ends⟩ refused
    change (appendEnd id).run sink = .error cause next at refused
    rw [run_appendEnd_of_accepted (join_head?_eq_none ends)] at refused
    cases refused

end Delivery.Scripted

namespace Feed

open Delivery (LoggingSink)

variable {Queue : Type} {Value Other : Type} {before : Feed Queue}

/-- A program that fails in this case, for want of room, and succeeds in every other. -/
abbrev SucceedsUnless (full : Prop) (program : FeedM Queue Value) (before : Feed Queue)
    (success : Value → Feed Queue → Prop) : Prop :=
  Ensures program before (fun value after => ¬full ∧ success value after)
    (fun error _ => full ∧ error.isTooLarge = true)

theorem SucceedsUnless.bind {full : Prop} {later : Prop} {program : FeedM Queue Other}
    {next : Other → FeedM Queue Value} {between : Other → Feed Queue → Prop}
    {success : Value → Feed Queue → Prop} (first : SucceedsUnless full program before between)
    (second : ∀ value middle, between value middle →
      SucceedsUnless later (next value) middle success) :
    SucceedsUnless (full ∨ later) (program >>= next) before success := by
  apply Ensures.bind first
  · intro value middle room
    apply (second value middle room.2).imp
    · intro _ after rest
      exact ⟨not_or.mpr ⟨room.1, rest.1⟩, rest.2⟩
    · intro error after failed
      exact ⟨.inr failed.1, failed.2⟩
  · intro error after failed
    exact ⟨.inl failed.1, failed.2⟩

/-- A program that finds room for sure, before one that may not. -/
theorem Succeeds.bind_unless {full : Prop} {program : FeedM Queue Other}
    {next : Other → FeedM Queue Value} {between : Other → Feed Queue → Prop}
    {success : Value → Feed Queue → Prop} (first : Succeeds program before between)
    (second : ∀ value middle, between value middle →
      SucceedsUnless full (next value) middle success) :
    SucceedsUnless full (program >>= next) before success := by
  apply Ensures.bind first second
  intro _ _ impossible
  exact impossible.elim

/-- A program that finds room for sure, after one that may not. -/
theorem SucceedsUnless.bind_succeeds {full : Prop} {program : FeedM Queue Other}
    {next : Other → FeedM Queue Value} {between : Other → Feed Queue → Prop}
    {success : Value → Feed Queue → Prop} (first : SucceedsUnless full program before between)
    (second : ∀ value middle, between value middle →
      Succeeds (next value) middle success) :
    SucceedsUnless full (program >>= next) before success := by
  apply Ensures.bind first
  · intro value middle room
    apply Ensures.imp (second value middle room.2)
    · intro _ after holds
      exact ⟨room.1, holds⟩
    · intro _ _ impossible
      exact impossible.elim
  · intro error after failed
    exact failed

theorem SucceedsUnless.congr {full other : Prop} {program : FeedM Queue Value}
    {success : Value → Feed Queue → Prop} (succeeds : SucceedsUnless full program before success)
    (same : other ↔ full) : SucceedsUnless other program before success := by
  rwa [SucceedsUnless, same]

theorem SucceedsUnless.imp {full : Prop} {program : FeedM Queue Value}
    {success weaker : Value → Feed Queue → Prop}
    (succeeds : SucceedsUnless full program before success)
    (implies : ∀ value after, success value after → weaker value after) :
    SucceedsUnless full program before weaker := by
  apply Ensures.imp succeeds
  · intro value after room
    exact ⟨room.1, implies value after room.2⟩
  · intro error after failed
    exact failed

variable {accepts : StreamId → Queue → Prop} {line : HeadLine}

theorem openWork_pending (ready : before.Ready accepts) :
    Succeeds openWork before (fun segment after => Continues accepts before after ∧
      segment.capacity = after.capacity ∧ segment.bytes = before.stream.pending) := by
  rw [Stream.pending]
  cases work : before.stream.work with
  | some segment =>
      rw [Succeeds, Ensures, run_openWork_of_some work]
      exact ⟨.refl ready, ready.sized segment work, rfl⟩
  | none =>
      rw [Succeeds, Ensures, run_openWork_of_none work ready.allocatable]
      have opened := (Continues.refl ready).withWork (Segment.capacity_empty before.capacity)
      exact ⟨opened, rfl, rfl⟩

/-- A line that is written in place must fit behind what waits in the segment. -/
theorem writeInPlace_unless (ready : before.Ready accepts)
    (supported : line.unsupportedVersion? = none) :
    SucceedsUnless (before.capacity < before.stream.pending.length + line.text.length)
      (writeInPlace line) before (fun _ after => Continues accepts before after) := by
  apply (openWork_pending ready).bind_unless
  rintro segment middle ⟨continues, size, bytes_eq⟩
  have fits := segment.fits
  rw [size, continues.capacity_eq, bytes_eq] at fits
  have remaining_eq : segment.remaining = before.capacity - before.stream.pending.length := by
    rw [Segment.remaining, Segment.size, size, continues.capacity_eq, bytes_eq]
  by_cases room : line.text.length ≤ segment.remaining
  · rw [HeadLine.write_of_le_remaining supported room]
    refine ⟨?_, continues.withWork size⟩
    omega
  · rw [HeadLine.write_of_remaining_lt supported (Nat.lt_of_not_le room)]
    refine ⟨?_, rfl⟩
    omega

variable [LoggingSink Queue] (willing : Willing accepts)

include willing

/-- A line that may go into a fresh segment must not be longer than a segment. -/
theorem writeLine_unless (ready : before.Ready accepts)
    (supported : line.unsupportedVersion? = none) :
    SucceedsUnless (before.capacity < line.text.length) (writeLine line) before
      (fun _ after => Continues accepts before after) := by
  by_cases fits : line.text.length ≤ before.capacity
  · apply Ensures.imp (writeLine_succeeds willing ready ⟨supported, fits⟩)
    · intro _ after continues
      exact ⟨Nat.not_lt.mpr fits, continues⟩
    · intro _ _ impossible
      exact impossible.elim
  · have long : before.capacity < line.text.length := Nat.lt_of_not_le fits
    apply (openWork_pending ready).bind_unless
    rintro segment middle ⟨continues, size, _⟩
    have full : segment.remaining < line.text.length := by
      rw [Segment.remaining, size, continues.capacity_eq]
      omega
    rw [HeadLine.write_of_remaining_lt supported full]
    dsimp only
    split
    · exact ⟨long, rfl⟩
    · apply (push_succeeds willing continues.ready).bind_unless
      rintro _ emptied ⟨pushed, absent⟩
      have capacity_eq : emptied.capacity = before.capacity := by
        rw [pushed.capacity_eq, continues.capacity_eq]
      apply Ensures.imp (writeInPlace_unless pushed.ready supported)
      · rintro _ after ⟨room, _⟩
        exfalso
        apply room
        rw [capacity_eq]
        exact Nat.lt_add_left _ long
      · rintro error after ⟨_, tooLarge⟩
        exact ⟨long, tooLarge⟩

theorem startRequest_unless (ready : before.Ready accepts)
    (unstarted : before.stream.requestStarted = false)
    (faultless : before.stream.startFault? = none)
    (supported : ∀ line ∈ before.stream.openingLines, line.unsupportedVersion? = none) :
    SucceedsUnless (before.stream.Exceeds before.stream.openingLines) startRequest before
      (fun _ after => Begins accepts before after) := by
  rcases Stream.exists_openingLines unstarted faultless with ⟨method, path, known, target, lines⟩
  rw [lines] at supported
  rw [SucceedsUnless, lines, Stream.exceeds_cons_of_unstarted unstarted]
  unfold startRequest
  rw [ensures_bind, ensures_get]
  simp only [known, target]
  apply (writeInPlace_unless ready (supported _ List.mem_cons_self)).bind
  intro _ middle written
  rw [SucceedsUnless, ensures_bind, ensures_modifyStream]
  have begun : Begins accepts before
      { middle with stream := { middle.stream with requestStarted := true } } :=
    ⟨⟨written.ready.inputOpen, written.ready.allocatable, written.ready.sized,
      written.ready.accepting⟩, written.session_eq, rfl⟩
  cases before.stream.pseudo.authority with
  | none => exact ⟨by simp, begun⟩
  | some authority =>
      have oneMore : (∃ line ∈ (some (HeadLine.field hostName authority)).toList,
          before.capacity < line.text.length) ↔
            before.capacity < (HeadLine.field hostName authority).text.length := by
        simp
      apply SucceedsUnless.congr _ oneMore
      rw [← begun.capacity_eq]
      exact (writeLine_unless willing begun.ready rfl).imp fun _ after host => begun.trans host

theorem ensureStarted_unless (ready : before.Ready accepts)
    (faultless : before.stream.startFault? = none)
    (supported : ∀ line ∈ before.stream.openingLines, line.unsupportedVersion? = none) :
    SucceedsUnless (before.stream.Exceeds before.stream.openingLines) ensureStarted before
      (fun _ after => Begins accepts before after) := by
  unfold ensureStarted
  rw [SucceedsUnless, ensures_bind, ensures_get]
  cases started : before.stream.requestStarted with
  | true =>
      refine ⟨?_, (Continues.refl ready).begins started⟩
      rw [openingLines_of_started started]
      exact Stream.not_exceeds_nil
  | false => exact startRequest_unless willing ready started faultless supported

/-- A program that writes a line, after those that open the request. -/
theorem ensureStarted_bind_unless {program : FeedM Queue Unit} (ready : before.Ready accepts)
    (faultless : before.stream.startFault? = none)
    (supported : ∀ line ∈ before.stream.openingLines, line.unsupportedVersion? = none)
    (writes : ∀ middle : Feed Queue, middle.Ready accepts →
      SucceedsUnless (middle.capacity < line.text.length) program middle fun _ _ => True) :
    SucceedsUnless (before.stream.Exceeds (before.stream.openingLines ++ [line]))
      (do ensureStarted; program) before (fun _ _ => True) := by
  rw [SucceedsUnless, Stream.exceeds_openingLines_concat faultless]
  apply (ensureStarted_unless willing ready faultless supported).bind
  intro _ middle begun
  apply (writes middle begun.ready).congr
  rw [begun.capacity_eq]

/-- A program that fails for want of room in this case, and in no other. -/
abbrev OverflowsIff (full : Prop) (program : FeedM Queue Value) (before : Feed Queue) : Prop :=
  Ensures program before (fun _ _ => ¬full) (fun error _ => error.isTooLarge = true ↔ full)

omit [LoggingSink Queue] willing in
theorem Succeeds.overflowsIff {full : Prop} {program : FeedM Queue Value}
    {success : Value → Feed Queue → Prop} (succeeds : Succeeds program before success)
    (otherwise : ¬full) : OverflowsIff full program before := by
  apply Ensures.imp succeeds
  · intro _ _ _
    exact otherwise
  · intro _ _ impossible
    exact impossible.elim

omit [LoggingSink Queue] willing in
theorem Faults.overflowsIff {full : Prop} {program : FeedM Queue Value} {fault : Violation}
    (faults : Faults program before fault) (otherwise : ¬full) :
    OverflowsIff full program before := by
  apply Ensures.imp faults
  · intro _ _ impossible
    exact impossible.elim
  · rintro _ after ⟨rfl, _⟩
    exact iff_of_false Bool.false_ne_true otherwise

omit [LoggingSink Queue] willing in
theorem writeInPlace_unsupported (ready : before.Ready accepts) {version : Version}
    (unsupported : line.unsupportedVersion? = some version) :
    Ensures (writeInPlace line) before (fun _ _ => False)
      (fun error _ => error.isTooLarge = false) := by
  apply Ensures.bind (openWork_pending ready)
  · intro segment middle _
    rw [HeadLine.write_of_unsupportedVersion unsupported]
    rfl
  · intro _ _ impossible
    exact impossible.elim

omit willing in
/-- A request line of a version that has none is not written, whatever the room. -/
theorem ensureStarted_unsupported (ready : before.Ready accepts)
    (faultless : before.stream.startFault? = none)
    (unsupported : ¬∀ line ∈ before.stream.openingLines, line.unsupportedVersion? = none) :
    Ensures ensureStarted before (fun _ _ => False)
      (fun error _ => error.isTooLarge = false) := by
  unfold ensureStarted
  rw [ensures_bind, ensures_get]
  cases started : before.stream.requestStarted with
  | true =>
      exfalso
      apply unsupported
      rw [openingLines_of_started started]
      simp
  | false =>
      rcases Stream.exists_openingLines started faultless with ⟨method, path, known, target, lines⟩
      rw [lines] at unsupported
      unfold startRequest
      rw [if_neg Bool.false_ne_true, ensures_bind, ensures_get]
      simp only [known, target]
      cases first : (HeadLine.request method path
          before.stream.session.config.requestVersion).unsupportedVersion? with
      | none =>
          exfalso
          apply unsupported
          intro line line_mem
          rcases List.mem_cons.mp line_mem with rfl | host
          · exact first
          · rcases Option.map_eq_some_iff.mp (Option.mem_toList.mp host) with ⟨_, _, rfl⟩
            rfl
      | some version =>
          apply Ensures.bind (writeInPlace_unsupported ready first)
          · intro _ _ impossible
            exact impossible.elim
          · intro error after failed
            exact failed

/-- A program that writes a line of a head runs out of room if that line, or one of those that
open the request, finds none. A mistake of the peer or of the session comes first. -/
theorem headProgram_overflowsIff {program : FeedM Queue Unit} {fault : Violation}
    (allocatable : before.capacity < Segment.allocationLimit) (sized : before.WellSized)
    (accepting : accepts before.stream.id before.queue)
    (supported : line.unsupportedVersion? = none)
    (writes : ∀ middle : Feed Queue, middle.Ready accepts →
      SucceedsUnless (middle.capacity < line.text.length) program middle fun _ _ => True) :
    OverflowsIff
      ((before.stream.lifecycle.isInputClosed = false ∧ before.stream.startFault? = none) ∧
        (∀ other ∈ before.stream.openingLines ++ [line], other.unsupportedVersion? = none) ∧
        before.stream.Exceeds (before.stream.openingLines ++ [line]))
      (do refuseIf before.stream.lifecycle.isInputClosed fault; ensureStarted; program)
      before := by
  cases closed : before.stream.lifecycle.isInputClosed with
  | true => exact (faults_refuseIf_bind rfl).overflowsIff (by simp)
  | false =>
      have ready : before.Ready accepts := ⟨closed, allocatable, sized, accepting⟩
      cases faulty : before.stream.startFault? with
      | some other => exact (ensureStarted_faults faulty).bind.overflowsIff (by simp)
      | none =>
          by_cases lines : ∀ other ∈ before.stream.openingLines, other.unsupportedVersion? = none
          · have all : ∀ other ∈ before.stream.openingLines ++ [line],
                other.unsupportedVersion? = none :=
              List.forall_mem_append.mpr ⟨lines, by simpa using supported⟩
            apply Ensures.imp (ensureStarted_bind_unless willing ready faulty lines writes)
            · rintro _ after ⟨room, _⟩
              exact fun exceeds => room exceeds.2.2
            · rintro error after ⟨exceeds, tooLarge⟩
              exact iff_of_true tooLarge ⟨⟨rfl, rfl⟩, all, exceeds⟩
          · have unwritable : ¬∀ other ∈ before.stream.openingLines ++ [line],
                other.unsupportedVersion? = none :=
              fun all => lines (List.forall_mem_append.mp all).1
            apply Ensures.bind (ensureStarted_unsupported ready faulty lines)
            · intro _ _ impossible
              exact impossible.elim
            · intro error after other
              rw [other]
              exact iff_of_false Bool.false_ne_true fun full => unwritable full.2.1

omit [LoggingSink Queue] willing in
theorem refuseIf_bind_overflowsIff {condition : Bool} {fault : Violation}
    {next : FeedM Queue Value} {full : Prop} (otherwise : ¬full)
    (later : OverflowsIff full next before) :
    OverflowsIff full (do refuseIf condition fault; next) before := by
  cases condition with
  | true => exact (faults_refuseIf_bind rfl).overflowsIff otherwise
  | false => exact later

omit [LoggingSink Queue] willing in
/-- Pseudo-headers are kept, not written. -/
theorem addPseudoHeader_overflowsIff {full : Prop} (otherwise : ¬full) (name value : Bytes) :
    OverflowsIff full (addPseudoHeader name value) before := by
  unfold addPseudoHeader
  rw [OverflowsIff, ensures_bind, ensures_get]
  apply refuseIf_bind_overflowsIff otherwise
  apply refuseIf_bind_overflowsIff otherwise
  cases PseudoField.ofName? name with
  | none => exact otherwise
  | some field =>
      apply refuseIf_bind_overflowsIff otherwise
      exact otherwise

omit [LoggingSink Queue] willing in
theorem faultless_iff {closed : Bool} {fault : Violation} {other : Option Violation} :
    (if closed = true then some fault else other) = none ↔ closed = false ∧ other = none := by
  cases closed <;> simp

theorem addHeader_overflowsIff (allocatable : before.capacity < Segment.allocationLimit)
    (sized : before.WellSized) (accepting : accepts before.stream.id before.queue)
    (name value : Bytes) :
    OverflowsIff ((Stream.Call.addHeader name value).Overflows before.stream)
      (addHeader name value) before := by
  have room := before.stream.not_exceeds_nil
  simp only [Stream.Call.Overflows, Stream.Call.lines, Stream.Call.fault?]
  unfold addHeader
  cases unnamed : name.isEmpty with
  | true => simp [OverflowsIff, room]
  | false =>
      simp only [Bool.false_eq_true, if_false, Bool.false_or]
      rw [OverflowsIff, ensures_bind, ensures_get]
      cases pseudo : isPseudoName name with
      | true =>
          simp only [if_true]
          have otherwise {condition : Prop} : ¬(condition ∧ (∀ line ∈ ([] : List HeadLine),
              line.unsupportedVersion? = none) ∧ before.stream.Exceeds []) :=
            fun full => room full.2.2
          apply refuseIf_bind_overflowsIff otherwise
          exact addPseudoHeader_overflowsIff otherwise name value
      | false =>
          simp only [Bool.false_eq_true, if_false, faultless_iff]
          apply headProgram_overflowsIff willing allocatable sized accepting rfl
          intro middle ready
          exact (writeLine_unless willing ready rfl).imp fun _ _ _ => trivial

theorem endHeaders_overflowsIff (allocatable : before.capacity < Segment.allocationLimit)
    (sized : before.WellSized) (accepting : accepts before.stream.id before.queue) :
    OverflowsIff (Stream.Call.endHeaders.Overflows before.stream) endHeaders before := by
  simp only [Stream.Call.Overflows, Stream.Call.lines, Stream.Call.fault?, faultless_iff]
  unfold endHeaders
  rw [OverflowsIff, ensures_bind, ensures_get]
  apply headProgram_overflowsIff willing allocatable sized accepting rfl
  intro middle ready
  apply (openWork_succeeds ready).bind_unless
  rintro _ opened ⟨continues, _⟩
  rw [SucceedsUnless, ensures_bind, ensures_modifyStream]
  have noted : Ready accepts
      { opened with stream := { opened.stream with endOfHeaders := true } } :=
    ⟨continues.ready.inputOpen, continues.ready.allocatable, continues.ready.sized,
      continues.ready.accepting⟩
  rw [← continues.capacity_eq]
  apply (writeLine_unless willing noted rfl).bind_succeeds
  intro _ full written
  exact (push_succeeds willing written.ready).imp fun _ _ _ => trivial

end Feed

namespace Stream.Call

open Delivery (LoggingSink Scripted)
open Feed (Willing OverflowsIff)

variable {Queue : Type} [LoggingSink Queue] {accepts : StreamId → Queue → Prop}
  {before : Feed Queue}

/-- Calls that do not take data run out of room for a line of a head, or not at all. -/
theorem program_overflowsIff (willing : Willing accepts)
    (allocatable : before.capacity < Segment.allocationLimit) (sized : before.WellSized)
    (accepting : accepts before.stream.id before.queue) {call : Call}
    (notData : ∀ data, call ≠ addData data) :
    OverflowsIff (call.Overflows before.stream) call.program before := by
  have nothing : call.lines before.stream = [] → ¬call.Overflows before.stream := by
    intro noLines overflows
    rw [Overflows, noLines] at overflows
    exact before.stream.not_exceeds_nil overflows.2.2
  cases call with
  | addHeader name value =>
      exact Feed.ensures_bind_pure.mpr
        (Feed.addHeader_overflowsIff willing allocatable sized accepting name value)
  | addData data => exact absurd rfl (notData data)
  | endHeaders =>
      exact Feed.ensures_bind_pure.mpr
        (Feed.endHeaders_overflowsIff willing allocatable sized accepting)
  | push =>
      exact Feed.ensures_bind_pure.mpr
        ((Feed.push_delivers willing accepting).overflowsIff (nothing rfl))
  | closeInput =>
      exact Feed.ensures_bind_pure.mpr
        ((Feed.closeInput_succeeds willing accepting).overflowsIff (nothing rfl))
  | closeOutput => exact nothing rfl
  | abort => exact nothing rfl
  | observe observer => exact nothing rfl
  | setResponseHead head => exact nothing rfl
  | takeResponseHead => exact nothing rfl

/-- A sink that accepts everything goes on doing so. -/
theorem runAll_generous (id : StreamId) (session : Session) {sink : Scripted}
    (generous : Scripted.Generous id sink) (calls : List Call) :
    let after := (runAll calls (Feed.fresh id session sink)).2
    Scripted.Generous after.stream.id after.queue := by
  intro after
  rw [(runAll_belongsTo id session _ calls).id_eq]
  exact queue_runAll (Scripted.keeps_generous id) calls rfl generous

/-- Whatever a sink has answered before, if it accepts everything from now on, a call that takes
no data is answered that something is too large if and only if one of its lines is longer than a
segment, or it opens the request and its first line does not fit behind what waits in the
segment. A sink that accepts everything from the start is such a sink all the time. -/
theorem tooLarge_iff (id : StreamId) (session : Session) (sink : Scripted)
    (allocatable : session.config.segmentCapacity < Segment.allocationLimit)
    (calls : List Call) {call : Call} (notData : ∀ data, call ≠ addData data) :
    let before := (runAll calls (Feed.fresh id session sink)).2
    (Scripted.Generous id sink → Scripted.Generous id before.queue) ∧
    (Scripted.Generous id before.queue →
      ((∃ needed available, (call.run before).1 = .error (.tooLarge needed available)) ↔
        call.Overflows before.stream)) := by
  intro before
  have belongs : BelongsTo id session before := runAll_belongsTo id session _ calls
  constructor
  · intro generous
    have stays := runAll_generous id session generous calls
    exact stays
  · intro accepting
    rw [← belongs.session_eq] at allocatable
    have outcome := run_of_ensures
      (program_overflowsIff Scripted.willing_generous allocatable belongs.sized accepting notData)
    rcases result : call.run before with ⟨answer, after⟩
    rw [result] at outcome
    cases answer with
    | ok reply => exact iff_of_false (by simp) outcome
    | error error => simpa [StreamError.isTooLarge_iff] using outcome

/-- A request line that would fit into a segment, but not behind the data in it. -/
theorem overflows_behind_data :
    let session : Session := { config := { segmentCapacity := 16 } }
    let before := (runAll
      [addHeader (Bytes.ascii ":method") (Bytes.ascii "GET"),
        addHeader (Bytes.ascii ":path") (Bytes.ascii "/"), addData (Bytes.ascii "0123456789")]
      (Feed.fresh 1 session ({} : Scripted))).2
    endHeaders.Overflows before.stream := by
  intro session before
  have notData : ∀ data, endHeaders ≠ addData data := by simp
  have precise := tooLarge_iff 1 session {} (by decide)
    [addHeader (Bytes.ascii ":method") (Bytes.ascii "GET"),
      addHeader (Bytes.ascii ":path") (Bytes.ascii "/"), addData (Bytes.ascii "0123456789")] notData
  exact (precise.2 (precise.1 (Scripted.generous_empty 1 []))).mp ⟨7, 6, by decide⟩

theorem tooLarge_though_lines_fit :
    let session : Session := { config := { segmentCapacity := 16 } }
    let before := (runAll
      [addHeader (Bytes.ascii ":method") (Bytes.ascii "GET"),
        addHeader (Bytes.ascii ":path") (Bytes.ascii "/"), addData (Bytes.ascii "0123456789")]
      (Feed.fresh 1 session ({} : Scripted))).2
    (endHeaders.run before).1 = .error (.tooLarge 7 6) ∧
      ∀ line ∈ endHeaders.lines before.stream,
        line.text.length ≤ session.config.segmentCapacity := by
  decide

end Stream.Call

end Reassembly
