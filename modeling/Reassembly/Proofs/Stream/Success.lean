import Reassembly.Proofs.Stream.Ledger

/-!
# Calls that succeed

On a sink that accepts what a stream delivers, a call fails only for what the peer did
wrong or for a line that no segment can hold. So the calls that announce a request go
through, as long as every line of its head fits into a segment: the request line opens
the first segment, and a line that does not fit the rest of a used one fits a fresh one.
-/

namespace Reassembly

namespace Feed

open Delivery (Sink LoggingSink)

variable {Queue : Type} {Value Other : Type}

/-- A program that does not fail, and what holds after it. -/
abbrev Succeeds (program : FeedM Queue Value) (before : Feed Queue)
    (success : Value → Feed Queue → Prop) : Prop :=
  Ensures program before success fun _ _ => False

theorem Succeeds.bind {before : Feed Queue} {program : FeedM Queue Other}
    {next : Other → FeedM Queue Value} {between : Other → Feed Queue → Prop}
    {success : Value → Feed Queue → Prop} (first : Succeeds program before between)
    (second : ∀ value middle, between value middle → Succeeds (next value) middle success) :
    Succeeds (program >>= next) before success := by
  apply Ensures.bind first second
  intro _ _ impossible
  exact impossible

theorem Succeeds.imp {before : Feed Queue} {program : FeedM Queue Value}
    {success weaker : Value → Feed Queue → Prop} (succeeds : Succeeds program before success)
    (implies : ∀ value after, success value after → weaker value after) :
    Succeeds program before weaker := by
  apply Ensures.imp succeeds implies
  intro _ _ impossible
  exact impossible

theorem succeeds_refuseIf_bind {condition : Bool} {fault : Violation} {before : Feed Queue}
    {next : FeedM Queue Value} {success : Value → Feed Queue → Prop} (fine : condition = false)
    (rest : Succeeds next before success) :
    Succeeds (do refuseIf condition fault; next) before success := by
  subst fine
  exact rest

/-- A state of sinks in which they accept what a stream delivers, and its end. -/
structure Willing [Sink Queue] (accepts : StreamId → Queue → Prop) : Prop where
  append (id : StreamId) (segment : Segment) (queue : Queue) : accepts id queue →
    ∃ next, (Sink.append id segment).run queue = .ok () next ∧ accepts id next
  appendEnd (id : StreamId) (queue : Queue) : accepts id queue →
    ∃ next, (Sink.appendEnd id).run queue = .ok () next

/-- Nothing but the peer can make a call of this stream fail. -/
structure Ready (accepts : StreamId → Queue → Prop) (feed : Feed Queue) : Prop where
  inputOpen : feed.stream.lifecycle.isInputClosed = false
  allocatable : feed.capacity < Segment.allocationLimit
  sized : feed.WellSized
  accepting : accepts feed.stream.id feed.queue

/-- The stream is ready after something that concerns only its segment and its sink. -/
structure Continues (accepts : StreamId → Queue → Prop) (before after : Feed Queue) : Prop where
  ready : after.Ready accepts
  session_eq : after.stream.session = before.stream.session
  pseudo_eq : after.stream.pseudo = before.stream.pseudo
  started_eq : after.stream.requestStarted = before.stream.requestStarted

variable {accepts : StreamId → Queue → Prop} {before middle after : Feed Queue}

/-- Another segment, or none, of the right capacity. -/
theorem Ready.withWork (ready : before.Ready accepts) {work : Option Segment}
    (size : ∀ segment, work = some segment → segment.capacity = before.capacity) :
    (before.withWork work).Ready accepts :=
  ⟨ready.inputOpen, ready.allocatable, size, ready.accepting⟩

theorem Continues.refl (ready : before.Ready accepts) : Continues accepts before before :=
  ⟨ready, rfl, rfl, rfl⟩

theorem Continues.trans (first : Continues accepts before middle)
    (second : Continues accepts middle after) : Continues accepts before after where
  ready := second.ready
  session_eq := second.session_eq.trans first.session_eq
  pseudo_eq := second.pseudo_eq.trans first.pseudo_eq
  started_eq := second.started_eq.trans first.started_eq

theorem Continues.capacity_eq (continues : Continues accepts before after) :
    after.capacity = before.capacity :=
  congrArg (fun session => session.config.segmentCapacity) continues.session_eq

theorem Continues.withWork (continues : Continues accepts before after) {segment : Segment}
    (size : segment.capacity = after.capacity) :
    Continues accepts before (after.withWork (some segment)) where
  ready := continues.ready.withWork <| by
    intro other work
    cases work
    exact size
  session_eq := continues.session_eq
  pseudo_eq := continues.pseudo_eq
  started_eq := continues.started_eq

/-- A line that a segment of this capacity can hold. -/
structure Fits (capacity : Nat) (line : HeadLine) : Prop where
  supported : line.unsupportedVersion? = none
  length_le : line.text.length ≤ capacity

theorem openWork_succeeds (ready : before.Ready accepts) :
    Succeeds openWork before (fun segment after => Continues accepts before after ∧
      after.stream.work = some segment ∧ segment.capacity = after.capacity ∧
      (before.stream.work = none → segment.bytes = [])) := by
  cases work : before.stream.work with
  | some segment =>
      rw [Succeeds, Ensures, run_openWork_of_some work]
      refine ⟨.refl ready, work, ready.sized segment work, ?_⟩
      intro absent
      cases absent
  | none =>
      rw [Succeeds, Ensures, run_openWork_of_none work ready.allocatable]
      have opened := (Continues.refl ready).withWork (Segment.capacity_empty before.capacity)
      exact ⟨opened, rfl, rfl, fun _ => rfl⟩

theorem writeInPlace_succeeds (ready : before.Ready accepts) (work : before.stream.work = none)
    {line : HeadLine} (fits : Fits before.capacity line) :
    Succeeds (writeInPlace line) before (fun _ after => Continues accepts before after) := by
  apply (openWork_succeeds ready).bind
  intro segment middle opened
  rcases opened with ⟨continues, _, size, isEmpty⟩
  have room : line.text.length ≤ segment.remaining := by
    rw [Segment.remaining, Segment.size, isEmpty work, size, continues.capacity_eq]
    exact fits.length_le
  rw [HeadLine.write_of_le_remaining fits.supported room]
  exact continues.withWork size

variable [LoggingSink Queue] (willing : Willing accepts)

include willing

/-- A push leaves nothing to be filled, and changes nothing else but the sink. -/
theorem push_delivers (accepting : accepts before.stream.id before.queue) :
    Succeeds push before (fun _ after => ∃ queue, accepts before.stream.id queue ∧
      after = ({ before with queue }.withWork none)) := by
  cases work : before.stream.work with
  | none =>
      rw [Succeeds, Ensures, run_push_of_none work]
      exact ⟨before.queue, accepting, (withWork_eq_self work).symm⟩
  | some segment =>
      by_cases empty : segment.bytes = []
      · rw [Succeeds, Ensures, run_push_of_empty work empty]
        exact ⟨before.queue, accepting, rfl⟩
      · rcases willing.append before.stream.id segment before.queue accepting with
          ⟨next, accepted, stillAccepting⟩
        rw [Succeeds, Ensures, run_push_of_accepted work empty accepted]
        exact ⟨next, stillAccepting, rfl⟩

theorem push_succeeds (ready : before.Ready accepts) :
    Succeeds push before (fun _ after => Continues accepts before after ∧
      after.stream.work = none) := by
  apply (push_delivers willing ready.accepting).imp
  rintro _ after ⟨queue, accepting, rfl⟩
  refine ⟨⟨⟨ready.inputOpen, ready.allocatable, ?_, accepting⟩, rfl, rfl, rfl⟩, rfl⟩
  intro segment work
  cases work

theorem writeLine_succeeds (ready : before.Ready accepts) {line : HeadLine}
    (fits : Fits before.capacity line) :
    Succeeds (writeLine line) before (fun _ after => Continues accepts before after) := by
  apply (openWork_succeeds ready).bind
  intro segment middle opened
  rcases opened with ⟨continues, _, size, _⟩
  by_cases room : line.text.length ≤ segment.remaining
  · rw [HeadLine.write_of_le_remaining fits.supported room]
    exact continues.withWork size
  · have used : segment.isEmpty = false := by
      cases empty : segment.isEmpty with
      | false => rfl
      | true =>
          exfalso
          apply room
          rw [Segment.remaining, Segment.size, Segment.isEmpty_iff.mp empty, size,
            continues.capacity_eq]
          exact fits.length_le
    rw [HeadLine.write_of_remaining_lt fits.supported (Nat.lt_of_not_le room)]
    dsimp only
    rw [used, if_neg Bool.false_ne_true]
    apply (push_succeeds willing continues.ready).bind
    intro _ emptied pushed
    have stillFits : Fits emptied.capacity line := by
      rw [pushed.1.capacity_eq, continues.capacity_eq]
      exact fits
    apply (writeInPlace_succeeds pushed.1.ready pushed.2 stillFits).imp
    intro _ after written
    exact continues.trans (pushed.1.trans written)

theorem fillOnce_succeeds (ready : before.Ready accepts) (roomy : 0 < before.capacity)
    (data : Bytes) :
    Succeeds (fillOnce data) before (fun _ after => Continues accepts before after) := by
  apply (openWork_succeeds ready).bind
  intro segment middle opened
  rcases opened with ⟨continues, _, size, _⟩
  have filled := continues.withWork
    ((Segment.capacity_append segment data).trans size)
  rw [Succeeds, ensures_bind, ensures_setWork]
  change Ensures (if (data.drop (segment.append data).1).isEmpty = true then _ else
      if (decide ((segment.append data).1 = 0) && (segment.append data).2.isEmpty) = true
        then _ else _)
    (middle.withWork (some (segment.append data).2)) _ _
  split
  · exact filled
  · rename_i left
    split
    · rename_i stuck
      exfalso
      rw [Bool.and_eq_true, decide_eq_true_iff, Segment.isEmpty_append_iff,
        Segment.isEmpty_iff] at stuck
      rcases stuck with ⟨nothing, empty, _⟩
      have remaining_pos : 0 < segment.remaining := by
        rw [Segment.remaining, Segment.size, empty, size, continues.capacity_eq]
        exact roomy
      have noData : data = [] := by
        rw [Segment.written_append] at nothing
        exact List.eq_nil_of_length_eq_zero (by omega)
      apply left
      rw [noData, List.drop_nil, List.isEmpty_nil]
    · apply (push_succeeds willing filled.ready).bind
      intro _ after pushed
      exact filled.trans pushed.1

/-- Data goes through unless segments have no room at all. -/
theorem addData_succeeds (ready : before.Ready accepts) (roomy : 0 < before.capacity)
    (data : Bytes) :
    Succeeds (addData data) before (fun _ after => Continues accepts before after) := by
  unfold addData
  rw [Succeeds, ensures_bind, ensures_get]
  apply succeeds_refuseIf_bind ready.inputOpen
  apply Ensures.fill (fun _ middle => Continues accepts before middle)
  · exact .refl ready
  · intro rest middle continues
    have stillRoomy : 0 < middle.capacity := by
      rw [continues.capacity_eq]
      exact roomy
    apply (fillOnce_succeeds willing continues.ready stillRoomy rest).imp
    · intro _ after further
      exact continues.trans further
  · intro after continues
    exact continues

/-- The stream can write the lines that open its request, unless it has written them. -/
structure Startable (feed : Feed Queue) : Prop where
  work : feed.stream.requestStarted = false → feed.stream.work = none
  known : feed.stream.requestStarted = false → feed.stream.requestLines ≠ []
  fit : ∀ line ∈ feed.stream.openingLines, Fits feed.capacity line

/-- The stream is ready, and has written the lines that open its request. -/
structure Begins (accepts : StreamId → Queue → Prop) (before after : Feed Queue) : Prop where
  ready : after.Ready accepts
  session_eq : after.stream.session = before.stream.session
  started : after.stream.requestStarted = true

omit [LoggingSink Queue] willing in
theorem Begins.trans (first : Begins accepts before middle)
    (second : Continues accepts middle after) : Begins accepts before after where
  ready := second.ready
  session_eq := second.session_eq.trans first.session_eq
  started := second.started_eq.trans first.started

omit [LoggingSink Queue] willing in
theorem Continues.begins (continues : Continues accepts before after)
    (started : before.stream.requestStarted = true) : Begins accepts before after where
  ready := continues.ready
  session_eq := continues.session_eq
  started := continues.started_eq.trans started

omit [LoggingSink Queue] willing in
theorem Begins.capacity_eq (begins : Begins accepts before after) :
    after.capacity = before.capacity :=
  congrArg (fun session => session.config.segmentCapacity) begins.session_eq

theorem startRequest_succeeds (ready : before.Ready accepts) (startable : before.Startable)
    (unstarted : before.stream.requestStarted = false) :
    Succeeds startRequest before (fun _ after => Begins accepts before after) := by
  have known := startable.known unstarted
  have fit := startable.fit
  rw [Stream.openingLines, unstarted, if_neg Bool.false_ne_true] at fit
  unfold Stream.requestLines at known fit
  unfold startRequest
  rw [Succeeds, ensures_bind, ensures_get]
  dsimp only
  cases knownMethod : before.stream.pseudo.method with
  | none => simp [knownMethod] at known
  | some method =>
      cases knownPath : before.stream.pseudo.path with
      | none => simp [knownMethod, knownPath] at known
      | some path =>
          simp only [knownMethod, knownPath] at fit
          apply (writeInPlace_succeeds ready (startable.work unstarted)
            (fit _ List.mem_cons_self)).bind
          intro _ middle written
          rw [Succeeds, ensures_bind, ensures_modifyStream]
          have begun : Begins accepts before
              { middle with stream := { middle.stream with requestStarted := true } } :=
            ⟨⟨written.ready.inputOpen, written.ready.allocatable, written.ready.sized,
              written.ready.accepting⟩, written.session_eq, rfl⟩
          cases knownAuthority : before.stream.pseudo.authority with
          | none => exact begun
          | some authority =>
              have hostFits : Fits before.capacity (.field hostName authority) := by
                apply fit
                simp [knownAuthority]
              rw [← begun.capacity_eq] at hostFits
              apply (writeLine_succeeds willing begun.ready hostFits).imp
              intro _ after host
              exact begun.trans host

theorem ensureStarted_succeeds (ready : before.Ready accepts) (startable : before.Startable) :
    Succeeds ensureStarted before (fun _ after => Begins accepts before after) := by
  unfold ensureStarted
  rw [Succeeds, ensures_bind, ensures_get]
  cases started : before.stream.requestStarted with
  | true => exact (Continues.refl ready).begins started
  | false => exact startRequest_succeeds willing ready startable started

theorem addHeader_succeeds (ready : before.Ready accepts) (startable : before.Startable)
    {name value : Bytes} (named : name ≠ []) (regular : isPseudoName name = false)
    (fits : Fits before.capacity (.field name value)) :
    Succeeds (addHeader name value) before (fun _ after => Begins accepts before after) := by
  have named : name.isEmpty = false := by simpa using named
  unfold addHeader
  rw [named, if_neg Bool.false_ne_true, Succeeds, ensures_bind, ensures_get]
  apply succeeds_refuseIf_bind ready.inputOpen
  rw [regular, if_neg Bool.false_ne_true]
  apply (ensureStarted_succeeds willing ready startable).bind
  intro _ middle begun
  rw [← begun.capacity_eq] at fits
  apply (writeLine_succeeds willing begun.ready fits).imp
  intro _ after written
  exact begun.trans written

theorem endHeaders_succeeds (ready : before.Ready accepts) (startable : before.Startable)
    (fits : Fits before.capacity .blank) :
    Succeeds endHeaders before (fun _ after => Begins accepts before after) := by
  unfold endHeaders
  rw [Succeeds, ensures_bind, ensures_get]
  apply succeeds_refuseIf_bind ready.inputOpen
  apply (ensureStarted_succeeds willing ready startable).bind
  intro _ middle begun
  apply (openWork_succeeds begun.ready).bind
  intro _ opened opening
  rw [Succeeds, ensures_bind, ensures_modifyStream]
  have noted : Continues accepts opened
      { opened with stream := { opened.stream with endOfHeaders := true } } :=
    ⟨⟨opening.1.ready.inputOpen, opening.1.ready.allocatable, opening.1.ready.sized,
      opening.1.ready.accepting⟩, rfl, rfl, rfl⟩
  have here := (begun.trans opening.1).trans noted
  rw [← here.capacity_eq] at fits
  apply (writeLine_succeeds willing here.ready fits).bind
  intro _ full written
  apply (push_succeeds willing written.ready).imp
  intro _ after pushed
  exact (here.trans written).trans pushed.1

theorem closeInput_succeeds (accepting : accepts before.stream.id before.queue) :
    Succeeds closeInput before (fun _ after => after.stream.endDelivered = true) := by
  generalize start_eq : before.moved before.stream.lifecycle.closeInput = start
  have startAccepting : accepts start.stream.id start.queue := by
    rw [← start_eq, moved_eq]
    exact accepting
  rw [Succeeds, ensures_closeInput start_eq]
  constructor
  · intro delivered
    exact delivered
  · intro _
    apply (push_delivers willing startAccepting).bind
    rintro _ emptied ⟨queue, stillAccepting, rfl⟩
    rcases willing.appendEnd start.stream.id queue stillAccepting with ⟨next, accepted⟩
    rw [Succeeds, ensures_deliverEnd]
    dsimp only [withWork]
    rw [accepted]

end Feed

end Reassembly
