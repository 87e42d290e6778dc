import Mathlib.Data.List.Infix
import Reassembly.Proofs.Stream.Path

/-!
# What the parts of a call write

Each program that a call is made of follows a path. A program that succeeds adds exactly
the text that it is there to write. One that fails adds what it wrote before it failed:
whole lines of a head, or the first octets of a piece of data. A violation is noticed
before anything is done.
-/

namespace Reassembly

/-- Whether the peer is at fault. -/
def StreamError.isViolation : StreamError → Bool
  | .violation _ => true
  | _ => false

@[simp]
theorem StreamError.isViolation_ofEncodeError (error : EncodeError) :
    (StreamError.ofEncodeError error).isViolation = false := by
  cases error <;> rfl

/-- The lines that open a request: the request line and, if there is an authority, the line
that it becomes. -/
def Stream.requestLines (stream : Stream) : List HeadLine :=
  match stream.pseudo.method, stream.pseudo.path with
  | some method, some path =>
      .request method path stream.session.config.requestVersion
        :: (stream.pseudo.authority.map (.field Feed.hostName)).toList
  | _, _ => []

/-- The lines that open a request, unless it has been opened before. -/
def Stream.openingLines (stream : Stream) : List HeadLine :=
  if stream.requestStarted then [] else stream.requestLines

/-- Each octet of a piece of data by itself. -/
def octetwise (data : Bytes) : List Bytes := data.map fun octet => [octet]

namespace Stream.Call

/-- The lines that a call writes. -/
def lines (stream : Stream) : Call → List HeadLine
  | addHeader name value =>
      if name.isEmpty || isPseudoName name then []
      else stream.openingLines ++ [.field name value]
  | endHeaders => stream.openingLines ++ [.blank]
  | _ => []

/-- What a call writes, in pieces of which none is ever written in part. -/
def pieces (stream : Stream) (call : Call) : List Bytes :=
  match call with
  | addData data => octetwise data
  | _ => (call.lines stream).map HeadLine.text

end Stream.Call

namespace Feed

open Delivery (Sink LoggingSink Rejection)

variable {Queue : Type}

theorem withWork_eq_self {before : Feed Queue} {work : Option Segment} (same : before.stream.work = work) :
    before.withWork work = before := by
  subst work
  rfl

variable [LoggingSink Queue] {before : Feed Queue}

theorem run_push_of_none (work : before.stream.work = none) :
    push.run before = .ok () before := by
  simp [push, work]

theorem run_push_of_empty {segment : Segment} (work : before.stream.work = some segment)
    (empty : segment.bytes = []) : push.run before = .ok () (before.withWork none) := by
  simp [push, work, Segment.isEmpty_iff.mpr empty, withWork]

theorem run_push_of_accepted {segment : Segment} {next : Queue}
    (work : before.stream.work = some segment) (nonempty : segment.bytes ≠ [])
    (accepted : (Sink.append before.stream.id segment).run before.queue = .ok () next) :
    push.run before = .ok () ({ before with queue := next }.withWork none) := by
  have filled : segment.isEmpty = false := by
    simpa [Segment.isEmpty] using nonempty
  simp [push, work, filled, accepted, withWork]

/-- A refused segment stays where it was. -/
theorem run_push_of_refused {segment : Segment} {rejection : Rejection} {next : Queue}
    (work : before.stream.work = some segment) (nonempty : segment.bytes ≠ [])
    (refused : (Sink.append before.stream.id segment).run before.queue
      = .error rejection next) :
    push.run before = .error (.refused rejection.cause) { before with queue := next } := by
  have filled : segment.isEmpty = false := by
    simpa [Segment.isEmpty] using nonempty
  have back : rejection.segment = segment := (LoggingSink.append_error refused).1
  have kept : ({ before with queue := next } : Feed Queue).withWork (some segment)
      = { before with queue := next } := withWork_eq_self work
  simp only [withWork] at kept
  simp [push, work, filled, refused, back, kept]

theorem push_path (before : Feed Queue) :
    Ensures push before
      (fun _ after => Path before [] after ∧ after.stream.work = none ∧
        after.stream.endDelivered = before.stream.endDelivered)
      (fun error after => Path before [] after ∧ error.isViolation = false) := by
  cases work : before.stream.work with
  | none =>
      rw [Ensures, run_push_of_none work]
      exact ⟨.refl before, work, rfl⟩
  | some segment =>
      by_cases empty : segment.bytes = []
      · rw [Ensures, run_push_of_empty work empty]
        exact ⟨(Move.drop work empty).path, rfl, rfl⟩
      · cases answer : (Sink.append before.stream.id segment).run before.queue with
        | ok _ next =>
            rw [Ensures, run_push_of_accepted work empty answer]
            exact ⟨(Move.deliver work empty answer).path, rfl, rfl⟩
        | error rejection next =>
            rw [Ensures, run_push_of_refused work empty answer]
            exact ⟨(Move.refuse work empty answer).path, rfl⟩

theorem openWork_path (inputOpen : before.stream.lifecycle.isInputClosed = false) :
    Ensures openWork before
      (fun segment after => Path before [] after ∧ after.stream.work = some segment ∧
        segment = before.stream.work.getD (.empty before.capacity))
      (fun error after => Path before [] after ∧ error.isViolation = false) := by
  cases work : before.stream.work with
  | some segment =>
      rw [Ensures, run_openWork_of_some work]
      exact ⟨.refl before, work, rfl⟩
  | none =>
      by_cases allocatable : before.capacity < Segment.allocationLimit
      · rw [Ensures, run_openWork_of_none work allocatable]
        exact ⟨(Move.openSegment inputOpen work).path, rfl, rfl⟩
      · have failed : openWork.run before
            = .error (.outOfMemory { capacity := before.capacity }) before := by
          simp only [openWork, EStateM.run_bind, EStateM.run_get, work, Segment.allocate,
            allocatable, ↓reduceIte]
          rfl
        rw [Ensures, failed]
        exact ⟨.refl before, rfl⟩

/-- A line that fits is one move. -/
theorem Path.write {middle : Feed Queue} {octets : Bytes} {line : HeadLine}
    {segment written : Segment} (path : Path before octets middle)
    (inputOpen : before.stream.lifecycle.isInputClosed = false)
    (work : middle.stream.work = some segment)
    (success : line.write.run segment = .ok () written) :
    Path before (octets ++ line.text) (middle.withWork (some written)) := by
  obtain ⟨room, rfl⟩ := line.eq_append_of_write_eq_ok success
  have move := Move.fill line.text (path.lifecycle_eq ▸ inputOpen) work
  rw [List.take_of_length_le room] at move
  exact path.trans move.path

theorem writeInPlace_path (inputOpen : before.stream.lifecycle.isInputClosed = false)
    (line : HeadLine) :
    Ensures (writeInPlace line) before
      (fun _ after => Path before line.text after)
      (fun error after => Path before [] after ∧ error.isViolation = false) := by
  apply (openWork_path inputOpen).bind
  · intro segment middle opened
    rcases opened with ⟨path, work, _⟩
    cases result : line.write.run segment with
    | ok _ written => exact path.write inputOpen work result
    | error error _ => exact ⟨path, StreamError.isViolation_ofEncodeError error⟩
  · intro error after failed
    exact failed

theorem writeLine_path (inputOpen : before.stream.lifecycle.isInputClosed = false)
    (line : HeadLine) :
    Ensures (writeLine line) before
      (fun _ after => Path before line.text after)
      (fun error after => Path before [] after ∧ error.isViolation = false) := by
  apply (openWork_path inputOpen).bind
  · intro segment middle opened
    rcases opened with ⟨path, work, _⟩
    cases result : line.write.run segment with
    | ok _ written => exact path.write inputOpen work result
    | error error _ =>
        cases error with
        | unsupportedVersion version => exact ⟨path, rfl⟩
        | tooLarge needed available =>
            dsimp only
            split
            · exact ⟨path, rfl⟩
            · apply (push_path middle).bind
              · intro _ emptied pushed
                have inputStillOpen : emptied.stream.lifecycle.isInputClosed = false := by
                  rw [pushed.1.lifecycle_eq, path.lifecycle_eq]
                  exact inputOpen
                apply (writeInPlace_path inputStillOpen line).imp
                · intro _ after written
                  exact (path.trans_nil pushed.1).trans written
                · intro error after failed
                  exact ⟨(path.trans_nil pushed.1).trans_nil failed.1, failed.2⟩
              · intro error after failed
                exact ⟨path.trans_nil failed.1, failed.2⟩
  · intro error after failed
    exact failed

/-- A line is written whole or not at all. -/
theorem writeLine_whole (inputOpen : before.stream.lifecycle.isInputClosed = false)
    (line : HeadLine) :
    Ensures (writeLine line) before
      (fun _ after => Path before line.text after)
      (fun error after => (∃ written, written <+: [line.text] ∧ Path before written.flatten after) ∧
        error.isViolation = false) := by
  apply (writeLine_path inputOpen line).imp
  · intro _ after written
    exact written
  · intro error after failed
    exact ⟨⟨[], List.nil_prefix, failed.1⟩, failed.2⟩

/-- A failed program has written some of the pieces it was there to write. A violation has
changed nothing. -/
def Interrupted (start : Feed Queue) (pieces : List Bytes) (error : StreamError)
    (after : Feed Queue) : Prop :=
  ∃ written, written <+: pieces ∧ Path start written.flatten after ∧
    (error.isViolation = true → after = start)

theorem Interrupted.unchanged {pieces : List Bytes} {error : StreamError} :
    Interrupted before pieces error before :=
  ⟨[], List.nil_prefix, .refl before, fun _ => rfl⟩

/-- A failure for which the peer is not to blame, after all of the first pieces and some of
the others have been written. -/
theorem Path.interrupted {middle after : Feed Queue} {first others written : List Bytes}
    {error : StreamError} (path : Path before first.flatten middle)
    (begins : written <+: others) (rest : Path middle written.flatten after)
    (noViolation : error.isViolation = false) :
    Interrupted before (first ++ others) error after := by
  refine ⟨first ++ written, ?_, ?_, ?_⟩
  · exact (List.prefix_append_right_inj first).mpr begins
  · rw [List.flatten_append]
    exact path.trans rest
  · intro violation
    rw [noViolation] at violation
    cases violation

/-- A failure for which the peer is not to blame, before anything was written. -/
theorem Interrupted.nothing {after : Feed Queue} {pieces : List Bytes} {error : StreamError}
    (path : Path before [] after) (noViolation : error.isViolation = false) :
    Interrupted before pieces error after := by
  have start : Path before ([] : List Bytes).flatten before := .refl before
  exact start.interrupted List.nil_prefix path noViolation

theorem Interrupted.of_prefix {first pieces : List Bytes} {error : StreamError}
    {after : Feed Queue} (interrupted : Interrupted before first error after)
    (begins : first <+: pieces) : Interrupted before pieces error after := by
  rcases interrupted with ⟨written, written_prefix, path, atomic⟩
  exact ⟨written, written_prefix.trans begins, path, atomic⟩

/-- A pass over data writes what it does not leave. -/
theorem fillOnce_path (inputOpen : before.stream.lifecycle.isInputClosed = false) (data : Bytes) :
    Ensures (fillOnce data) before
      (fun rest after => ∃ written, written ++ rest = data ∧ Path before written after)
      (fun error after => (∃ written rest, written ++ rest = data ∧ Path before written after) ∧
        error.isViolation = false) := by
  apply (openWork_path inputOpen).bind
  · intro segment middle opened
    rcases opened with ⟨opening, work, _⟩
    have middleOpen : middle.stream.lifecycle.isInputClosed = false := by
      rw [opening.lifecycle_eq]
      exact inputOpen
    have filling : Path before (data.take segment.remaining)
        (middle.withWork (some (segment.append data).2)) :=
      opening.trans (Move.fill data middleOpen work).path
    have whole : data.take segment.remaining ++ data.drop segment.remaining = data :=
      List.take_append_drop _ _
    rw [ensures_bind, ensures_setWork]
    change Ensures (if (data.drop (segment.append data).1).isEmpty = true then _ else _)
      (middle.withWork (some (segment.append data).2)) _ _
    rw [segment.drop_written]
    split
    · exact ⟨_, whole, filling⟩
    · split
      · exact ⟨⟨_, _, whole, filling⟩, rfl⟩
      · apply (push_path _).bind
        · intro _ after pushed
          exact ⟨_, whole, filling.trans_nil pushed.1⟩
        · intro error after failed
          exact ⟨⟨_, _, whole, filling.trans_nil failed.1⟩, failed.2⟩
  · intro error after failed
    exact ⟨⟨[], data, rfl, failed.1⟩, failed.2⟩

@[simp]
theorem flatten_octetwise (data : Bytes) : (octetwise data).flatten = data := by
  induction data with
  | nil => rfl
  | cons octet later ih =>
      rw [octetwise, List.map_cons, List.flatten_cons, ← octetwise, ih]
      rfl

theorem addData_path (data : Bytes) :
    Ensures (addData data) before
      (fun _ after => Path before (octetwise data).flatten after)
      (fun error after => Interrupted before (octetwise data) error after) := by
  unfold addData
  rw [ensures_bind, ensures_get, ensures_bind, ensures_refuseIf]
  constructor
  · intro _
    exact .unchanged
  · intro inputOpen
    let written (rest : Bytes) (middle : Feed Queue) : Prop :=
      ∃ octets, octets ++ rest = data ∧ Path before octets middle
    apply Ensures.fill written
    · exact ⟨[], rfl, .refl before⟩
    · rintro rest middle ⟨octets, whole, path⟩
      have middleOpen : middle.stream.lifecycle.isInputClosed = false := by
        rw [path.lifecycle_eq]
        exact inputOpen
      apply (fillOnce_path middleOpen rest).imp
      · rintro left after ⟨more, rest_eq, further⟩
        exact ⟨octets ++ more, by rw [List.append_assoc, rest_eq, whole], path.trans further⟩
      · rintro error after ⟨⟨more, left, rest_eq, further⟩, noViolation⟩
        have path : Path before (octetwise octets).flatten middle := by
          rwa [flatten_octetwise]
        have further : Path middle (octetwise more).flatten after := by
          rwa [flatten_octetwise]
        have begins : octetwise more <+: octetwise rest := by
          rw [← rest_eq]
          exact (List.prefix_append more left).map _
        rw [← whole, octetwise, List.map_append]
        exact path.interrupted begins further noViolation
    · rintro after ⟨octets, whole, path⟩
      rw [List.append_nil] at whole
      rw [flatten_octetwise, ← whole]
      exact path

theorem startRequest_path (inputOpen : before.stream.lifecycle.isInputClosed = false) :
    Ensures startRequest before
      (fun _ after => Path before (before.stream.requestLines.map HeadLine.text).flatten after)
      (fun error after =>
        Interrupted before (before.stream.requestLines.map HeadLine.text) error after) := by
  unfold startRequest
  rw [ensures_bind, ensures_get]
  dsimp only
  cases knownMethod : before.stream.pseudo.method with
  | none => exact Interrupted.unchanged
  | some method =>
      cases knownPath : before.stream.pseudo.path with
      | none => exact Interrupted.unchanged
      | some path =>
          have lines : before.stream.requestLines
              = .request method path before.stream.session.config.requestVersion
                :: (before.stream.pseudo.authority.map (.field hostName)).toList := by
            simp [Stream.requestLines, *]
          rw [lines, List.map_cons]
          apply (writeInPlace_path inputOpen _).bind
          · intro _ middle written
            rw [ensures_bind, ensures_modifyStream]
            have noted : Path before
                [(HeadLine.request method path before.stream.session.config.requestVersion).text].flatten
                { middle with stream := { middle.stream with requestStarted := true } } := by
              rw [List.flatten_singleton]
              exact written.trans_nil (Move.note ..).path
            cases before.stream.pseudo.authority with
            | none => exact noted
            | some authority =>
                have inputStillOpen := noted.lifecycle_eq ▸ inputOpen
                apply (writeLine_path inputStillOpen _).imp
                · intro _ after rest
                  have path := noted.trans rest
                  simpa using path
                · intro error after failed
                  exact noted.interrupted List.nil_prefix failed.1 failed.2
          · intro error after failed
            exact .nothing failed.1 failed.2

theorem ensureStarted_path (inputOpen : before.stream.lifecycle.isInputClosed = false) :
    Ensures ensureStarted before
      (fun _ after => Path before (before.stream.openingLines.map HeadLine.text).flatten after)
      (fun error after =>
        Interrupted before (before.stream.openingLines.map HeadLine.text) error after) := by
  unfold ensureStarted Stream.openingLines
  rw [ensures_bind, ensures_get]
  cases started : before.stream.requestStarted with
  | true => exact Path.refl before
  | false => exact startRequest_path inputOpen

/-- A head line, written by a program that may fail before or after it has written the line,
and preceded by the lines that open the request. -/
theorem ensureStarted_bind_path {program : FeedM Queue Unit} {line : HeadLine}
    (inputOpen : before.stream.lifecycle.isInputClosed = false)
    (writes : ∀ middle : Feed Queue, middle.stream.lifecycle.isInputClosed = false →
      Ensures program middle
        (fun _ after => Path middle line.text after)
        (fun error after =>
          (∃ written, written <+: [line.text] ∧ Path middle written.flatten after) ∧
            error.isViolation = false)) :
    Ensures (do ensureStarted; program) before
      (fun _ after => Path before
        ((before.stream.openingLines ++ [line]).map HeadLine.text).flatten after)
      (fun error after => Interrupted before
        ((before.stream.openingLines ++ [line]).map HeadLine.text) error after) := by
  rw [List.map_append]
  apply (ensureStarted_path inputOpen).bind
  · intro _ middle opening
    have inputStillOpen : middle.stream.lifecycle.isInputClosed = false := by
      rw [opening.lifecycle_eq]
      exact inputOpen
    apply (writes middle inputStillOpen).imp
    · intro _ after written
      rw [List.flatten_append, List.map_singleton, List.flatten_singleton]
      exact opening.trans written
    · intro error after failed
      rcases failed with ⟨⟨written, written_prefix, rest⟩, noViolation⟩
      exact opening.interrupted written_prefix rest noViolation
  · intro error after failed
    exact failed.of_prefix (List.prefix_append _ _)

theorem addPseudoHeader_path (name value : Bytes) :
    Ensures (addPseudoHeader name value) before
      (fun _ after => Path before [] after)
      (fun error after => Interrupted before [] error after) := by
  unfold addPseudoHeader
  rw [ensures_bind, ensures_get, ensures_bind, ensures_refuseIf]
  constructor
  · intro _
    exact .unchanged
  · intro _
    rw [ensures_bind, ensures_refuseIf]
    constructor
    · intro _
      exact .unchanged
    · intro _
      cases PseudoField.ofName? name with
      | none => exact Path.refl before
      | some field =>
          dsimp only
          rw [ensures_bind, ensures_refuseIf]
          constructor
          · intro _
            exact .unchanged
          · intro _
            exact (Move.note ..).path

theorem addHeader_path (name value : Bytes) :
    Ensures (addHeader name value) before
      (fun _ after =>
        Path before ((Stream.Call.addHeader name value).pieces before.stream).flatten after)
      (fun error after =>
        Interrupted before ((Stream.Call.addHeader name value).pieces before.stream)
          error after) := by
  unfold addHeader
  cases unnamed : name.isEmpty with
  | true =>
      simp only [Stream.Call.pieces, Stream.Call.lines, unnamed]
      exact Path.refl before
  | false =>
      rw [if_neg Bool.false_ne_true, ensures_bind, ensures_get, ensures_bind, ensures_refuseIf]
      constructor
      · intro _
        exact .unchanged
      · intro inputOpen
        cases pseudo : isPseudoName name with
        | true =>
            simp only [Stream.Call.pieces, Stream.Call.lines, unnamed, pseudo]
            exact addPseudoHeader_path name value
        | false =>
            simp only [Stream.Call.pieces, Stream.Call.lines, unnamed, pseudo]
            apply ensureStarted_bind_path inputOpen
            intro middle inputStillOpen
            exact writeLine_whole inputStillOpen _

/-- What ending the header section does once the request is started. -/
theorem endOfHeaders_path (inputOpen : before.stream.lifecycle.isInputClosed = false) :
    Ensures (do
        let _ ← openWork
        modifyStream ({ · with endOfHeaders := true })
        writeLine .blank
        push) before
      (fun _ after => Path before HeadLine.blank.text after)
      (fun error after =>
        (∃ written, written <+: [HeadLine.blank.text] ∧ Path before written.flatten after) ∧
          error.isViolation = false) := by
  apply (openWork_path inputOpen).bind
  · intro segment opened opening
    rw [ensures_bind, ensures_modifyStream]
    have noted : Path before []
        { opened with stream := { opened.stream with endOfHeaders := true } } :=
      opening.1.trans_nil (Move.note ..).path
    have inputOpenHere := noted.lifecycle_eq ▸ inputOpen
    apply (writeLine_path inputOpenHere .blank).bind
    · intro _ full written
      apply (push_path full).imp
      · intro _ after pushed
        exact (noted.trans written).trans_nil pushed.1
      · intro error after failed
        refine ⟨⟨[HeadLine.blank.text], List.prefix_rfl, ?_⟩, failed.2⟩
        rw [List.flatten_singleton]
        exact (noted.trans written).trans_nil failed.1
    · intro error after failed
      exact ⟨⟨[], List.nil_prefix, noted.trans_nil failed.1⟩, failed.2⟩
  · intro error after failed
    exact ⟨⟨[], List.nil_prefix, failed.1⟩, failed.2⟩

theorem endHeaders_path :
    Ensures endHeaders before
      (fun _ after => Path before (Stream.Call.endHeaders.pieces before.stream).flatten after)
      (fun error after =>
        Interrupted before (Stream.Call.endHeaders.pieces before.stream) error after) := by
  unfold endHeaders
  rw [ensures_bind, ensures_get, ensures_bind, ensures_refuseIf]
  constructor
  · intro _
    exact .unchanged
  · intro inputOpen
    simp only [Stream.Call.pieces, Stream.Call.lines]
    apply ensureStarted_bind_path inputOpen
    intro middle inputStillOpen
    exact endOfHeaders_path inputStillOpen

end Feed

end Reassembly
