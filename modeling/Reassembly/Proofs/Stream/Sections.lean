import Reassembly.Proofs.Stream.Fitting

/-!
# What follows the head

Ending the header section writes the blank line that a reader takes for the end of the head.
What a stream emits after it is what the calls after it write: pieces of data, but also
header lines and further blank lines, since no call asks whether the section is ended. So a
reader finds the data alone exactly if no such call succeeds.
-/

namespace Reassembly

namespace Stream.Call

/-- Whether a call writes a line of a head. -/
def writesLine : Call → Bool
  | addHeader name _ => !(name.isEmpty || isPseudoName name)
  | endHeaders => true
  | _ => false

/-- What a call writes once the request line is written. -/
def ownText : Call → Bytes
  | addHeader name value =>
      if name.isEmpty || isPseudoName name then [] else (HeadLine.field name value).text
  | endHeaders => HeadLine.blank.text
  | addData data => data
  | _ => []

/-- The piece of data that a call passes on, if it is there to do so. -/
def payload : Call → Bytes
  | addData data => data
  | _ => []

/-- The calls that were answered with success. -/
def succeeded (calls : List Call) (answers : List Answer) : List Call :=
  (calls.zip answers).filterMap fun (call, answer) => if answer.isOk then some call else none

theorem pieces_of_started (call : Call) {stream : Stream} (started : stream.requestStarted = true) :
    (call.pieces stream).flatten = call.ownText := by
  have noLines : stream.openingLines = [] := if_pos started
  cases call with
  | addHeader name value =>
      simp only [pieces, lines, ownText, noLines]
      split <;> simp
  | addData data => exact Feed.flatten_octetwise data
  | endHeaders => simp [pieces, lines, ownText, noLines]
  | _ => rfl

/-- A call that writes a line has no payload, and no line is empty. -/
theorem ownText_eq_payload_iff (call : Call) :
    call.ownText = call.payload ↔ call.writesLine = false := by
  cases call with
  | addHeader name value =>
      cases unwritten : name.isEmpty || isPseudoName name <;>
        simp [ownText, payload, writesLine, unwritten, HeadLine.text, Bytes.crlf]
  | endHeaders => simp [ownText, payload, writesLine, HeadLine.text, Bytes.crlf]
  | _ => simp [ownText, payload, writesLine]

theorem length_payload_le (call : Call) : call.payload.length ≤ call.ownText.length := by
  cases call <;> simp [payload, ownText]

theorem length_flatMap_payload_le (calls : List Call) :
    (calls.flatMap payload).length ≤ (calls.flatMap ownText).length := by
  induction calls with
  | nil => exact Nat.le_refl 0
  | cons call later ih =>
      simp only [List.flatMap_cons, List.length_append]
      exact Nat.add_le_add call.length_payload_le ih

/-- Calls write nothing but their payload if and only if none of them writes a line. -/
theorem flatMap_ownText_eq_iff (calls : List Call) :
    calls.flatMap ownText = calls.flatMap payload ↔ ∀ call ∈ calls, call.writesLine = false := by
  induction calls with
  | nil => simp
  | cons call later ih =>
      rw [List.forall_mem_cons, ← ih, ← ownText_eq_payload_iff, List.flatMap_cons,
        List.flatMap_cons]
      constructor
      · intro same
        have lengths := congrArg List.length same
        have := call.length_payload_le
        have := length_flatMap_payload_le later
        simp only [List.length_append] at lengths
        exact List.append_inj same (by omega)
      · rintro ⟨own, rest⟩
        rw [own, rest]

end Stream.Call

namespace Feed

open Delivery (LoggingSink)

variable {Queue : Type} {Value : Type} {before : Feed Queue}

section Segmentless

/-- The stream has no segment, and cannot open one. -/
structure Segmentless (feed : Feed Queue) : Prop where
  work : feed.stream.work = none
  unallocatable : ¬feed.capacity < Segment.allocationLimit

theorem openWork_bind_fails (without : before.Segmentless) {next : Segment → FeedM Queue Value} :
    Ensures (openWork >>= next) before (fun _ _ => False) (fun _ after => after = before) := by
  have failed : openWork.run before
      = .error (.outOfMemory { capacity := before.capacity }) before := by
    simp only [openWork, EStateM.run_bind, EStateM.run_get, without.work, Segment.allocate,
      without.unallocatable, ↓reduceIte]
    rfl
  rw [ensures_bind, Ensures, failed]

variable [LoggingSink Queue]

theorem ensureStarted_segmentless (without : before.Segmentless) :
    Ensures ensureStarted before (fun _ after => after = before)
      (fun _ after => after = before) := by
  unfold ensureStarted
  rw [ensures_bind, ensures_get]
  cases before.stream.requestStarted with
  | true => exact rfl
  | false =>
      unfold startRequest
      rw [if_neg Bool.false_ne_true, ensures_bind, ensures_get]
      dsimp only
      cases before.stream.pseudo.method with
      | none => exact rfl
      | some method =>
          cases before.stream.pseudo.path with
          | none => exact rfl
          | some path =>
              apply (openWork_bind_fails without).bind
              · intro _ _ impossible
                exact impossible.elim
              · intro error after same
                exact same

/-- A program after which the stream has no segment, whether it fails or not. -/
abbrev StaysWithout (program : FeedM Queue Value) (before : Feed Queue) : Prop :=
  Ensures program before (fun _ after => after.stream.work = none)
    (fun _ after => after.stream.work = none)

omit [LoggingSink Queue] in
theorem openWork_bind_staysWithout (without : before.Segmentless)
    {next : Segment → FeedM Queue Value} : StaysWithout (openWork >>= next) before := by
  apply (openWork_bind_fails without).imp
  · intro _ _ impossible
    exact impossible.elim
  · rintro _ after rfl
    exact without.work

theorem ensureStarted_bind_staysWithout (without : before.Segmentless)
    {next : Unit → FeedM Queue Value} (later : StaysWithout (next ()) before) :
    StaysWithout (ensureStarted >>= next) before := by
  apply (ensureStarted_segmentless without).bind
  · rintro _ middle rfl
    exact later
  · rintro _ after rfl
    exact without.work

omit [LoggingSink Queue] in
theorem refuseIf_bind_staysWithout (without : before.Segmentless) {condition : Bool}
    {fault : Violation} {next : Unit → FeedM Queue Value} (later : StaysWithout (next ()) before) :
    StaysWithout (refuseIf condition fault >>= next) before := by
  rw [StaysWithout, ensures_bind, ensures_refuseIf]
  exact ⟨fun _ => without.work, fun _ => later⟩

theorem addHeader_staysWithout (without : before.Segmentless) (name value : Bytes) :
    StaysWithout (addHeader name value) before := by
  unfold addHeader
  split
  · exact without.work
  · rw [StaysWithout, ensures_bind, ensures_get]
    apply refuseIf_bind_staysWithout without
    split
    · have preserves : Preserves (fun feed : Feed Queue => feed.stream.work)
          (addPseudoHeader name value) :=
        preserves_addPseudoHeader (fun _ _ => rfl) name value
      have same := preserves before
      simp only [without.work] at same
      exact same
    · apply ensureStarted_bind_staysWithout without
      exact openWork_bind_staysWithout without

theorem endHeaders_fails (without : before.Segmentless) :
    Ensures endHeaders before (fun _ _ => False) (fun _ after => after.stream.work = none) := by
  unfold endHeaders
  rw [ensures_bind, ensures_get, ensures_bind, ensures_refuseIf]
  constructor
  · exact fun _ => without.work
  · intro _
    apply (ensureStarted_segmentless without).bind
    · rintro _ middle rfl
      apply (openWork_bind_fails without).imp
      · intro _ _ impossible
        exact impossible
      · rintro _ after rfl
        exact without.work
    · rintro _ after rfl
      exact without.work

theorem push_staysWithout (without : before.stream.work = none) :
    StaysWithout push before := by
  rw [StaysWithout, Ensures, run_push_of_none without]
  exact without

theorem closeInput_staysWithout (without : before.Segmentless) :
    StaysWithout closeInput before := by
  have moved : (before.moved before.stream.lifecycle.closeInput).stream.work = none := by
    rw [moved_eq]
    exact without.work
  rw [StaysWithout, ensures_closeInput rfl]
  constructor
  · exact fun _ => moved
  · intro _
    apply (push_staysWithout moved).bind
    · intro _ middle absent
      rw [ensures_deliverEnd]
      split <;> exact absent
    · intro error after absent
      exact absent

/-- No call gets a segment for a stream that cannot have one. -/
theorem work_run_of_segmentless (without : before.Segmentless) (call : Stream.Call) :
    (call.run before).2.stream.work = none := by
  apply Stream.Call.holds_after_run fun after => after.stream.work = none
  cases call with
  | addHeader name value => exact ensures_bind_pure.mpr (addHeader_staysWithout without name value)
  | addData data =>
      apply ensures_bind_pure.mpr
      apply refuseIf_bind_staysWithout without
      rw [fill_eq, fillOnce, bind_assoc]
      exact openWork_bind_staysWithout without
  | endHeaders =>
      apply ensures_bind_pure.mpr
      apply (endHeaders_fails without).imp
      · intro _ _ impossible
        exact impossible.elim
      · intro error after absent
        exact absent
  | push => exact ensures_bind_pure.mpr (push_staysWithout without.work)
  | closeInput => exact ensures_bind_pure.mpr (closeInput_staysWithout without)
  | closeOutput =>
      change (before.moved before.stream.lifecycle.closeOutput).stream.work = none
      rw [moved_eq]
      exact without.work
  | abort => exact without.work
  | observe observer => exact without.work
  | setResponseHead head => exact without.work
  | takeResponseHead => exact without.work

theorem segmentless_run (without : before.Segmentless) (call : Stream.Call) :
    (call.run before).2.Segmentless where
  work := work_run_of_segmentless without call
  unallocatable := by
    rw [capacity, session_run call before]
    exact without.unallocatable

theorem segmentless_runAll (calls : List Stream.Call) (without : before.Segmentless) :
    (Stream.Call.runAll calls before).2.Segmentless := by
  induction calls generalizing before with
  | nil => exact without
  | cons call later ih => exact ih (segmentless_run without call)

end Segmentless

section Underway

variable [LoggingSink Queue] {accepts : StreamId → Queue → Prop}

/-- The request is started, and nothing but a line that is too long or a closed input keeps a
call from writing. -/
structure Underway (accepts : StreamId → Queue → Prop) (feed : Feed Queue) : Prop where
  sized : feed.WellSized
  allocatable : feed.capacity < Segment.allocationLimit
  roomy : HeadLine.blank.text.length ≤ feed.capacity
  accepting : accepts feed.stream.id feed.queue
  started : feed.stream.requestStarted = true

omit [LoggingSink Queue] in
theorem Underway.announced (underway : before.Underway accepts)
    (inputOpen : before.stream.lifecycle.isInputClosed = false) :
    before.Announced accepts before.stream.session where
  ready := ⟨inputOpen, underway.allocatable, underway.sized, underway.accepting⟩
  started := underway.started
  session_eq := rfl

omit [LoggingSink Queue] in
theorem Underway.unopened (underway : before.Underway accepts) :
    before.stream.requestStarted = false → before.stream.work = none := by
  intro unstarted
  rw [underway.started] at unstarted
  cases unstarted

/-- Nothing is left to do about the start of a request that is started. -/
theorem ensures_ensureStarted_bind {next : Unit → FeedM Queue Value}
    {success : Value → Feed Queue → Prop} {failure : StreamError → Feed Queue → Prop}
    (started : before.stream.requestStarted = true) :
    Ensures (ensureStarted >>= next) before success failure ↔
      Ensures (next ()) before success failure := by
  unfold ensureStarted
  rw [ensures_bind, ensures_bind, ensures_get, started, if_pos rfl, ensures_pure]

section Starting

variable (willing : Willing accepts)

include willing

theorem ensureStarted_begins (ready : before.Ready accepts) :
    Ensures ensureStarted before (fun _ after => Begins accepts before after)
      (fun _ _ => True) := by
  cases faulty : before.stream.startFault? with
  | some fault =>
      apply (ensureStarted_faults faulty).imp
      · intro _ _ impossible
        exact impossible.elim
      · exact fun _ _ _ => trivial
  | none =>
      by_cases supported : ∀ line ∈ before.stream.openingLines, line.unsupportedVersion? = none
      · apply Ensures.imp (ensureStarted_unless willing ready faulty supported)
        · exact fun _ after begun => begun.2
        · exact fun _ _ _ => trivial
      · apply (ensureStarted_unsupported ready faulty supported).imp
        · intro _ _ impossible
          exact impossible.elim
        · exact fun _ _ _ => trivial

/-- The blank line has been written, so segments have room for it. -/
theorem endHeaders_underway (allocatable : before.capacity < Segment.allocationLimit)
    (sized : before.WellSized) (accepting : accepts before.stream.id before.queue) :
    Ensures endHeaders before (fun _ after => after.Underway accepts) (fun _ _ => True) := by
  unfold endHeaders
  rw [ensures_bind, ensures_get, ensures_bind, ensures_refuseIf]
  constructor
  · exact fun _ => trivial
  · intro inputOpen
    apply (ensureStarted_begins willing ⟨inputOpen, allocatable, sized, accepting⟩).bind
    · intro _ middle begun
      apply Ensures.bind (openWork_succeeds begun.ready)
      · rintro _ opened ⟨opening, _⟩
        rw [ensures_bind, ensures_modifyStream]
        have noted : Ready accepts
            { opened with stream := { opened.stream with endOfHeaders := true } } :=
          ⟨opening.ready.inputOpen, opening.ready.allocatable, opening.ready.sized,
            opening.ready.accepting⟩
        apply Ensures.bind (writeLine_unless willing noted rfl)
        · rintro _ full ⟨room, written⟩
          apply Ensures.imp (push_succeeds willing written.ready)
          · rintro _ after ⟨pushed, _⟩
            have continues := written.trans pushed
            exact {
              sized := continues.ready.sized
              allocatable := continues.ready.allocatable
              accepting := continues.ready.accepting
              started := continues.started_eq.trans (opening.started_eq.trans begun.started)
              roomy := by
                rw [continues.capacity_eq]
                exact Nat.not_lt.mp room }
          · intro _ _ impossible
            exact impossible.elim
        · exact fun _ _ _ => trivial
      · intro _ _ impossible
        exact impossible.elim
    · exact fun _ _ _ => trivial

/-- Only a closed input keeps a stream whose request is under way from taking data. -/
theorem addData_succeeds_of_underway (underway : before.Underway accepts) {data : Bytes}
    (faultless : (Stream.Call.addData data).fault? before.stream = none) :
    Succeeds (addData data) before (fun _ _ => True) := by
  have announced := underway.announced (Stream.Call.addData_faultless faultless)
  have roomy : 0 < before.capacity := Nat.lt_of_lt_of_le Nat.zero_lt_two underway.roomy
  exact (addData_succeeds willing announced.ready roomy data).imp fun _ _ _ => trivial

/-- Only a closed input keeps it from ending its header section, however often it has. -/
theorem endHeaders_succeeds_of_underway (underway : before.Underway accepts)
    (faultless : Stream.Call.endHeaders.fault? before.stream = none) :
    Succeeds endHeaders before (fun _ _ => True) := by
  have announced := underway.announced (Stream.Call.endHeaders_faultless faultless).1
  exact (endHeaders_succeeds willing announced.ready announced.announcing.startable
    ⟨rfl, underway.roomy⟩).imp fun _ _ _ => trivial

end Starting

omit [LoggingSink Queue] in
theorem addHeader_fails_clean [LoggingSink Queue] (started : before.stream.requestStarted = true)
    (name value : Bytes) :
    Ensures (addHeader name value) before (fun _ _ => True)
      (fun _ after => Path before [] after) := by
  unfold addHeader
  split
  · trivial
  · rw [ensures_bind, ensures_get, ensures_bind, ensures_refuseIf]
    constructor
    · exact fun _ => .refl before
    · intro inputOpen
      split
      · apply (addPseudoHeader_path name value).imp
        · exact fun _ _ _ => trivial
        · rintro error after ⟨written, begins, path, _⟩
          rwa [List.prefix_nil.mp begins] at path
      · rw [ensures_ensureStarted_bind started]
        apply (writeLine_path inputOpen _).imp
        · exact fun _ _ _ => trivial
        · exact fun _ after failed => failed.1

end Underway

end Feed

namespace Stream.Call

open Delivery (LoggingSink Scripted)
open Feed (Willing Underway Succeeds Ensures Preserves Overlooks)

variable {Queue : Type} [LoggingSink Queue] {accepts : StreamId → Queue → Prop}
  {before : Feed Queue}

/-- Once the request is under way, a call that fails has written nothing. Only a call that writes
several pieces could fail between them, and such a call goes through. -/
theorem program_fails_clean (willing : Willing accepts) (underway : before.Underway accepts)
    (call : Call) :
    Ensures call.program before (fun _ _ => True)
      (fun _ after => after.emitted = before.emitted) := by
  have goesThrough {program : FeedM Queue Unit}
      (succeeds : Succeeds program before fun _ _ => True) :
      Ensures program before (fun _ _ => True)
        (fun _ after => after.emitted = before.emitted) := by
    apply Ensures.imp succeeds
    · exact fun _ _ _ => trivial
    · intro _ _ impossible
      exact impossible.elim
  cases noticed : call.fault? before.stream with
  | some fault =>
      apply (Feed.program_faults call (fun _ => underway.unopened) noticed).imp
      · exact fun _ _ _ => trivial
      · rintro error after ⟨_, rfl⟩
        rfl
  | none =>
      cases call with
      | addHeader name value =>
          apply Feed.ensures_bind_pure.mpr
          apply (Feed.addHeader_fails_clean underway.started name value).imp
          · exact fun _ _ _ => trivial
          · intro error after path
            rw [path.emitted_eq, List.append_nil]
      | addData data =>
          exact Feed.ensures_bind_pure.mpr
            (goesThrough (Feed.addData_succeeds_of_underway willing underway noticed))
      | endHeaders =>
          exact Feed.ensures_bind_pure.mpr
            (goesThrough (Feed.endHeaders_succeeds_of_underway willing underway noticed))
      | push =>
          apply Feed.ensures_bind_pure.mpr
          apply (Feed.push_path before).imp
          · exact fun _ _ _ => trivial
          · rintro error after ⟨path, _⟩
            rw [path.emitted_eq, List.append_nil]
      | closeInput =>
          apply Feed.ensures_bind_pure.mpr
          apply (Feed.closeInput_path before).imp
          · exact fun _ _ _ => trivial
          · rintro error after ⟨path, _⟩
            rw [path.emitted_eq, List.append_nil, Feed.emitted_moved]
      | _ => exact trivial

/-- What a call adds once the request is under way: its own text if it succeeds, and nothing if
it fails. -/
theorem emitted_run_of_underway (willing : Willing accepts) (underway : before.Underway accepts)
    (call : Call) :
    match call.run before with
    | (.ok _, after) => after.emitted = before.emitted ++ call.ownText
    | (.error _, after) => after.emitted = before.emitted := by
  have added := Feed.emitted_call call before
  have clean := run_of_ensures (program_fails_clean willing underway call)
  rcases result : call.run before with ⟨answer, after⟩
  rw [result] at added clean
  cases answer with
  | ok reply => rwa [call.pieces_of_started underway.started] at added
  | error error => exact clean

omit [LoggingSink Queue] in
theorem overlooks_requestStarted :
    Overlooks fun feed : Feed Queue => feed.stream.requestStarted where
  work _ _ := rfl
  queue _ _ := rfl
  endDelivered _ := rfl

/-- How far the opening of the request is: whether it is started, and with which pseudo-headers. -/
abbrev opening (feed : Feed Queue) : Bool × PseudoHeaders :=
  (feed.stream.requestStarted, feed.stream.pseudo)

omit [LoggingSink Queue] in
theorem overlooks_opening : Overlooks (opening : Feed Queue → Bool × PseudoHeaders) where
  work _ _ := rfl
  queue _ _ := rfl
  endDelivered _ := rfl

/-- Whether a call passes on a header field or ends the header section. -/
def isOnHead : Call → Bool
  | addHeader _ _ | endHeaders => true
  | _ => false

/-- Only the calls on the head have to do with it. -/
theorem opening_run (call : Call) (elsewhere : call.isOnHead = false) :
    opening (call.run before).2 = opening before := by
  have moved (next : Lifecycle) : opening (before.moved next) = opening before := by
    rw [Feed.moved_eq]
  cases call with
  | addData data => exact view_run _ rfl (Feed.preserves_addData overlooks_opening data) before
  | push => exact view_run _ rfl (Feed.preserves_push overlooks_opening) before
  | closeInput => exact (view_run_closeInput overlooks_opening before).trans (moved _)
  | closeOutput => exact moved _
  | addHeader name value => cases elsewhere
  | endHeaders => cases elsewhere
  | _ => exact rfl

theorem addHeader_keeps_opening (started : before.stream.requestStarted = true)
    (name value : Bytes) :
    Ensures (Feed.addHeader name value) before (fun _ after => opening after = opening before)
      (fun _ after => opening after = opening before) := by
  unfold Feed.addHeader
  split
  · exact rfl
  · rw [Feed.ensures_bind, Feed.ensures_get, Feed.ensures_bind, Feed.ensures_refuseIf]
    constructor
    · exact fun _ => rfl
    · intro _
      split
      · unfold Feed.addPseudoHeader
        rw [Feed.ensures_bind, Feed.ensures_get, Feed.ensures_bind, Feed.ensures_refuseIf, started]
        exact ⟨fun _ => rfl, fun refused => by cases refused⟩
      · rw [Feed.ensures_ensureStarted_bind started]
        exact Feed.preserves_writeLine overlooks_opening _ before

theorem endHeaders_keeps_opening (started : before.stream.requestStarted = true) :
    Ensures Feed.endHeaders before (fun _ after => opening after = opening before)
      (fun _ after => opening after = opening before) := by
  unfold Feed.endHeaders
  rw [Feed.ensures_bind, Feed.ensures_get, Feed.ensures_bind, Feed.ensures_refuseIf]
  constructor
  · exact fun _ => rfl
  · intro _
    rw [Feed.ensures_ensureStarted_bind started]
    exact Feed.preserves_endOfHeaders overlooks_opening (fun _ => rfl) before

/-- A request that is started stays started, and with the same pseudo-headers. -/
theorem opening_run_of_started (call : Call) (started : before.stream.requestStarted = true) :
    opening (call.run before).2 = opening before := by
  cases onHead : call.isOnHead with
  | false => exact opening_run call onHead
  | true =>
      apply holds_after_run fun after => opening after = opening before
      cases call with
      | addHeader name value =>
          exact Feed.ensures_bind_pure.mpr (addHeader_keeps_opening started name value)
      | endHeaders => exact Feed.ensures_bind_pure.mpr (endHeaders_keeps_opening started)
      | _ => cases onHead

theorem requestStarted_run (call : Call) (started : before.stream.requestStarted = true) :
    (call.run before).2.stream.requestStarted = before.stream.requestStarted :=
  congrArg Prod.fst (opening_run_of_started call started)

theorem run_underway (keeps : ∀ id, Delivery.Keeps id (accepts id)) (call : Call)
    (underway : before.Underway accepts) : (call.run before).2.Underway accepts where
  sized := run_wellSized call underway.sized
  allocatable := by
    rw [Feed.capacity, Feed.session_run call before]
    exact underway.allocatable
  roomy := by
    rw [Feed.capacity, Feed.session_run call before]
    exact underway.roomy
  accepting := by
    rw [id_run call before]
    exact queue_run (keeps _) call rfl underway.accepting
  started := (requestStarted_run call underway.started).trans underway.started

/-- What a run adds once the request is under way: the texts of the calls that succeed. -/
theorem emitted_runAll_of_underway (willing : Willing accepts)
    (keeps : ∀ id, Delivery.Keeps id (accepts id)) (calls : List Call)
    (underway : before.Underway accepts) :
    (runAll calls before).2.emitted
      = before.emitted ++ (succeeded calls (runAll calls before).1).flatMap ownText := by
  induction calls generalizing before with
  | nil => exact (List.append_nil _).symm
  | cons call later ih =>
      have first := emitted_run_of_underway willing underway call
      have rest := ih (run_underway keeps call underway)
      rcases result : call.run before with ⟨answer, after⟩
      rw [result] at first rest
      simp only [runAll, result]
      cases answer with
      | ok reply =>
          dsimp only at first rest
          rw [rest, first, List.append_assoc]
          rfl
      | error error =>
          dsimp only at first rest
          rw [rest, first]
          rfl

/-- A stream that has ended its header section has a session that can allocate segments. -/
theorem allocatable_of_endHeaders (id : StreamId) (session : Session) (sink : Queue)
    (earlier : List Call) {reply : Reply}
    (ended : (endHeaders.run (runAll earlier (Feed.fresh id session sink)).2).1 = .ok reply) :
    session.config.segmentCapacity < Segment.allocationLimit := by
  by_contra unallocatable
  have fresh : (Feed.fresh id session sink).Segmentless := ⟨rfl, unallocatable⟩
  have fails := run_of_done endHeaders rfl
    (Feed.endHeaders_fails (Feed.segmentless_runAll earlier fresh))
  rcases result : endHeaders.run (runAll earlier (Feed.fresh id session sink)).2 with
    ⟨answer, after⟩
  rw [result] at ended fails
  cases ended
  exact fails.2

/-- Once a call has ended the header section of a stream whose sink accepts everything, the
stream emits what the later calls write that succeed, also if they write more lines. That is
the data passed on by these calls if and only if none of them writes a line. -/
theorem emitted_after_endHeaders (id : StreamId) (session : Session)
    (earlier later : List Call) :
    let before := (runAll earlier (Feed.fresh id session ({} : Scripted))).2
    let ended := (endHeaders.run before).2
    let successes := succeeded later (runAll later ended).1
    (endHeaders.run before).1 = .ok .done →
      (runAll later ended).2.emitted = ended.emitted ++ successes.flatMap ownText ∧
      ((runAll later ended).2.emitted = ended.emitted ++ successes.flatMap payload ↔
        ∀ call ∈ successes, call.writesLine = false) := by
  intro before ended successes success
  have underway : ended.Underway Scripted.Generous := by
    have allocatable := allocatable_of_endHeaders id session _ earlier success
    have belongs : BelongsTo id session before := runAll_belongsTo id session _ earlier
    rw [← belongs.session_eq] at allocatable
    have outcome := run_of_done endHeaders rfl (Feed.endHeaders_underway Scripted.willing_generous
      allocatable belongs.sized
      (runAll_generous id session (Scripted.generous_empty id []) earlier))
    rcases result : endHeaders.run before with ⟨answer, after⟩
    have ended_eq : ended = after := congrArg Prod.snd result
    rw [ended_eq]
    rw [result] at success outcome
    cases success
    exact outcome.2
  have emitted_eq := emitted_runAll_of_underway Scripted.willing_generous
    Scripted.keeps_generous later underway
  refine ⟨emitted_eq, ?_⟩
  rw [emitted_eq, List.append_cancel_left_eq]
  exact flatMap_ownText_eq_iff successes

/-- A header line and a second blank line between two pieces of data. -/
theorem emitted_after_endHeaders_trailer :
    let before := (runAll
      [addHeader (Bytes.ascii ":method") (Bytes.ascii "GET"),
        addHeader (Bytes.ascii ":path") (Bytes.ascii "/")]
      (Feed.fresh 1 {} ({} : Scripted))).2
    let ended := (endHeaders.run before).2
    let later := [addData (Bytes.ascii "x"), addHeader (Bytes.ascii "a") (Bytes.ascii "b"),
      endHeaders, addData (Bytes.ascii "y")]
    (runAll later ended).2.emitted
      = ended.emitted ++ (succeeded later (runAll later ended).1).flatMap ownText := by
  intro before ended later
  exact (emitted_after_endHeaders 1 {} _ later (by decide)).1

theorem second_blank_line :
    let before := (runAll
      [addHeader (Bytes.ascii ":method") (Bytes.ascii "GET"),
        addHeader (Bytes.ascii ":path") (Bytes.ascii "/")]
      (Feed.fresh 1 {} ({} : Scripted))).2
    let ended := (endHeaders.run before).2
    (endHeaders.run before).1 = .ok .done ∧ (endHeaders.run ended).1 = .ok .done ∧
      (endHeaders.run ended).2.emitted = ended.emitted ++ Bytes.crlf := by
  decide

end Stream.Call

end Reassembly
