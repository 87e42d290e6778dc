import Reassembly.Proofs.Stream.Draft

/-!
# Streams keep to their drafts

A tame feed is one on which nothing but the peer can make a call fail: its session can
allocate segments with some room, its sink accepts what it delivers, and it has a segment only
if its request is started. Every call that passes on what the peer sends keeps a tame feed to
its draft, if the lines that it writes fit into a segment.
-/

namespace Reassembly

namespace Feed

open Delivery (LoggingSink)
open Reassembly.Stream (Call Answer)

variable {Queue : Type} [LoggingSink Queue] {accepts : StreamId → Queue → Prop}
  {before after : Feed Queue} {call : Call}

/-- What the calls so far have made of the stream. -/
def draft (feed : Feed Queue) : Draft where
  stream := feed.stream.outline
  text := feed.emitted

/-- Only the peer can make a call fail, or a line that is too long. -/
structure Tame (accepts : StreamId → Queue → Prop) (feed : Feed Queue) : Prop where
  orderly : feed.Orderly
  roomy : 0 < feed.capacity
  allocatable : feed.capacity < Segment.allocationLimit
  textual : ∀ version, feed.stream.session.config.requestVersion = some version →
    version.isTextual = true
  ended_eq : feed.stream.endDelivered = feed.stream.lifecycle.isInputClosed
  /-- No segment is opened before the request is started. -/
  unopened : feed.stream.requestStarted = false → feed.stream.work = none
  accepting : feed.stream.endDelivered = false → accepts feed.stream.id feed.queue

theorem Tame.ready (tame : before.Tame accepts)
    (inputOpen : before.stream.lifecycle.isInputClosed = false) : before.Ready accepts where
  inputOpen := inputOpen
  allocatable := tame.allocatable
  sized := tame.orderly.sized
  accepting := tame.accepting (tame.ended_eq.trans inputOpen)

/-- A feed that is ready for more is still tame. -/
theorem Tame.of_ready (tame : before.Tame accepts) (orderly : after.Orderly)
    (ready : after.Ready accepts) (session_eq : after.stream.session = before.stream.session)
    (unopened : after.stream.requestStarted = false → after.stream.work = none) :
    after.Tame accepts where
  orderly := orderly
  roomy := by
    rw [capacity, session_eq]
    exact tame.roomy
  allocatable := ready.allocatable
  textual := by
    rw [session_eq]
    exact tame.textual
  ended_eq := by
    rw [ready.inputOpen]
    cases delivered : after.stream.endDelivered with
    | false => rfl
    | true => exact (orderly.delivered delivered).1.symm.trans ready.inputOpen
  unopened := unopened
  accepting _ := ready.accepting

theorem Tame.of_begins (tame : before.Tame accepts) (orderly : after.Orderly)
    (begun : Begins accepts before after) : after.Tame accepts := by
  apply tame.of_ready orderly begun.ready begun.session_eq
  intro unstarted
  rw [begun.started] at unstarted
  cases unstarted

theorem run_orderly (call : Call) (orderly : before.Orderly) : (call.run before).2.Orderly :=
  Call.run_keeps start_orderly Move.orderly call orderly

theorem session_run (call : Call) (before : Feed Queue) :
    (call.run before).2.stream.session = before.stream.session := by
  rcases call.exists_path before with ⟨octets, path⟩
  rw [path.session_eq, Call.start, moved_eq]

/-- A call as the draft has it. -/
structure Drafted (accepts : StreamId → Queue → Prop) (call : Call) (before : Feed Queue)
    (result : Answer × Feed Queue) : Prop where
  answer_eq : result.1 = before.draft.answer call
  draft_eq : result.2.draft = before.draft.next call
  tame : result.2.Tame accepts

theorem drafted_of_fault (tame : before.Tame accepts) {fault : Violation}
    (faulty : call.fault? before.stream = some fault) :
    Drafted accepts call before (call.run before) := by
  have faultyToo : call.fault? before.draft.stream = some fault :=
    (call.fault?_outline before.stream).trans faulty
  rw [run_of_fault (fun _ => tame.unopened) faulty]
  refine ⟨?_, ?_, tame⟩
  · rw [Draft.answer, faultyToo]
  · rw [Draft.next, faultyToo]

theorem drafted_of_success (faultless : call.fault? before.stream = none)
    (answer_eq : (call.run before).1 = .ok .done)
    (outline_eq : (call.run before).2.stream.outline = (call.noted before.stream).outline)
    (tame : (call.run before).2.Tame accepts) :
    Drafted accepts call before (call.run before) := by
  have faultlessToo : call.fault? before.draft.stream = none :=
    (call.fault?_outline before.stream).trans faultless
  refine ⟨?_, ?_, tame⟩
  · rw [Draft.answer, faultlessToo, answer_eq]
  · have emitted_eq : (call.run before).2.emitted
        = before.emitted ++ (call.pieces before.stream).flatten := by
      have added := emitted_call call before
      rcases result : call.run before with ⟨answer, last⟩
      rw [result] at added answer_eq
      cases answer_eq
      exact added
    rw [Draft.next, faultlessToo, draft, emitted_eq, outline_eq]
    simp only [draft, Call.noted_outline, Call.pieces_outline]

omit [LoggingSink Queue] in
theorem run_of_succeeds [Delivery.Sink Queue] (call : Call) {program : FeedM Queue Unit}
    {success : Unit → Feed Queue → Prop} (consists : call.program = do program; pure .done)
    (succeeds : Succeeds program before success) :
    (call.run before).1 = .ok .done ∧ success () (call.run before).2 := by
  have outcome := Call.run_of_done call consists succeeds
  rcases result : call.run before with ⟨answer, last⟩
  rw [result] at outcome
  cases answer with
  | ok reply => exact ⟨congrArg Except.ok outcome.1, outcome.2⟩
  | error error => exact outcome.elim

section Lines

variable {stream : Stream} {line : HeadLine}

omit [LoggingSink Queue] in
theorem supported_of_mem_openingLines
    (textual : ∀ version, stream.session.config.requestVersion = some version →
      version.isTextual = true) (line_mem : line ∈ stream.openingLines) :
    line.unsupportedVersion? = none := by
  unfold Stream.openingLines Stream.requestLines at line_mem
  split at line_mem
  · cases line_mem
  · split at line_mem
    · rcases List.mem_cons.mp line_mem with rfl | host
      · cases named : stream.session.config.requestVersion with
        | none => rfl
        | some version => exact if_pos (textual version named)
      · rcases Option.map_eq_some_iff.mp (Option.mem_toList.mp host) with ⟨authority, _, rfl⟩
        rfl
    · cases line_mem

theorem Tame.openingLines_fit (tame : before.Tame accepts)
    (short : ∀ line ∈ before.stream.openingLines, line.text.length ≤ before.capacity) :
    ∀ line ∈ before.stream.openingLines, Fits before.capacity line :=
  fun line line_mem =>
    ⟨supported_of_mem_openingLines tame.textual line_mem, short line line_mem⟩

theorem Tame.startable (tame : before.Tame accepts)
    (faultless : before.stream.startFault? = none)
    (short : ∀ line ∈ before.stream.openingLines, line.text.length ≤ before.capacity) :
    before.Startable where
  work := tame.unopened
  known unstarted := by
    unfold Stream.startFault? at faultless
    unfold Stream.requestLines
    rw [unstarted, if_neg Bool.false_ne_true] at faultless
    cases method : before.stream.pseudo.method with
    | none => simp [method] at faultless
    | some name =>
        cases path : before.stream.pseudo.path with
        | none => simp [method, path] at faultless
        | some target => simp
  fit := tame.openingLines_fit short

end Lines

omit [LoggingSink Queue] in
theorem overlooks_outline {View : Type} (view : Stream → View) :
    Overlooks fun feed : Feed Queue => view feed.stream.outline where
  work _ _ := rfl
  queue _ _ := rfl
  endDelivered _ := rfl

omit [LoggingSink Queue] in
theorem addPseudoHeader_succeeds {name value : Bytes}
    (unopened : before.stream.requestStarted = false → before.stream.work = none)
    (faultless : before.stream.pseudoFault? name value = none) :
    Succeeds (addPseudoHeader name value) before (fun _ after => after = { before with
      stream := match PseudoField.ofName? name with
        | none => before.stream
        | some field =>
            { before.stream with pseudo := before.stream.pseudo.put value field } }) := by
  unfold addPseudoHeader
  rw [Succeeds, ensures_bind, ensures_get]
  unfold Stream.pseudoFault? at faultless
  cases started : before.stream.requestStarted with
  | true => simp [started] at faultless
  | false =>
      have early : (before.stream.requestStarted || before.stream.work.isSome) = false := by
        rw [started, unopened started]
        rfl
      rw [started, if_neg Bool.false_ne_true] at faultless
      apply succeeds_refuseIf_bind early
      cases valueless : value.isEmpty with
      | true => simp [valueless] at faultless
      | false =>
          rw [valueless, if_neg Bool.false_ne_true] at faultless
          apply succeeds_refuseIf_bind rfl
          cases named : PseudoField.ofName? name with
          | none => exact rfl
          | some field =>
              rw [named] at faultless
              dsimp only at faultless ⊢
              cases known : (before.stream.pseudo.get? field).isSome with
              | true => simp [known] at faultless
              | false =>
                  apply succeeds_refuseIf_bind rfl
                  exact rfl

theorem drafted_nameless (tame : before.Tame accepts) {name value : Bytes}
    (nameless : name.isEmpty = true) :
    Drafted accepts (.addHeader name value) before ((Call.addHeader name value).run before) := by
  have faultless : (Call.addHeader name value).fault? before.stream = none := by
    simp only [Call.fault?, nameless, if_true]
  have run_eq : (Call.addHeader name value).run before = (.ok .done, before) := by
    simp [Call.run, Call.program, addHeader, nameless]
  apply drafted_of_success faultless
  · rw [run_eq]
  · rw [run_eq, Call.noted_of_nameless nameless]
  · rw [run_eq]
    exact tame

theorem drafted_pseudo (tame : before.Tame accepts) {name value : Bytes}
    (named : name.isEmpty = false) (pseudo : isPseudoName name = true)
    (faultless : (Call.addHeader name value).fault? before.stream = none) :
    Drafted accepts (.addHeader name value) before ((Call.addHeader name value).run before) := by
  rcases Call.addHeader_faultless named faultless with ⟨inputOpen, fine⟩
  rw [pseudo, if_pos rfl] at fine
  have succeeds : Succeeds (addHeader name value) before (fun _ after => after = { before with
      stream := (Call.addHeader name value).noted before.stream }) := by
    unfold addHeader
    rw [named, if_neg Bool.false_ne_true, Succeeds, ensures_bind, ensures_get]
    apply succeeds_refuseIf_bind inputOpen
    rw [pseudo, if_pos rfl, Call.noted_of_pseudo named pseudo]
    exact addPseudoHeader_succeeds tame.unopened fine
  rcases run_of_succeeds (.addHeader name value) rfl succeeds with ⟨answer_eq, after_eq⟩
  have orderly := run_orderly (.addHeader name value) tame.orderly
  apply drafted_of_success faultless answer_eq
  · rw [after_eq]
  · rw [after_eq, Call.noted_of_pseudo named pseudo] at orderly ⊢
    split at orderly
    · exact tame
    · exact ⟨orderly, tame.roomy, tame.allocatable, tame.textual, tame.ended_eq,
        tame.unopened, tame.accepting⟩

theorem preserves_regular {name value : Bytes} (named : name.isEmpty = false)
    (regular : isPseudoName name = false) :
    Preserves (fun feed : Feed Queue => feed.stream.outline.withStart) (addHeader name value) := by
  have overlooks : Overlooks fun feed : Feed Queue => feed.stream.outline.withStart :=
    overlooks_outline _
  unfold addHeader
  rw [named, if_neg Bool.false_ne_true]
  apply preserves_get
  intro feed
  apply (preserves_refuseIf _ _).bind
  intro _
  rw [regular, if_neg Bool.false_ne_true]
  apply (preserves_ensureStarted overlooks fun _ => rfl).bind
  intro _
  exact preserves_writeLine overlooks _

omit [LoggingSink Queue] in
/-- What the last program ensures from wherever it starts, programs before it do not matter. -/
theorem ensures_bind_of_forall {Value Other : Type} {program : FeedM Queue Other}
    {next : Other → FeedM Queue Value} {success : Value → Feed Queue → Prop}
    (second : ∀ value middle, Ensures (next value) middle success fun _ _ => True) :
    Ensures (program >>= next) before success fun _ _ => True := by
  rw [ensures_bind, Ensures]
  cases program.run before with
  | ok value middle => exact second value middle
  | error error after => trivial

theorem ensures_endOfHeaders_endHeaders (before : Feed Queue) :
    Ensures endHeaders before (fun _ after => after.stream.endOfHeaders = true)
      (fun _ _ => True) := by
  have overlooks : Overlooks fun feed : Feed Queue => feed.stream.endOfHeaders :=
    ⟨fun _ _ => rfl, fun _ _ => rfl, fun _ => rfl⟩
  have delivering : Preserves (fun feed : Feed Queue => feed.stream.endOfHeaders)
      (do writeLine .blank; push) :=
    (preserves_writeLine overlooks _).bind fun _ => preserves_push overlooks
  -- the checks, the opening lines and the segment come first
  iterate 4
    apply ensures_bind_of_forall
    intro _ middle
  rw [ensures_bind, ensures_modifyStream]
  apply (delivering _).imp
  · intro _ after same
    exact same
  · intro _ _ _
    trivial

theorem outline_closeInput (before : Feed Queue) :
    (Call.closeInput.run before).2.stream.outline
      = (Call.closeInput.noted before.stream).outline := by
  have shown : (Call.closeInput.run before).2.stream.outline
      = (Call.closeInput.start before).stream.outline :=
    Call.view_run_closeInput (overlooks_outline id) before
  rw [shown, Call.start, moved_eq]
  rfl

section Willing

variable (willing : Willing accepts)

include willing

theorem drafted_header (tame : before.Tame accepts) {name value : Bytes}
    (named : name.isEmpty = false) (regular : isPseudoName name = false)
    (faultless : (Call.addHeader name value).fault? before.stream = none)
    (short : ∀ line ∈ (Call.addHeader name value).lines before.stream,
      line.text.length ≤ before.capacity) :
    Drafted accepts (.addHeader name value) before ((Call.addHeader name value).run before) := by
  rcases Call.addHeader_faultless named faultless with ⟨inputOpen, fine⟩
  rw [regular, if_neg Bool.false_ne_true] at fine
  simp only [Call.lines, named, regular, Bool.or_self, Bool.false_eq_true, if_false] at short
  have startable := tame.startable fine fun line line_mem =>
    short line (List.mem_append_left _ line_mem)
  have fits : Fits before.capacity (.field name value) :=
    ⟨rfl, short _ (List.mem_append_right _ (List.mem_singleton_self _))⟩
  have nonempty : name ≠ [] := by simpa using named
  have succeeds :=
    addHeader_succeeds willing (tame.ready inputOpen) startable nonempty regular fits
  rcases run_of_succeeds (.addHeader name value) rfl succeeds with ⟨answer_eq, begun⟩
  apply drafted_of_success faultless answer_eq
  · have same := Call.view_run (.addHeader name value) rfl (preserves_regular named regular) before
    -- the request is started by now, so the view shows the whole outline
    have started :
        ((Call.addHeader name value).run before).2.stream.outline.requestStarted = true :=
      begun.started
    rw [Stream.withStart_eq_self started] at same
    rw [same, Call.noted_of_regular named regular]
    rfl
  · exact tame.of_begins (run_orderly _ tame.orderly) begun

theorem drafted_endHeaders (tame : before.Tame accepts)
    (faultless : Call.endHeaders.fault? before.stream = none)
    (short : ∀ line ∈ Call.endHeaders.lines before.stream, line.text.length ≤ before.capacity) :
    Drafted accepts .endHeaders before (Call.endHeaders.run before) := by
  rcases Call.endHeaders_faultless faultless with ⟨inputOpen, fine⟩
  simp only [Call.lines] at short
  have startable := tame.startable fine fun line line_mem =>
    short line (List.mem_append_left _ line_mem)
  have fits : Fits before.capacity .blank :=
    ⟨rfl, short _ (List.mem_append_right _ (List.mem_singleton_self _))⟩
  have both := (endHeaders_succeeds willing (tame.ready inputOpen) startable fits).and
    (ensures_endOfHeaders_endHeaders before)
  have succeeds : Succeeds endHeaders before (fun _ after =>
      Begins accepts before after ∧ after.stream.endOfHeaders = true) :=
    both.imp (fun _ _ holds => holds) fun _ _ impossible => impossible.1
  rcases run_of_succeeds .endHeaders rfl succeeds with ⟨answer_eq, begun, ended⟩
  apply drafted_of_success faultless answer_eq
  · have preserves : Preserves (fun feed : Feed Queue => feed.stream.outline.withHead)
        endHeaders :=
      preserves_endHeaders (overlooks_outline _) (fun _ => rfl) fun _ => rfl
    have same := Call.view_run .endHeaders rfl preserves before
    have started : (Call.endHeaders.run before).2.stream.outline.requestStarted = true :=
      begun.started
    rw [Stream.withHead_eq_self started ended] at same
    exact same
  · exact tame.of_begins (run_orderly _ tame.orderly) begun

theorem drafted_addData (tame : before.Tame accepts)
    (started : before.stream.requestStarted = true) {data : Bytes}
    (faultless : (Call.addData data).fault? before.stream = none) :
    Drafted accepts (.addData data) before ((Call.addData data).run before) := by
  have inputOpen := Call.addData_faultless faultless
  have succeeds := addData_succeeds willing (tame.ready inputOpen) tame.roomy data
  rcases run_of_succeeds (.addData data) rfl succeeds with ⟨answer_eq, continues⟩
  apply drafted_of_success faultless answer_eq
  · exact Call.view_run (.addData data) rfl (preserves_addData (overlooks_outline id) data) before
  · exact tame.of_begins (run_orderly _ tame.orderly) (continues.begins started)

theorem closeInput_ends (tame : before.Tame accepts) :
    Succeeds closeInput before (fun _ after => after.stream.endDelivered = true) := by
  cases delivered : before.stream.endDelivered with
  | false => exact closeInput_succeeds willing (tame.accepting delivered)
  | true =>
      -- the input has been closed before, and there is nothing left to deliver
      have still : (before.moved before.stream.lifecycle.closeInput).stream.endDelivered = true := by
        rw [moved_eq]
        exact delivered
      rw [Succeeds, ensures_closeInput rfl]
      refine ⟨fun _ => still, ?_⟩
      intro undelivered
      rw [still] at undelivered
      cases undelivered

theorem drafted_closeInput (tame : before.Tame accepts) :
    Drafted accepts .closeInput before (Call.closeInput.run before) := by
  rcases run_of_succeeds .closeInput rfl (closeInput_ends willing tame) with
    ⟨answer_eq, delivered⟩
  have orderly := run_orderly .closeInput tame.orderly
  have session_eq := session_run .closeInput before
  apply drafted_of_success rfl answer_eq (outline_closeInput before)
  refine ⟨orderly, ?_, ?_, ?_, ?_, ?_, ?_⟩
  · rw [capacity, session_eq]
    exact tame.roomy
  · rw [capacity, session_eq]
    exact tame.allocatable
  · rw [session_eq]
    exact tame.textual
  · exact delivered.trans (orderly.delivered delivered).1.symm
  · exact fun _ => (orderly.delivered delivered).2.1
  · intro undelivered
    rw [delivered] at undelivered
    cases undelivered

/-- Every call that passes on what the peer sends does what the draft says, if data comes only
once the request is started and the lines that the call writes fit. -/
theorem drafted (tame : before.Tame accepts) (peers : call.isPeers = true)
    (timely : ∀ data, call = .addData data → before.stream.requestStarted = true)
    (short : call.fault? before.stream = none →
      ∀ line ∈ call.lines before.stream, line.text.length ≤ before.capacity) :
    Drafted accepts call before (call.run before) := by
  cases faulty : call.fault? before.stream with
  | some fault => exact drafted_of_fault tame faulty
  | none =>
      cases call with
      | addHeader name value =>
          cases named : name.isEmpty with
          | true => exact drafted_nameless tame named
          | false =>
              cases pseudo : isPseudoName name with
              | true => exact drafted_pseudo tame named pseudo faulty
              | false => exact drafted_header willing tame named pseudo faulty (short faulty)
      | addData data => exact drafted_addData willing tame (timely data rfl) faulty
      | endHeaders => exact drafted_endHeaders willing tame faulty (short faulty)
      | closeInput => exact drafted_closeInput willing tame
      | _ => cases peers

end Willing

end Feed

end Reassembly
