import Reassembly.Proofs.Stream.Holding
import Reassembly.Proofs.Stream.Sections

/-!
# The line of the authority

The call that starts a request writes two lines, the request line and the line of the authority.
The request counts as started once the first of them is written. So if the second one cannot be
written, because no segment can hold it or because the sink refuses what has to be delivered
before it, the call fails but no later call makes up for it: header lines and the blank line then
follow the request line directly. In every other run the line of the authority is where it belongs.
-/

namespace Reassembly

namespace Stream

/-- The line that opens the request, if what it needs is known. -/
def requestLine? (stream : Stream) : Option HeadLine :=
  match stream.pseudo.method, stream.pseudo.path with
  | some method, some path => some (.request method path stream.session.config.requestVersion)
  | _, _ => none

/-- The request line is made from the method and the path, when both are there. -/
theorem requestLine?_eq_some_iff {stream : Stream} {request : HeadLine} :
    stream.requestLine? = some request ↔
      ∃ method path, stream.pseudo.method = some method ∧ stream.pseudo.path = some path ∧
        request = .request method path stream.session.config.requestVersion := by
  unfold requestLine?
  cases stream.pseudo.method with
  | none => simp
  | some method =>
      cases stream.pseudo.path with
      | none => simp
      | some path => simp [eq_comm]

/-- The line of the authority, if there is one. -/
def hostLine? (stream : Stream) : Option HeadLine :=
  stream.pseudo.authority.map (.field Feed.hostName)

/-- The text of the line of the authority, if there is one. -/
def hostText (stream : Stream) : Bytes := stream.hostLine?.elim [] HeadLine.text

theorem supported_of_hostLine? {stream : Stream} {host : HeadLine}
    (known : stream.hostLine? = some host) : host.unsupportedVersion? = none := by
  rcases Option.map_eq_some_iff.mp known with ⟨authority, _, rfl⟩
  rfl

end Stream

namespace Feed

open Delivery (LoggingSink Refusal)
open Stream.Call (opening overlooks_opening)

variable {Queue : Type} [LoggingSink Queue] {before : Feed Queue}

/-- Why a line cannot be written although there is a segment: none can hold it, or the sink refuses
what is delivered to make room for it.

If the sink takes what is delivered and there is then no memory for the next segment, the line is
lost in the same way. `Segment.allocate` leaves that out, as it answers by the capacity alone. -/
def Stuck (line : HeadLine) (capacity : Nat) (error : StreamError) : Prop :=
  (error = .tooLarge line.text.length capacity ∧ capacity < line.text.length) ∨
    ∃ cause, error = .refused cause

theorem writeLine_stuck (sized : before.WellSized)
    (allocatable : before.capacity < Segment.allocationLimit) {line : HeadLine}
    (supported : line.unsupportedVersion? = none) :
    Ensures (writeLine line) before (fun _ _ => True)
      (fun error _ => Stuck line before.capacity error) := by
  rw [Ensures, run_writeLine sized allocatable supported]
  by_cases room : before.stream.pending.length + line.text.length ≤ before.capacity
  · simp only [room, if_true]
  · rw [if_neg room]
    by_cases nothing : before.stream.pending = []
    · rw [nothing, List.length_nil, Nat.zero_add] at room
      rw [if_pos nothing]
      exact .inl ⟨rfl, Nat.lt_of_not_le room⟩
    · rw [if_neg nothing]
      cases (Delivery.Sink.append before.stream.id
          (.holding before.capacity before.stream.pending)).run before.queue with
      | error rejection queue => exact .inr ⟨rejection.cause, rfl⟩
      | ok _ queue =>
          by_cases fits : line.text.length ≤ before.capacity
          · simp only [fits, if_true]
          · simp only [fits, if_false]
            exact .inl ⟨rfl, Nat.lt_of_not_le fits⟩

/-- The stream has no segment unless it can have one. -/
def Stocked (feed : Feed Queue) : Prop :=
  feed.capacity < Segment.allocationLimit ∨ feed.Segmentless

/-- The request is started, with both of the lines that open it and the first few of some pieces
that follow them. -/
structure Opened (before : Feed Queue) (pieces : List Bytes) (after : Feed Queue) : Prop where
  opening_eq : opening after = (true, before.stream.pseudo)
  added : ∃ request written, before.stream.requestLine? = some request ∧ written <+: pieces ∧
    Path before (request.text ++ before.stream.hostText ++ written.flatten) after

/-- The request is started, but the line of its authority was not written. -/
structure Hostless (before : Feed Queue) (error : StreamError) (after : Feed Queue) : Prop where
  opening_eq : opening after = (true, before.stream.pseudo)
  added : ∃ request host, before.stream.requestLine? = some request ∧
    before.stream.hostLine? = some host ∧ Stuck host before.capacity error ∧
    Path before request.text after

section Starting

variable (inputOpen : before.stream.lifecycle.isInputClosed = false) (sized : before.WellSized)

include inputOpen sized

theorem hostLine_outcome {middle : Feed Queue} {request host : HeadLine}
    (allocatable : before.capacity < Segment.allocationLimit)
    (requestKnown : before.stream.requestLine? = some request)
    (hostKnown : before.stream.hostLine? = some host)
    (opening_eq : opening middle = (true, before.stream.pseudo))
    (path : Path before request.text middle) :
    Ensures (writeLine host) middle (fun _ after => Opened before [] after)
      (fun error after => Hostless before error after) := by
  have capacity_eq : middle.capacity = before.capacity := by
    rw [capacity, path.session_eq]
  have middleOpen := path.lifecycle_eq ▸ inputOpen
  have stuck := writeLine_stuck (path.wellSized sized) (capacity_eq ▸ allocatable)
    (Stream.supported_of_hostLine? hostKnown)
  have keeps := preserves_writeLine overlooks_opening host middle
  apply (((writeLine_path middleOpen host).and stuck).and keeps).imp
  · rintro _ after ⟨⟨written, _⟩, same⟩
    refine ⟨same.trans opening_eq, request, [], requestKnown, List.nil_prefix, ?_⟩
    rw [List.flatten_nil, List.append_nil, Stream.hostText, hostKnown]
    exact path.trans written
  · rintro error after ⟨⟨⟨nothing, _⟩, stuck⟩, same⟩
    rw [capacity_eq] at stuck
    exact ⟨same.trans opening_eq, request, host, requestKnown, hostKnown, stuck,
      path.trans_nil nothing⟩

theorem startRequest_outcome (stocked : before.Stocked)
    (unstarted : before.stream.requestStarted = false) :
    Ensures startRequest before (fun _ after => Opened before [] after)
      (fun error after =>
        (after.stream.requestStarted = false ∧ Path before [] after) ∨
          Hostless before error after) := by
  unfold startRequest
  rw [ensures_bind, ensures_get]
  dsimp only
  cases method : before.stream.pseudo.method with
  | none => exact .inl ⟨unstarted, .refl before⟩
  | some verb =>
      cases path : before.stream.pseudo.path with
      | none => exact .inl ⟨unstarted, .refl before⟩
      | some target =>
          let request : HeadLine := .request verb target before.stream.session.config.requestVersion
          have requestKnown : before.stream.requestLine? = some request := by
            simp [Stream.requestLine?, method, path, request]
          rcases stocked with allocatable | without
          · have keeps := preserves_writeInPlace overlooks_opening request before
            apply ((writeInPlace_path inputOpen request).and keeps).bind
            · rintro _ middle ⟨written, same⟩
              rw [ensures_bind, ensures_modifyStream]
              -- from here on the request counts as started, whatever becomes of the next line
              have begun : Path before request.text
                  { middle with stream := { middle.stream with requestStarted := true } } :=
                written.trans_nil (Move.note ..).path
              have opening_eq : (true, middle.stream.pseudo) = (true, before.stream.pseudo) :=
                congrArg (fun shown => (true, shown.2)) same
              cases authority : before.stream.pseudo.authority with
              | none =>
                  have noHost : before.stream.hostText = [] := by
                    simp [Stream.hostText, Stream.hostLine?, authority]
                  refine ⟨opening_eq, request, [], requestKnown, List.nil_prefix, ?_⟩
                  rwa [noHost, List.flatten_nil, List.append_nil, List.append_nil]
              | some name =>
                  have hostKnown : before.stream.hostLine? = some (.field hostName name) := by
                    simp [Stream.hostLine?, authority]
                  apply (hostLine_outcome inputOpen sized allocatable requestKnown hostKnown
                    opening_eq begun).imp
                  · exact fun _ _ opened => opened
                  · exact fun _ _ hostless => .inr hostless
            · rintro error after ⟨⟨nothing, _⟩, same⟩
              exact .inl ⟨(congrArg Prod.fst same).trans unstarted, nothing⟩
          · have fails : Ensures (writeInPlace request) before (fun _ _ => False)
                (fun _ after => after = before) := openWork_bind_fails without
            apply fails.bind
            · intro _ _ impossible
              exact impossible.elim
            · rintro error after rfl
              exact .inl ⟨unstarted, .refl after⟩

/-- A program that writes a line, in a call that finds the request not started. -/
theorem ensureStarted_bind_outcome (stocked : before.Stocked)
    (unstarted : before.stream.requestStarted = false) {program : FeedM Queue Unit}
    {line : HeadLine}
    (writes : ∀ middle : Feed Queue, middle.stream.lifecycle.isInputClosed = false →
      Ensures program middle
        (fun _ after => Path middle line.text after)
        (fun error after =>
          (∃ written, written <+: [line.text] ∧ Path middle written.flatten after) ∧
            error.isViolation = false))
    (keeps : Preserves opening program) :
    Ensures (do ensureStarted; program) before (fun _ after => Opened before [line.text] after)
      (fun error after =>
        (after.stream.requestStarted = false ∧ Path before [] after) ∨
          Opened before [line.text] after ∨ Hostless before error after) := by
  have starts : Ensures ensureStarted before (fun _ after => Opened before [] after)
      (fun error after =>
        (after.stream.requestStarted = false ∧ Path before [] after) ∨
          Hostless before error after) := by
    unfold ensureStarted
    rw [ensures_bind, ensures_get, unstarted]
    exact startRequest_outcome inputOpen sized stocked unstarted
  apply starts.bind
  · rintro _ middle ⟨opening_eq, request, written, requestKnown, nothing, path⟩
    rw [List.prefix_nil.mp nothing, List.flatten_nil, List.append_nil] at path
    have middleOpen := path.lifecycle_eq ▸ inputOpen
    apply ((writes middle middleOpen).and (keeps middle)).imp
    · rintro _ after ⟨rest, same⟩
      refine ⟨same.trans opening_eq, request, [line.text], requestKnown, List.prefix_rfl, ?_⟩
      rw [List.flatten_singleton]
      exact path.trans rest
    · rintro error after ⟨⟨⟨pieces, begins, rest⟩, _⟩, same⟩
      exact .inr (.inl ⟨same.trans opening_eq, request, pieces, requestKnown, begins,
        path.trans rest⟩)
  · rintro error after (untouched | hostless)
    · exact .inl untouched
    · exact .inr (.inr hostless)

end Starting

end Feed

namespace Stream.Call

open Delivery (LoggingSink Scripted)
open Feed (Ensures Preserves Path Stuck Stocked Opened Hostless)

/-- What a call writes once the request line is written, in pieces of which none is ever written
in part. -/
def ownPieces : Call → List Bytes
  | addHeader name value =>
      if name.isEmpty || isPseudoName name then [] else [(HeadLine.field name value).text]
  | addData data => octetwise data
  | endHeaders => [HeadLine.blank.text]
  | _ => []

theorem unwritten_of_silent {name value : Bytes}
    (silent : (addHeader name value).writesLine = false) :
    (name.isEmpty || isPseudoName name) = true := by
  simpa only [writesLine, Bool.not_eq_eq_eq_not, Bool.not_false] using silent

theorem pieces_eq_ownPieces (call : Call) {stream : Stream}
    (ready : stream.requestStarted = true ∨ call.writesLine = false) :
    call.pieces stream = call.ownPieces := by
  rcases ready with started | silent
  · have noLines : stream.openingLines = [] := if_pos started
    cases call with
    | addHeader name value =>
        simp only [pieces, lines, ownPieces, noLines]
        split <;> simp
    | endHeaders => simp [pieces, lines, ownPieces, noLines]
    | _ => rfl
  · cases call with
    | addHeader name value =>
        simp [pieces, lines, ownPieces, unwritten_of_silent silent]
    | endHeaders => cases silent
    | _ => rfl

theorem ownPieces_of_silent {call : Call} (silent : call.writesLine = false) :
    call.ownPieces = octetwise call.payload := by
  cases call with
  | addHeader name value =>
      simp [ownPieces, payload, octetwise, unwritten_of_silent silent]
  | endHeaders => cases silent
  | _ => rfl

/-- The first few of the pieces of each of some calls, strung together. -/
inductive Parts : List (List Bytes) → Bytes → Prop where
  | nil : Parts [] []
  | cons {pieces written : List Bytes} {others : List (List Bytes)} {text : Bytes}
      (begins : written <+: pieces) (rest : Parts others text) :
      Parts (pieces :: others) (written.flatten ++ text)

theorem Parts.append {first second : List (List Bytes)} {text more : Bytes}
    (left : Parts first text) (right : Parts second more) :
    Parts (first ++ second) (text ++ more) := by
  induction left with
  | nil => exact right
  | cons begins rest ih =>
      rw [List.append_assoc]
      exact .cons begins ih

theorem Parts.singleton {pieces written : List Bytes} (begins : written <+: pieces) :
    Parts [pieces] written.flatten := by
  simpa using Parts.cons begins .nil

variable {Queue : Type} [LoggingSink Queue] {before : Feed Queue}

/-- What follows the request line if one call starts the request and others come later. The line
of the authority is missing if the call failed over it. -/
inductive Continuation (before : Feed Queue) (starter : Call) (later : List Call) :
    Bytes → Prop where
  | hosted {text : Bytes} (parts : Parts ((starter :: later).map ownPieces) text) :
      Continuation before starter later (before.stream.hostText ++ text)
  | hostless {host : HeadLine} {error : StreamError} {text : Bytes}
      (known : before.stream.hostLine? = some host)
      (failed : (starter.run before).1 = .error error) (stuck : Stuck host before.capacity error)
      (parts : Parts (later.map ownPieces) text) : Continuation before starter later text

theorem Continuation.extend {starter : Call} {later : List Call} {rest text : Bytes}
    (first : Continuation before starter [] rest) (parts : Parts (later.map ownPieces) text) :
    Continuation before starter later (rest ++ text) := by
  cases first with
  | hosted own =>
      rw [List.append_assoc]
      exact .hosted (own.append parts)
  | hostless known failed stuck none => exact .hostless known failed stuck (none.append parts)

theorem program_outcome (sized : before.WellSized) (stocked : before.Stocked)
    (unstarted : before.stream.requestStarted = false) {call : Call}
    (writes : call.writesLine = true) :
    Ensures call.program before (fun _ after => Opened before call.ownPieces after)
      (fun error after =>
        (after.stream.requestStarted = false ∧ Path before [] after) ∨
          Opened before call.ownPieces after ∨ Hostless before error after) := by
  cases call with
  | addHeader name value =>
      have written : name.isEmpty = false ∧ isPseudoName name = false := by
        simpa [writesLine] using writes
      have own : (addHeader name value).ownPieces = [(HeadLine.field name value).text] := by
        simp [ownPieces, written]
      apply Feed.ensures_bind_pure.mpr
      unfold Feed.addHeader
      rw [written.1, if_neg Bool.false_ne_true, Feed.ensures_bind, Feed.ensures_get,
        Feed.ensures_bind, Feed.ensures_refuseIf]
      constructor
      · exact fun _ => .inl ⟨unstarted, .refl before⟩
      · intro inputOpen
        rw [written.2, if_neg Bool.false_ne_true, own]
        apply Feed.ensureStarted_bind_outcome inputOpen sized stocked unstarted
        · exact fun middle middleOpen => Feed.writeLine_whole middleOpen _
        · exact Feed.preserves_writeLine overlooks_opening _
  | endHeaders =>
      apply Feed.ensures_bind_pure.mpr
      unfold Feed.endHeaders
      rw [Feed.ensures_bind, Feed.ensures_get, Feed.ensures_bind, Feed.ensures_refuseIf]
      constructor
      · exact fun _ => .inl ⟨unstarted, .refl before⟩
      · intro inputOpen
        apply Feed.ensureStarted_bind_outcome inputOpen sized stocked unstarted
        · exact fun middle middleOpen => Feed.endOfHeaders_path middleOpen
        · exact Feed.preserves_endOfHeaders overlooks_opening fun _ => rfl
  | _ => cases writes

/-- A call that writes no line does not start the request either. -/
theorem requestStarted_run_of_silent {call : Call} (silent : call.writesLine = false)
    (before : Feed Queue) :
    (call.run before).2.stream.requestStarted = before.stream.requestStarted := by
  cases onHead : call.isOnHead with
  | false => exact congrArg Prod.fst (opening_run call onHead)
  | true =>
      cases call with
      | addHeader name value =>
          apply holds_after_run fun after =>
            after.stream.requestStarted = before.stream.requestStarted
          apply Feed.ensures_bind_pure.mpr
          unfold Feed.addHeader
          split
          · exact rfl
          · rename_i named
            have pseudo : isPseudoName name = true :=
              (Bool.or_eq_true_iff.mp (unwritten_of_silent silent)).resolve_left named
            rw [Feed.ensures_bind, Feed.ensures_get, Feed.ensures_bind, Feed.ensures_refuseIf,
              pseudo, if_pos rfl]
            exact ⟨fun _ => rfl, fun _ =>
              Feed.preserves_addPseudoHeader (fun _ _ => rfl) name value before⟩
      | endHeaders => cases silent
      | _ => cases onHead

theorem emitted_run_prefix (call : Call) (before : Feed Queue) :
    ∃ written, written <+: call.pieces before.stream ∧
      (call.run before).2.emitted = before.emitted ++ written.flatten := by
  have added := Feed.emitted_call call before
  rcases result : call.run before with ⟨answer, after⟩
  rw [result] at added
  cases answer with
  | ok reply => exact ⟨_, List.prefix_rfl, added⟩
  | error error => exact added.1

theorem stocked_run (stocked : before.Stocked) (call : Call) :
    (call.run before).2.Stocked := by
  rcases stocked with allocatable | without
  · left
    rwa [Feed.capacity, Feed.session_run call before]
  · exact .inr (Feed.segmentless_run without call)

omit [LoggingSink Queue] in
theorem fresh_stocked (id : StreamId) (session : Session) (sink : Queue) :
    (Feed.fresh id session sink).Stocked := by
  by_cases allocatable : session.config.segmentCapacity < Segment.allocationLimit
  · exact .inl allocatable
  · exact .inr ⟨rfl, allocatable⟩

/-- One call on a stream whose request is not started starts it or passes on data. -/
theorem run_of_unstarted (sized : before.WellSized) (stocked : before.Stocked)
    (unstarted : before.stream.requestStarted = false) (call : Call) :
    let after := (call.run before).2
    (after.stream.requestStarted = false ∧ ∃ written, written <+: octetwise call.payload ∧
      after.emitted = before.emitted ++ written.flatten) ∨
    (opening after = (true, before.stream.pseudo) ∧
      ∃ request rest, before.stream.requestLine? = some request ∧
        Continuation before call [] rest ∧
        after.emitted = before.emitted ++ request.text ++ rest) := by
  intro after
  cases writes : call.writesLine with
  | false =>
      left
      rcases emitted_run_prefix call before with ⟨written, begins, added⟩
      rw [pieces_eq_ownPieces call (.inr writes), ownPieces_of_silent writes] at begins
      have still := requestStarted_run_of_silent writes before
      exact ⟨still.trans unstarted, written, begins, added⟩
  | true =>
      have opened {after : Feed Queue} (opened : Opened before call.ownPieces after) :
          opening after = (true, before.stream.pseudo) ∧
            ∃ request rest, before.stream.requestLine? = some request ∧
              Continuation before call [] rest ∧
              after.emitted = before.emitted ++ request.text ++ rest := by
        rcases opened with ⟨opening_eq, request, written, known, begins, path⟩
        refine ⟨opening_eq, request, _, known, .hosted (.singleton begins), ?_⟩
        simp [path.emitted_eq]
      have outcome := run_of_ensures (program_outcome sized stocked unstarted writes)
      rcases result : call.run before with ⟨answer, last⟩
      have after_eq : after = last := congrArg Prod.snd result
      rw [after_eq]
      rw [result] at outcome
      cases answer with
      | ok reply => exact .inr (opened outcome)
      | error error =>
          rcases outcome with ⟨still, path⟩ | succeeded | hostless
          · refine .inl ⟨still, [], List.nil_prefix, ?_⟩
            simp [path.emitted_eq]
          · exact .inr (opened succeeded)
          · rcases hostless with ⟨opening_eq, request, host, known, hostKnown, stuck, path⟩
            refine .inr ⟨opening_eq, request, [], known,
              .hostless hostKnown (congrArg Prod.fst result) stuck .nil, ?_⟩
            simp [path.emitted_eq]

/-- Once the request is started, all that calls add is their own. -/
theorem runAll_of_started (calls : List Call)
    (started : before.stream.requestStarted = true) :
    let after := (runAll calls before).2
    opening after = opening before ∧
      ∃ text, Parts (calls.map ownPieces) text ∧ after.emitted = before.emitted ++ text := by
  induction calls generalizing before with
  | nil => exact ⟨rfl, [], .nil, (List.append_nil _).symm⟩
  | cons call later ih =>
      have same := opening_run_of_started call started
      rcases emitted_run_prefix call before with ⟨written, begins, added⟩
      rw [pieces_eq_ownPieces call (.inl started)] at begins
      rcases ih ((congrArg Prod.fst same).trans started) with
        ⟨still, text, parts, emitted_eq⟩
      refine ⟨still.trans same, written.flatten ++ text, .cons begins parts, ?_⟩
      rw [← List.append_assoc, ← added]
      exact emitted_eq

/-- Where calls start the request of a stream, and what they emit around its request line. -/
theorem runAll_of_unstarted (calls : List Call) (sized : before.WellSized)
    (stocked : before.Stocked) (unstarted : before.stream.requestStarted = false) :
    let after := (runAll calls before).2
    (after.stream.requestStarted = false ∧
      ∃ data, Parts (calls.map fun call => octetwise call.payload) data ∧
        after.emitted = before.emitted ++ data) ∨
    ∃ earlier starter later, calls = earlier ++ starter :: later ∧
      let ready := (runAll earlier before).2
      opening after = (true, ready.stream.pseudo) ∧
      ∃ data request rest, Parts (earlier.map fun call => octetwise call.payload) data ∧
        ready.stream.requestLine? = some request ∧ Continuation ready starter later rest ∧
        after.emitted = before.emitted ++ data ++ request.text ++ rest := by
  induction calls generalizing before with
  | nil => exact .inl ⟨unstarted, [], .nil, (List.append_nil _).symm⟩
  | cons call later ih =>
      rcases run_of_unstarted sized stocked unstarted call with
        ⟨still, written, begins, added⟩ | ⟨opening_eq, request, rest, known, follows, added⟩
      · rcases ih (run_wellSized call sized) (stocked_run stocked call) still with
          ⟨never, data, parts, emitted_eq⟩ |
          ⟨earlier, starter, latest, rfl, opening_eq, data, request, rest, parts, known, follows,
            emitted_eq⟩
        · refine .inl ⟨never, written.flatten ++ data, .cons begins parts, ?_⟩
          rw [← List.append_assoc, ← added]
          exact emitted_eq
        · refine .inr ⟨call :: earlier, starter, latest, rfl, opening_eq,
            written.flatten ++ data, request, rest, .cons begins parts, known, follows, ?_⟩
          rw [← List.append_assoc, ← added]
          exact emitted_eq
      · rcases runAll_of_started later (congrArg Prod.fst opening_eq) with
          ⟨same, text, parts, emitted_eq⟩
        refine .inr ⟨[], call, later, rfl, same.trans opening_eq, [], request, rest ++ text, .nil,
          known, follows.extend parts, ?_⟩
        rw [List.append_nil, ← List.append_assoc, ← added]
        exact emitted_eq

/-- In every run of a stream, whatever the sink answers, the request line is emitted once if at
all, behind nothing but data, and what follows it starts with the line of the authority, unless
the call that started the request failed over that line. -/
theorem host_line_kept_unless_stuck (id : StreamId) (session : Session) (sink : Queue)
    (calls : List Call) :
    let fresh := Feed.fresh id session sink
    let after := (runAll calls fresh).2
    (after.stream.requestStarted = false ∧
      ∃ data, Parts (calls.map fun call => octetwise call.payload) data ∧
        after.emitted = fresh.emitted ++ data) ∨
    ∃ earlier starter later, calls = earlier ++ starter :: later ∧
      let before := (runAll earlier fresh).2
      opening after = (true, before.stream.pseudo) ∧
      ∃ data request rest, Parts (earlier.map fun call => octetwise call.payload) data ∧
        before.stream.requestLine? = some request ∧ Continuation before starter later rest ∧
        after.emitted = fresh.emitted ++ data ++ request.text ++ rest := by
  exact runAll_of_unstarted calls (fresh_wellSized id session sink)
    (fresh_stocked id session sink) rfl

/-- The sink refuses the request line that makes room for the line of the authority. Trying again
succeeds, and the request is complete but for that line. -/
theorem host_line_lost :
    let refusing : Scripted := { segmentAnswers := [some .closed] }
    let (answers, after) := runAll
      [addHeader (Bytes.ascii ":method") (Bytes.ascii "GET"),
        addHeader (Bytes.ascii ":path") (Bytes.ascii "/"),
        addHeader (Bytes.ascii ":authority") (Bytes.ascii "example.com"),
        addHeader (Bytes.ascii "a") (Bytes.ascii "b"),
        addHeader (Bytes.ascii "a") (Bytes.ascii "b"), endHeaders]
      (Feed.fresh 1 { config := { segmentCapacity := 25 } } refusing)
    answers = [.ok .done, .ok .done, .ok .done, .error (.refused .closed), .ok .done, .ok .done] ∧
      after.stream.pseudo.authority = some (Bytes.ascii "example.com") ∧
      after.emitted = Bytes.ascii "GET /\r\na: b\r\n\r\n" := by
  decide

end Stream.Call

end Reassembly
