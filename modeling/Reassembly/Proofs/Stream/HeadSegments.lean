import Reassembly.Proofs.Stream.Dictation
import Reassembly.Proofs.Stream.Holding
import Reassembly.Proofs.Stream.Packing

/-!
# The segments of a head

On a sink that accepts everything, a stream packs the lines of a head into segments: `Packed` says
that the sink has the segments of a packing that are closed, and the stream the one that is being
filled. Writing a line packs it. A line longer than a segment closes the segment before it, like
any line without room, and is then given up, and with it the rest of the call.
-/

namespace Reassembly

open HeadLine (joined)

/-- A request line needs a method and a path, and the line of an authority follows it. -/
theorem Stream.exists_requestLines {stream : Stream} {request : HeadLine} {hosts : List HeadLine}
    (known : stream.requestLines = request :: hosts) :
    ∃ method path, stream.pseudo.method = some method ∧ stream.pseudo.path = some path ∧
      request = .request method path stream.session.config.requestVersion ∧
      hosts = (stream.pseudo.authority.map (.field Feed.hostName)).toList := by
  unfold requestLines at known
  cases method : stream.pseudo.method with
  | none => simp [method] at known
  | some verb =>
      cases path : stream.pseudo.path with
      | none => simp [method, path] at known
      | some target =>
          simp only [method, path, List.cons.injEq] at known
          exact ⟨verb, target, rfl, rfl, known.1.symm, known.2.symm⟩

namespace Feed

open Delivery (Sink LoggingSink Item)
open Stream.Call (opening overlooks_opening)

variable {Queue : Type} [LoggingSink Queue]

/-- Since the start, the sink has accepted the closed segments of a packing, and the stream holds
the one that is being filled. -/
structure Packed (start : Feed Queue) (packing : Packing) (feed : Feed Queue) : Prop where
  accepted_eq : feed.accepted
    = start.accepted ++ packing.closed.map fun group => Item.chunk (joined group)
  pending_eq : feed.stream.pending = joined packing.current

/-- Nothing but lines has been written since the start, and nothing keeps the stream from writing
more of them. -/
structure Holds (accepts : StreamId → Queue → Prop) (start : Feed Queue) (started : Bool)
    (packing : Packing) (feed : Feed Queue) : Prop extends Packed start packing feed where
  ready : feed.Ready accepts
  session_eq : feed.stream.session = start.stream.session
  opening_eq : opening feed = (started, start.stream.pseudo)

variable {accepts : StreamId → Queue → Prop} {start before : Feed Queue} {started : Bool}
  {packing : Packing} {line : HeadLine} {lines : List HeadLine}

namespace Holds

theorem capacity_eq (holds : Holds accepts start started packing before) :
    before.capacity = start.capacity := by
  rw [capacity, holds.session_eq]

theorem pending_eq_nil_iff (holds : Holds accepts start started packing before) :
    before.stream.pending = [] ↔ packing.current = [] := by
  rw [holds.pending_eq, HeadLine.joined_eq_nil_iff]

theorem refill (holds : Holds accepts start started packing before) {segment : Segment}
    (size : segment.capacity = before.capacity) {current : List HeadLine}
    (bytes : segment.bytes = joined current) :
    Holds accepts start started { packing with current } (before.withWork (some segment)) where
  accepted_eq := holds.accepted_eq
  pending_eq := bytes
  ready := holds.ready.withWork <| by
    intro other work
    cases work
    exact size
  session_eq := holds.session_eq
  opening_eq := holds.opening_eq

theorem drop (holds : Holds accepts start started packing before) (nothing : packing.current = []) :
    Holds accepts start started packing (before.withWork none) where
  accepted_eq := holds.accepted_eq
  pending_eq := by
    rw [nothing]
    rfl
  ready := holds.ready.withWork fun _ absent => by cases absent
  session_eq := holds.session_eq
  opening_eq := holds.opening_eq

/-- A willing sink takes the segment that is being filled. -/
theorem deliver (willing : Willing accepts) (holds : Holds accepts start started packing before)
    (used : packing.current ≠ []) :
    ∃ queue, (Sink.append before.stream.id
        (.holding before.capacity before.stream.pending)).run before.queue = .ok () queue ∧
      Holds accepts start started packing.close ({ before with queue }.withWork none) := by
  rcases willing.append before.stream.id (.holding before.capacity before.stream.pending)
    before.queue holds.ready.accepting with ⟨queue, accepted, accepting⟩
  have log := LoggingSink.append_ok accepted
  rw [Segment.bytes_holding, List.take_of_length_le (pending_length_le holds.ready.sized),
    holds.pending_eq] at log
  have accepted_eq : ({ before with queue }.withWork none : Feed Queue).accepted
      = before.accepted ++ [.chunk (joined packing.current)] := by
    simp [Feed.accepted, withWork, log, Delivery.acceptedFor_append]
  have ready : ({ before with queue } : Feed Queue).Ready accepts :=
    ⟨holds.ready.inputOpen, holds.ready.allocatable, holds.ready.sized, accepting⟩
  refine ⟨queue, accepted, ?_⟩
  exact {
    accepted_eq := by simp [accepted_eq, holds.accepted_eq, Packing.close, used]
    pending_eq := rfl
    ready := ready.withWork fun _ absent => by cases absent
    session_eq := holds.session_eq
    opening_eq := holds.opening_eq }

theorem push (willing : Willing accepts) (holds : Holds accepts start started packing before) :
    Succeeds Feed.push before (fun _ after =>
      Holds accepts start started packing.close after ∧ after.stream.work = none) := by
  rw [Succeeds, Ensures, run_push holds.ready.sized]
  by_cases nothing : packing.current = []
  · rw [if_pos (holds.pending_eq_nil_iff.mpr nothing), Packing.close_of_nil nothing]
    exact ⟨holds.drop nothing, rfl⟩
  · rcases holds.deliver willing nothing with ⟨queue, accepted, delivered⟩
    rw [if_neg (mt holds.pending_eq_nil_iff.mp nothing), accepted]
    exact ⟨delivered, rfl⟩

end Holds

/-- The lines up to one that is too long have been written, and that one has closed the segment
before it. -/
def Overflown (accepts : StreamId → Queue → Prop) (start : Feed Queue) (packing : Packing)
    (lines : List HeadLine) (error : StreamError) (after : Feed Queue) : Prop :=
  ∃ fitting line rest, lines = fitting ++ line :: rest ∧
    (∀ line ∈ fitting, line.text.length ≤ start.capacity) ∧
    start.capacity < line.text.length ∧
    error = .tooLarge line.text.length start.capacity ∧
    Holds accepts start true (packing.addAll start.capacity fitting).close after

/-- A program that packs lines, and fails at the first one that is too long. -/
abbrev PacksLines (accepts : StreamId → Queue → Prop) (start : Feed Queue) (packing : Packing)
    (lines : List HeadLine) (program : FeedM Queue Unit) (before : Feed Queue)
    (success : Feed Queue → Prop) : Prop :=
  Ensures program before
    (fun _ after => (∀ line ∈ lines, line.text.length ≤ start.capacity) ∧ success after)
    (fun error after => Overflown accepts start packing lines error after)

/-- Lines behind others that are packed. -/
theorem PacksLines.behind {program : FeedM Queue Unit} {more : List HeadLine}
    {success : Feed Queue → Prop} (fit : ∀ line ∈ lines, line.text.length ≤ start.capacity)
    (packs : PacksLines accepts start (packing.addAll start.capacity lines) more program before
      success) :
    PacksLines accepts start packing (lines ++ more) program before success := by
  apply packs.imp
  · rintro _ after ⟨moreFit, succeeded⟩
    exact ⟨List.forall_mem_append.mpr ⟨fit, moreFit⟩, succeeded⟩
  · rintro error after ⟨fitting, line, rest, rfl, fittingFit, long, error_eq, holds⟩
    rw [← Packing.addAll_append] at holds
    exact ⟨lines ++ fitting, line, rest, by simp, List.forall_mem_append.mpr ⟨fit, fittingFit⟩,
      long, error_eq, holds⟩

theorem PacksLines.bind {program : FeedM Queue Unit} {next : Unit → FeedM Queue Unit}
    {more : List HeadLine} {success : Feed Queue → Prop}
    (first : PacksLines accepts start packing lines program before
      (Holds accepts start true (packing.addAll start.capacity lines)))
    (second : ∀ middle : Feed Queue,
      Holds accepts start true (packing.addAll start.capacity lines) middle →
      PacksLines accepts start (packing.addAll start.capacity lines) more (next ()) middle
        success) :
    PacksLines accepts start packing (lines ++ more) (program >>= next) before success := by
  apply Ensures.bind first
  · rintro _ middle ⟨fit, holds⟩
    exact (second middle holds).behind fit
  · rintro error after ⟨fitting, line, rest, rfl, fit, long, error_eq, holds⟩
    exact ⟨fitting, line, rest ++ more, by simp, fit, long, error_eq, holds⟩

section Writing

variable (willing : Willing accepts)

include willing

theorem writeLine_packs (holds : Holds accepts start true packing before)
    (supported : line.unsupportedVersion? = none) :
    PacksLines accepts start packing [line] (writeLine line) before
      (Holds accepts start true (packing.addAll start.capacity [line])) := by
  have added : packing.addAll start.capacity [line] = packing.add start.capacity line := rfl
  -- the segment before a line that is too long is closed by then, and a fresh one stays empty
  have overflown {middle : Feed Queue} (long : ¬line.text.length ≤ before.capacity)
      (same : middle.capacity = before.capacity)
      (closed : Holds accepts start true packing.close (middle.withWork none)) :
      Overflown accepts start packing [line] (.tooLarge line.text.length before.capacity)
        (middle.withWork (some (.empty before.capacity))) := by
    rw [holds.capacity_eq] at long ⊢
    rw [holds.capacity_eq] at same
    exact ⟨[], line, [], rfl, by simp, Nat.lt_of_not_le long, rfl, closed.refill same.symm rfl⟩
  rw [PacksLines, Ensures, run_writeLine holds.ready.sized holds.ready.allocatable supported, added,
    Packing.add, ← holds.capacity_eq, ← holds.pending_eq]
  by_cases room : before.stream.pending.length + line.text.length ≤ before.capacity
  · simp only [room, if_true, List.forall_mem_singleton]
    refine ⟨by omega, holds.refill rfl ?_⟩
    rw [Segment.bytes_holding, List.take_of_length_le (by simpa using room)]
    simp [holds.pending_eq]
  · rw [if_neg room, if_neg room]
    by_cases nothing : packing.current = []
    · have emptied : before.stream.pending = [] := holds.pending_eq_nil_iff.mpr nothing
      rw [if_pos emptied]
      apply overflown _ rfl
      · rw [Packing.close_of_nil nothing]
        exact holds.drop nothing
      · simpa [emptied] using room
    · rcases holds.deliver willing nothing with ⟨queue, accepted, closed⟩
      rw [if_neg (mt holds.pending_eq_nil_iff.mp nothing), accepted]
      by_cases fits : line.text.length ≤ before.capacity
      · simp only [fits, if_true, List.forall_mem_singleton]
        refine ⟨trivial, closed.refill rfl ?_⟩
        rw [Segment.bytes_holding, List.take_of_length_le fits, HeadLine.joined_singleton]
      · simp only [fits, if_false]
        exact overflown fits rfl closed

omit willing in
theorem writeInPlace_packs (holds : Holds accepts start started packing before)
    (empty : packing.current = []) (supported : line.unsupportedVersion? = none)
    (fits : line.text.length ≤ start.capacity) :
    Succeeds (writeInPlace line) before (fun _ after =>
      Holds accepts start started (packing.addAll start.capacity [line]) after) := by
  have added : packing.addAll start.capacity [line] = { packing with current := [line] } := by
    simp [Packing.addAll, Packing.add, empty, fits]
  have emptied : before.stream.pending = [] := holds.pending_eq_nil_iff.mpr empty
  have room : before.stream.pending.length + line.text.length ≤ before.capacity := by
    rwa [emptied, List.length_nil, Nat.zero_add, holds.capacity_eq]
  rw [Succeeds, Ensures, run_writeInPlace holds.ready.sized holds.ready.allocatable supported,
    if_pos room, added]
  apply holds.refill rfl
  rw [← holds.capacity_eq] at fits
  rw [Segment.bytes_holding, emptied, List.nil_append, List.take_of_length_le fits,
    HeadLine.joined_singleton]

omit willing in
theorem openWork_packs (holds : Holds accepts start started packing before) :
    Succeeds openWork before (fun _ after => Holds accepts start started packing after) := by
  rw [Succeeds, Ensures, run_openWork holds.ready.sized holds.ready.allocatable]
  apply holds.refill rfl
  rw [Segment.bytes_holding, List.take_of_length_le (pending_length_le holds.ready.sized),
    holds.pending_eq]

section Starting

variable {request : HeadLine} {hosts : List HeadLine}
  (known : start.stream.requestLines = request :: hosts)
  (supported : request.unsupportedVersion? = none)
  (roomy : request.text.length ≤ start.capacity)

include known supported roomy

/-- The lines that open the request, on a stream that holds no others. -/
theorem startRequest_packs (holds : Holds accepts start false packing before)
    (empty : packing.current = []) :
    PacksLines accepts start packing (request :: hosts) startRequest before
      (Holds accepts start true (packing.addAll start.capacity (request :: hosts))) := by
  rcases Stream.exists_requestLines known with ⟨method, path, methodKnown, pathKnown, rfl, rfl⟩
  have pseudo_eq : before.stream.pseudo = start.stream.pseudo := congrArg Prod.snd holds.opening_eq
  unfold startRequest
  rw [PacksLines, ensures_bind, ensures_get]
  simp only [pseudo_eq, holds.session_eq, methodKnown, pathKnown]
  apply Ensures.bind (writeInPlace_packs holds empty supported roomy)
  · intro _ middle written
    rw [ensures_bind, ensures_modifyStream]
    have begun : Holds accepts start true (packing.addAll start.capacity [_])
        { middle with stream := { middle.stream with requestStarted := true } } := {
      accepted_eq := written.accepted_eq
      pending_eq := written.pending_eq
      ready := ⟨written.ready.inputOpen, written.ready.allocatable, written.ready.sized,
        written.ready.accepting⟩
      session_eq := written.session_eq
      opening_eq := congrArg (fun shown => (true, shown.2)) written.opening_eq }
    apply PacksLines.behind (List.forall_mem_singleton.mpr roomy)
    cases start.stream.pseudo.authority with
    | none => exact ⟨by simp, begun⟩
    | some authority => exact writeLine_packs willing begun rfl
  · intro _ _ impossible
    exact impossible.elim

omit known supported roomy willing in
theorem Holds.openingLines_eq (holds : Holds accepts start started packing before) :
    before.stream.openingLines = if started then [] else start.stream.requestLines := by
  have started_eq : before.stream.requestStarted = started := congrArg Prod.fst holds.opening_eq
  have pseudo_eq : before.stream.pseudo = start.stream.pseudo := congrArg Prod.snd holds.opening_eq
  rw [Stream.openingLines, started_eq, Stream.requestLines, pseudo_eq, holds.session_eq,
    Stream.requestLines]

theorem ensureStarted_packs (holds : Holds accepts start started packing before)
    (unopened : started = false → packing.current = []) :
    PacksLines accepts start packing before.stream.openingLines ensureStarted before
      (Holds accepts start true (packing.addAll start.capacity before.stream.openingLines)) := by
  have started_eq : before.stream.requestStarted = started := congrArg Prod.fst holds.opening_eq
  unfold ensureStarted
  rw [PacksLines, ensures_bind, ensures_get, started_eq, holds.openingLines_eq]
  cases started with
  | true => exact ⟨by simp, holds⟩
  | false =>
      rw [if_neg Bool.false_ne_true, if_neg Bool.false_ne_true, known]
      exact startRequest_packs willing known supported roomy holds (unopened rfl)

/-- A header field with a name is a line behind those that open the request. -/
theorem addHeader_packs (holds : Holds accepts start started packing before)
    (unopened : started = false → packing.current = []) {name : Bytes} (value : Bytes)
    (named : name.isEmpty = false) (regular : isPseudoName name = false) :
    PacksLines accepts start packing (before.stream.openingLines ++ [.field name value])
      (addHeader name value) before
      (Holds accepts start true (packing.addAll start.capacity
        (before.stream.openingLines ++ [.field name value]))) := by
  unfold addHeader
  rw [named, if_neg Bool.false_ne_true, PacksLines, ensures_bind, ensures_get, ensures_bind,
    ensures_refuseIf, holds.ready.inputOpen]
  constructor
  · intro closed
    cases closed
  · intro _
    rw [regular, if_neg Bool.false_ne_true, Packing.addAll_append]
    apply (ensureStarted_packs willing known supported roomy holds unopened).bind
    intro middle opened
    exact writeLine_packs willing opened rfl

/-- The end of the header section is a blank line, after which nothing is held back. -/
theorem endHeaders_packs (holds : Holds accepts start started packing before)
    (unopened : started = false → packing.current = []) :
    PacksLines accepts start packing (before.stream.openingLines ++ [.blank]) endHeaders before
      (fun after => Holds accepts start true (packing.addAll start.capacity
        (before.stream.openingLines ++ [.blank])).close after ∧ after.stream.work = none) := by
  unfold endHeaders
  rw [PacksLines, ensures_bind, ensures_get, ensures_bind, ensures_refuseIf,
    holds.ready.inputOpen]
  constructor
  · intro closed
    cases closed
  · intro _
    apply (ensureStarted_packs willing known supported roomy holds unopened).bind
    intro middle opened
    apply Ensures.bind (openWork_packs opened)
    · intro _ filling filled
      rw [ensures_bind, ensures_modifyStream]
      have noted : Holds accepts start true
          (packing.addAll start.capacity before.stream.openingLines)
          { filling with stream := { filling.stream with endOfHeaders := true } } :=
        ⟨⟨filled.accepted_eq, filled.pending_eq⟩, ⟨filled.ready.inputOpen,
          filled.ready.allocatable, filled.ready.sized, filled.ready.accepting⟩,
          filled.session_eq, filled.opening_eq⟩
      apply (writeLine_packs willing noted rfl).bind
      intro full written
      apply Ensures.imp (written.push willing)
      · rintro _ after pushed
        rw [Packing.addAll_append]
        exact ⟨by simp, pushed⟩
      · intro _ _ impossible
        exact impossible.elim
    · intro _ _ impossible
      exact impossible.elim

end Starting

end Writing

/-- What a stream has emitted since the start are the lines that are packed. -/
theorem Packed.emitted_eq (packed : Packed start packing before) :
    before.emitted = start.accepted.flatMap Item.octets ++ joined packing.lines := by
  have chunks : (packing.closed.map fun group => Item.chunk (joined group)).flatMap Item.octets
      = joined packing.closed.flatten := by
    rw [List.flatMap_map, HeadLine.joined_flatten]
    rfl
  rw [emitted, packed.accepted_eq, packed.pending_eq, List.flatMap_append, chunks, Packing.lines,
    HeadLine.joined_append, List.append_assoc]

theorem Packed.emitted_append {after : Feed Queue} {later : Packing}
    (packed : Packed start packing before) (grown : Packed start later after)
    (lines_eq : later.lines = packing.lines ++ lines) :
    after.emitted = before.emitted ++ joined lines := by
  rw [packed.emitted_eq, grown.emitted_eq, lines_eq, HeadLine.joined_append, List.append_assoc]

end Feed

namespace Stream.Call

open Delivery (LoggingSink Item Scripted)
open Feed (Willing Holds Packed PacksLines Overflown Preserves)
open Message (headerCall)

/-- The lines of header fields. A field without a name has none. -/
def fieldLines (headers : List Field) : List HeadLine :=
  (headers.filter fun field => !field.name.isEmpty).map Field.line

variable {Queue : Type} [LoggingSink Queue]

/-- What a call does that is there to write lines of a head, in segments of the capacity that the
stream started with. It writes them all; or it writes those before the first one that is too long,
which closes the segment before it and leaves no octet. -/
inductive Turn (start before : Feed Queue) (lines : List HeadLine) :
    Answer × Feed Queue → Prop where
  | written {after : Feed Queue} (fit : ∀ line ∈ lines, line.text.length ≤ start.capacity)
      (emitted_eq : after.emitted = before.emitted ++ joined lines) :
      Turn start before lines (.ok .done, after)
  | overflown {fitting rest : List HeadLine} {line : HeadLine} {packing : Packing}
      {after : Feed Queue} (lines_eq : lines = fitting ++ line :: rest)
      (fit : ∀ line ∈ fitting, line.text.length ≤ start.capacity)
      (long : start.capacity < line.text.length)
      (emitted_eq : after.emitted = before.emitted ++ joined fitting)
      (packed : Packed start packing before)
      (closed : Packed start (packing.addAll start.capacity fitting).close after) :
      Turn start before lines (.error (.tooLarge line.text.length start.capacity), after)

variable {accepts : StreamId → Queue → Prop} {start before : Feed Queue} {started : Bool}
  {packing : Packing} {lines : List HeadLine}

/-- A call that packs lines, or fails over the first one that is too long. -/
def Outcome (accepts : StreamId → Queue → Prop) (start : Feed Queue) (packing : Packing)
    (lines : List HeadLine) (success : Feed Queue → Prop) : Answer × Feed Queue → Prop
  | (.ok reply, after) =>
      reply = .done ∧ (∀ line ∈ lines, line.text.length ≤ start.capacity) ∧ success after
  | (.error error, after) => Overflown accepts start packing lines error after

theorem outcome_of_packs {call : Call} {program : FeedM Queue Unit} {success : Feed Queue → Prop}
    (consists : call.program = do program; pure .done)
    (packs : PacksLines accepts start packing lines program before success) :
    Outcome accepts start packing lines success (call.run before) := by
  have outcome := run_of_done call consists packs
  rcases result : call.run before with ⟨answer, after⟩
  rw [result] at outcome
  cases answer with
  | ok reply => exact outcome
  | error error => exact outcome

theorem Outcome.imp {result : Answer × Feed Queue} {success weaker : Feed Queue → Prop}
    (outcome : Outcome accepts start packing lines success result)
    (implies : ∀ after, success after → weaker after) :
    Outcome accepts start packing lines weaker result := by
  rcases result with ⟨answer, after⟩
  cases answer with
  | ok reply => exact ⟨outcome.1, outcome.2.1, implies after outcome.2.2⟩
  | error error => exact outcome

theorem Outcome.success {result : Answer × Feed Queue} {success : Feed Queue → Prop}
    (outcome : Outcome accepts start packing lines success result)
    (fit : ∀ line ∈ lines, line.text.length ≤ start.capacity) :
    result.1 = .ok .done ∧ success result.2 := by
  rcases result with ⟨answer, after⟩
  cases answer with
  | ok reply => exact ⟨congrArg Except.ok outcome.1, outcome.2.2⟩
  | error error =>
      rcases outcome with ⟨fitting, line, rest, rfl, _, long, _⟩
      exact absurd (fit line (by simp)) (Nat.not_le.mpr long)

theorem Outcome.turn {result : Answer × Feed Queue} {later : Packing}
    (outcome : Outcome accepts start packing lines (Packed start later) result)
    (packed : Packed start packing before) (lines_eq : later.lines = packing.lines ++ lines) :
    Turn start before lines result := by
  rcases result with ⟨answer, after⟩
  cases answer with
  | ok reply =>
      rcases outcome with ⟨rfl, fit, grown⟩
      exact .written fit (packed.emitted_append grown lines_eq)
  | error error =>
      rcases outcome with ⟨fitting, line, rest, split, fit, long, rfl, holds⟩
      have kept : (packing.addAll start.capacity fitting).close.lines = packing.lines ++ fitting :=
        Packing.lines_close.trans (Packing.lines_addAll fitting)
      exact .overflown split fit long (packed.emitted_append holds.toPacked kept) packed
        holds.toPacked

/-- The lines that are written are packed, and the request is not started before the first one. -/
structure Stands (accepts : StreamId → Queue → Prop) (start : Feed Queue) (started : Bool)
    (packing : Packing) (feed : Feed Queue) : Prop where
  holds : Holds accepts start started packing feed
  unopened : started = false → packing.current = []

section Running

variable (willing : Willing accepts) {request : HeadLine} {hosts : List HeadLine}
  (known : start.stream.requestLines = request :: hosts)
  (supported : request.unsupportedVersion? = none)
  (roomy : request.text.length ≤ start.capacity)

include willing known supported roomy

theorem run_headerCall_named (stands : Stands accepts start started packing before) {field : Field}
    (regular : isPseudoName field.name = false) (named : field.name.isEmpty = false) :
    Outcome accepts start packing (before.stream.openingLines ++ [field.line])
      (Stands accepts start true
        (packing.addAll start.capacity (before.stream.openingLines ++ [field.line])))
      ((headerCall field).run before) := by
  apply (outcome_of_packs rfl (Feed.addHeader_packs willing known supported roomy stands.holds
    stands.unopened field.value named regular)).imp
  intro after holds
  exact ⟨holds, fun unstarted => by cases unstarted⟩

theorem run_headerCall (stands : Stands accepts start started packing before) {field : Field}
    (regular : isPseudoName field.name = false) :
    Outcome accepts start packing ((headerCall field).lines before.stream)
      (fun after => ∃ started, Stands accepts start started
        (packing.addAll start.capacity ((headerCall field).lines before.stream)) after)
      ((headerCall field).run before) := by
  cases named : field.name.isEmpty with
  | true =>
      have lines_eq : (headerCall field).lines before.stream = [] := by
        simp [headerCall, Call.lines, named]
      rw [lines_eq, headerCall, run_addHeader_nameless (List.isEmpty_iff.mp named)]
      exact ⟨rfl, by simp, started, stands⟩
  | false =>
      have lines_eq : (headerCall field).lines before.stream
          = before.stream.openingLines ++ [field.line] := by
        simp [headerCall, Call.lines, named, regular, Field.line]
      rw [lines_eq]
      apply (run_headerCall_named willing known supported roomy stands regular named).imp
      exact fun after stands => ⟨true, stands⟩

theorem stands_run_headerCall (stands : Stands accepts start started packing before) {field : Field}
    (regular : isPseudoName field.name = false) :
    ∃ started last, Stands accepts start started last ((headerCall field).run before).2 := by
  have outcome := run_headerCall willing known supported roomy stands regular
  rcases result : (headerCall field).run before with ⟨answer, middle⟩
  rw [result] at outcome
  cases answer with
  | ok reply =>
      rcases outcome.2.2 with ⟨started, stands⟩
      exact ⟨started, _, stands⟩
  | error error =>
      rcases outcome with ⟨fitting, line, rest, _, _, _, _, holds⟩
      exact ⟨true, _, holds, fun unstarted => by cases unstarted⟩

theorem stands_runAll_headers {headers : List Field}
    (regular : ∀ field ∈ headers, isPseudoName field.name = false)
    (stands : Stands accepts start started packing before) :
    ∃ started last,
      Stands accepts start started last (runAll (headers.map headerCall) before).2 := by
  induction headers generalizing before started packing with
  | nil => exact ⟨started, packing, stands⟩
  | cons field later ih =>
      rw [List.forall_mem_cons] at regular
      rcases stands_run_headerCall willing known supported roomy stands regular.1 with
        ⟨started, last, stands⟩
      exact ih regular.2 stands

theorem run_endHeaders (stands : Stands accepts start started packing before) :
    Outcome accepts start packing (endHeaders.lines before.stream)
      (fun after => Holds accepts start true
        (packing.addAll start.capacity (endHeaders.lines before.stream)).close after ∧
          after.stream.work = none)
      (endHeaders.run before) :=
  outcome_of_packs rfl
    (Feed.endHeaders_packs willing known supported roomy stands.holds stands.unopened)

/-- Header fields that fit leave all their lines packed, behind those that open the request. -/
theorem runAll_headers_fit {headers : List Field}
    (regular : ∀ field ∈ headers, isPseudoName field.name = false)
    (stands : Stands accepts start started packing before)
    (fit : ∀ line ∈ before.stream.openingLines ++ fieldLines headers,
      line.text.length ≤ start.capacity) :
    let (answers, after) := runAll (headers.map headerCall) before
    (∀ answer ∈ answers, answer = .ok .done) ∧
      ∃ started last, Stands accepts start started last after ∧
        last.addAll start.capacity after.stream.openingLines
          = packing.addAll start.capacity (before.stream.openingLines ++ fieldLines headers) := by
  induction headers generalizing before started packing with
  | nil =>
      refine ⟨by simp, started, packing, stands, ?_⟩
      simp [fieldLines]
  | cons field later ih =>
      rw [List.forall_mem_cons] at regular
      simp only [List.map_cons, runAll, List.forall_mem_cons]
      cases named : field.name.isEmpty with
      | true =>
          have lines_eq : fieldLines (field :: later) = fieldLines later := by
            simp [fieldLines, named]
          rw [headerCall, run_addHeader_nameless (List.isEmpty_iff.mp named)]
          rw [lines_eq] at fit ⊢
          rcases ih regular.2 stands fit with ⟨answers, rest⟩
          exact ⟨⟨rfl, answers⟩, rest⟩
      | false =>
          have lines_eq : before.stream.openingLines ++ fieldLines (field :: later)
              = before.stream.openingLines ++ [field.line] ++ fieldLines later := by
            simp [fieldLines, named]
          rw [lines_eq] at fit ⊢
          rw [List.forall_mem_append] at fit
          rcases (run_headerCall_named willing known supported roomy stands regular.1
            named).success fit.1 with ⟨ok, next⟩
          have noLines : ((headerCall field).run before).2.stream.openingLines = [] :=
            next.holds.openingLines_eq
          rcases ih regular.2 next (by simpa [noLines] using fit.2) with
            ⟨answers, started, last, stands, packed⟩
          refine ⟨⟨ok, answers⟩, started, last, stands, ?_⟩
          -- what opens the request is written by now, and only the lines of fields follow
          rw [packed, noLines, List.nil_append, ← Packing.addAll_append]

/-- The head of a request that fits, line by line. -/
theorem head_chunks {headers : List Field}
    (regular : ∀ field ∈ headers, isPseudoName field.name = false)
    (fresh : Stands accepts start false {} start)
    (fit : ∀ line ∈ request :: hosts ++ fieldLines headers ++ [.blank],
      line.text.length ≤ start.capacity) :
    let calls := headers.map headerCall ++ [endHeaders]
    (∀ answer ∈ (runAll calls start).1, answer = .ok .done) ∧
      (runAll calls start).2.stream.work = none ∧
      ∃! groups,
        Greedy start.capacity (request :: hosts ++ fieldLines headers ++ [.blank]) groups ∧
        (runAll calls start).2.accepted
          = start.accepted ++ groups.map fun group => .chunk (joined group) := by
  intro calls
  let middle := (runAll (headers.map headerCall) start).2
  have opening : start.stream.openingLines = request :: hosts :=
    fresh.holds.openingLines_eq.trans known
  rw [← opening] at fit ⊢
  have parts := List.forall_mem_append.mp fit
  rcases runAll_headers_fit willing known supported roomy regular fresh parts.1 with
    ⟨answers, started, last, stands, packed⟩
  have lastFit : ∀ line ∈ endHeaders.lines middle.stream, line.text.length ≤ start.capacity := by
    rw [Call.lines, List.forall_mem_append]
    refine ⟨?_, parts.2⟩
    intro line opens
    rw [stands.holds.openingLines_eq] at opens
    -- without a header line, what opens the request is left to the blank line's call
    cases started with
    | true => cases opens
    | false =>
        apply parts.1 line
        apply List.mem_append_left
        rwa [fresh.holds.openingLines_eq]
  have whole : last.addAll start.capacity (endHeaders.lines middle.stream)
      = Packing.addAll start.capacity {}
        (start.stream.openingLines ++ fieldLines headers ++ [.blank]) := by
    rw [Call.lines, Packing.addAll_append, packed, ← Packing.addAll_append]
  rcases (run_endHeaders willing known supported roomy stands).success lastFit with
    ⟨ok, holds, work⟩
  have greedy := Packing.greedy_addAll fit
  refine ⟨?_, ?_, _, ⟨greedy, ?_⟩, fun _ other => other.1.unique greedy⟩
  · rw [answers_runAll_append, List.forall_mem_append]
    exact ⟨answers, List.forall_mem_singleton.mpr ok⟩
  · rw [runAll_append]
    exact work
  · rw [runAll_append, ← whole]
    exact holds.accepted_eq

theorem turn_headerCall (stands : Stands accepts start started packing before) {field : Field}
    (regular : isPseudoName field.name = false) :
    Turn start before ((headerCall field).lines before.stream) ((headerCall field).run before) := by
  have packs : Outcome accepts start packing ((headerCall field).lines before.stream)
      (Packed start (packing.addAll start.capacity ((headerCall field).lines before.stream)))
      ((headerCall field).run before) :=
    (run_headerCall willing known supported roomy stands regular).imp
      fun _ ⟨_, stands⟩ => stands.holds.toPacked
  exact packs.turn stands.holds.toPacked (Packing.lines_addAll _)

theorem turn_endHeaders (stands : Stands accepts start started packing before) :
    Turn start before (endHeaders.lines before.stream) (endHeaders.run before) := by
  have outcome := run_endHeaders willing known supported roomy stands
  apply (outcome.imp fun after ended => ended.1.toPacked).turn stands.holds.toPacked
  rw [Packing.lines_close, Packing.lines_addAll]

/-- The calls that pass on a head, one at a time. -/
theorem head_turns {headers : List Field}
    (regular : ∀ field ∈ headers, isPseudoName field.name = false)
    (stands : Stands accepts start started packing start) {earlier later : List Call} {call : Call}
    (split : headers.map headerCall ++ [endHeaders] = earlier ++ call :: later) :
    let before := (runAll earlier start).2
    Turn start before (call.lines before.stream) (call.run before) := by
  rcases eq_or_split_of_concat_eq split with ⟨rfl, rfl, rfl⟩ | ⟨rest, inside⟩
  · rcases stands_runAll_headers willing known supported roomy regular stands with
      ⟨started, last, stands⟩
    exact turn_endHeaders willing known supported roomy stands
  · rcases List.map_eq_append_iff.mp inside with ⟨first, others, rfl, rfl, tail⟩
    rcases List.map_eq_cons_iff.mp tail with ⟨field, remaining, rfl, rfl, rfl⟩
    rw [List.forall_mem_append, List.forall_mem_cons] at regular
    rcases stands_runAll_headers willing known supported roomy regular.1 stands with
      ⟨started, last, stands⟩
    exact turn_headerCall willing known supported roomy stands regular.2.1

end Running

section Opening

variable (id : StreamId) (session : Session) (sink : Queue) {openers : List Field}
  (pseudo : ∀ field ∈ openers, isPseudoName field.name = true)

include pseudo

/-- Pseudo-headers change nothing else about a stream. -/
theorem runAll_openers (before : Feed Queue) :
    withPseudo (runAll (openers.map headerCall) before).2 {} = withPseudo before {} := by
  induction openers generalizing before with
  | nil => rfl
  | cons field later ih =>
      rw [List.forall_mem_cons] at pseudo
      have first : withPseudo ((headerCall field).run before).2 {} = withPseudo before {} := by
        apply holds_after_run fun after => withPseudo after {} = withPseudo before {}
        apply Feed.ensures_bind_pure.mpr
        unfold Feed.addHeader
        split
        · exact rfl
        · rw [Feed.ensures_bind, Feed.ensures_get, Feed.ensures_bind, Feed.ensures_refuseIf,
            pseudo.1, if_pos rfl]
          have keeps : Preserves (fun feed : Feed Queue => withPseudo feed {})
              (Feed.addPseudoHeader field.name field.value) :=
            Feed.preserves_addPseudoHeader (fun _ _ => rfl) _ _
          exact ⟨fun _ => rfl, fun _ => keeps before⟩
      exact (ih pseudo.2 _).trans first

/-- A stream that has received nothing but pseudo-headers holds no lines. -/
theorem stands_openers (accepting : accepts id sink)
    (allocatable : session.config.segmentCapacity < Segment.allocationLimit) :
    let opened := (runAll (openers.map headerCall) (Feed.fresh id session sink)).2
    opened.stream.session = session ∧ opened.accepted = (Feed.fresh id session sink).accepted ∧
      Stands accepts opened false {} opened := by
  intro opened
  have same : withPseudo opened {} = Feed.fresh id session sink := runAll_openers pseudo _
  have session_eq : opened.stream.session = session :=
    congrArg (fun feed => feed.stream.session) same
  have work : opened.stream.work = none := congrArg (fun feed => feed.stream.work) same
  have holds : Holds accepts opened false {} opened := {
    accepted_eq := (List.append_nil _).symm
    pending_eq := by
      rw [Stream.pending, work]
      rfl
    ready := {
      inputOpen := congrArg (fun feed => feed.stream.lifecycle.isInputClosed) same
      allocatable := by rwa [Feed.capacity, session_eq]
      sized := by
        intro segment present
        rw [work] at present
        cases present
      accepting := by
        have id_eq : opened.stream.id = id := congrArg (fun feed => feed.stream.id) same
        have queue_eq : opened.queue = sink := congrArg Feed.queue same
        rwa [id_eq, queue_eq] }
    session_eq := rfl
    opening_eq := by
      have unstarted := congrArg (fun feed => feed.stream.requestStarted) same
      exact congrArg (·, opened.stream.pseudo) unstarted }
  have accepted_eq : (withPseudo opened {}).accepted = (Feed.fresh id session sink).accepted :=
    congrArg Feed.accepted same
  exact ⟨session_eq, accepted_eq, holds, fun _ => rfl⟩

end Opening

/-- The chunks of a head. On a sink that accepts everything, the head of a request is delivered in
segments into which its lines are packed greedily, if no line is longer than a segment. The call
that is there to write a longer one fails over it, and no octet of that line is emitted. -/
theorem head_packed (willing : Willing accepts) (id : StreamId) (session : Session) {sink : Queue}
    (accepting : accepts id sink)
    (allocatable : session.config.segmentCapacity < Segment.allocationLimit)
    {openers headers : List Field} (pseudo : ∀ field ∈ openers, isPseudoName field.name = true)
    (regular : ∀ field ∈ headers, isPseudoName field.name = false) {request : HeadLine}
    {hosts : List HeadLine} :
    let fresh := Feed.fresh id session sink
    let opened := (runAll (openers.map headerCall) fresh).2
    let calls := headers.map headerCall ++ [endHeaders]
    let after := (runAll calls opened).2
    let capacity := session.config.segmentCapacity
    let lines := request :: hosts ++ fieldLines headers ++ [.blank]
    opened.stream.requestLines = request :: hosts → request.unsupportedVersion? = none →
    request.text.length ≤ capacity →
      ((∀ line ∈ lines, line.text.length ≤ capacity) →
        (∀ answer ∈ (runAll calls opened).1, answer = .ok .done) ∧ after.stream.work = none ∧
        ∃! groups, Greedy capacity lines groups ∧
          after.accepted = fresh.accepted ++ groups.map fun group => .chunk (joined group)) ∧
      ∀ earlier call later, calls = earlier ++ call :: later →
        let before := (runAll earlier opened).2
        Turn opened before (call.lines before.stream) (call.run before) := by
  intro fresh opened calls after capacity lines known supported roomy
  rcases stands_openers id session sink pseudo accepting allocatable with
    ⟨session_eq, accepted_eq, stands⟩
  have capacity_eq : opened.capacity = capacity := by
    rw [Feed.capacity, session_eq]
  rw [← capacity_eq] at roomy ⊢
  constructor
  · intro fit
    rw [← accepted_eq]
    exact head_chunks willing known supported roomy regular stands fit
  · intro earlier call later split
    exact head_turns willing known supported roomy regular stands split

/-- The line of the authority goes into a second segment, and the blank line into a third. -/
theorem head_packed_greeting :
    let openers : List Field :=
      [⟨Bytes.ascii ":method", Bytes.ascii "GET"⟩, ⟨Bytes.ascii ":path", Bytes.ascii "/"⟩,
        ⟨Bytes.ascii ":authority", Bytes.ascii "example.com"⟩]
    let headers : List Field := [⟨Bytes.ascii "a", Bytes.ascii "b"⟩]
    let session : Session := { config := { segmentCapacity := 25 } }
    let fresh := Feed.fresh 1 session ({} : Scripted)
    let opened := (runAll (openers.map headerCall) fresh).2
    let calls := headers.map headerCall ++ [endHeaders]
    let after := (runAll calls opened).2
    let request := HeadLine.request (Bytes.ascii "GET") (Bytes.ascii "/") none
    let host := HeadLine.field Feed.hostName (Bytes.ascii "example.com")
    (∀ answer ∈ (runAll calls opened).1, answer = .ok .done) ∧
      ∃! groups, Greedy 25 (request :: [host] ++ fieldLines headers ++ [.blank]) groups ∧
        after.accepted = fresh.accepted ++ groups.map fun group => .chunk (joined group) := by
  intro openers headers session fresh opened calls after request host
  have accepting : Scripted.Generous 1 ({} : Scripted) := Scripted.generous_empty 1 []
  have pseudo : ∀ field ∈ openers, isPseudoName field.name = true := by decide
  have regular : ∀ field ∈ headers, isPseudoName field.name = false := by decide
  have known : opened.stream.requestLines = request :: [host] := by decide
  have fit : ∀ line ∈ request :: [host] ++ fieldLines headers ++ [.blank],
      line.text.length ≤ session.config.segmentCapacity := by decide
  have packed := head_packed Scripted.willing_generous 1 session accepting (by decide) pseudo
    regular known (by decide) (by decide)
  exact ⟨(packed.1 fit).1, (packed.1 fit).2.2⟩

end Stream.Call

end Reassembly
