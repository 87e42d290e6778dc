import Reassembly.Proofs.Stream.HostLine
import Reassembly.Proofs.Stream.Packing
import Reassembly.Proofs.Stream.Received

/-!
# What the request line is made of

A pseudo-header is accepted once, and before anything is written. From the method and the path
that have been accepted then, the request line is made, and it is the first line of the request.

What a stream has emitted is a text. Its manuscript says what each part of the text was written
as, a line of the head or data, so that data is not taken for a line that it looks like.
-/

namespace Reassembly

/-- A part of the text of a request. -/
inductive Entry where
  | line (line : HeadLine)
  | data (octets : Bytes)
  deriving DecidableEq, Repr

namespace Entry

def text : Entry → Bytes
  | .line written => written.text
  | .data octets => octets

def isData : Entry → Bool
  | .line _ => false
  | .data _ => true

/-- Whether an entry is a request line. -/
def isRequest : Entry → Bool
  | .line (.request ..) => true
  | .line (.field ..) | .line .blank | .data _ => false

end Entry

namespace HeadLine

/-- The first of some lines that are written whole in so many octets. -/
def within (octets : Nat) : List HeadLine → List HeadLine
  | [] => []
  | line :: later =>
      if line.text.length ≤ octets then line :: within (octets - line.text.length) later else []

theorem within_prefix (octets : Nat) (lines : List HeadLine) : within octets lines <+: lines := by
  induction lines generalizing octets with
  | nil => exact List.prefix_rfl
  | cons line later ih =>
      unfold within
      split
      · exact List.cons_prefix_cons.mpr ⟨rfl, ih _⟩
      · exact List.nil_prefix

/-- No line is empty, so lines are told from their length. -/
theorem within_length_joined {written lines : List HeadLine} (begins : written <+: lines) :
    within (joined written).length lines = written := by
  induction lines generalizing written with
  | nil => rw [List.prefix_nil.mp begins, within]
  | cons line later ih =>
      cases written with
      | nil =>
          have unwritten : ¬line.text.length ≤ 0 := by
            simp [text_ne_nil]
          rw [within, joined_nil, List.length_nil, if_neg unwritten]
      | cons first rest =>
          rcases List.cons_prefix_cons.mp begins with ⟨rfl, restBegins⟩
          have whole : first.text.length ≤ (joined (first :: rest)).length := by
            simp [joined]
          have left : (joined (first :: rest)).length - first.text.length
              = (joined rest).length := by
            simp [joined]
          rw [within, if_pos whole, left, ih restBegins]

@[simp]
theorem within_zero (lines : List HeadLine) : within 0 lines = [] :=
  within_length_joined List.nil_prefix

end HeadLine

namespace Stream.Call

open Delivery (LoggingSink)

/-- What the octets that a call has added were written as. -/
def entries (call : Call) (stream : Stream) (added : Nat) : List Entry :=
  match call with
  | addData data => [.data (data.take added)]
  | _ => (HeadLine.within added (call.lines stream)).map .line

variable {Queue : Type} [LoggingSink Queue]

/-- The entries that a call adds to the manuscript of a request. -/
def adds (call : Call) (before : Feed Queue) : List Entry :=
  call.entries before.stream ((call.run before).2.emitted.length - before.emitted.length)

/-- The parts of the text that a run adds to a request, in order. -/
def manuscript (calls : List Call) (before : Feed Queue) : List Entry :=
  match calls with
  | [] => []
  | call :: later => call.adds before ++ manuscript later (call.run before).2

section Transcription

variable {before : Feed Queue}

omit [LoggingSink Queue] in
theorem text_entries {call : Call} {stream : Stream} {written : List Bytes}
    (begins : written <+: call.pieces stream) :
    (call.entries stream written.flatten.length).flatMap Entry.text = written.flatten := by
  have lined {lines : List HeadLine} (begins : written <+: lines.map HeadLine.text) :
      ((HeadLine.within written.flatten.length lines).map Entry.line).flatMap Entry.text
        = written.flatten := by
    rcases List.prefix_map_iff.mp begins with ⟨whole, linesBegin, rfl⟩
    have texts : (whole.map HeadLine.text).flatten = HeadLine.joined whole :=
      List.flatMap_def.symm
    rw [texts, HeadLine.within_length_joined linesBegin, List.flatMap_map]
    rfl
  cases call with
  | addData data =>
      have starts : written.flatten <+: data := by
        have flat := begins.flatten
        rwa [pieces, Feed.flatten_octetwise] at flat
      have taken : data.take written.flatten.length = written.flatten :=
        (List.prefix_iff_eq_take.mp starts).symm
      rw [entries, taken, List.flatMap_singleton]
      rfl
  | _ => exact lined begins

theorem emitted_run_eq (call : Call) (before : Feed Queue) :
    (call.run before).2.emitted = before.emitted ++ (call.adds before).flatMap Entry.text := by
  rcases emitted_run_prefix call before with ⟨written, begins, added⟩
  rw [adds, added, List.length_append, Nat.add_sub_cancel_left, text_entries begins]

/-- The manuscript is true to the text. -/
theorem emitted_runAll_eq (calls : List Call) (before : Feed Queue) :
    (runAll calls before).2.emitted
      = before.emitted ++ (manuscript calls before).flatMap Entry.text := by
  induction calls generalizing before with
  | nil => exact (List.append_nil _).symm
  | cons call later ih =>
      rw [runAll_cons, ih, emitted_run_eq, manuscript,
        List.flatMap_append, List.append_assoc]

end Transcription

/-- How the manuscript of a request looks: nothing but data, until the request line is written
from the method and the path that there are by then. -/
inductive Headed (stream : Stream) : List Entry → Prop where
  | unstarted {entries : List Entry} (unstarted : stream.requestStarted = false)
      (only_data : ∀ entry ∈ entries, entry.isData = true) : Headed stream entries
  | started {earlier later : List Entry} {request : HeadLine}
      (started : stream.requestStarted = true) (made : stream.requestLine? = some request)
      (only_data : ∀ entry ∈ earlier, entry.isData = true)
      (no_other : ∀ entry ∈ later, entry.isRequest = false) :
      Headed stream (earlier ++ .line request :: later)

section Heading

variable {before : Feed Queue} {written : List Entry}

theorem requestLine?_congr {stream other : Stream} (pseudo : other.pseudo = stream.pseudo)
    (session : other.session = stream.session) : other.requestLine? = stream.requestLine? := by
  rw [Stream.requestLine?, Stream.requestLine?, pseudo, session]

theorem mem_entries {call : Call} {stream : Stream} {added : Nat} {entry : Entry}
    (mem : entry ∈ call.entries stream added) :
    entry.isData = true ∨ ∃ line ∈ call.lines stream, entry = .line line := by
  cases call with
  | addData data =>
      rw [List.mem_singleton.mp mem]
      exact .inl rfl
  | _ =>
      rcases List.mem_map.mp mem with ⟨line, within_mem, rfl⟩
      exact .inr ⟨line, (HeadLine.within_prefix _ _).subset within_mem, rfl⟩

theorem isRequest_of_isData {entry : Entry} (isData : entry.isData = true) :
    entry.isRequest = false := by
  cases entry with
  | line line => cases isData
  | data octets => rfl

theorem lines_of_started {call : Call} {stream : Stream} (started : stream.requestStarted = true) :
    ∀ line ∈ call.lines stream, (Entry.line line).isRequest = false := by
  have noLines : stream.openingLines = [] := if_pos started
  cases call with
  | addHeader name value =>
      rw [lines, noLines]
      split <;> simp [Entry.isRequest]
  | endHeaders => simp [lines, noLines, Entry.isRequest]
  | _ => simp [lines]

/-- Once the request is started, no call writes another request line. -/
theorem isRequest_of_mem_adds (started : before.stream.requestStarted = true) (call : Call)
    {entry : Entry} (mem : entry ∈ call.adds before) : entry.isRequest = false := by
  rcases mem_entries mem with isData | ⟨line, line_mem, rfl⟩
  · exact isRequest_of_isData isData
  · exact lines_of_started started line line_mem

theorem openingLines_of_unstarted {stream : Stream} {request : HeadLine}
    (unstarted : stream.requestStarted = false) (made : stream.requestLine? = some request) :
    stream.openingLines = request :: stream.hostLine?.toList := by
  rcases Stream.requestLine?_eq_some_iff.mp made with ⟨method, path, hasMethod, hasPath, rfl⟩
  rw [Stream.openingLines, unstarted, if_neg Bool.false_ne_true, Stream.requestLines, hasMethod,
    hasPath]
  rfl

/-- A call that writes lines writes the request line first, and once, if it has to. -/
theorem lines_of_unstarted {call : Call} {stream : Stream} {request : HeadLine}
    (writes : call.writesLine = true) (unstarted : stream.requestStarted = false)
    (made : stream.requestLine? = some request) :
    ∃ more, call.lines stream = request :: more ∧
      ∀ line ∈ more, (Entry.line line).isRequest = false := by
  have opened := openingLines_of_unstarted unstarted made
  have host : ∀ line ∈ stream.hostLine?.toList, (Entry.line line).isRequest = false := by
    intro line mem
    rcases Option.map_eq_some_iff.mp (Option.mem_toList.mp mem) with ⟨authority, _, rfl⟩
    rfl
  cases call with
  | addHeader name value =>
      have written : (name.isEmpty || isPseudoName name) = false := by
        simpa [writesLine] using writes
      refine ⟨stream.hostLine?.toList ++ [.field name value], ?_, ?_⟩
      · rw [lines, written, if_neg Bool.false_ne_true, opened, List.cons_append]
      · exact List.forall_mem_append.mpr ⟨host, List.forall_mem_singleton.mpr rfl⟩
  | endHeaders =>
      refine ⟨stream.hostLine?.toList ++ [.blank], ?_, ?_⟩
      · rw [lines, opened, List.cons_append]
      · exact List.forall_mem_append.mpr ⟨host, List.forall_mem_singleton.mpr rfl⟩
  | _ => cases writes

theorem entries_of_writesLine {call : Call} (writes : call.writesLine = true) (stream : Stream)
    (added : Nat) :
    call.entries stream added = (HeadLine.within added (call.lines stream)).map .line := by
  cases call with
  | addHeader name value => rfl
  | endHeaders => rfl
  | _ => cases writes

/-- A call that writes nothing but its payload adds nothing but data. -/
theorem isData_of_mem_entries {call : Call} {stream : Stream} {written : List Bytes}
    (begins : written <+: octetwise call.payload) :
    ∀ entry ∈ call.entries stream written.flatten.length, entry.isData = true := by
  cases call with
  | addData data => exact List.forall_mem_singleton.mpr rfl
  | _ =>
      have nothing : written = [] := List.prefix_nil.mp begins
      simp [nothing, entries]

/-- What a call adds that finds the request not started: the request line, if it starts it, and
otherwise nothing but data. -/
theorem adds_of_unstarted (sized : before.WellSized) (stocked : before.Stocked)
    (unstarted : before.stream.requestStarted = false) (call : Call) :
    let after := (call.run before).2
    (after.stream.requestStarted = false ∧ ∀ entry ∈ call.adds before, entry.isData = true) ∨
      (opening after = (true, before.stream.pseudo) ∧
        ∃ request later, before.stream.requestLine? = some request ∧
          call.adds before = .line request :: later ∧
          ∀ entry ∈ later, entry.isRequest = false) := by
  intro after
  rcases run_of_unstarted sized stocked unstarted call with
    ⟨still, written, begins, added⟩ | ⟨opening_eq, request, rest, made, _, added⟩
  · refine .inl ⟨still, ?_⟩
    rw [adds, added, List.length_append, Nat.add_sub_cancel_left]
    exact isData_of_mem_entries begins
  · cases writes : call.writesLine with
    | false =>
        have started : (call.run before).2.stream.requestStarted = true :=
          congrArg Prod.fst opening_eq
        rw [requestStarted_run_of_silent writes, unstarted] at started
        cases started
    | true =>
        rcases lines_of_unstarted writes unstarted made with ⟨more, lines_eq, no_other⟩
        -- the octets added go beyond the request line, so it is within them
        generalize octets_eq :
          (call.run before).2.emitted.length - before.emitted.length = octets
        have room : request.text.length ≤ octets := by
          rw [← octets_eq, added]
          simp only [List.length_append]
          omega
        have adds_eq : call.adds before
            = .line request :: (HeadLine.within (octets - request.text.length) more).map .line := by
          rw [adds, octets_eq, entries_of_writesLine writes, lines_eq, HeadLine.within, if_pos room,
            List.map_cons]
        refine .inr ⟨opening_eq, request, _, made, adds_eq, ?_⟩
        intro entry mem
        rcases List.mem_map.mp mem with ⟨line, line_mem, rfl⟩
        exact no_other line ((HeadLine.within_prefix _ _).subset line_mem)

theorem headed_run (sized : before.WellSized) (stocked : before.Stocked)
    (headed : Headed before.stream written) (call : Call) :
    Headed (call.run before).2.stream (written ++ call.adds before) := by
  have session_eq := Feed.session_run call before
  cases headed with
  | unstarted unstarted only_data =>
      rcases adds_of_unstarted sized stocked unstarted call with
        ⟨still, more_data⟩ | ⟨opening_eq, request, later, made, adds_eq, no_other⟩
      · apply Headed.unstarted still
        exact List.forall_mem_append.mpr ⟨only_data, more_data⟩
      · rw [adds_eq]
        have made_after : (call.run before).2.stream.requestLine? = some request :=
          (requestLine?_congr (congrArg Prod.snd opening_eq) session_eq).trans made
        exact .started (congrArg Prod.fst opening_eq) made_after only_data no_other
  | started started made only_data no_other =>
      have opening_eq := opening_run_of_started call started
      have made_after := requestLine?_congr (congrArg Prod.snd opening_eq) session_eq
      rw [List.append_assoc, List.cons_append]
      apply Headed.started ((congrArg Prod.fst opening_eq).trans started) (made_after.trans made)
        only_data
      exact List.forall_mem_append.mpr ⟨no_other, fun _ => isRequest_of_mem_adds started call⟩

theorem headed_runAll (calls : List Call) (sized : before.WellSized) (stocked : before.Stocked)
    (headed : Headed before.stream written) :
    Headed (runAll calls before).2.stream (written ++ manuscript calls before) := by
  induction calls generalizing before written with
  | nil => rwa [manuscript, List.append_nil]
  | cons call later ih =>
      rw [manuscript, ← List.append_assoc]
      exact ih (run_wellSized call sized) (stocked_run stocked call)
        (headed_run sized stocked headed call)

end Heading

section Reading

variable {stream : Stream} {entries : List Entry} (headed : Headed stream entries)

include headed

theorem Headed.countP_isRequest_le : entries.countP Entry.isRequest ≤ 1 := by
  have none {part : List Entry} (no_other : ∀ entry ∈ part, entry.isRequest = false) :
      part.countP Entry.isRequest = 0 := by
    simpa using no_other
  cases headed with
  | unstarted unstarted only_data =>
      rw [none fun entry mem => isRequest_of_isData (only_data entry mem)]
      exact Nat.zero_le 1
  | started started made only_data no_other =>
      have before := none fun entry mem => isRequest_of_isData (only_data entry mem)
      rw [List.countP_append, List.countP_cons, before, none no_other]
      split <;> simp

theorem Headed.made_of_mem {entry : Entry} (mem : entry ∈ entries)
    (isRequest : entry.isRequest = true) :
    stream.requestStarted = true ∧ ∃ request, stream.requestLine? = some request ∧
      entry = .line request := by
  have refuted {part : List Entry} (no_other : ∀ entry ∈ part, entry.isRequest = false)
      (mem : entry ∈ part) : False := by
    rw [no_other entry mem] at isRequest
    cases isRequest
  cases headed with
  | unstarted unstarted only_data =>
      exact (refuted (fun entry mem => isRequest_of_isData (only_data entry mem)) mem).elim
  | started started made only_data no_other =>
      rcases List.mem_append.mp mem with data_mem | mem
      · exact (refuted (fun entry mem => isRequest_of_isData (only_data entry mem)) data_mem).elim
      · rcases List.mem_cons.mp mem with rfl | later_mem
        · exact ⟨started, _, made, rfl⟩
        · exact (refuted no_other later_mem).elim

/-- Every other line stands behind the request line. -/
theorem Headed.request_first {earlier later : List Entry} {line : HeadLine}
    (split : entries = earlier ++ .line line :: later)
    (other : (Entry.line line).isRequest = false) : ∃ entry ∈ earlier, entry.isRequest = true := by
  cases headed with
  | unstarted unstarted only_data =>
      have isData := only_data (.line line) (split ▸ List.mem_append_cons_self)
      cases isData
  | started started made only_data no_other =>
      rename_i front back request
      rcases Stream.requestLine?_eq_some_iff.mp made with ⟨method, path, _, _, rfl⟩
      -- the line stands before, in the place of, or behind the request line
      rcases List.append_eq_append_iff.mp split with
        ⟨between, earlier_eq, rest_eq⟩ | ⟨between, front_eq, rest_eq⟩
      · cases between with
        | nil =>
            cases rest_eq
            cases other
        | cons first between =>
            cases rest_eq
            exact ⟨_, earlier_eq ▸ List.mem_append_cons_self, rfl⟩
      · cases between with
        | nil =>
            cases rest_eq
            cases other
        | cons first between =>
            cases rest_eq
            have isData := only_data (.line line) (front_eq ▸ List.mem_append_cons_self)
            cases isData

end Reading

/-- How the pseudo-headers of a stream and the text of its request belong together, after calls
from the creation of the stream on. -/
structure Transcribes (created : Feed Queue) (calls : List Call) : Prop where
  /-- The manuscript is all that is emitted. -/
  emitted_eq :
    (runAll calls created).2.emitted
      = created.emitted ++ (manuscript calls created).flatMap Entry.text
  /-- At most one value is accepted for a pseudo-header, and this is the value that it has. -/
  accepted (field : PseudoField) :
    received field calls (runAll calls created).1
      = ((runAll calls created).2.stream.pseudo.get? field).toList
  nonempty (field : PseudoField) (value : Bytes) :
    (runAll calls created).2.stream.pseudo.get? field = some value → value ≠ []
  kept (field : PseudoField) (value : Bytes) (later : List Call) :
    (runAll calls created).2.stream.pseudo.get? field = some value →
      (runAll (calls ++ later) created).2.stream.pseudo.get? field = some value
  one_request : (manuscript calls created).countP Entry.isRequest ≤ 1
  /-- No other line is written before the request line. -/
  request_first (earlier later : List Entry) (line : HeadLine) :
    manuscript calls created = earlier ++ .line line :: later →
      (Entry.line line).isRequest = false → ∃ entry ∈ earlier, entry.isRequest = true
  /-- After the request line is written, no pseudo-header changes any more. -/
  frozen (later : List Call) :
    (∃ entry ∈ manuscript calls created, entry.isRequest = true) →
      (runAll (calls ++ later) created).2.stream.pseudo
        = (runAll calls created).2.stream.pseudo
  /-- The request line is made of the method and the path that the stream has ever after. -/
  made (method path : Bytes) (version : Option Version) (later : List Call) :
    .line (.request method path version) ∈ manuscript calls created →
      let last := (runAll (calls ++ later) created).2.stream
      last.pseudo.method = some method ∧ last.pseudo.path = some path ∧
        version = created.stream.session.config.requestVersion

section Fresh

variable (id : StreamId) (session : Session) (queue : Queue) (calls : List Call)

theorem headed_of_calls :
    Headed (runAll calls (Feed.fresh id session queue)).2.stream
      (manuscript calls (Feed.fresh id session queue)) := by
  have nothing : Headed (Feed.fresh id session queue).stream [] :=
    .unstarted rfl fun _ mem => by cases mem
  exact headed_runAll calls (fresh_wellSized id session queue) (fresh_stocked id session queue)
    nothing

theorem pseudo_runAll_of_isRequest {entry : Entry}
    (mem : entry ∈ manuscript calls (Feed.fresh id session queue))
    (isRequest : entry.isRequest = true) (later : List Call) :
    (runAll (calls ++ later) (Feed.fresh id session queue)).2.stream.pseudo
      = (runAll calls (Feed.fresh id session queue)).2.stream.pseudo := by
  have started := ((headed_of_calls id session queue calls).made_of_mem mem isRequest).1
  rw [runAll_append]
  exact congrArg Prod.snd (runAll_of_started later started).1

theorem received_of_calls (field : PseudoField) :
    received field calls (runAll calls (Feed.fresh id session queue)).1
      = ((runAll calls (Feed.fresh id session queue)).2.stream.pseudo.get? field).toList := by
  have nothing : ((Feed.fresh id session queue).stream.pseudo.get? field).toList = [] := by
    cases field <;> rfl
  rw [(runAll_received field calls _).1, nothing, List.nil_append]

/-- Whatever calls are made on a stream, and whatever its sink answers, its request line is made of
the pseudo-headers that it has accepted, and they are not changed again. -/
theorem transcribes_of_calls : Transcribes (Feed.fresh id session queue) calls where
  emitted_eq := emitted_runAll_eq calls (Feed.fresh id session queue)
  accepted := received_of_calls id session queue calls
  nonempty field value present := by
    apply (runAll_received field calls (Feed.fresh id session queue)).2
    rw [received_of_calls, present]
    exact List.mem_singleton_self value
  kept field value later present := by
    rw [runAll_append]
    exact get?_runAll_of_some field later present
  one_request := (headed_of_calls id session queue calls).countP_isRequest_le
  request_first earlier later line split other :=
    (headed_of_calls id session queue calls).request_first split other
  frozen later := by
    rintro ⟨entry, mem, isRequest⟩
    exact pseudo_runAll_of_isRequest id session queue calls mem isRequest later
  made method path version later mem := by
    intro last
    rcases (headed_of_calls id session queue calls).made_of_mem mem rfl with
      ⟨_, request, made, same⟩
    rcases Stream.requestLine?_eq_some_iff.mp made with ⟨_, _, hasMethod, hasPath, rfl⟩
    cases same
    have pseudo_eq : last.pseudo = (runAll calls (Feed.fresh id session queue)).2.stream.pseudo :=
      pseudo_runAll_of_isRequest id session queue calls mem rfl later
    rw [pseudo_eq, (runAll_belongsTo id session queue calls).session_eq]
    exact ⟨hasMethod, hasPath, rfl⟩

end Fresh

end Stream.Call

end Reassembly
