import Reassembly.Proofs.Request.Lines
import Reassembly.Proofs.RoundTrip
import Reassembly.Proofs.Stream.Dictation

/-!
# Boundaries between the parts of a message

A stream writes the octets of a field between delimiters and never looks at them, and the reader
of the assembled text looks for the delimiters only. So what the reader takes for header lines
and for the body is what the peer meant by them if and only if no part of the head has a line
feed in it. The line breaks at the start of the method are no exception: a reader skips them.
-/

namespace Reassembly

open Delivery (Queue Recorded)

namespace Message

open Reassembly.Stream (Call)

/-- No part of the head breaks the line that it is written in. -/
structure Unbroken (message : Message) : Prop where
  method : Bytes.lf ∉ message.method.dropWhile Octet.isBreak
  path : Bytes.lf ∉ message.path
  fields : ∀ field ∈ message.spelled, Bytes.lf ∉ field.name ∧ Bytes.lf ∉ field.value

variable {message : Message} {order : List (PseudoField × Bytes)} {session : Session}

/-- A header line up to its line feed. -/
def fieldLine (field : Field) : Bytes :=
  field.name ++ (Bytes.ascii ": " ++ (field.value ++ [Bytes.cr]))

/-- What stands after the first space of a request line, up to its line feed. -/
def afterMethod (message : Message) : Bytes :=
  message.path ++ Bytes.space :: (Bytes.ascii message.version.name ++ [Bytes.cr])

theorem fieldLine_filled (field : Field) : ¬Bytes.IsBlank (fieldLine field) := by
  have colon : Bytes.ascii ": " = [Bytes.colon, Bytes.space] := rfl
  rintro (empty | single)
  · simp [fieldLine, colon] at empty
  · have length := congrArg List.length single
    simp only [fieldLine, colon, List.length_append, List.length_cons, List.length_nil] at length
    omega

/-- The text of a message is written line by line. -/
theorem dictated_eq_terminated (message : Message) :
    message.dictated
      = Bytes.terminated ((message.method ++ Bytes.space :: message.afterMethod)
          :: message.spelled.map fieldLine ++ [[Bytes.cr]]) ++ message.body := by
  have lines : (message.spelled.map fun field => field.line.text).flatten
      = Bytes.terminated (message.spelled.map fieldLine) := by
    simp [Bytes.terminated, List.flatMap, Function.comp_def, fieldLine, Field.line, HeadLine.text,
      Bytes.crlf]
  rw [dictated, text_requestLine, Head.headerText, lines]
  simp [Bytes.terminated, afterMethod, HeadLine.text, Bytes.crlf]

/-- The delimiters that a stream writes have no line feed in them. -/
theorem unbroken_iff :
    (Bytes.lf ∉ message.method.dropWhile Octet.isBreak ∧ Bytes.lf ∉ message.afterMethod ∧
      ∀ line ∈ message.spelled.map fieldLine, Bytes.lf ∉ line) ↔ message.Unbroken := by
  have name : Bytes.lf ∉ Bytes.ascii message.version.name := by
    cases message.version <;> decide
  have space : Bytes.lf ≠ Bytes.space := by decide
  have cr : Bytes.lf ≠ Bytes.cr := by decide
  have delimiter : Bytes.lf ∉ Bytes.ascii ": " := by decide
  have after : Bytes.lf ∉ message.afterMethod ↔ Bytes.lf ∉ message.path := by
    simp [afterMethod, name, space, cr]
  have line (field : Field) :
      Bytes.lf ∉ fieldLine field ↔ Bytes.lf ∉ field.name ∧ Bytes.lf ∉ field.value := by
    simp [fieldLine, delimiter, cr]
  simp only [List.forall_mem_map, after, line]
  exact ⟨fun unbroken => ⟨unbroken.1, unbroken.2.1, unbroken.2.2⟩,
    fun unbroken => ⟨unbroken.method, unbroken.path, unbroken.fields⟩⟩

/-- An assembled request has a field for each one that was read, and the body that was left. -/
theorem exists_read_of_assemble {stream : StreamId} {text : Bytes} {request : Request}
    (assembled : Request.assemble stream text = .ok request) :
    ∃ head : Head, Head.read text = .ok (head, request.body) ∧
      request.fields.length = head.fields.length := by
  unfold Request.assemble at assembled
  cases read : Head.read text with
  | error error =>
      rw [read] at assembled
      cases assembled
  | ok result =>
      rcases result with ⟨head, body⟩
      rw [read] at assembled
      change Request.ofHead head body = .ok request at assembled
      unfold Request.ofHead at assembled
      cases parsed : Target.parse head.target with
      | error fault =>
          rw [parsed] at assembled
          cases assembled
      | ok target =>
          rw [parsed] at assembled
          change (if head.fields.all (fun field =>
            decide (field.name.length ≤ Request.maxNameLength)) = true then _ else _) = _
            at assembled
          split at assembled
          · cases assembled
            exact ⟨head, rfl, List.length_map _⟩
          · cases assembled

/-- What a text is assembled to has the boundaries of the message that it was written for if and
only if no part of the head breaks its line. -/
theorem assembled_boundaries_iff {stream : StreamId} {request : Request}
    (assembled : Request.assemble stream message.dictated = .ok request) :
    (request.fields.length = message.spelled.length ∧ request.body = message.body) ↔
      message.Unbroken := by
  rcases exists_read_of_assemble assembled with ⟨head, read, length_eq⟩
  rcases Head.exists_layout read with ⟨layout, count_eq, body_eq⟩
  have filled : ∀ line ∈ message.spelled.map fieldLine, ¬Bytes.IsBlank line :=
    List.forall_mem_map.mpr fun field _ => fieldLine_filled field
  rw [← unbroken_iff, ← layout.agrees_iff filled (dictated_eq_terminated message), List.length_map,
    length_eq, count_eq, body_eq]

section Consuming

variable (version : session.config.requestVersion = some message.version)
  (perm : order.Perm message.announced)
  (regular : ∀ field ∈ message.headers, isPseudoName field.name = false) (id : StreamId)
  {queue : Queue} (unused : queue.lane id = {}) (name : String)

include version perm regular unused

/-- A consumer of a stream on which every call has succeeded assembles what the message spells. -/
theorem exists_advance_of_ok
    (ok : ∀ answer ∈ (Call.runAll (message.calls order) (Feed.fresh id session queue)).1,
      answer = .ok .done) :
    ∃ after left, ({ name, want := .request, stream := id } : Consumer).advance
          (Call.runAll (message.calls order) (Feed.fresh id session queue)).2.queue
        = (.finished after, left) ∧
      after.result = .request (Request.assemble id message.dictated) := by
  have recorded := Feed.runAll_recorded (message.calls order) id session queue
  have recordedOk : ∀ answer ∈ (Call.runAll (message.calls order)
      (Feed.fresh id session ({ queue } : Recorded))).1, answer = .ok .done := by
    intro answer answer_mem
    apply ok
    rw [recorded]
    exact answer_mem
  have emits := emitted_of_ok version perm regular rfl recordedOk
  rcases Feed.exists_chunks_of_delivered (message.calls order) unused emits.1 with
    ⟨chunks, waiting, text⟩
  let consumer : Consumer := { name, want := .request, stream := id }
  have waits : (Call.runAll (message.calls order) (Feed.fresh id session queue)).2.queue.items
      consumer.stream = chunks.map .chunk ++ [.endOfStream] := waiting
  rcases Consumer.advance_request rfl rfl waits with ⟨after, left, advanced, result, _⟩
  refine ⟨after, left, advanced, ?_⟩
  rw [result, text, emits.2]

/-- A message whose calls all succeed is assembled, by a consumer of its stream, to a request with
as many header values as it has header fields with names and an authority, and with its body, if
and only if no part of its head has a line feed in it. -/
theorem boundaries_kept_iff :
    let run := Call.runAll (message.calls order) (Feed.fresh id session queue)
    let consumer : Consumer := { name, want := .request, stream := id }
    (∀ answer ∈ run.1, answer = .ok .done) →
      ∃ after left, consumer.advance run.2.queue = (.finished after, left) ∧
        ∀ request, after.result = .request (.ok request) →
          ((request.fields.length = message.spelled.length ∧ request.body = message.body) ↔
            message.Unbroken) := by
  intro run consumer ok
  rcases exists_advance_of_ok version perm regular id unused name ok with
    ⟨after, left, advanced, result⟩
  refine ⟨after, left, advanced, ?_⟩
  intro request received
  rw [result] at received
  apply assembled_boundaries_iff
  exact Consumer.Result.request.inj received

end Consuming

/-- A message with one header field, whose value goes on in a line of its own. -/
def smuggling : Message where
  version := .http11
  method := Bytes.ascii "GET"
  path := Bytes.ascii "/"
  headers := [{ name := Bytes.ascii "a", value := Bytes.ascii "b\r\nc: d" }]

/-- The request that is assembled from it. -/
def smuggledRequest : Request where
  method := Bytes.ascii "GET"
  target := { path := Bytes.ascii "/" }
  version := .http11
  fields := [
    { name := Bytes.ascii "a", value := Bytes.ascii "b" },
    { name := Bytes.ascii "c", value := Bytes.ascii "d" }]
  body := []

theorem assemble_smuggling : Request.assemble 1 smuggling.dictated = .ok smuggledRequest := by
  decide

theorem smuggling_ok :
    ∀ answer ∈ (Call.runAll (smuggling.calls smuggling.announced)
      (Feed.fresh 1 { config := { requestVersion := some .http11 } } ({} : Queue))).1,
      answer = .ok .done := by
  decide +kernel

theorem smuggled_header :
    let session : Session := { config := { requestVersion := some .http11 } }
    let run := Call.runAll (smuggling.calls smuggling.announced)
      (Feed.fresh 1 session ({} : Queue))
    let consumer : Consumer := { name := "reader", want := .request, stream := 1 }
    (∀ answer ∈ run.1, answer = .ok .done) ∧
      ∃ after left, consumer.advance run.2.queue = (.finished after, left) ∧
        after.result = .request (.ok smuggledRequest) ∧
        smuggling.spelled.length = 1 ∧ smuggledRequest.fields.length = 2 := by
  intro session run consumer
  have regular : ∀ field ∈ smuggling.headers, isPseudoName field.name = false := by decide
  have version : session.config.requestVersion = some smuggling.version := rfl
  have perm := List.Perm.refl smuggling.announced
  have unused : ({} : Queue).lane 1 = {} := rfl
  refine ⟨smuggling_ok, ?_⟩
  rcases exists_advance_of_ok version perm regular 1 unused "reader" smuggling_ok with
    ⟨after, left, advanced, result⟩
  rw [assemble_smuggling] at result
  clear_value session
  exact ⟨after, left, advanced, result, by decide, by decide⟩

theorem boundaries_kept_iff_smuggling :
    let session : Session := { config := { requestVersion := some .http11 } }
    let run := Call.runAll (smuggling.calls smuggling.announced)
      (Feed.fresh 1 session ({} : Queue))
    let consumer : Consumer := { name := "reader", want := .request, stream := 1 }
    ∃ after left, consumer.advance run.2.queue = (.finished after, left) ∧
      after.result = .request (.ok smuggledRequest) ∧
      ((smuggledRequest.fields.length = smuggling.spelled.length ∧
        smuggledRequest.body = smuggling.body) ↔ smuggling.Unbroken) := by
  intro session run consumer
  have regular : ∀ field ∈ smuggling.headers, isPseudoName field.name = false := by decide
  have version : session.config.requestVersion = some smuggling.version := rfl
  have perm := List.Perm.refl smuggling.announced
  have unused : ({} : Queue).lane 1 = {} := rfl
  have kept := boundaries_kept_iff version perm regular 1 unused "reader" smuggling_ok
  have trip := exists_advance_of_ok version perm regular 1 unused "reader" smuggling_ok
  clear_value session
  rcases kept with ⟨after, left, advanced, agrees⟩
  rcases trip with ⟨other, _, again, result⟩
  have same : after = other :=
    Consumer.Progress.finished.inj (Prod.mk.inj (advanced.symm.trans again)).1
  rw [assemble_smuggling, ← same] at result
  exact ⟨after, left, advanced, result, agrees smuggledRequest result⟩

end Message

end Reassembly
