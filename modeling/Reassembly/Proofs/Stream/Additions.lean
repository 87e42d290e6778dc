import Reassembly.Proofs.Request.Reading
import Reassembly.Proofs.Stream.Success

/-!
# What succeeding calls add

The request line is written late, by the first call that needs it. `Feed.committed` counts
it from the start, so that every call that succeeds adds exactly its own text, whichever
call comes first.
-/

namespace Reassembly

namespace Feed

open Delivery (Sink LoggingSink)

variable {Queue : Type} [LoggingSink Queue]

/-- What the stream has emitted, and what it emits before anything else. -/
def committed (feed : Feed Queue) : Bytes :=
  feed.emitted ++ (feed.stream.openingLines.map HeadLine.text).flatten

omit [LoggingSink Queue] in
theorem openingLines_of_started {feed : Feed Queue}
    (started : feed.stream.requestStarted = true) : feed.stream.openingLines = [] := by
  rw [Stream.openingLines, if_pos started]

theorem committed_of_started {feed : Feed Queue}
    (started : feed.stream.requestStarted = true) : feed.committed = feed.emitted := by
  rw [committed, openingLines_of_started started]
  exact List.append_nil _

/-- The stream belongs to this session and goes on with its request. -/
structure Announcing (accepts : StreamId → Queue → Prop) (session : Session)
    (feed : Feed Queue) : Prop where
  ready : feed.Ready accepts
  startable : feed.Startable
  session_eq : feed.stream.session = session

/-- The stream belongs to this session and has begun to write its request. -/
structure Announced (accepts : StreamId → Queue → Prop) (session : Session)
    (feed : Feed Queue) : Prop where
  ready : feed.Ready accepts
  started : feed.stream.requestStarted = true
  session_eq : feed.stream.session = session

variable {accepts : StreamId → Queue → Prop} {session : Session} {before : Feed Queue}

omit [LoggingSink Queue] in
theorem Announced.announcing {feed : Feed Queue} (announced : Announced accepts session feed) :
    Announcing accepts session feed where
  ready := announced.ready
  session_eq := announced.session_eq
  startable := by
    have started := announced.started
    constructor
    · intro unstarted
      rw [started] at unstarted
      cases unstarted
    · intro unstarted
      rw [started] at unstarted
      cases unstarted
    · intro line line_mem
      rw [openingLines_of_started started] at line_mem
      cases line_mem

end Feed

namespace Stream.Call

open Delivery (LoggingSink)
open Feed (Willing Ready Begins Announcing Announced Succeeds Fits)

variable {Queue : Type} [LoggingSink Queue] {accepts : StreamId → Queue → Prop}
  {session : Session} {before : Feed Queue}

/-- A call that succeeded, and what it added to the text of the request. -/
structure Adds (accepts : StreamId → Queue → Prop) (session : Session) (before : Feed Queue)
    (octets : Bytes) (result : Answer × Feed Queue) : Prop where
  answer_eq : result.1 = .ok .done
  announced : result.2.Announced accepts session
  committed_eq : result.2.committed = before.committed ++ octets

/-- A call whose program succeeds adds what it writes behind the lines that open the
request. -/
theorem adds_of_succeeds (call : Call) {program : FeedM Queue Unit} {octets : Bytes}
    (consists : call.program = do program; pure .done)
    (announcing : before.Announcing accepts session)
    (succeeds : Succeeds program before fun _ after => Begins accepts before after)
    (pieces : (call.pieces before.stream).flatten
      = (before.stream.openingLines.map HeadLine.text).flatten ++ octets) :
    Adds accepts session before octets (call.run before) := by
  have added := Feed.emitted_call call before
  have outcome := run_of_done call consists succeeds
  rcases result : call.run before with ⟨answer, after⟩
  rw [result] at added outcome
  cases answer with
  | error error => exact outcome.elim
  | ok reply =>
      rcases outcome with ⟨rfl, begun⟩
      refine ⟨rfl, ⟨begun.ready, begun.started, ?_⟩, ?_⟩
      · exact begun.session_eq.trans announcing.session_eq
      · dsimp only at added ⊢
        rw [Feed.committed_of_started begun.started, added, pieces, ← List.append_assoc]
        rfl

variable (willing : Willing accepts)

include willing

theorem adds_addHeader (announcing : before.Announcing accepts session) {field : Field}
    (token : Octet.Token field.name) (fits : Fits session.config.segmentCapacity field.line) :
    Adds accepts session before field.line.text ((addHeader field.name field.value).run before) := by
  have regular : isPseudoName field.name = false := by
    rcases List.exists_cons_of_ne_nil token.nonempty with ⟨first, rest, name_eq⟩
    have isFirst := token.tokens first (by simp [name_eq])
    simp only [isPseudoName, name_eq, List.head?_cons, Option.some.injEq, decide_eq_false_iff_not]
    rintro rfl
    rw [Octet.isToken_colon] at isFirst
    cases isFirst
  have named : field.name.isEmpty = false := by simpa using token.nonempty
  rw [← announcing.session_eq] at fits
  apply adds_of_succeeds _ rfl announcing
  · exact Feed.addHeader_succeeds willing announcing.ready announcing.startable token.nonempty
      regular fits
  · simp [pieces, lines, named, regular, Field.line]

theorem adds_endHeaders (announcing : before.Announcing accepts session)
    (fits : Fits session.config.segmentCapacity .blank) :
    Adds accepts session before HeadLine.blank.text (endHeaders.run before) := by
  rw [← announcing.session_eq] at fits
  apply adds_of_succeeds _ rfl announcing
  · exact Feed.endHeaders_succeeds willing announcing.ready announcing.startable fits
  · simp [pieces, lines]

theorem adds_addData (announced : before.Announced accepts session)
    (roomy : 0 < session.config.segmentCapacity) (data : Bytes) :
    Adds accepts session before data ((addData data).run before) := by
  rw [← announced.session_eq] at roomy
  apply adds_of_succeeds _ rfl announced.announcing
  · apply (Feed.addData_succeeds willing announced.ready roomy data).imp
    intro _ after continues
    exact continues.begins announced.started
  · rw [Feed.openingLines_of_started announced.started]
    exact Feed.flatten_octetwise data

omit willing in
theorem answers_runAll_append (earlier later : List Call) :
    (runAll (earlier ++ later) before).1
      = (runAll earlier before).1 ++ (runAll later (runAll earlier before).2).1 := by
  induction earlier generalizing before with
  | nil => rfl
  | cons call rest ih => exact congrArg (_ :: ·) ih

/-- Calls that succeeded one after the other, and what they added together. -/
structure AddAll (property : Feed Queue → Prop) (before : Feed Queue) (octets : Bytes)
    (result : List Answer × Feed Queue) : Prop where
  answers_eq : ∀ answer ∈ result.1, answer = .ok .done
  holds : property result.2
  committed_eq : result.2.committed = before.committed ++ octets

omit willing in
/-- If every call keeps a property and adds its text, so do calls one after the other. -/
theorem runAll_addAll {property : Feed Queue → Prop} {Item : Type} (call : Item → Call)
    (text : Item → Bytes) (items : List Item)
    (each : ∀ item ∈ items, ∀ feed, property feed →
      Adds accepts session feed (text item) ((call item).run feed))
    (kept : ∀ feed, feed.Announced accepts session → property feed) (start : property before) :
    AddAll property before (items.map text).flatten (runAll (items.map call) before) := by
  induction items generalizing before with
  | nil =>
      refine ⟨?_, start, ?_⟩
      · intro answer answer_mem
        cases answer_mem
      · exact (List.append_nil _).symm
  | cons item later ih =>
      have first := each item List.mem_cons_self before start
      have rest := ih (fun other other_mem => each other (List.mem_cons_of_mem item other_mem))
        (kept _ first.announced)
      refine ⟨?_, rest.holds, ?_⟩
      · intro answer answer_mem
        rcases List.mem_cons.mp answer_mem with rfl | answer_mem
        · exact first.answer_eq
        · exact rest.answers_eq answer answer_mem
      · change (runAll (later.map call) ((call item).run before).2).2.committed
          = before.committed ++ (text item ++ (later.map text).flatten)
        rw [rest.committed_eq, first.committed_eq, List.append_assoc]

end Stream.Call

end Reassembly
