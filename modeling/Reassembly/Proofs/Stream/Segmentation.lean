import Mathlib.Data.List.Forall2
import Reassembly.Proofs.Delivery.Locality
import Reassembly.Proofs.Stream.Delivered
import Reassembly.Proofs.Stream.Drafting

/-!
# Segments do not show

A script of calls can be carried out in many ways: with segments of any size that has room for
each line, with pushes at any time, with data passed on in pieces, and while others use the
queue. Every execution keeps to the draft of the script. So two executions of one script answer
alike, leave streams behind of which the same is known, and emit the same text.
-/

namespace Reassembly

open Delivery (Item Queue Recorded)
open Delivery.Recorded (Accepts)
open Reassembly.Stream (Call Answer)

namespace Delivery.Queue

/-- What others may do to the queue of a stream while it is in use: deliver for other streams,
and take or release whatever they like. -/
inductive UsedByOthers (id : StreamId) : Queue → Queue → Prop where
  | append {queue next : Queue} {other : StreamId} {segment : Segment} (differ : other ≠ id)
      (accepted : (append other segment).run queue = .ok () next) : UsedByOthers id queue next
  | appendEnd {queue next : Queue} {other : StreamId} (differ : other ≠ id)
      (accepted : (appendEnd other).run queue = .ok () next) : UsedByOthers id queue next
  | pop (queue : Queue) (stream : StreamId) : UsedByOthers id queue (queue.pop stream).2
  | release (queue : Queue) (stream : StreamId) : UsedByOthers id queue (queue.release stream).2

theorem refusal?_pop {id : StreamId} {queue : Queue} (willing : queue.refusal? id = none) :
    (queue.pop id).2.refusal? id = none := by
  cases waiting : queue.items id with
  | nil =>
      rw [pop_of_items_eq_nil waiting]
      exact willing
  | cons item others =>
      rw [pop_of_items_eq_cons waiting]
      rcases refusal?_eq_none_iff.mp willing with ⟨isOpen, notEnded⟩
      refine refusal?_eq_none_iff.mpr ⟨isOpen, ?_⟩
      cases item with
      | chunk octets =>
          rw [hasEnd, lane_afterTaking_chunk]
          exact notEnded
      | endOfStream => rw [hasEnd, lane_afterTaking_endOfStream]

theorem refusal?_release {id : StreamId} {queue : Queue} (willing : queue.refusal? id = none) :
    (queue.release id).2.refusal? id = none := by
  refine refusal?_eq_none_iff.mpr ⟨(refusal?_eq_none_iff.mp willing).1, ?_⟩
  rw [hasEnd, lane_release_self]

/-- Nothing that others may do makes the queue refuse what the stream delivers. -/
theorem UsedByOthers.willing {id : StreamId} {queue next : Queue}
    (used : UsedByOthers id queue next) (willing : queue.refusal? id = none) :
    next.refusal? id = none := by
  have unaffected {after : Queue} (same : SameFor id after queue) : after.refusal? id = none :=
    same.refusal_eq.symm.trans willing
  have start := SameFor.refl id queue
  cases used with
  | append differ accepted =>
      rw [(eq_add_of_append_eq_ok accepted).2]
      exact unaffected (start.add_other (Ne.symm differ) _)
  | appendEnd differ accepted =>
      rw [(eq_add_of_appendEnd_eq_ok accepted).2]
      exact unaffected (start.add_other (Ne.symm differ) _)
  | pop stream =>
      by_cases own : id = stream
      · subst id
        exact refusal?_pop willing
      · exact unaffected (start.pop_other own)
  | release stream =>
      by_cases own : id = stream
      · subst id
        exact refusal?_release willing
      · exact unaffected (start.release_other own)

end Delivery.Queue

namespace Draft

theorem isInputClosed_next {draft : Draft} (closed : draft.stream.lifecycle.isInputClosed = true)
    (call : Call) : (draft.next call).stream.lifecycle.isInputClosed = true := by
  unfold next
  split
  · cases call with
    | addHeader name value =>
        simp only [Call.noted]
        split
        · exact closed
        · split
          · split
            · exact closed
            · exact closed
          · exact closed
    | closeInput => exact Lifecycle.isInputClosed_closeInput _
    | _ => exact closed
  · exact closed

theorem isInputClosed_run (script : List Call) {draft : Draft}
    (closes : draft.stream.lifecycle.isInputClosed = true ∨ .closeInput ∈ script) :
    (run script draft).2.stream.lifecycle.isInputClosed = true := by
  induction script generalizing draft with
  | nil =>
      rcases closes with closed | absent
      · exact closed
      · cases absent
  | cons call later ih =>
      apply ih
      rcases closes with closed | mem
      · exact .inl (isInputClosed_next closed call)
      · rcases List.mem_cons.mp mem with rfl | mem
        · exact .inl (Lifecycle.isInputClosed_closeInput _)
        · exact .inr mem

theorem length_answers_run (script : List Call) (draft : Draft) :
    (run script draft).1.length = script.length := by
  induction script generalizing draft with
  | nil => rfl
  | cons call later ih => exact congrArg (· + 1) (ih (draft.next call))

/-- Nothing but a fault of the peer is ever answered. -/
theorem answer_eq (draft : Draft) (call : Call) :
    draft.answer call = .ok .done ∨ ∃ fault, draft.answer call = .error (.violation fault) := by
  unfold answer
  split
  · exact .inl rfl
  · exact .inr ⟨_, rfl⟩

end Draft

namespace Feed

/-- The feed while others have changed its queue. -/
def withQueue (feed : Feed Recorded) (queue : Queue) : Feed Recorded :=
  { feed with queue := { feed.queue with queue } }

/-- A way to carry out a script of calls that pass on what the peer sends, with all answers
that are given to each of them. Data comes once the request line is written, and segments have
room for the lines of each call that is not at fault. -/
inductive Execution : List Call → Feed Recorded → List (List Answer) → Feed Recorded → Prop where
  | done (feed : Feed Recorded) : Execution [] feed [] feed
  | push {script : List Call} {feed last : Feed Recorded} {answers : List (List Answer)}
      (rest : Execution script (Call.push.run feed).2 answers last) :
      Execution script feed answers last
  | meanwhile {script : List Call} {feed last : Feed Recorded} {answers : List (List Answer)}
      {queue : Queue} (used : feed.queue.queue.UsedByOthers feed.stream.id queue)
      (rest : Execution script (feed.withQueue queue) answers last) :
      Execution script feed answers last
  | call {script : List Call} {feed last : Feed Recorded} {answers : List (List Answer)}
      {call : Call} (peers : call.isPeers = true)
      (timely : ∀ data, call = .addData data → feed.stream.requestStarted = true)
      (short : call.fault? feed.stream = none →
        ∀ line ∈ call.lines feed.stream, line.text.length ≤ feed.capacity)
      (rest : Execution script (call.run feed).2 answers last) :
      Execution (call :: script) feed ([(call.run feed).1] :: answers) last
  /-- Only the first octets of a piece of data are passed on. -/
  | piece {script : List Call} {feed last : Feed Recorded} {answers : List (List Answer)}
      {given : List Answer} {first others : Bytes}
      (timely : feed.stream.requestStarted = true)
      (rest : Execution (.addData others :: script) ((Call.addData first).run feed).2
        (given :: answers) last) :
      Execution (.addData (first ++ others) :: script) feed
        ((((Call.addData first).run feed).1 :: given) :: answers) last

variable {script : List Call} {before after : Feed Recorded} {answers : List (List Answer)}

theorem push_drafted (tame : before.Tame Accepts) :
    (Call.push.run before).2.draft = before.draft ∧ (Call.push.run before).2.Tame Accepts := by
  constructor
  · have outline_eq := Call.view_run .push rfl (preserves_push (overlooks_outline id)) before
    have emitted_eq : (Call.push.run before).2.emitted = before.emitted := by
      have added := emitted_call .push before
      rcases result : Call.push.run before with ⟨answer, last⟩
      rw [result] at added
      cases answer with
      | ok reply => exact added.trans (List.append_nil _)
      | error error =>
          rcases added.1 with ⟨written, written_prefix, emitted_eq⟩
          rw [List.prefix_nil.mp written_prefix] at emitted_eq
          exact emitted_eq.trans (List.append_nil _)
    exact congrArg₂ Draft.mk outline_eq emitted_eq
  · cases closed : before.stream.lifecycle.isInputClosed with
    | false =>
        have succeeds := push_succeeds Delivery.Recorded.willing (tame.ready closed)
        rcases run_of_succeeds .push rfl succeeds with ⟨_, continues, work⟩
        exact tame.of_ready (run_orderly .push tame.orderly) continues.ready continues.session_eq
          fun _ => work
    | true =>
        -- the end is delivered, so no segment is left to push
        have nothing := (tame.orderly.delivered (tame.ended_eq.trans closed)).2.1
        have succeeds : Succeeds push before (fun _ after => after = before) := by
          rw [Succeeds, Ensures, run_push_of_none nothing]
        rw [(run_of_succeeds .push rfl succeeds).2]
        exact tame

theorem Tame.withQueue (tame : before.Tame Accepts) {queue : Queue}
    (used : before.queue.queue.UsedByOthers before.stream.id queue) :
    (before.withQueue queue).Tame Accepts where
  orderly := tame.orderly.of_same_log tame.orderly.sized rfl rfl rfl rfl (fun closed => closed)
    (fun _ absent => absent) fun _ => rfl
  roomy := tame.roomy
  allocatable := tame.allocatable
  textual := tame.textual
  ended_eq := tame.ended_eq
  unopened := tame.unopened
  accepting undelivered := used.willing (tame.accepting undelivered)

/-- All answers in a group are this one. -/
def Unanimous (given : List Answer) (answer : Answer) : Prop :=
  given ≠ [] ∧ ∀ each ∈ given, each = answer

theorem Unanimous.cons {given : List Answer} {answer first : Answer} (same : first = answer)
    (unanimous : Unanimous given answer) : Unanimous (first :: given) answer := by
  refine ⟨List.cons_ne_nil _ _, ?_⟩
  intro each each_mem
  rcases List.mem_cons.mp each_mem with rfl | later
  · exact same
  · exact unanimous.2 each later

theorem unanimous_singleton {answer first : Answer} (same : first = answer) :
    Unanimous [first] answer := by
  refine ⟨List.cons_ne_nil _ _, ?_⟩
  intro each each_mem
  rw [List.mem_singleton.mp each_mem]
  exact same

/-- Every execution of a script keeps to its draft. -/
theorem Execution.drafted (execution : Execution script before answers after)
    (tame : before.Tame Accepts) :
    List.Forall₂ Unanimous answers (Draft.run script before.draft).1 ∧
      after.draft = (Draft.run script before.draft).2 ∧ after.Tame Accepts := by
  induction execution with
  | done feed => exact ⟨.nil, rfl, tame⟩
  | push rest ih =>
      have pushed := push_drafted tame
      have later := ih pushed.2
      rw [pushed.1] at later
      exact later
  | meanwhile used rest ih => exact ih (tame.withQueue used)
  | call peers timely short rest ih =>
      have first := Feed.drafted Delivery.Recorded.willing tame peers timely short
      have later := ih first.tame
      rw [first.draft_eq] at later
      exact ⟨.cons (unanimous_singleton first.answer_eq) later.1, later.2⟩
  | @piece script feed last answers given start others timely rest ih =>
      have first : Drafted Accepts (.addData start) feed ((Call.addData start).run feed) :=
        Feed.drafted Delivery.Recorded.willing tame rfl (fun _ _ => timely)
          fun _ _ line_mem => nomatch line_mem
      -- what is left of the data is still to come, after a draft with its first octets
      have later := ih first.tame
      rw [first.draft_eq, Draft.run_addData_append] at later
      rcases later with ⟨same, draft_eq, tameAfter⟩
      cases same with
      | cons unanimous same =>
          exact ⟨.cons (unanimous.cons first.answer_eq) same, draft_eq, tameAfter⟩

/-- One answer that both executions give to a call, each as often as it makes the call: that it
is done, or what the peer did wrong. -/
def Agree (left right : List Answer) : Prop :=
  ∃ answer, (answer = .ok .done ∨ ∃ fault, answer = .error (.violation fault)) ∧
    Unanimous left answer ∧ Unanimous right answer

theorem agree_of_unanimous {left right : List (List Answer)} (script : List Call) (draft : Draft)
    (leftSame : List.Forall₂ Unanimous left (Draft.run script draft).1)
    (rightSame : List.Forall₂ Unanimous right (Draft.run script draft).1) :
    List.Forall₂ Agree left right := by
  induction script generalizing draft left right with
  | nil =>
      cases leftSame
      cases rightSame
      exact .nil
  | cons call later ih =>
      cases leftSame with
      | cons leftFirst leftRest =>
          cases rightSame with
          | cons rightFirst rightRest =>
              exact .cons ⟨_, draft.answer_eq call, leftFirst, rightFirst⟩
                (ih (draft.next call) leftRest rightRest)

/-- A session whose segments can be allocated and have some room, and whose request lines can
be written. -/
structure Usable (session : Session) : Prop where
  roomy : 0 < session.config.segmentCapacity
  allocatable : session.config.segmentCapacity < Segment.allocationLimit
  textual : ∀ version, session.config.requestVersion = some version → version.isTextual = true

theorem Usable.tame {session : Session} (usable : Usable session) (id : StreamId) :
    (fresh id session ({ queue := {} } : Recorded)).Tame Accepts where
  orderly := fresh_orderly id session _ rfl
  roomy := usable.roomy
  allocatable := usable.allocatable
  textual := usable.textual
  ended_eq := rfl
  unopened _ := rfl
  accepting _ := rfl

/-- Segments do not show. Two executions of a script on fresh streams, which may differ in the
capacity of their segments, in when segments are pushed, in the pieces in which data comes and
in what others do meanwhile, answer alike, end up with the same accessors and emit the same
text. Once the input is closed, this text has been delivered, with one end after it. -/
theorem executions_agree {id : StreamId} {leftSession rightSession : Session}
    {script : List Call} {leftAnswers rightAnswers : List (List Answer)}
    {left right : Feed Recorded} (leftUsable : Usable leftSession)
    (rightUsable : Usable rightSession)
    (version_eq : rightSession.config.requestVersion = leftSession.config.requestVersion)
    (leftExecution : Execution script (fresh id leftSession { queue := {} }) leftAnswers left)
    (rightExecution :
      Execution script (fresh id rightSession { queue := {} }) rightAnswers right) :
    leftAnswers.length = script.length ∧
    List.Forall₂ Agree leftAnswers rightAnswers ∧
    right.stream.pseudo = left.stream.pseudo ∧
    right.stream.lifecycle = left.stream.lifecycle ∧
    right.stream.endOfHeaders = left.stream.endOfHeaders ∧
    right.emitted = left.emitted ∧
    (.closeInput ∈ script → ∃ leftChunks rightChunks : List Bytes,
      left.accepted = leftChunks.map .chunk ++ [.endOfStream] ∧
      right.accepted = rightChunks.map .chunk ++ [.endOfStream] ∧
      rightChunks.flatten = leftChunks.flatten) := by
  have start : (fresh id rightSession ({ queue := {} } : Recorded)).draft
      = (fresh id leftSession ({ queue := {} } : Recorded)).draft := by
    simp only [draft, fresh, Stream.outline, version_eq]
    rfl
  rcases leftExecution.drafted (leftUsable.tame id) with ⟨leftSame, leftDraft, leftTame⟩
  rcases rightExecution.drafted (rightUsable.tame id) with ⟨rightSame, rightDraft, rightTame⟩
  rw [start] at rightSame rightDraft
  have same : right.draft = left.draft := rightDraft.trans leftDraft.symm
  have emitted_eq : right.emitted = left.emitted := congrArg Draft.text same
  have outline_eq : right.stream.outline = left.stream.outline := congrArg Draft.stream same
  have pseudo_eq : right.stream.outline.pseudo = left.stream.outline.pseudo :=
    congrArg Stream.pseudo outline_eq
  have lifecycle_eq : right.stream.outline.lifecycle = left.stream.outline.lifecycle :=
    congrArg Stream.lifecycle outline_eq
  have endOfHeaders_eq : right.stream.outline.endOfHeaders = left.stream.outline.endOfHeaders :=
    congrArg Stream.endOfHeaders outline_eq
  refine ⟨?_, agree_of_unanimous _ _ leftSame rightSame, pseudo_eq, lifecycle_eq,
    endOfHeaders_eq, emitted_eq, ?_⟩
  · rw [leftSame.length_eq, Draft.length_answers_run]
  · intro closes
    have leftClosed : left.draft.stream.lifecycle.isInputClosed = true := by
      rw [leftDraft]
      exact Draft.isInputClosed_run script (.inr closes)
    have rightClosed : right.draft.stream.lifecycle.isInputClosed = true := by
      rw [same]
      exact leftClosed
    rcases leftTame.orderly.accepted_eq_of_delivered (leftTame.ended_eq.trans leftClosed) with
      ⟨leftChunks, leftAccepted, leftText⟩
    rcases rightTame.orderly.accepted_eq_of_delivered (rightTame.ended_eq.trans rightClosed) with
      ⟨rightChunks, rightAccepted, rightText⟩
    exact ⟨leftChunks, rightChunks, leftAccepted, rightAccepted,
      rightText.trans (emitted_eq.trans leftText.symm)⟩

/-- A greeting with a pseudo-header too many, and with data after its end. -/
def greetingScript : List Call := [
  .addHeader (Bytes.ascii ":method") (Bytes.ascii "POST"),
  .addHeader (Bytes.ascii ":path") (Bytes.ascii "/"),
  .addHeader (Bytes.ascii ":path") (Bytes.ascii "/other"),
  .addHeader (Bytes.ascii "x") (Bytes.ascii "1"),
  .endHeaders,
  .addData (Bytes.ascii "good " ++ Bytes.ascii "day"),
  .closeInput,
  .addData (Bytes.ascii "late")]

/-- In narrow segments that fill up, and in wide ones that are pushed, while someone else takes
the first of them. -/
theorem executions_agree_greeting :
    let narrow : Session := { config := { segmentCapacity := 17, requestVersion := some .http11 } }
    let wide : Session := { config := { segmentCapacity := 64, requestVersion := some .http11 } }
    ∃ leftAnswers left rightAnswers right,
      Execution greetingScript (fresh 7 narrow { queue := {} }) leftAnswers left ∧
      Execution greetingScript (fresh 7 wide { queue := {} }) rightAnswers right ∧
      List.Forall₂ Agree leftAnswers rightAnswers ∧ right.emitted = left.emitted := by
  intro narrow wide
  have leftRun : ∃ answers last,
      Execution greetingScript (fresh 7 narrow { queue := {} }) answers last :=
    ⟨_, _,
      .call rfl (fun _ same => nomatch same) (fun _ => by decide) <|
      .call rfl (fun _ same => nomatch same) (fun _ => by decide) <|
      .call rfl (fun _ same => nomatch same) (fun _ => by decide) <|
      .call rfl (fun _ same => nomatch same) (fun _ => by decide) <|
      .call rfl (fun _ same => nomatch same) (fun _ => by decide) <|
      .call rfl (fun _ _ => by decide) (fun _ => by decide) <|
      .call rfl (fun _ same => nomatch same) (fun _ => by decide) <|
      .call rfl (fun _ _ => by decide) (fun _ => by decide) <|
      .done _⟩
  have rightRun : ∃ answers last,
      Execution greetingScript (fresh 7 wide { queue := {} }) answers last :=
    ⟨_, _,
      .push <|
      .call rfl (fun _ same => nomatch same) (fun _ => by decide) <|
      .call rfl (fun _ same => nomatch same) (fun _ => by decide) <|
      .call rfl (fun _ same => nomatch same) (fun _ => by decide) <|
      .call rfl (fun _ same => nomatch same) (fun _ => by decide) <|
      .push <|
      .meanwhile (.pop _ 7) <|
      .call rfl (fun _ same => nomatch same) (fun _ => by decide) <|
      .piece (by decide) <|
      .push <|
      .call rfl (fun _ _ => by decide) (fun _ => by decide) <|
      .call rfl (fun _ same => nomatch same) (fun _ => by decide) <|
      .call rfl (fun _ _ => by decide) (fun _ => by decide) <|
      .done _⟩
  rcases leftRun with ⟨leftAnswers, left, leftExecution⟩
  rcases rightRun with ⟨rightAnswers, right, rightExecution⟩
  have leftUsable : Usable narrow := ⟨by decide, by decide, by decide⟩
  have rightUsable : Usable wide := ⟨by decide, by decide, by decide⟩
  have agree := executions_agree leftUsable rightUsable rfl leftExecution rightExecution
  exact ⟨leftAnswers, left, rightAnswers, right, leftExecution, rightExecution, agree.2.1,
    agree.2.2.2.2.2.1⟩

end Feed

end Reassembly
