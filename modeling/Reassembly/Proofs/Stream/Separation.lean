import Reassembly.Proofs.Stream.InputSide

/-!
# The two sides of a stream do not disturb each other

The output half of a stream may be closed at any time, and the stream may be watched and aborted
and be given its response. None of that shows in the request. Its input side does as much and
answers as much without all of it, and its sink is asked for the same deliveries.

Nor does the request show on the output side. It makes no difference to it what is fed to the
stream or whether the sink takes it, only when the input is closed.
-/

namespace Reassembly

namespace Stream.Call

open Delivery (Sink Scripted)
open Feed (SameInput)

/-- What the calls of some kind have been answered, in order. -/
def answersTo (kind : Call → Bool) (calls : List Call) (answers : List Answer) : List Answer :=
  ((calls.zip answers).filter fun (call, _) => kind call).map Prod.snd

theorem answersTo_cons_of_pos {kind : Call → Bool} {call : Call} (isKind : kind call = true)
    (later : List Call) (answer : Answer) (answers : List Answer) :
    answersTo kind (call :: later) (answer :: answers)
      = answer :: answersTo kind later answers := by
  simp [answersTo, isKind]

theorem answersTo_cons_of_neg {kind : Call → Bool} {call : Call} (otherKind : kind call = false)
    (later : List Call) (answer : Answer) (answers : List Answer) :
    answersTo kind (call :: later) (answer :: answers) = answersTo kind later answers := by
  simp [answersTo, otherKind]

section Request

variable {Queue : Type} [Sink Queue]

/-- The calls on the input side make up a run of their own. -/
theorem runAll_isInput (calls : List Call) {id : StreamId} {left right : Feed Queue}
    (same : SameInput id (fun left right => right = left) left right) :
    answersTo isInput calls (runAll calls left).1 = (runAll (calls.filter isInput) right).1 ∧
      SameInput id (fun left right => right = left) (runAll calls left).2
        (runAll (calls.filter isInput) right).2 := by
  induction calls generalizing left right with
  | nil => exact ⟨rfl, same⟩
  | cons call later ih =>
      rw [runAll_cons]
      cases onInput : call.isInput with
      | true =>
          rcases run_sameInput (Delivery.coupling_eq Queue id) same onInput with ⟨answer, next⟩
          rcases ih next with ⟨answers, final⟩
          rw [List.filter_cons_of_pos onInput, runAll_cons, answersTo_cons_of_pos onInput, answers,
            answer]
          exact ⟨rfl, final⟩
      | false =>
          rw [List.filter_cons_of_neg (by simp [onInput]), answersTo_cons_of_neg onInput]
          exact ih (run_left_outside same onInput)

/-- Two feeds whose requests have come equally far, in the stream and at the sink. -/
structure SameRequest (one other : Feed Queue) : Prop where
  queue_eq : other.queue = one.queue
  work_eq : other.stream.work = one.stream.work
  pseudo_eq : other.stream.pseudo = one.stream.pseudo
  requestStarted_eq : other.stream.requestStarted = one.stream.requestStarted
  endOfHeaders_eq : other.stream.endOfHeaders = one.stream.endOfHeaders
  endDelivered_eq : other.stream.endDelivered = one.stream.endDelivered
  isInputClosed_eq :
    other.stream.lifecycle.isInputClosed = one.stream.lifecycle.isInputClosed

omit [Sink Queue] in
theorem sameRequest_of_sameInput {id : StreamId} {one other : Feed Queue}
    (same : SameInput id (fun left right => right = left) one other) : SameRequest one other where
  queue_eq := same.queues
  work_eq := same.work_eq
  pseudo_eq := same.pseudo_eq
  requestStarted_eq := same.requestStarted_eq
  endOfHeaders_eq := same.endOfHeaders_eq
  endDelivered_eq := same.endDelivered_eq
  isInputClosed_eq := same.isInputClosed_eq

/-- Runs with the same calls on the input side, and any others between them, do the same to the
request and are answered alike on it. -/
theorem runAll_of_sameCalls (before : Feed Queue) {calls others : List Call}
    (same_calls : others.filter isInput = calls.filter isInput) :
    answersTo isInput others (runAll others before).1
        = answersTo isInput calls (runAll calls before).1 ∧
      SameRequest (runAll calls before).2 (runAll others before).2 := by
  have same : SameInput before.stream.id (fun left right => right = left) before before :=
    ⟨rfl, rfl, rfl⟩
  rcases runAll_isInput calls same with ⟨answers, one⟩
  rcases runAll_isInput others same with ⟨otherAnswers, other⟩
  rw [same_calls] at otherAnswers other
  have final : SameInput before.stream.id (fun left right => right = left)
      (runAll calls before).2 (runAll others before).2 :=
    ⟨one.id_eq, other.side_eq.symm.trans one.side_eq, other.queues.symm.trans one.queues⟩
  exact ⟨otherAnswers.trans answers.symm, sameRequest_of_sameInput final⟩

end Request

section Outlook

variable {Left Right : Type} [Sink Left] [Sink Right] {left : Feed Left} {right : Feed Right}

theorem outputSide_run_eq (call : Call) (same : right.outputSide = left.outputSide) :
    (call.run right).2.outputSide = (call.run left).2.outputSide := by
  rw [outputSide_run, outputSide_run, same]

theorem change?_eq (call : Call) (same : right.outputSide = left.outputSide) :
    call.change? right = call.change? left := by
  have before : right.stream.lifecycle = left.stream.lifecycle :=
    congrArg OutputSide.lifecycle same
  have after : (call.run right).2.stream.lifecycle = (call.run left).2.stream.lifecycle :=
    congrArg OutputSide.lifecycle (outputSide_run_eq call same)
  rw [change?, change?, before, after]

theorem change?_of_feeding {call : Call} (feeding : call.isFeeding = true) :
    call.change? left = none := by
  have unmoved : (call.run left).2.outputSide = left.outputSide := by
    rw [outputSide_run, turn_of_feeding feeding]
  have unchanged : (call.run left).2.stream.lifecycle = left.stream.lifecycle :=
    congrArg OutputSide.lifecycle unmoved
  rw [change?, unchanged]
  exact if_pos rfl

theorem isInput_of_feeding {call : Call} (feeding : call.isFeeding = true) :
    call.isInput = true := by
  rw [isInput, feeding, Bool.true_or]

/-- Without the calls that feed the stream, a run shows the same on the output side, whatever
sink there is. -/
theorem runAll_isFeeding (calls : List Call) (same : right.outputSide = left.outputSide) :
    let kept := calls.filter fun call => !call.isFeeding
    changes kept right = changes calls left ∧
      (runAll kept right).2.outputSide = (runAll calls left).2.outputSide ∧
      answersTo (fun call => !call.isInput) kept (runAll kept right).1
        = answersTo (fun call => !call.isInput) calls (runAll calls left).1 := by
  induction calls generalizing left right with
  | nil => exact ⟨rfl, same, rfl⟩
  | cons call later ih =>
      dsimp only at ih ⊢
      rw [changes_cons, runAll_cons]
      cases feeding : call.isFeeding with
      | true =>
          have next : right.outputSide = (call.run left).2.outputSide := by
            rw [outputSide_run, turn_of_feeding feeding, same]
          rw [List.filter_cons_of_neg (by simp [feeding]), change?_of_feeding feeding,
            answersTo_cons_of_neg (by simp [isInput_of_feeding feeding])]
          exact ih next
      | false =>
          rcases ih (outputSide_run_eq call same) with ⟨changed, shown, answers⟩
          rw [List.filter_cons_of_pos (by simp [feeding]), changes_cons, runAll_cons,
            change?_eq call same, changed]
          refine ⟨rfl, shown, ?_⟩
          cases onInput : call.isInput with
          | true =>
              -- the input is closed in both runs, but the sinks may answer that differently
              rw [answersTo_cons_of_neg (by simp [onInput]),
                answersTo_cons_of_neg (by simp [onInput])]
              exact answers
          | false =>
              rw [answersTo_cons_of_pos (by simp [onInput]),
                answersTo_cons_of_pos (by simp [onInput]), answers, answer_of_outside onInput,
                answer_of_outside onInput, same]

end Outlook

/-- Closing the output, aborting, watching and responding do not disturb the request. Leave out
such calls or put in others: the calls on the input side are answered alike, and they leave the
request and a sink of any kind as they left them before. That a sink may keep a log of what it is
asked means that it is asked the same.

Feeding does not disturb the output side either. Leave out all of it and take any other sink, one
that accepts everything for instance: the stream goes through the same changes of state, its
observers are told the same, and it is as much aborted and gives the same response heads. -/
theorem sides_stay_apart {Queue Other : Type} [Sink Queue] [Sink Other] (before : Feed Queue)
    (other : Other) (calls : List Call) :
    (∀ others : List Call, others.filter isInput = calls.filter isInput →
      answersTo isInput others (runAll others before).1
          = answersTo isInput calls (runAll calls before).1 ∧
        SameRequest (runAll calls before).2 (runAll others before).2) ∧
    let kept := calls.filter fun call => !call.isFeeding
    let elsewhere : Feed Other := { before with queue := other }
    changes kept elsewhere = changes calls before ∧
      (runAll kept elsewhere).2.outputSide = (runAll calls before).2.outputSide ∧
      answersTo (fun call => !call.isInput) kept (runAll kept elsewhere).1
        = answersTo (fun call => !call.isInput) calls (runAll calls before).1 := by
  refine ⟨?_, runAll_isFeeding calls rfl⟩
  intro others same_calls
  exact runAll_of_sameCalls before same_calls

/-- A stream that is closed and aborted before its request comes still takes all of it. -/
theorem sides_stay_apart_early :
    let fed := [addHeader (Bytes.ascii ":method") (Bytes.ascii "GET"),
      addHeader (Bytes.ascii ":path") (Bytes.ascii "/"), endHeaders]
    let before := Feed.fresh 1 {} ({} : Scripted)
    (closeOutput :: abort :: fed).filter isInput = fed.filter isInput ∧
      SameRequest (runAll fed before).2 (runAll (closeOutput :: abort :: fed) before).2 := by
  intro fed before
  have same_calls : (closeOutput :: abort :: fed).filter isInput = fed.filter isInput := by decide
  exact ⟨same_calls, ((sides_stay_apart before ({} : Scripted) fed).1 _ same_calls).2⟩

end Stream.Call

end Reassembly
