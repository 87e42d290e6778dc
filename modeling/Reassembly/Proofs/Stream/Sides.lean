import Reassembly.Proofs.Stream.Frame

/-!
# The two sides of a stream

A stream is used from two sides. On its input side the peer's request is fed into it. On its
output side it is watched, aborted and closed again, and holds the head of the response. Only the
closing of the input belongs to both.

What a call does to the output side depends on nothing but the output side, so it is a function
of it, `Stream.Call.turn`. Calls on the output side alone leave the input side as it is.
-/

namespace Reassembly

/-- The stream as its input side sees it: whether the output half is closed does not show, and
neither does anything that only the output side has to do with. -/
def Stream.inputSide (stream : Stream) : Stream :=
  { stream with
    lifecycle := if stream.lifecycle.isInputClosed then .closedInput else .idle
    aborted := false
    responseHead := none
    observer := none }

@[simp]
theorem Stream.isInputClosed_inputSide (stream : Stream) :
    stream.inputSide.lifecycle.isInputClosed = stream.lifecycle.isInputClosed := by
  unfold inputSide
  dsimp only
  cases stream.lifecycle <;> rfl

/-- A change of state. -/
structure Lifecycle.Change where
  old : Lifecycle
  new : Lifecycle
  deriving DecidableEq, Repr

/-- What shows on the output side of a stream, and what its observers have been told. -/
structure OutputSide where
  stream : StreamId
  lifecycle : Lifecycle
  aborted : Bool
  responseHead : Option ResponseHead
  observer : Option ObserverId
  notices : List Notice
  deriving DecidableEq, Repr

/-- The output side once the stream has moved to a state, if that is a change. -/
def OutputSide.moved (side : OutputSide) (next : Lifecycle) : OutputSide :=
  if side.lifecycle = next then side
  else
    { side with
      lifecycle := next
      notices := side.notices ++ side.observer.toList.map fun observer =>
        { observer, stream := side.stream, old := side.lifecycle, new := next } }

namespace OutputSide

@[simp]
theorem lifecycle_moved (side : OutputSide) (next : Lifecycle) :
    (side.moved next).lifecycle = next := by
  unfold moved
  split
  · assumption
  · rfl

@[simp]
theorem observer_moved (side : OutputSide) (next : Lifecycle) :
    (side.moved next).observer = side.observer := by
  unfold moved
  split <;> rfl

@[simp]
theorem stream_moved (side : OutputSide) (next : Lifecycle) :
    (side.moved next).stream = side.stream := by
  unfold moved
  split <;> rfl

end OutputSide

namespace Feed

variable {Queue : Type}

def outputSide (feed : Feed Queue) : OutputSide where
  stream := feed.stream.id
  lifecycle := feed.stream.lifecycle
  aborted := feed.stream.aborted
  responseHead := feed.stream.responseHead
  observer := feed.stream.observer
  notices := feed.notices

theorem outputSide_moved (feed : Feed Queue) (next : Lifecycle) :
    (feed.moved next).outputSide = feed.outputSide.moved next := by
  by_cases same : feed.stream.lifecycle = next
  · simp [moved, OutputSide.moved, outputSide, same]
  · simp [moved, OutputSide.moved, outputSide, same]

theorem inputSide_moved_closeOutput (feed : Feed Queue) :
    (feed.moved feed.stream.lifecycle.closeOutput).stream.inputSide = feed.stream.inputSide := by
  rw [moved_eq]
  simp [Stream.inputSide]

theorem overlooksFeeding_outputSide :
    OverlooksFeeding (outputSide : Feed Queue → OutputSide) where
  work _ _ := rfl
  queue _ _ := rfl
  endDelivered _ := rfl
  start _ := rfl
  pseudo _ _ := rfl
  endOfHeaders _ := rfl

/-- The two sides of a stream are all there is to it. -/
theorem stream_eq_of_sides {Other : Type} {left : Feed Queue} {right : Feed Other}
    (input : right.stream.inputSide = left.stream.inputSide)
    (output : right.outputSide = left.outputSide) : right.stream = left.stream := by
  rcases left with ⟨⟨⟩, _, _⟩
  rcases right with ⟨⟨⟩, _, _⟩
  simp_all [Stream.inputSide, outputSide]

end Feed

namespace Stream.Call

open Delivery (Sink)

/-- What a call does to the output side of a stream. -/
def turn (call : Call) (side : OutputSide) : OutputSide :=
  match call with
  | closeInput => side.moved side.lifecycle.closeInput
  | closeOutput => side.moved side.lifecycle.closeOutput
  | abort => { side with aborted := true }
  | observe observer => { side with observer := some observer }
  | setResponseHead head => { side with responseHead := some head }
  | takeResponseHead => { side with responseHead := none }
  | addHeader _ _ | addData _ | endHeaders | push => side

/-- Whether a call is made on the input side of a stream. -/
def isInput (call : Call) : Bool := call.isFeeding || call = closeInput

theorem turn_of_feeding {call : Call} (feeding : call.isFeeding = true) (side : OutputSide) :
    call.turn side = side := by
  cases call with
  | addHeader name value => rfl
  | addData data => rfl
  | endHeaders => rfl
  | push => rfl
  | _ => cases feeding

variable {Queue : Type} [Sink Queue]

/-- A call finds nothing on the input side of a stream, and nothing at its sink, that makes a
difference to the output side. -/
theorem outputSide_run (call : Call) (before : Feed Queue) :
    (call.run before).2.outputSide = call.turn before.outputSide := by
  cases feeding : call.isFeeding with
  | true =>
      rw [turn_of_feeding feeding]
      exact view_run_of_feeding Feed.overlooksFeeding_outputSide feeding before
  | false =>
      cases call with
      | closeInput =>
          exact (view_run_closeInput Feed.overlooksFeeding_outputSide.toOverlooks before).trans
            (before.outputSide_moved _)
      | closeOutput => exact before.outputSide_moved _
      | abort => rfl
      | observe observer => rfl
      | setResponseHead head => rfl
      | takeResponseHead => rfl
      | _ => cases feeding

theorem id_run (call : Call) (before : Feed Queue) :
    (call.run before).2.stream.id = before.stream.id := by
  have turned : (call.turn before.outputSide).stream = before.stream.id := by
    cases call with
    | closeInput => exact before.outputSide.stream_moved _
    | closeOutput => exact before.outputSide.stream_moved _
    | _ => rfl
  exact (congrArg OutputSide.stream (outputSide_run call before)).trans turned

theorem id_runAll (calls : List Call) (before : Feed Queue) :
    (runAll calls before).2.stream.id = before.stream.id := by
  induction calls generalizing before with
  | nil => rfl
  | cons call later ih => exact (ih (call.run before).2).trans (id_run call before)

/-- What a call on the output side alone is answered with. -/
def reply (call : Call) (side : OutputSide) : Reply :=
  match call with
  | takeResponseHead => .head side.responseHead
  | _ => .done

/-- A call on the output side alone always succeeds, and is answered from the output side. -/
theorem answer_of_outside {call : Call} (outside : call.isInput = false) (before : Feed Queue) :
    (call.run before).1 = .ok (call.reply before.outputSide) := by
  cases call with
  | closeOutput => rfl
  | abort => rfl
  | observe observer => rfl
  | setResponseHead head => rfl
  | takeResponseHead => rfl
  | _ => cases outside

/-- The change of state that a call makes, if it makes one. -/
def change? (call : Call) (before : Feed Queue) : Option Lifecycle.Change :=
  let old := before.stream.lifecycle
  let new := (call.run before).2.stream.lifecycle
  if old = new then none else some { old, new }

/-- The changes of state in a run, in order. -/
def changes (calls : List Call) (before : Feed Queue) : List Lifecycle.Change :=
  match calls with
  | [] => []
  | call :: later => (call.change? before).toList ++ changes later (call.run before).2

theorem changes_cons (call : Call) (later : List Call) (before : Feed Queue) :
    changes (call :: later) before
      = (call.change? before).toList ++ changes later (call.run before).2 := rfl

/-- A call on the output side alone leaves the input side and the sink as they are. -/
theorem inputSide_run {call : Call} (outside : call.isInput = false) (before : Feed Queue) :
    (call.run before).2.stream.inputSide = before.stream.inputSide ∧
      (call.run before).2.queue = before.queue := by
  cases call with
  | closeOutput =>
      refine ⟨before.inputSide_moved_closeOutput, ?_⟩
      change (before.moved before.stream.lifecycle.closeOutput).queue = before.queue
      rw [Feed.moved_eq]
  | abort => exact ⟨rfl, rfl⟩
  | observe observer => exact ⟨rfl, rfl⟩
  | setResponseHead head => exact ⟨rfl, rfl⟩
  | takeResponseHead => exact ⟨rfl, rfl⟩
  | _ => cases outside

end Stream.Call

end Reassembly
