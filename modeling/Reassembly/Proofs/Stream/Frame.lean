import Reassembly.Proofs.Stream.Runs

/-!
# What calls leave alone

A view shows some part of a feed. Writing and delivering changes the segment and the sink,
and notes that the request is started or the end is delivered, but nothing else. So every
view that overlooks these is the same before and after, also if the program fails.

What observers are told is one such view. A call tells them only of the state that it moves
its stream to.
-/

namespace Reassembly

namespace Feed

open Delivery (Sink)

variable {Queue View Value Other : Type}

/-- A view that does not show what delivering changes. -/
structure Overlooks (view : Feed Queue → View) : Prop where
  work (feed : Feed Queue) (work : Option Segment) : view (feed.withWork work) = view feed
  queue (feed : Feed Queue) (queue : Queue) : view { feed with queue } = view feed
  endDelivered (feed : Feed Queue) :
    view { feed with stream := { feed.stream with endDelivered := true } } = view feed

/-- A view that does not show whether the request is started. -/
def OverlooksStart (view : Feed Queue → View) : Prop :=
  ∀ feed, view { feed with stream := { feed.stream with requestStarted := true } } = view feed

/-- A program after which a view shows what it showed before, whether it fails or not. -/
def Preserves (view : Feed Queue → View) (program : FeedM Queue Value) : Prop :=
  ∀ before, Ensures program before (fun _ after => view after = view before)
    (fun _ after => view after = view before)

variable {view : Feed Queue → View}

theorem preserves_pure (value : Value) : Preserves view (pure value : FeedM Queue Value) :=
  fun _ => rfl

theorem preserves_throw (error : StreamError) :
    Preserves view (throw error : FeedM Queue Value) :=
  fun _ => rfl

theorem Preserves.bind {program : FeedM Queue Other} {next : Other → FeedM Queue Value}
    (first : Preserves view program) (second : ∀ value, Preserves view (next value)) :
    Preserves view (program >>= next) := by
  intro before
  apply (first before).bind
  · intro value middle same
    rw [← same]
    exact second value middle
  · intro error after same
    exact same

theorem preserves_get {next : Feed Queue → FeedM Queue Value}
    (second : ∀ feed, Preserves view (next feed)) : Preserves view (get >>= next) :=
  fun before => second before before

theorem preserves_modify {change : Feed Queue → Feed Queue}
    (same : ∀ feed, view (change feed) = view feed) :
    Preserves view (modify change : FeedM Queue PUnit) :=
  same

theorem Preserves.ite {condition : Prop} [Decidable condition]
    {first second : FeedM Queue Value} (ifTrue : Preserves view first)
    (ifFalse : Preserves view second) : Preserves view (if condition then first else second) := by
  split
  · exact ifTrue
  · exact ifFalse

theorem preserves_refuseIf (condition : Bool) (fault : Violation) :
    Preserves view (refuseIf condition fault : FeedM Queue Unit) :=
  (preserves_throw _).ite (preserves_pure _)

theorem preserves_addPseudoHeader
    (overlooked : ∀ (feed : Feed Queue) (pseudo : PseudoHeaders),
      view { feed with stream := { feed.stream with pseudo } } = view feed)
    (name value : Bytes) : Preserves view (addPseudoHeader name value) := by
  apply preserves_get
  intro feed
  apply (preserves_refuseIf _ _).bind
  intro _
  apply (preserves_refuseIf _ _).bind
  intro _
  cases PseudoField.ofName? name with
  | none => exact preserves_pure _
  | some field =>
      apply (preserves_refuseIf _ _).bind
      intro _
      exact preserves_modify fun feed => overlooked feed _

section Writing

variable (overlooks : Overlooks view)

include overlooks

theorem preserves_setWork (work : Option Segment) : Preserves view (setWork work) :=
  preserves_modify fun feed => overlooks.work feed work

theorem preserves_openWork : Preserves view openWork := by
  apply preserves_get
  intro feed
  dsimp only
  cases feed.stream.work with
  | some segment => exact preserves_pure _
  | none =>
      dsimp only
      cases Segment.allocate feed.stream.session.config.segmentCapacity with
      | ok segment => exact (preserves_setWork overlooks _).bind fun _ => preserves_pure _
      | error error => exact preserves_throw _

theorem preserves_writeInPlace (line : HeadLine) : Preserves view (writeInPlace line) := by
  apply (preserves_openWork overlooks).bind
  intro segment
  cases line.write.run segment with
  | ok _ written => exact preserves_setWork overlooks _
  | error error _ => exact preserves_throw _

variable [Sink Queue]

theorem preserves_push : Preserves view push := by
  apply preserves_get
  intro feed
  cases feed.stream.work with
  | none => exact preserves_pure _
  | some segment =>
      apply (preserves_setWork overlooks none).bind
      intro _
      apply (preserves_pure _).ite
      cases (Sink.append feed.stream.id segment).run feed.queue with
      | ok _ queue => exact preserves_modify fun feed => overlooks.queue feed queue
      | error rejection queue =>
          apply (preserves_modify fun feed => overlooks.queue feed queue).bind
          intro _
          exact (preserves_setWork overlooks _).bind fun _ => preserves_throw _

theorem preserves_writeLine (line : HeadLine) : Preserves view (writeLine line) := by
  apply (preserves_openWork overlooks).bind
  intro segment
  cases line.write.run segment with
  | ok _ written => exact preserves_setWork overlooks _
  | error error _ =>
      cases error with
      | tooLarge needed available =>
          apply (preserves_throw _).ite
          exact (preserves_push overlooks).bind fun _ => preserves_writeInPlace overlooks line
      | unsupportedVersion version => exact preserves_throw _

theorem preserves_fillOnce (data : Bytes) : Preserves view (fillOnce data) := by
  apply (preserves_openWork overlooks).bind
  intro segment
  apply (preserves_setWork overlooks _).bind
  intro _
  apply (preserves_pure _).ite
  apply (preserves_throw _).ite
  exact (preserves_push overlooks).bind fun _ => preserves_pure _

theorem preserves_fill (data : Bytes) : Preserves view (fill data) := by
  intro before
  apply Ensures.fill (fun _ middle => view middle = view before)
  · rfl
  · intro rest middle same
    rw [← same]
    exact preserves_fillOnce overlooks rest middle
  · intro after same
    exact same

theorem preserves_addData (data : Bytes) : Preserves view (addData data) := by
  apply preserves_get
  intro feed
  apply (preserves_refuseIf _ _).bind
  intro _
  exact preserves_fill overlooks data

theorem preserves_deliverEnd : Preserves view deliverEnd := by
  apply preserves_get
  intro feed
  cases (Sink.appendEnd feed.stream.id).run feed.queue with
  | ok _ queue =>
      apply (preserves_modify fun feed => overlooks.queue feed queue).bind
      intro _
      exact preserves_modify overlooks.endDelivered
  | error cause queue =>
      apply (preserves_modify fun feed => overlooks.queue feed queue).bind
      intro _
      exact preserves_throw _

/-- What ending the header section does once the request is started. -/
theorem preserves_endOfHeaders
    (overlooked : ∀ feed : Feed Queue,
      view { feed with stream := { feed.stream with endOfHeaders := true } } = view feed) :
    Preserves view (do
      let _ ← openWork
      modifyStream ({ · with endOfHeaders := true })
      writeLine .blank
      push) := by
  apply (preserves_openWork overlooks).bind
  intro _
  apply (preserves_modify overlooked).bind
  intro _
  exact (preserves_writeLine overlooks _).bind fun _ => preserves_push overlooks

section Starting

variable (overlooksStart : OverlooksStart view)

include overlooksStart

theorem preserves_startRequest : Preserves view startRequest := by
  apply preserves_get
  intro feed
  dsimp only
  cases feed.stream.pseudo.method with
  | none => exact preserves_throw _
  | some method =>
      cases feed.stream.pseudo.path with
      | none => exact preserves_throw _
      | some path =>
          apply (preserves_writeInPlace overlooks _).bind
          intro _
          apply (preserves_modify overlooksStart).bind
          intro _
          cases feed.stream.pseudo.authority with
          | none => exact preserves_pure _
          | some authority => exact preserves_writeLine overlooks _

theorem preserves_ensureStarted : Preserves view ensureStarted := by
  apply preserves_get
  intro feed
  exact (preserves_pure _).ite (preserves_startRequest overlooks overlooksStart)

theorem preserves_endHeaders
    (overlooked : ∀ feed : Feed Queue,
      view { feed with stream := { feed.stream with endOfHeaders := true } } = view feed) :
    Preserves view endHeaders := by
  apply preserves_get
  intro feed
  apply (preserves_refuseIf _ _).bind
  intro _
  apply (preserves_ensureStarted overlooks overlooksStart).bind
  intro _
  exact preserves_endOfHeaders overlooks overlooked

end Starting

end Writing

/-- A view that does not show what feeding a stream changes, unless its input is closed. -/
structure OverlooksFeeding (view : Feed Queue → View) : Prop extends Overlooks view where
  start : OverlooksStart view
  pseudo (feed : Feed Queue) (pseudo : PseudoHeaders) :
    view { feed with stream := { feed.stream with pseudo } } = view feed
  endOfHeaders (feed : Feed Queue) :
    view { feed with stream := { feed.stream with endOfHeaders := true } } = view feed

theorem preserves_addHeader [Sink Queue] (overlooks : OverlooksFeeding view)
    (name value : Bytes) : Preserves view (addHeader name value) := by
  apply (preserves_pure _).ite
  apply preserves_get
  intro feed
  apply (preserves_refuseIf _ _).bind
  intro _
  apply (preserves_addPseudoHeader overlooks.pseudo name value).ite
  apply (preserves_ensureStarted overlooks.toOverlooks overlooks.start).bind
  intro _
  exact preserves_writeLine overlooks.toOverlooks _

theorem overlooksFeeding_notices :
    OverlooksFeeding (Feed.notices : Feed Queue → List Notice) where
  work _ _ := rfl
  queue _ _ := rfl
  endDelivered _ := rfl
  start _ := rfl
  pseudo _ _ := rfl
  endOfHeaders _ := rfl

end Feed

namespace Stream.Call

open Delivery (Sink)
open Feed (Ensures Preserves preserves_pure OverlooksFeeding)

variable {Queue : Type} [Sink Queue]

/-- What a program ensures whether it fails or not holds after the call. -/
theorem holds_after_run (property : Feed Queue → Prop) {call : Call} {before : Feed Queue}
    (ensured : Ensures call.program before (fun _ after => property after)
      (fun _ after => property after)) : property (call.run before).2 := by
  have outcome := run_of_ensures ensured
  rcases result : call.run before with ⟨answer, after⟩
  rw [result] at outcome
  cases answer with
  | ok reply => exact outcome
  | error error => exact outcome

theorem view_run (call : Call) {View : Type} {view : Feed Queue → View}
    {program : FeedM Queue Unit} (consists : call.program = do program; pure .done)
    (preserves : Preserves view program) (before : Feed Queue) :
    view (call.run before).2 = view before := by
  apply holds_after_run fun after => view after = view before
  rw [consists]
  exact (preserves.bind fun _ => preserves_pure _) before

/-- Whether a call passes on request text, or has it delivered. -/
def isFeeding : Call → Bool
  | addHeader _ _ | addData _ | endHeaders | push => true
  | closeInput | closeOutput | abort | observe _ | setResponseHead _ | takeResponseHead => false

/-- What feeding does not change is the same after every feeding call, also if it fails. -/
theorem view_run_of_feeding {call : Call} {View : Type} {view : Feed Queue → View}
    (overlooks : OverlooksFeeding view) (feeding : call.isFeeding = true) (before : Feed Queue) :
    view (call.run before).2 = view before := by
  have writing := overlooks.toOverlooks
  cases call with
  | addHeader name value =>
      exact view_run _ rfl (Feed.preserves_addHeader overlooks name value) before
  | addData data => exact view_run _ rfl (Feed.preserves_addData writing data) before
  | endHeaders =>
      have preserves : Preserves view Feed.endHeaders :=
        Feed.preserves_endHeaders writing overlooks.start overlooks.endOfHeaders
      exact view_run _ rfl preserves before
  | push => exact view_run _ rfl (Feed.preserves_push writing) before
  | _ => cases feeding

/-- What delivering does not change is, after the closing of the input, what it is once the
stream has moved to its new state. -/
theorem view_run_closeInput {View : Type} {view : Feed Queue → View}
    (overlooks : Feed.Overlooks view) (before : Feed Queue) :
    view (closeInput.run before).2 = view (closeInput.start before) := by
  apply holds_after_run fun after => view after = view (closeInput.start before)
  change Ensures (do Feed.closeInput; pure Reply.done) before _ _
  rw [Feed.ensures_bind, Feed.ensures_closeInput rfl]
  constructor
  · intro _
    rfl
  · intro _
    have delivering : Preserves view (do Feed.push; Feed.deliverEnd : FeedM Queue Unit) :=
      (Feed.preserves_push overlooks).bind fun _ => Feed.preserves_deliverEnd overlooks
    exact delivering _

/-- Observers are told of the state that a call moves its stream to, and of nothing else. -/
theorem notices_run (call : Call) (before : Feed Queue) :
    (call.run before).2.notices = (call.start before).notices := by
  have still : before.notices = (before.moved before.stream.lifecycle).notices := by
    rw [before.moved_self]
  have fed {call : Call} (feeding : call.isFeeding = true) :
      (call.run before).2.notices = (before.moved before.stream.lifecycle).notices :=
    (view_run_of_feeding Feed.overlooksFeeding_notices feeding before).trans still
  cases call with
  | addHeader name value => exact fed rfl
  | addData data => exact fed rfl
  | endHeaders => exact fed rfl
  | push => exact fed rfl
  | closeInput => exact view_run_closeInput Feed.overlooksFeeding_notices.toOverlooks before
  | closeOutput => rfl
  | _ => exact still

/-- Whatever a call tells observers, it tells them of its own stream. -/
theorem stream_of_mem_notices (call : Call) {before : Feed Queue} {notice : Notice}
    (mem : notice ∈ (call.run before).2.notices) :
    notice ∈ before.notices ∨ notice.stream = before.stream.id := by
  rw [notices_run, start, Feed.moved] at mem
  dsimp only at mem
  split at mem
  · exact .inl mem
  · rcases List.mem_append.mp mem with old | new
    · exact .inl old
    · rcases List.mem_map.mp new with ⟨observer, _, rfl⟩
      exact .inr rfl

end Stream.Call

end Reassembly
