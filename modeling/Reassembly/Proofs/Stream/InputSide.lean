import Reassembly.Proofs.Stream.Sides

/-!
# The input side on its own

A stream learns of its sink only what the sink answers, and what it does with its request depends
on nothing but its input side. Take two feeds whose streams have the same input side, and whose
sinks are related in some way. If related sinks answer the deliveries of the stream alike, and are
still related after them, then a call on the input side answers alike on both feeds and leaves
such feeds behind, whatever the output sides are.
-/

namespace Reassembly

open Delivery (Sink)

variable {Left Right : Type}

/-- Two results with the same value or the same error, and related states. -/
inductive Alike {Error State Image Value : Type} (related : State → Image → Prop) :
    EStateM.Result Error State Value → EStateM.Result Error Image Value → Prop where
  | ok (value : Value) {state : State} {image : Image} (states : related state image) :
      Alike related (.ok value state) (.ok value image)
  | error (error : Error) {state : State} {image : Image} (states : related state image) :
      Alike related (.error error state) (.error error image)

theorem Alike.refl {Error State Value : Type} {related : State → State → Prop}
    (reflexive : ∀ state, related state state) (result : EStateM.Result Error State Value) :
    Alike related result result := by
  cases result with
  | ok value state => exact .ok value (reflexive state)
  | error error state => exact .error error (reflexive state)

/-- A relation between sinks under which the deliveries for a stream are answered alike, and
which they keep. -/
structure Delivery.Coupling [Sink Left] [Sink Right] (id : StreamId)
    (related : Left → Right → Prop) : Prop where
  append (segment : Segment) {left : Left} {right : Right} : related left right →
    Alike related ((Sink.append id segment).run left) ((Sink.append id segment).run right)
  appendEnd {left : Left} {right : Right} : related left right →
    Alike related ((Sink.appendEnd id).run left) ((Sink.appendEnd id).run right)

/-- Two sinks that are the same stay the same. -/
theorem Delivery.coupling_eq (Queue : Type) [Sink Queue] (id : StreamId) :
    Coupling id fun left right : Queue => right = left where
  append segment := by
    rintro _ queue rfl
    apply Alike.refl
    exact fun _ => rfl
  appendEnd := by
    rintro _ queue rfl
    apply Alike.refl
    exact fun _ => rfl

namespace Feed

/-- Two feeds of streams with the same input side, whose sinks are related. -/
structure SameInput (id : StreamId) (related : Left → Right → Prop) (left : Feed Left)
    (right : Feed Right) : Prop where
  id_eq : left.stream.id = id
  side_eq : right.stream.inputSide = left.stream.inputSide
  queues : related left.queue right.queue

section Reading

variable {id : StreamId} {related : Left → Right → Prop} {left : Feed Left} {right : Feed Right}
  (same : SameInput id related left right)

include same

theorem SameInput.reads {Value : Type} (read : Stream → Value)
    (overlooks : ∀ stream, read stream.inputSide = read stream) :
    read right.stream = read left.stream := by
  rw [← overlooks right.stream, same.side_eq, overlooks left.stream]

theorem SameInput.stream_id_eq : right.stream.id = left.stream.id :=
  same.reads Stream.id fun _ => rfl

theorem SameInput.session_eq : right.stream.session = left.stream.session :=
  same.reads Stream.session fun _ => rfl

theorem SameInput.pseudo_eq : right.stream.pseudo = left.stream.pseudo :=
  same.reads Stream.pseudo fun _ => rfl

theorem SameInput.requestStarted_eq :
    right.stream.requestStarted = left.stream.requestStarted :=
  same.reads Stream.requestStarted fun _ => rfl

theorem SameInput.endOfHeaders_eq : right.stream.endOfHeaders = left.stream.endOfHeaders :=
  same.reads Stream.endOfHeaders fun _ => rfl

theorem SameInput.endDelivered_eq : right.stream.endDelivered = left.stream.endDelivered :=
  same.reads Stream.endDelivered fun _ => rfl

theorem SameInput.work_eq : right.stream.work = left.stream.work :=
  same.reads Stream.work fun _ => rfl

theorem SameInput.isInputClosed_eq :
    right.stream.lifecycle.isInputClosed = left.stream.lifecycle.isInputClosed :=
  same.reads (·.lifecycle.isInputClosed) Stream.isInputClosed_inputSide

end Reading

/-- Two programs that do the same to feeds with the same input side. -/
def ActsAlike {Value : Type} (id : StreamId) (related : Left → Right → Prop)
    (program : FeedM Left Value) (image : FeedM Right Value) : Prop :=
  ∀ left right, SameInput id related left right →
    Alike (SameInput id related) (program.run left) (image.run right)

variable {id : StreamId} {related : Left → Right → Prop} {Value Other : Type}

theorem actsAlike_pure (value : Value) : ActsAlike id related (pure value) (pure value) :=
  fun _ _ same => .ok value same

theorem actsAlike_throw (error : StreamError) :
    ActsAlike id related (throw error : FeedM Left Value) (throw error) :=
  fun _ _ same => .error error same

/-- A change of the input side, which neither reads nor touches the output side. -/
theorem actsAlike_modifyStream {change : Stream → Stream}
    (onInput : ∀ stream, (change stream).inputSide = change stream.inputSide)
    (same_id : ∀ stream, (change stream).id = stream.id) :
    ActsAlike id related (modifyStream change) (modifyStream change) := by
  intro left right same
  refine .ok () ⟨?_, ?_, same.queues⟩
  · exact (same_id left.stream).trans same.id_eq
  · exact (onInput right.stream).trans
      ((congrArg change same.side_eq).trans (onInput left.stream).symm)

theorem actsAlike_setWork (work : Option Segment) :
    ActsAlike id related (setWork work) (setWork work) :=
  actsAlike_modifyStream (fun _ => rfl) fun _ => rfl

theorem actsAlike_setQueue {left : Left} {right : Right} (queues : related left right) :
    ActsAlike id related (modify fun feed => { feed with queue := left })
      (modify fun feed => { feed with queue := right }) :=
  fun _ _ same => .ok () ⟨same.id_eq, same.side_eq, queues⟩

theorem ActsAlike.bind {program : FeedM Left Other} {image : FeedM Right Other}
    {next : Other → FeedM Left Value} {nextImage : Other → FeedM Right Value}
    (first : ActsAlike id related program image)
    (second : ∀ value, ActsAlike id related (next value) (nextImage value)) :
    ActsAlike id related (program >>= next) (image >>= nextImage) := by
  intro left right same
  rw [EStateM.run_bind, EStateM.run_bind]
  have middle := first left right same
  generalize program.run left = result at middle ⊢
  generalize image.run right = other at middle ⊢
  cases middle with
  | ok value states => exact second value _ _ states
  | error error states => exact .error error states

/-- What is read of the two feeds differs in the sinks and the output sides only. -/
theorem actsAlike_get {next : Feed Left → FeedM Left Value}
    {nextImage : Feed Right → FeedM Right Value}
    (second : ∀ left right, SameInput id related left right →
      ActsAlike id related (next left) (nextImage right)) :
    ActsAlike id related (get >>= next) (get >>= nextImage) :=
  fun left right same => second left right same left right same

theorem ActsAlike.ite {condition : Prop} [Decidable condition] {first second : FeedM Left Value}
    {firstImage secondImage : FeedM Right Value} (ifTrue : ActsAlike id related first firstImage)
    (ifFalse : ActsAlike id related second secondImage) :
    ActsAlike id related (if condition then first else second)
      (if condition then firstImage else secondImage) := by
  split
  · exact ifTrue
  · exact ifFalse

theorem actsAlike_refuseIf (condition : Bool) (fault : Violation) :
    ActsAlike id related (refuseIf condition fault) (refuseIf condition fault) :=
  (actsAlike_throw _).ite (actsAlike_pure _)

theorem actsAlike_openWork : ActsAlike id related openWork openWork := by
  apply actsAlike_get
  intro left right same
  dsimp only
  rw [same.work_eq, same.session_eq]
  cases left.stream.work with
  | some segment => exact actsAlike_pure _
  | none =>
      cases Segment.allocate left.stream.session.config.segmentCapacity with
      | ok segment => exact (actsAlike_setWork _).bind fun _ => actsAlike_pure _
      | error error => exact actsAlike_throw _

theorem actsAlike_writeInPlace (line : HeadLine) :
    ActsAlike id related (writeInPlace line) (writeInPlace line) := by
  apply actsAlike_openWork.bind
  intro segment
  cases line.write.run segment with
  | ok _ written => exact actsAlike_setWork _
  | error error _ => exact actsAlike_throw _

theorem actsAlike_addPseudoHeader (name value : Bytes) :
    ActsAlike id related (addPseudoHeader name value) (addPseudoHeader name value) := by
  apply actsAlike_get
  intro left right same
  dsimp only
  rw [same.requestStarted_eq, same.work_eq, same.pseudo_eq]
  apply (actsAlike_refuseIf _ _).bind
  intro _
  apply (actsAlike_refuseIf _ _).bind
  intro _
  cases PseudoField.ofName? name with
  | none => exact actsAlike_pure _
  | some field =>
      apply (actsAlike_refuseIf _ _).bind
      intro _
      exact actsAlike_modifyStream (fun _ => rfl) fun _ => rfl

/-- Two moves that close the input half look alike from the input side, even if one of them
leaves the output half open and the other does not. -/
theorem actsAlike_moveTo {next nextImage : Lifecycle} (closes : next.isInputClosed = true)
    (closesToo : nextImage.isInputClosed = true) :
    ActsAlike id related (moveTo next) (moveTo nextImage) := by
  intro left right same
  have side_eq : (right.moved nextImage).stream.inputSide
      = (left.moved next).stream.inputSide := by
    have moved := congrArg (fun side : Stream => { side with lifecycle := .closedInput })
      same.side_eq
    rw [left.moved_eq, right.moved_eq]
    simpa [Stream.inputSide, closes, closesToo] using moved
  have id_eq : (left.moved next).stream.id = id := by
    rw [left.moved_eq]
    exact same.id_eq
  have queues : related (left.moved next).queue (right.moved nextImage).queue := by
    rw [left.moved_eq, right.moved_eq]
    exact same.queues
  exact .ok () ⟨id_eq, side_eq, queues⟩

variable [Sink Left] [Sink Right] (coupling : Delivery.Coupling id related)

include coupling

theorem actsAlike_push : ActsAlike id related push push := by
  apply actsAlike_get
  intro left right same
  rw [same.work_eq, same.stream_id_eq]
  cases left.stream.work with
  | none => exact actsAlike_pure _
  | some segment =>
      apply (actsAlike_setWork none).bind
      intro _
      apply (actsAlike_pure _).ite
      -- the sinks may differ, but what they answer does not
      have answers := coupling.append segment same.queues
      rw [← same.id_eq] at answers
      generalize (Sink.append left.stream.id segment).run left.queue = result at answers ⊢
      generalize (Sink.append left.stream.id segment).run right.queue = other at answers ⊢
      cases answers with
      | ok _ queues => exact actsAlike_setQueue queues
      | error rejection queues =>
          apply (actsAlike_setQueue queues).bind
          intro _
          exact (actsAlike_setWork _).bind fun _ => actsAlike_throw _

theorem actsAlike_writeLine (line : HeadLine) :
    ActsAlike id related (writeLine line) (writeLine line) := by
  apply actsAlike_openWork.bind
  intro segment
  cases line.write.run segment with
  | ok _ written => exact actsAlike_setWork _
  | error error _ =>
      cases error with
      | tooLarge needed available =>
          apply (actsAlike_throw _).ite
          exact (actsAlike_push coupling).bind fun _ => actsAlike_writeInPlace line
      | unsupportedVersion version => exact actsAlike_throw _

theorem actsAlike_startRequest : ActsAlike id related startRequest startRequest := by
  apply actsAlike_get
  intro left right same
  dsimp only
  rw [same.pseudo_eq, same.session_eq]
  cases left.stream.pseudo.method with
  | none => exact actsAlike_throw _
  | some method =>
      cases left.stream.pseudo.path with
      | none => exact actsAlike_throw _
      | some path =>
          apply (actsAlike_writeInPlace _).bind
          intro _
          refine .bind (actsAlike_modifyStream (fun _ => rfl) fun _ => rfl) fun _ => ?_
          cases left.stream.pseudo.authority with
          | none => exact actsAlike_pure _
          | some authority => exact actsAlike_writeLine coupling _

theorem actsAlike_ensureStarted : ActsAlike id related ensureStarted ensureStarted := by
  apply actsAlike_get
  intro left right same
  rw [same.requestStarted_eq]
  exact (actsAlike_pure _).ite (actsAlike_startRequest coupling)

theorem actsAlike_addHeader (name value : Bytes) :
    ActsAlike id related (addHeader name value) (addHeader name value) := by
  apply (actsAlike_pure _).ite
  apply actsAlike_get
  intro left right same
  rw [same.isInputClosed_eq]
  apply (actsAlike_refuseIf _ _).bind
  intro _
  apply (actsAlike_addPseudoHeader name value).ite
  exact (actsAlike_ensureStarted coupling).bind fun _ => actsAlike_writeLine coupling _

theorem actsAlike_fillOnce (data : Bytes) :
    ActsAlike id related (fillOnce data) (fillOnce data) := by
  apply actsAlike_openWork.bind
  intro segment
  apply (actsAlike_setWork _).bind
  intro _
  apply (actsAlike_pure _).ite
  apply (actsAlike_throw _).ite
  exact (actsAlike_push coupling).bind fun _ => actsAlike_pure _

/-- As passes act alike, the two loops go on in step. -/
theorem actsAlike_fill (data : Bytes) : ActsAlike id related (fill data) (fill data) := by
  intro left right same
  have pass := actsAlike_fillOnce coupling data left right same
  induction data, left using fill.induct generalizing right with
  | case1 data left error after failed =>
      rw [fill_eq, fill_eq, EStateM.run_bind, EStateM.run_bind]
      rw [failed] at pass ⊢
      generalize (fillOnce data).run right = other at pass ⊢
      cases pass with
      | error _ states => exact .error error states
  | case2 data left rest after passed nothingLeft =>
      rw [fill_eq, fill_eq, EStateM.run_bind, EStateM.run_bind]
      rw [passed] at pass ⊢
      generalize (fillOnce data).run right = other at pass ⊢
      cases pass with
      | ok _ states =>
          simp only [nothingLeft, if_true]
          exact .ok () states
  | case3 data left rest after passed more ih =>
      rw [fill_eq, fill_eq, EStateM.run_bind, EStateM.run_bind]
      rw [passed] at pass ⊢
      generalize (fillOnce data).run right = other at pass ⊢
      cases pass with
      | ok _ states =>
          simp only [more]
          exact ih _ states (actsAlike_fillOnce coupling rest _ _ states)

theorem actsAlike_addData (data : Bytes) :
    ActsAlike id related (addData data) (addData data) := by
  apply actsAlike_get
  intro left right same
  rw [same.isInputClosed_eq]
  apply (actsAlike_refuseIf _ _).bind
  intro _
  exact actsAlike_fill coupling data

theorem actsAlike_endHeaders : ActsAlike id related endHeaders endHeaders := by
  apply actsAlike_get
  intro left right same
  rw [same.isInputClosed_eq]
  apply (actsAlike_refuseIf _ _).bind
  intro _
  apply (actsAlike_ensureStarted coupling).bind
  intro _
  apply actsAlike_openWork.bind
  intro _
  refine .bind (actsAlike_modifyStream (fun _ => rfl) fun _ => rfl) fun _ => ?_
  exact (actsAlike_writeLine coupling _).bind fun _ => actsAlike_push coupling

theorem actsAlike_deliverEnd : ActsAlike id related deliverEnd deliverEnd := by
  apply actsAlike_get
  intro left right same
  have answers := coupling.appendEnd same.queues
  rw [same.stream_id_eq]
  rw [← same.id_eq] at answers
  generalize (Sink.appendEnd left.stream.id).run left.queue = result at answers ⊢
  generalize (Sink.appendEnd left.stream.id).run right.queue = other at answers ⊢
  cases answers with
  | ok _ queues =>
      apply (actsAlike_setQueue queues).bind
      intro _
      exact actsAlike_modifyStream (fun _ => rfl) fun _ => rfl
  | error cause queues => exact (actsAlike_setQueue queues).bind fun _ => actsAlike_throw _

theorem actsAlike_closeInput : ActsAlike id related closeInput closeInput := by
  apply actsAlike_get
  intro left right same
  -- the two streams may move to different states, which differ in their output halves only
  have closes := Lifecycle.isInputClosed_closeInput
  apply (actsAlike_moveTo (closes _) (closes _)).bind
  intro _
  apply actsAlike_get
  intro left right same
  rw [same.endDelivered_eq]
  apply (actsAlike_pure _).ite
  exact (actsAlike_push coupling).bind fun _ => actsAlike_deliverEnd coupling

end Feed

namespace Stream.Call

open Feed (SameInput ActsAlike actsAlike_pure)

variable [Sink Left] [Sink Right] {id : StreamId} {related : Left → Right → Prop}

theorem actsAlike_program (coupling : Delivery.Coupling id related) {call : Call}
    (onInput : call.isInput = true) :
    ActsAlike id related (call.program : FeedM Left Reply) call.program := by
  cases call with
  | addHeader name value =>
      exact (Feed.actsAlike_addHeader coupling name value).bind fun _ => actsAlike_pure _
  | addData data => exact (Feed.actsAlike_addData coupling data).bind fun _ => actsAlike_pure _
  | endHeaders => exact (Feed.actsAlike_endHeaders coupling).bind fun _ => actsAlike_pure _
  | push => exact (Feed.actsAlike_push coupling).bind fun _ => actsAlike_pure _
  | closeInput => exact (Feed.actsAlike_closeInput coupling).bind fun _ => actsAlike_pure _
  | _ => cases onInput

/-- A call on the input side answers alike on feeds with the same input side, and leaves such
feeds behind. -/
theorem run_sameInput (coupling : Delivery.Coupling id related) {left : Feed Left}
    {right : Feed Right} (same : SameInput id related left right) {call : Call}
    (onInput : call.isInput = true) :
    (call.run right).1 = (call.run left).1 ∧
      SameInput id related (call.run left).2 (call.run right).2 := by
  have results := actsAlike_program coupling onInput left right same
  unfold run
  generalize (call.program : FeedM Left Reply).run left = result at results ⊢
  generalize (call.program : FeedM Right Reply).run right = other at results ⊢
  cases results with
  | ok reply states => exact ⟨rfl, states⟩
  | error error states => exact ⟨rfl, states⟩

omit [Sink Right] in
/-- A call on the output side alone may be made on one feed only. -/
theorem run_left_outside {left : Feed Left} {right : Feed Right}
    (same : SameInput id related left right) {call : Call} (outside : call.isInput = false) :
    SameInput id related (call.run left).2 right := by
  have untouched := inputSide_run outside left
  exact
    { id_eq := (congrArg Stream.id untouched.1).trans same.id_eq
      side_eq := same.side_eq.trans untouched.1.symm
      queues := untouched.2.symm ▸ same.queues }

omit [Sink Left] in
theorem run_right_outside {left : Feed Left} {right : Feed Right}
    (same : SameInput id related left right) {call : Call} (outside : call.isInput = false) :
    SameInput id related left (call.run right).2 := by
  have untouched := inputSide_run outside right
  exact
    { id_eq := same.id_eq
      side_eq := untouched.1.trans same.side_eq
      queues := untouched.2.symm ▸ same.queues }

end Stream.Call

end Reassembly
