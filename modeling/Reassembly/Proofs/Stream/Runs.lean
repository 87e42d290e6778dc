import Reassembly.Proofs.Stream.Writing

/-!
# Runs of calls

A call moves its stream to a state of its lifecycle and then follows a path. A property
that moves and changes of state keep holds throughout every run, whatever the calls are,
in whatever order they come, and however many of them fail.
-/

namespace Reassembly

namespace Feed

open Delivery (Sink LoggingSink)

variable {Queue : Type} {before : Feed Queue}

/-- The feed once its stream has moved to a state, if that is a change. -/
def moved (feed : Feed Queue) (next : Lifecycle) : Feed Queue :=
  let old := feed.stream.lifecycle
  if old = next then feed
  else
    { feed with
      stream := { feed.stream with lifecycle := next }
      notices := feed.notices ++ feed.stream.observer.toList.map fun observer =>
        { observer, stream := feed.stream.id, old, new := next } }

theorem moved_self (feed : Feed Queue) : feed.moved feed.stream.lifecycle = feed :=
  if_pos rfl

/-- Moving to another state changes nothing but the state and what observers are told. -/
theorem moved_eq (feed : Feed Queue) (next : Lifecycle) :
    feed.moved next = { feed with
      stream := { feed.stream with lifecycle := next }
      notices := (feed.moved next).notices } := by
  unfold moved
  dsimp only
  split
  · rename_i same
    subst next
    rfl
  · rfl

@[simp]
theorem ensures_moveTo {next : Lifecycle} {success : Unit → Feed Queue → Prop}
    {failure : StreamError → Feed Queue → Prop} :
    Ensures (moveTo next) before success failure ↔ success () (before.moved next) := Iff.rfl

section Closing

variable [Sink Queue] {success : Unit → Feed Queue → Prop} {failure : StreamError → Feed Queue → Prop}

theorem ensures_deliverEnd :
    Ensures deliverEnd before success failure ↔
      match (Sink.appendEnd before.stream.id).run before.queue with
      | .ok _ queue =>
          success () { before with queue, stream := { before.stream with endDelivered := true } }
      | .error cause queue => failure (.refused cause) { before with queue } := by
  rw [deliverEnd, ensures_bind, ensures_get]
  cases (Sink.appendEnd before.stream.id).run before.queue with
  | ok _ queue => exact Iff.rfl
  | error cause queue => exact Iff.rfl

/-- A closing moves the stream at once, and delivers only if the end is not delivered yet. -/
theorem ensures_closeInput {start : Feed Queue}
    (start_eq : before.moved before.stream.lifecycle.closeInput = start) :
    Ensures closeInput before success failure ↔
      (start.stream.endDelivered = true → success () start) ∧
        (start.stream.endDelivered = false →
          Ensures (push >>= fun _ => deliverEnd) start success failure) := by
  rw [closeInput, ensures_bind, ensures_get, ensures_bind, ensures_moveTo, ensures_bind,
    ensures_get, start_eq]
  cases start.stream.endDelivered with
  | true => simp
  | false => simp

end Closing

variable [LoggingSink Queue]

theorem deliverEnd_path (inputClosed : before.stream.lifecycle.isInputClosed = true)
    (work : before.stream.work = none) (undelivered : before.stream.endDelivered = false) :
    Ensures deliverEnd before
      (fun _ after => Path before [] after ∧ after.stream.endDelivered = true)
      (fun error after => Path before [] after ∧ error.isViolation = false) := by
  rw [ensures_deliverEnd]
  cases answer : (Sink.appendEnd before.stream.id).run before.queue with
  | ok _ next => exact ⟨(Move.deliverEnd inputClosed work undelivered answer).path, rfl⟩
  | error cause next =>
      exact ⟨(Move.refuseEnd inputClosed work undelivered answer).path, rfl⟩

theorem closeInput_path (before : Feed Queue) :
    Ensures closeInput before
      (fun _ after => Path (before.moved before.stream.lifecycle.closeInput) [] after ∧
        after.stream.endDelivered = true)
      (fun error after => Path (before.moved before.stream.lifecycle.closeInput) [] after ∧
        error.isViolation = false) := by
  generalize start_eq : before.moved before.stream.lifecycle.closeInput = start
  have inputClosed : start.stream.lifecycle.isInputClosed = true := by
    rw [← start_eq, moved_eq]
    exact Lifecycle.isInputClosed_closeInput _
  rw [ensures_closeInput start_eq]
  constructor
  · intro delivered
    exact ⟨.refl start, delivered⟩
  · intro undelivered
    apply (push_path start).bind
    · intro _ middle pushed
      rcases pushed with ⟨path, work, unchanged⟩
      have stillClosed : middle.stream.lifecycle.isInputClosed = true := by
        rw [path.lifecycle_eq]
        exact inputClosed
      apply (deliverEnd_path stillClosed work (unchanged.trans undelivered)).imp
      · intro _ after ended
        exact ⟨path.trans ended.1, ended.2⟩
      · intro error after failed
        exact ⟨path.trans failed.1, failed.2⟩
    · intro error after failed
      exact failed

/-- A stream that no call has been made on, with a sink. -/
def fresh (id : StreamId) (session : Session) (queue : Queue) : Feed Queue where
  stream := { id, session }
  queue

end Feed

namespace Stream.Call

open Delivery (Sink LoggingSink)
open Feed (Ensures Move Interrupted)

/-- The state that a call moves its stream to. -/
def lifecycleAfter : Call → Lifecycle → Lifecycle
  | closeInput, lifecycle => lifecycle.closeInput
  | closeOutput, lifecycle => lifecycle.closeOutput
  | _, lifecycle => lifecycle

variable {Queue : Type} [LoggingSink Queue] {before : Feed Queue}

/-- The feed from which a call sets out on its path. -/
def start (call : Call) (before : Feed Queue) : Feed Queue :=
  before.moved (call.lifecycleAfter before.stream.lifecycle)

/-- What a program does that a call consists of, if the call leaves the lifecycle alone. -/
theorem ensures_done {program : FeedM Queue Unit} {pieces : List Bytes}
    (ensured : Ensures program before
      (fun _ after => Feed.Path before pieces.flatten after)
      (fun error after => Interrupted before pieces error after)) :
    Ensures (do program; pure Reply.done) before
      (fun _ after => Feed.Path (before.moved before.stream.lifecycle) pieces.flatten after)
      (fun error after =>
        Interrupted (before.moved before.stream.lifecycle) pieces error after) := by
  rw [before.moved_self, Feed.ensures_bind]
  exact ensured

/-- A call writes all of its pieces if it succeeds, and the first few of them if it fails. -/
theorem program_path (call : Call) :
    Ensures call.program before
      (fun _ after => Feed.Path (call.start before) (call.pieces before.stream).flatten after)
      (fun error after =>
        Interrupted (call.start before) (call.pieces before.stream) error after) := by
  cases call with
  | addHeader name value => exact ensures_done (Feed.addHeader_path name value)
  | addData data => exact ensures_done (Feed.addData_path data)
  | endHeaders => exact ensures_done Feed.endHeaders_path
  | push =>
      apply ensures_done
      apply (Feed.push_path before).imp
      · intro _ after pushed
        exact pushed.1
      · intro error after failed
        exact .nothing failed.1 failed.2
  | closeInput =>
      change Ensures (do Feed.closeInput; pure Reply.done) before _ _
      rw [Feed.ensures_bind]
      apply (Feed.closeInput_path before).imp
      · intro _ after closed
        exact closed.1
      · intro error after failed
        exact .nothing failed.1 failed.2
  | closeOutput => exact Feed.Path.refl _
  | abort => exact ensures_done (Move.note ..).path
  | observe observer => exact ensures_done (Move.note ..).path
  | setResponseHead head => exact ensures_done (Move.note ..).path
  | takeResponseHead =>
      have noted : Feed.Path before []
          { before with stream := { before.stream with responseHead := none } } :=
        (Move.note ..).path
      change Feed.Path (before.moved before.stream.lifecycle) [] _
      rw [before.moved_self]
      exact noted

omit [LoggingSink Queue] in
/-- What is known of the program of a call is known of the call. -/
theorem run_of_ensures [Sink Queue] {call : Call} {success : Reply → Feed Queue → Prop}
    {failure : StreamError → Feed Queue → Prop}
    (ensured : Ensures call.program before success failure) :
    match call.run before with
    | (.ok reply, after) => success reply after
    | (.error error, after) => failure error after := by
  unfold Ensures at ensured
  unfold run
  cases result : call.program.run before with
  | ok reply after =>
      rw [result] at ensured
      exact ensured
  | error error after =>
      rw [result] at ensured
      exact ensured

omit [LoggingSink Queue] in
/-- What is known of the one program that a call consists of is known of the call. -/
theorem run_of_done [Sink Queue] (call : Call) {program : FeedM Queue Unit}
    {success : Unit → Feed Queue → Prop} {failure : StreamError → Feed Queue → Prop}
    (consists : call.program = do program; pure .done)
    (ensured : Ensures program before success failure) :
    match call.run before with
    | (.ok reply, after) => reply = .done ∧ success () after
    | (.error error, after) => failure error after := by
  apply run_of_ensures
  rw [consists, Feed.ensures_bind]
  apply ensured.imp
  · intro _ after holds
    exact ⟨rfl, holds⟩
  · intro error after holds
    exact holds

theorem run_path (call : Call) (before : Feed Queue) :
    match call.run before with
    | (.ok _, after) => Feed.Path (call.start before) (call.pieces before.stream).flatten after
    | (.error error, after) =>
        Interrupted (call.start before) (call.pieces before.stream) error after :=
  run_of_ensures (program_path call)

theorem exists_path (call : Call) (before : Feed Queue) :
    ∃ octets, Feed.Path (call.start before) octets (call.run before).2 := by
  have path := run_path call before
  rcases result : call.run before with ⟨answer, after⟩
  rw [result] at path
  cases answer with
  | ok reply => exact ⟨_, path⟩
  | error error =>
      rcases path with ⟨written, _, path, _⟩
      exact ⟨written.flatten, path⟩

section Invariants

variable {property : Feed Queue → Prop}
  (movedKeeps : ∀ {feed : Feed Queue} (call : Call), property feed → property (call.start feed))
  (moveKeeps : ∀ {before octets after},
    Move (before : Feed Queue) octets after → property before → property after)

include movedKeeps moveKeeps

theorem run_keeps (call : Call) (holds : property before) : property (call.run before).2 := by
  rcases exists_path call before with ⟨octets, path⟩
  exact path.keeps moveKeeps (movedKeeps call holds)

/-- What every move and every change of state keeps holds after every run. -/
theorem runAll_keeps (calls : List Call) (holds : property before) :
    property (runAll calls before).2 := by
  induction calls generalizing before with
  | nil => exact holds
  | cons call later ih => exact ih (run_keeps movedKeeps moveKeeps call holds)

end Invariants

omit [LoggingSink Queue] in
theorem start_wellSized (call : Call) (sized : before.WellSized) :
    (call.start before).WellSized := by
  rw [start, Feed.moved_eq]
  exact sized

omit [LoggingSink Queue] in
theorem isInputClosed_start (call : Call)
    (inputClosed : before.stream.lifecycle.isInputClosed = true) :
    (call.start before).stream.lifecycle.isInputClosed = true := by
  rw [start, Feed.moved_eq]
  cases call with
  | closeInput => exact Lifecycle.isInputClosed_closeInput _
  | closeOutput => exact (Lifecycle.isInputClosed_closeOutput _).trans inputClosed
  | _ => exact inputClosed

theorem run_wellSized (call : Call) (sized : before.WellSized) :
    (call.run before).2.WellSized :=
  run_keeps start_wellSized Move.wellSized call sized

/-- A feed of the stream with this name on this session. -/
structure BelongsTo (id : StreamId) (session : Session) (feed : Feed Queue) : Prop where
  sized : feed.WellSized
  id_eq : feed.stream.id = id
  session_eq : feed.stream.session = session

omit [LoggingSink Queue] in
theorem BelongsTo.start {id : StreamId} {session : Session} (call : Call)
    (belongs : BelongsTo id session before) : BelongsTo id session (call.start before) := by
  have sized := start_wellSized call belongs.sized
  rw [Call.start, Feed.moved_eq] at sized ⊢
  exact ⟨sized, belongs.id_eq, belongs.session_eq⟩

theorem BelongsTo.move {id : StreamId} {session : Session} {after : Feed Queue} {octets : Bytes}
    (move : Move before octets after) (belongs : BelongsTo id session before) :
    BelongsTo id session after where
  sized := move.wellSized belongs.sized
  id_eq := move.path.id_eq.trans belongs.id_eq
  session_eq := move.path.session_eq.trans belongs.session_eq

omit [LoggingSink Queue] in
theorem fresh_wellSized (id : StreamId) (session : Session) (queue : Queue) :
    (Feed.fresh id session queue).WellSized := by
  intro segment work
  cases work

theorem runAll_belongsTo (id : StreamId) (session : Session) (queue : Queue)
    (calls : List Call) :
    BelongsTo id session (runAll calls (Feed.fresh id session queue)).2 :=
  runAll_keeps BelongsTo.start BelongsTo.move calls
    ⟨fresh_wellSized id session queue, rfl, rfl⟩

omit [LoggingSink Queue] in
theorem runAll_cons [Sink Queue] (call : Call) (later : List Call) (before : Feed Queue) :
    runAll (call :: later) before
      = ((call.run before).1 :: (runAll later (call.run before).2).1,
        (runAll later (call.run before).2).2) := rfl

omit [LoggingSink Queue] in
/-- A run may be cut in two. -/
theorem runAll_append [Sink Queue] (earlier later : List Call) :
    (runAll (earlier ++ later) before).2 = (runAll later (runAll earlier before).2).2 := by
  induction earlier generalizing before with
  | nil => rfl
  | cons call rest ih => exact ih

end Stream.Call

end Reassembly
