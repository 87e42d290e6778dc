import Reassembly.Proofs.Stream.Drafting

/-!
# Violations leave no trace

A call first looks for what the peer does wrong, and only then does something. So a call that
is answered with a violation has done nothing. The stream alone decides on that, and the sink is
not asked. From then on a call may still fail, but never through a fault of the peer.

A run is therefore the same without the calls that were answered with a violation.
-/

namespace Reassembly

namespace Feed

open Delivery (Sink)

variable {Queue Value Other : Type} {before : Feed Queue}

section Blameless

/-- A program that the peer cannot make fail. -/
def Blameless (program : FeedM Queue Value) : Prop :=
  ∀ before, Ensures program before (fun _ _ => True) (fun error _ => error.isViolation = false)

theorem blameless_pure (value : Value) : Blameless (pure value : FeedM Queue Value) :=
  fun _ => trivial

theorem blameless_throw {error : StreamError} (noViolation : error.isViolation = false) :
    Blameless (throw error : FeedM Queue Value) :=
  fun _ => noViolation

theorem blameless_get : Blameless (get : FeedM Queue (Feed Queue)) :=
  fun _ => trivial

theorem blameless_modify (change : Feed Queue → Feed Queue) :
    Blameless (modify change : FeedM Queue PUnit) :=
  fun _ => trivial

theorem Blameless.bind {program : FeedM Queue Other} {next : Other → FeedM Queue Value}
    (first : Blameless program) (second : ∀ value, Blameless (next value)) :
    Blameless (program >>= next) :=
  fun before => (first before).bind (fun value middle _ => second value middle)
    fun _ _ noViolation => noViolation

theorem Blameless.ite {condition : Prop} [Decidable condition] {first second : FeedM Queue Value}
    (ifTrue : Blameless first) (ifFalse : Blameless second) :
    Blameless (if condition then first else second) := by
  split
  · exact ifTrue
  · exact ifFalse

theorem blameless_openWork : Blameless (openWork : FeedM Queue Segment) := by
  apply blameless_get.bind
  intro feed
  dsimp only
  cases feed.stream.work with
  | some segment => exact blameless_pure _
  | none =>
      dsimp only
      cases Segment.allocate feed.stream.session.config.segmentCapacity with
      | ok segment => exact (blameless_modify _).bind fun _ => blameless_pure _
      | error error => exact blameless_throw rfl

theorem blameless_writeInPlace (line : HeadLine) :
    Blameless (writeInPlace line : FeedM Queue Unit) := by
  apply blameless_openWork.bind
  intro segment
  cases line.write.run segment with
  | ok _ written => exact blameless_modify _
  | error error _ => exact blameless_throw (StreamError.isViolation_ofEncodeError error)

variable [Sink Queue]

theorem blameless_push : Blameless (push : FeedM Queue Unit) := by
  apply blameless_get.bind
  intro feed
  cases feed.stream.work with
  | none => exact blameless_pure _
  | some segment =>
      apply (blameless_modify _).bind
      intro _
      apply (blameless_pure _).ite
      cases (Sink.append feed.stream.id segment).run feed.queue with
      | ok _ queue => exact blameless_modify _
      | error rejection queue =>
          apply (blameless_modify _).bind
          intro _
          exact (blameless_modify _).bind fun _ => blameless_throw rfl

theorem blameless_writeLine (line : HeadLine) :
    Blameless (writeLine line : FeedM Queue Unit) := by
  apply blameless_openWork.bind
  intro segment
  cases line.write.run segment with
  | ok _ written => exact blameless_modify _
  | error error _ =>
      cases error with
      | tooLarge needed available =>
          apply (blameless_throw rfl).ite
          exact blameless_push.bind fun _ => blameless_writeInPlace line
      | unsupportedVersion version => exact blameless_throw rfl

theorem blameless_fillOnce (data : Bytes) :
    Blameless (fillOnce data : FeedM Queue Bytes) := by
  apply blameless_openWork.bind
  intro segment
  apply (blameless_modify _).bind
  intro _
  apply (blameless_pure _).ite
  apply (blameless_throw rfl).ite
  exact blameless_push.bind fun _ => blameless_pure _

theorem blameless_fill (data : Bytes) : Blameless (fill data : FeedM Queue Unit) := by
  intro before
  apply Ensures.fill (fun _ _ => True)
  · trivial
  · intro rest middle _
    exact blameless_fillOnce rest middle
  · intro _ _
    trivial

theorem blameless_deliverEnd : Blameless (deliverEnd : FeedM Queue Unit) := by
  apply blameless_get.bind
  intro feed
  cases (Sink.appendEnd feed.stream.id).run feed.queue with
  | ok _ queue => exact (blameless_modify _).bind fun _ => blameless_modify _
  | error cause queue => exact (blameless_modify _).bind fun _ => blameless_throw rfl

theorem blameless_closeInput : Blameless (closeInput : FeedM Queue Unit) := by
  apply blameless_get.bind
  intro feed
  apply (blameless_modify _).bind
  intro _
  apply blameless_get.bind
  intro feed
  apply (blameless_pure _).ite
  exact blameless_push.bind fun _ => blameless_deliverEnd

end Blameless

variable [Sink Queue]

/-- A request that can be started is not started in vain because of the peer. -/
theorem ensureStarted_blameless (faultless : before.stream.startFault? = none) :
    Ensures ensureStarted before (fun _ _ => True) (fun error _ => error.isViolation = false) := by
  unfold ensureStarted
  rw [ensures_bind, ensures_get]
  unfold Stream.startFault? at faultless
  cases started : before.stream.requestStarted with
  | true => trivial
  | false =>
      rw [started, if_neg Bool.false_ne_true] at faultless
      rw [if_neg Bool.false_ne_true]
      unfold startRequest
      rw [ensures_bind, ensures_get]
      dsimp only
      cases method : before.stream.pseudo.method with
      | none => simp [method] at faultless
      | some verb =>
          cases path : before.stream.pseudo.path with
          | none => simp [method, path] at faultless
          | some target =>
              apply (blameless_writeInPlace _).bind
              intro _
              apply (blameless_modify _).bind
              intro _
              cases before.stream.pseudo.authority with
              | none => exact blameless_pure _
              | some authority => exact blameless_writeLine _

end Feed

namespace Stream.Call

open Delivery (Sink Scripted)
open Feed (Ensures Faults)

/-- The violation that a call is answered with, if so. A stream that has a segment takes no
pseudo-headers, as if its request were started. -/
def violation? (call : Call) (stream : Stream) : Option Violation :=
  if call.isPseudo && stream.work.isSome then
    some (if stream.lifecycle.isInputClosed then .headerAfterEnd else .pseudoHeaderAfterStart)
  else call.fault? stream

variable {Queue : Type} [Sink Queue] {before : Feed Queue} {call : Call} {fault : Violation}

theorem addHeader_pseudo_late {name : Bytes} (value : Bytes) (pseudo : isPseudoName name = true)
    (late : before.stream.work.isSome = true) :
    Faults (addHeader name value).program before
      (if before.stream.lifecycle.isInputClosed then .headerAfterEnd
        else .pseudoHeaderAfterStart) := by
  have named : name.isEmpty = false := by
    cases name with
    | nil => cases pseudo
    | cons first rest => rfl
  have refused : (before.stream.requestStarted || before.stream.work.isSome) = true := by
    rw [late, Bool.or_true]
  change Faults (do Feed.addHeader name value; pure Reply.done) before _
  apply Faults.bind
  unfold Feed.addHeader
  rw [named, if_neg Bool.false_ne_true, Faults, Feed.ensures_bind, Feed.ensures_get]
  cases closed : before.stream.lifecycle.isInputClosed with
  | true => exact Feed.faults_refuseIf_bind rfl
  | false =>
      apply Feed.faults_of_refuseIf_bind rfl
      rw [pseudo, if_pos rfl]
      exact Feed.faults_refuseIf_bind refused

theorem program_violates (violates : call.violation? before.stream = some fault) :
    Faults call.program before fault := by
  unfold violation? at violates
  split at violates
  · rename_i late
    rw [Bool.and_eq_true] at late
    cases violates
    cases call with
    | addHeader name value => exact addHeader_pseudo_late value late.1 late.2
    | _ => cases late.1
  · rename_i notLate
    apply Feed.program_faults call _ violates
    intro pseudo _
    simpa [pseudo] using notLate

/-- The stream decides on violations, whatever sink it delivers to. -/
theorem run_of_violates (violates : call.violation? before.stream = some fault) :
    call.run before = (.error (.violation fault), before) :=
  Feed.run_of_faults (program_violates violates)

theorem addHeader_blameless {name value : Bytes}
    (fine : (addHeader name value).violation? before.stream = none) :
    Ensures (Feed.addHeader name value) before (fun _ _ => True)
      (fun error _ => error.isViolation = false) := by
  unfold Feed.addHeader
  cases named : name.isEmpty with
  | true => trivial
  | false =>
      unfold violation? at fine
      split at fine
      · cases fine
      · rename_i notLate
        rcases addHeader_faultless named fine with ⟨inputOpen, faultless⟩
        rw [if_neg Bool.false_ne_true, Feed.ensures_bind, Feed.ensures_get, Feed.ensures_bind,
          Feed.ensures_refuseIf]
        refine ⟨fun closed => ?_, fun _ => ?_⟩
        · rw [inputOpen] at closed
          cases closed
        · cases pseudo : isPseudoName name with
          | true =>
              have unopened : before.stream.work = none := by
                simpa [isPseudo, pseudo] using notLate
              rw [pseudo, if_pos rfl] at faultless
              apply Ensures.imp (Feed.addPseudoHeader_succeeds (fun _ => unopened) faultless)
              · exact fun _ _ _ => trivial
              · exact fun _ _ impossible => impossible.elim
          | false =>
              rw [pseudo, if_neg Bool.false_ne_true] at faultless
              apply (Feed.ensureStarted_blameless faultless).bind
              · exact fun _ middle _ => Feed.blameless_writeLine _ middle
              · exact fun _ _ noViolation => noViolation

theorem endHeaders_blameless (faultless : endHeaders.fault? before.stream = none) :
    Ensures Feed.endHeaders before (fun _ _ => True)
      (fun error _ => error.isViolation = false) := by
  rcases endHeaders_faultless faultless with ⟨inputOpen, startable⟩
  unfold Feed.endHeaders
  rw [Feed.ensures_bind, Feed.ensures_get, Feed.ensures_bind, Feed.ensures_refuseIf]
  refine ⟨fun closed => ?_, fun _ => ?_⟩
  · rw [inputOpen] at closed
    cases closed
  · apply (Feed.ensureStarted_blameless startable).bind
    · intro _ middle _
      apply Feed.Blameless.bind Feed.blameless_openWork
      intro _
      apply (Feed.blameless_modify _).bind
      intro _
      exact (Feed.blameless_writeLine _).bind fun _ => Feed.blameless_push
    · exact fun _ _ noViolation => noViolation

theorem addData_blameless {data : Bytes}
    (faultless : (addData data).fault? before.stream = none) :
    Ensures (Feed.addData data) before (fun _ _ => True)
      (fun error _ => error.isViolation = false) := by
  have inputOpen := addData_faultless faultless
  unfold Feed.addData
  rw [Feed.ensures_bind, Feed.ensures_get, Feed.ensures_bind, Feed.ensures_refuseIf]
  refine ⟨fun closed => ?_, fun _ => ?_⟩
  · rw [inputOpen] at closed
    cases closed
  · exact Feed.blameless_fill data before

/-- A call that the peer may make can fail for other reasons only. -/
theorem program_blameless (fine : call.violation? before.stream = none) :
    Ensures call.program before (fun _ _ => True)
      (fun error _ => error.isViolation = false) := by
  cases call with
  | addHeader name value => exact Feed.ensures_bind_pure.mpr (addHeader_blameless fine)
  | addData data => exact Feed.ensures_bind_pure.mpr (addData_blameless fine)
  | endHeaders => exact Feed.ensures_bind_pure.mpr (endHeaders_blameless fine)
  | push => exact Feed.ensures_bind_pure.mpr (Feed.blameless_push before)
  | closeInput => exact Feed.ensures_bind_pure.mpr (Feed.blameless_closeInput before)
  | _ => trivial

theorem violates_of_run (violated : (call.run before).1 = .error (.violation fault)) :
    call.violation? before.stream = some fault := by
  cases violates : call.violation? before.stream with
  | some other =>
      rw [run_of_violates violates] at violated
      cases violated
      rfl
  | none =>
      have blameless := run_of_ensures (program_blameless violates)
      rcases result : call.run before with ⟨answer, after⟩
      rw [result] at violated blameless
      cases violated
      cases blameless

theorem run_of_violation (violated : (call.run before).1 = .error (.violation fault)) :
    call.run before = (.error (.violation fault), before) :=
  run_of_violates (violates_of_run violated)

/-- Whether an answer blames the peer. -/
def isBlaming : Answer → Bool
  | .ok _ => false
  | .error error => error.isViolation

/-- The calls that were not answered with a violation, with their answers. -/
def lawful (calls : List Call) (answers : List Answer) : List (Call × Answer) :=
  (calls.zip answers).filter fun (_, answer) => !isBlaming answer

/-- What a call does that is answered with a violation, and that is kept out of a run. -/
theorem run_of_isBlaming (blaming : isBlaming (call.run before).1 = true) :
    (call.run before).2 = before := by
  rcases result : call.run before with ⟨answer, after⟩
  rw [result] at blaming
  cases answer with
  | ok reply => cases blaming
  | error error =>
      cases error with
      | violation fault =>
          have unchanged := run_of_violation (congrArg Prod.fst result)
          rw [result] at unchanged
          exact congrArg Prod.snd unchanged
      | _ => cases blaming

/-- Leaving out the calls that were answered with a violation changes nothing. -/
theorem runAll_lawful (calls : List Call) (before : Feed Queue) :
    runAll ((lawful calls (runAll calls before).1).map Prod.fst) before
      = ((lawful calls (runAll calls before).1).map Prod.snd, (runAll calls before).2) := by
  induction calls generalizing before with
  | nil => rfl
  | cons call later ih =>
      have rest := ih (call.run before).2
      cases blaming : isBlaming (call.run before).1 with
      | true =>
          have left_out : lawful (call :: later) (runAll (call :: later) before).1
              = lawful later (runAll later (call.run before).2).1 := by
            simp [lawful, runAll, blaming]
          rw [left_out]
          rw [run_of_isBlaming blaming] at rest ⊢
          rw [rest]
          simp [runAll, run_of_isBlaming blaming]
      | false =>
          have kept : lawful (call :: later) (runAll (call :: later) before).1
              = (call, (call.run before).1) :: lawful later (runAll later (call.run before).2).1 := by
            simp [lawful, runAll, blaming]
          rw [kept, List.map_cons, List.map_cons, runAll_cons, rest]
          rfl

/-- A call that is answered with a violation leaves the stream, the sink and the observers as
they are. It would have been answered so on any sink of any kind, since it asks nothing of it.
So a run is the same without all such calls: the other calls are answered alike, and the same
stream is left with the same deliveries. -/
theorem violations_leave_no_trace (before : Feed Queue) (calls : List Call) :
    (∀ (call : Call) (fault : Violation), (call.run before).1 = .error (.violation fault) →
      (call.run before).2 = before ∧
      ∀ {Other : Type} [Sink Other] (other : Other),
        let elsewhere : Feed Other := ⟨before.stream, other, before.notices⟩
        call.run elsewhere = (.error (.violation fault), elsewhere)) ∧
    let kept := lawful calls (runAll calls before).1
    runAll (kept.map Prod.fst) before = (kept.map Prod.snd, (runAll calls before).2) := by
  refine ⟨?_, runAll_lawful calls before⟩
  intro call fault violated
  have violates := violates_of_run violated
  refine ⟨?_, ?_⟩
  · rw [run_of_violates violates]
  · intro Other _ other elsewhere
    exact run_of_violates violates

/-- A pseudo-header that comes behind data is refused, and the data stays where it is. -/
theorem violations_leave_no_trace_late :
    let before := (runAll [addData (Bytes.ascii "x")] (Feed.fresh 1 {} ({} : Scripted))).2
    let late := addHeader (Bytes.ascii ":path") (Bytes.ascii "/")
    (late.run before).1 = .error (.violation .pseudoHeaderAfterStart) ∧
      (late.run before).2 = before := by
  intro before late
  have refused : (late.run before).1 = .error (.violation .pseudoHeaderAfterStart) := by decide
  exact ⟨refused, ((violations_leave_no_trace before []).1 late _ refused).1⟩

end Stream.Call

end Reassembly
