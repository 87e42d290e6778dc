import Reassembly.Proofs.Stream.Termination

/-!
# Closing again after a failure

A push or a closing that the sink refuses may be tried again, any number of times. As long
as the segment is refused, it stays with the stream. A closing may also fail after the sink
took the segment, because it refused the end of the stream: then nothing is left to be
delivered but the end. In both cases the first closing that the sink does not refuse
completes the delivery: what waited is accepted once, and then the end.

The last statement puts together what holds of every run of a stream up to and beyond its
end.
-/

namespace Reassembly

namespace Feed

open Delivery (Attempt Item LoggingSink Scripted Refusal acceptedFor_append)

variable {Queue : Type} [LoggingSink Queue] {before middle after : Feed Queue}

/-- What a push has to deliver. -/
def held (feed : Feed Queue) : List Item :=
  if feed.stream.pending = [] then [] else [.chunk feed.stream.pending]

def endAttempts (feed : Feed Queue) : Nat := feed.log.countP (·.item = .endOfStream)

omit [LoggingSink Queue] in
theorem held_of_none (work : before.stream.work = none) : before.held = [] := by
  simp [held, Stream.pending, work]

omit [LoggingSink Queue] in
theorem held_of_some {segment : Segment} (work : before.stream.work = some segment)
    (nonempty : segment.bytes ≠ []) : before.held = [.chunk segment.bytes] := by
  simp [held, Stream.pending, work, nonempty]

omit [LoggingSink Queue] in
theorem held_congr (same : after.stream.work = before.stream.work) :
    after.held = before.held := by
  unfold held Stream.pending
  rw [same]

theorem push_items (before : Feed Queue) :
    Ensures push before
      (fun _ after => after.stream = { before.stream with work := none } ∧
        after.accepted = before.accepted ++ before.held ∧
        after.endAttempts = before.endAttempts)
      (fun _ after => after.stream = before.stream ∧ after.accepted = before.accepted ∧
        after.endAttempts = before.endAttempts) := by
  cases work : before.stream.work with
  | none =>
      rw [Ensures, run_push_of_none work, held_of_none work, List.append_nil]
      exact ⟨(congrArg Feed.stream (withWork_eq_self work)).symm, rfl, rfl⟩
  | some segment =>
      by_cases empty : segment.bytes = []
      · have nothing : before.held = [] := by
          simp [held, Stream.pending, work, empty]
        rw [Ensures, run_push_of_empty work empty, nothing, List.append_nil]
        exact ⟨rfl, rfl, rfl⟩
      · rw [held_of_some work empty]
        cases answer : (Delivery.Sink.append before.stream.id segment).run before.queue with
        | ok _ next =>
            have log := LoggingSink.append_ok answer
            rw [Ensures, run_push_of_accepted work empty answer]
            refine ⟨rfl, ?_, ?_⟩
            · simp [accepted, withWork, log, acceptedFor_append]
            · simp [endAttempts, withWork, log]
        | error rejection next =>
            have log := (LoggingSink.append_error answer).2
            rw [Ensures, run_push_of_refused work empty answer]
            refine ⟨rfl, ?_, ?_⟩
            · simp [accepted, log, acceptedFor_append]
            · simp [endAttempts, log]

theorem deliverEnd_items (before : Feed Queue) :
    Ensures deliverEnd before
      (fun _ after => after.stream = { before.stream with endDelivered := true } ∧
        after.accepted = before.accepted ++ [.endOfStream])
      (fun _ after => after.stream = before.stream ∧ after.accepted = before.accepted ∧
        before.endAttempts < after.endAttempts) := by
  rw [ensures_deliverEnd]
  cases answer : (Delivery.Sink.appendEnd before.stream.id).run before.queue with
  | ok _ next =>
      have log := LoggingSink.appendEnd_ok answer
      refine ⟨rfl, ?_⟩
      simp [accepted, log, acceptedFor_append]
  | error cause next =>
      have log := LoggingSink.appendEnd_error answer
      refine ⟨rfl, ?_, ?_⟩
      · simp [accepted, log, acceptedFor_append]
      · simp [endAttempts, log]

/-- What becomes of a pending segment when attempts to deliver it fail: the stream still
holds it, or it has been accepted and only the end was refused. -/
def Retried (before after : Feed Queue) : Prop :=
  after.stream.endDelivered = false ∧
    ((after.stream.work = before.stream.work ∧ after.accepted = before.accepted ∧
        after.endAttempts = before.endAttempts) ∨
      (after.stream.work = none ∧ after.accepted = before.accepted ++ before.held ∧
        before.endAttempts < after.endAttempts))

theorem Retried.refl (undelivered : before.stream.endDelivered = false) :
    Retried before before :=
  ⟨undelivered, .inl ⟨rfl, rfl, rfl⟩⟩

theorem Retried.trans (first : Retried before middle) (second : Retried middle after) :
    Retried before after := by
  rcases first with ⟨_, ⟨work, accepted, ends⟩ | ⟨work, accepted, ends⟩⟩
  · have held_eq : middle.held = before.held := held_congr work
    rw [Retried, work, accepted, ends, held_eq] at second
    exact second
  · have held_eq : middle.held = [] := held_of_none work
    rcases second with ⟨undelivered, ⟨work', accepted', ends'⟩ | ⟨work', accepted', ends'⟩⟩
    · refine ⟨undelivered, .inr ⟨work'.trans work, accepted'.trans accepted, ?_⟩⟩
      omega
    · rw [held_eq, List.append_nil] at accepted'
      refine ⟨undelivered, .inr ⟨work', accepted'.trans accepted, ?_⟩⟩
      omega

theorem closeInput_items (undelivered : before.stream.endDelivered = false) :
    Ensures closeInput before
      (fun _ after => after.stream.work = none ∧
        after.accepted = before.accepted ++ before.held ++ [.endOfStream])
      (fun _ after => Retried before after) := by
  have same := moved_eq before before.stream.lifecycle.closeInput
  generalize start_eq : before.moved before.stream.lifecycle.closeInput = start at same
  have work : start.stream.work = before.stream.work := by rw [same]
  have unsent : start.stream.endDelivered = false := by rw [same, undelivered]
  have started : Retried before start := by
    refine ⟨unsent, .inl ⟨work, ?_, ?_⟩⟩
    · rw [same]
      rfl
    · rw [same]
      rfl
  have accepted_start : start.accepted = before.accepted := by
    rw [same]
    rfl
  rw [ensures_closeInput start_eq, unsent, ← held_congr work, ← accepted_start]
  constructor
  · intro sent
    cases sent
  · intro _
    apply (push_items start).bind
    · rintro _ middle ⟨stream_eq, accepted, ends⟩
      apply (deliverEnd_items middle).imp
      · rintro _ after ⟨after_eq, ended⟩
        rw [after_eq, stream_eq, ended, accepted]
        exact ⟨rfl, rfl⟩
      · rintro _ after ⟨after_eq, same, more⟩
        apply started.trans
        rw [Retried, after_eq, stream_eq, same, accepted]
        exact ⟨unsent, .inr ⟨rfl, rfl, ends ▸ more⟩⟩
    · rintro _ after ⟨after_eq, same, ends⟩
      apply started.trans
      rw [Retried, after_eq]
      exact ⟨unsent, .inl ⟨rfl, same, ends⟩⟩

theorem retried_run {call : Stream.Call} {error : StreamError}
    (undelivered : before.stream.endDelivered = false)
    (attempt : call = .push ∨ call = .closeInput)
    (failed : (call.run before).1 = .error error) : Retried before (call.run before).2 := by
  rcases attempt with rfl | rfl
  · have outcome := Stream.Call.run_of_done .push rfl (push_items before)
    generalize Stream.Call.push.run before = result at failed outcome ⊢
    rcases result with ⟨answer, after⟩
    cases failed
    rcases outcome with ⟨same_stream, same_accepted, same_ends⟩
    rw [Retried, same_stream]
    exact ⟨undelivered, .inl ⟨rfl, same_accepted, same_ends⟩⟩
  · have outcome := Stream.Call.run_of_done .closeInput rfl (closeInput_items undelivered)
    generalize Stream.Call.closeInput.run before = result at failed outcome ⊢
    rcases result with ⟨answer, after⟩
    cases failed
    exact outcome

/-- Any number of failed attempts to push or to close. -/
theorem retried_runAll {retries : List Stream.Call}
    (undelivered : before.stream.endDelivered = false)
    (attempts : ∀ call ∈ retries, call = .push ∨ call = .closeInput)
    (failed : ∀ answer ∈ (Stream.Call.runAll retries before).1,
      ∃ error, answer = .error error) :
    Retried before (Stream.Call.runAll retries before).2 := by
  induction retries generalizing before with
  | nil => exact .refl undelivered
  | cons call later ih =>
      rcases failed (call.run before).1 List.mem_cons_self with ⟨error, answer⟩
      have once := retried_run undelivered (attempts call List.mem_cons_self) answer
      apply once.trans
      apply ih once.1
      · intro other other_mem
        exact attempts other (List.mem_cons_of_mem call other_mem)
      · intro answer answer_mem
        exact failed answer (List.mem_cons_of_mem _ answer_mem)

theorem Retried.accepted_append_held (retried : Retried before after) :
    after.accepted ++ after.held = before.accepted ++ before.held := by
  rcases retried with ⟨_, ⟨work, accepted, _⟩ | ⟨work, accepted, _⟩⟩
  · rw [accepted, held_congr work]
  · rw [accepted, held_of_none work, List.append_nil]

theorem endDelivered_of_closeInput_ok {reply : Stream.Reply}
    (success : (Stream.Call.closeInput.run before).1 = .ok reply) :
    (Stream.Call.closeInput.run before).2.stream.endDelivered = true := by
  have outcome := Stream.Call.run_of_done .closeInput rfl (closeInput_path before)
  generalize Stream.Call.closeInput.run before = result at success outcome ⊢
  rcases result with ⟨answer, after⟩
  cases success
  exact outcome.2.2

section Accepting

variable {before : Feed Scripted}

theorem push_accepted (willing : before.queue.segmentAnswers.head?.join = none) :
    Ensures push before
      (fun _ after => after.queue.endAnswers = before.queue.endAnswers)
      (fun _ _ => False) := by
  cases work : before.stream.work with
  | none =>
      rw [Ensures, run_push_of_none work]
  | some segment =>
      by_cases empty : segment.bytes = []
      · rw [Ensures, run_push_of_empty work empty]
        rfl
      · have answer := Scripted.run_append_of_accepted willing before.stream.id segment
        rw [Ensures, run_push_of_accepted work empty answer]
        rfl

/-- A closing succeeds if the sink accepts what the closing delivers. -/
theorem closeInput_accepted (segmentWilling : before.queue.segmentAnswers.head?.join = none)
    (endWilling : before.queue.endAnswers.head?.join = none) :
    Ensures closeInput before (fun _ _ => True) (fun _ _ => False) := by
  generalize start_eq : before.moved before.stream.lifecycle.closeInput = start
  have queue_eq : start.queue = before.queue := by
    rw [← start_eq, moved_eq]
  rw [← queue_eq] at segmentWilling endWilling
  rw [ensures_closeInput start_eq]
  constructor
  · intro _
    trivial
  · intro _
    apply (push_accepted segmentWilling).bind
    · intro _ middle endAnswers
      have answer : (Delivery.Sink.appendEnd middle.stream.id).run middle.queue = .ok () _ :=
        Scripted.run_appendEnd_of_accepted (endAnswers ▸ endWilling) middle.stream.id
      rw [ensures_deliverEnd, answer]
      trivial
    · intro _ _ impossible
      exact impossible

theorem accepted_run_closeInput (undelivered : before.stream.endDelivered = false)
    (segmentWilling : before.queue.segmentAnswers.head?.join = none)
    (endWilling : before.queue.endAnswers.head?.join = none) :
    (Stream.Call.closeInput.run before).1 = .ok .done ∧
      (Stream.Call.closeInput.run before).2.accepted
        = before.accepted ++ before.held ++ [.endOfStream] := by
  have outcome := Stream.Call.run_of_done .closeInput rfl
    ((closeInput_items undelivered).and (closeInput_accepted segmentWilling endWilling))
  generalize Stream.Call.closeInput.run before = result at outcome ⊢
  rcases result with ⟨answer, after⟩
  cases answer with
  | error error => exact outcome.2.elim
  | ok reply =>
      rcases outcome with ⟨rfl, ⟨_, accepted⟩, _⟩
      exact ⟨rfl, accepted⟩

end Accepting

end Feed

namespace Stream.Call

open Delivery (Item Refusal Scripted acceptedFor)

/-- What holds of the runs of one stream; `run calls` is the feed after the calls. -/
structure EndsOnce (id : StreamId) (capacity : Nat) (run : List Call → Feed Scripted) : Prop where
  /-- At most one end of the stream is ever accepted. -/
  one_end (calls : List Call) : (run calls).accepted.count .endOfStream ≤ 1
  /-- After it, nothing is attempted any more. -/
  nothing_after_end (calls : List Call) (earlier later : List Delivery.Attempt)
    (attempt : Delivery.Attempt) :
    (run calls).queue.log = earlier ++ attempt :: later → attempt.item = .endOfStream →
      attempt.refusal = none → later = []
  /-- When the end is attempted, no octet is pending: all that the stream has emitted then,
  and all that it will ever emit, has been accepted. -/
  nothing_pending_at_end (calls : List Call) (earlier later : List Delivery.Attempt)
    (attempt : Delivery.Attempt) :
    (run calls).queue.log = earlier ++ attempt :: later → attempt.item = .endOfStream →
      (acceptedFor id earlier).flatMap Item.octets = (run calls).emitted
  /-- Every chunk has at least one octet and fits a segment. -/
  chunk_sizes (calls : List Call) (octets : Bytes) :
    .chunk octets ∈ (run calls).accepted → 1 ≤ octets.length ∧ octets.length ≤ capacity
  /-- From the first closing on, whether it succeeds or not, nothing is emitted. -/
  nothing_emitted_after_closing (earlier later : List Call) :
    (run (earlier ++ .closeInput :: later)).emitted = (run earlier).emitted
  /-- After a closing that succeeds, all that was emitted has been accepted, and then the
  end. -/
  complete_after_closing (calls : List Call) :
    (closeInput.run (run calls)).1 = .ok .done →
      ∃ chunks : List Bytes,
        (run (calls ++ [.closeInput])).accepted = chunks.map .chunk ++ [.endOfStream] ∧
          chunks.flatten = (run (calls ++ [.closeInput])).emitted
  /-- Failed attempts to push or to close leave the pending segment where it is, except that
  a closing which fails at the end of the stream has delivered it. -/
  kept_by_failures (calls retries : List Call) :
    (run calls).stream.endDelivered = false →
    (∀ call ∈ retries, call = .push ∨ call = .closeInput) →
    (∀ answer ∈ (runAll retries (run calls)).1, ∃ error, answer = .error error) →
      Feed.Retried (run calls) (run (calls ++ retries))
  /-- The first closing after such attempts that the sink does not refuse delivers what is
  left of the pending segment, and then the end. -/
  delivered_by_closing (calls retries : List Call) :
    (run calls).stream.endDelivered = false →
    (∀ call ∈ retries, call = .push ∨ call = .closeInput) →
    (∀ answer ∈ (runAll retries (run calls)).1, ∃ error, answer = .error error) →
    (run (calls ++ retries)).queue.segmentAnswers.head?.join = none →
    (run (calls ++ retries)).queue.endAnswers.head?.join = none →
      (closeInput.run (run (calls ++ retries))).1 = .ok .done ∧
        (run (calls ++ retries ++ [.closeInput])).accepted
          = (run (calls ++ retries)).accepted ++ (run (calls ++ retries)).held
            ++ [.endOfStream] ∧
        (run (calls ++ retries ++ [.closeInput])).accepted
          = (run calls).accepted ++ (run calls).held ++ [.endOfStream]

/-- The runs of a fresh stream end once, whatever the answers of its sink. -/
theorem ends_once (id : StreamId) (session : Session)
    (segmentAnswers endAnswers : List (Option Refusal)) :
    EndsOnce id session.config.segmentCapacity fun calls =>
      (runAll calls (Feed.fresh id session ⟨segmentAnswers, endAnswers, []⟩)).2 := by
  have fresh_orderly : (Feed.fresh id session
      (⟨segmentAnswers, endAnswers, []⟩ : Scripted)).Orderly :=
    Feed.fresh_orderly id session _ rfl
  have belongs := runAll_belongsTo id session (⟨segmentAnswers, endAnswers, []⟩ : Scripted)
  generalize Feed.fresh id session (⟨segmentAnswers, endAnswers, []⟩ : Scripted) = start
    at fresh_orderly belongs ⊢
  have orderly (calls : List Call) := Feed.runAll_orderly calls fresh_orderly
  refine ⟨?_, ?_, ?_, ?_, ?_, ?_, ?_, ?_⟩
  · intro calls
    exact (orderly calls).count_end_le_one
  · intro calls earlier later attempt split isEnd isAccepted
    exact ((orderly calls).final earlier attempt later split isEnd isAccepted).1
  · intro calls earlier later attempt split isEnd
    have complete := ((orderly calls).ends earlier attempt later split isEnd).2
    rwa [(belongs calls).id_eq] at complete
  · intro calls octets chunk_mem
    rcases Feed.exists_attempt_of_mem_acceptedFor chunk_mem with
      ⟨attempt, attempt_mem, isChunk, _⟩
    have sizes := (orderly calls).chunks attempt attempt_mem octets isChunk
    rw [Feed.capacity, (belongs calls).session_eq] at sizes
    exact sizes
  · intro earlier later
    rw [runAll_append]
    have closed := Feed.emitted_run_closeInput (runAll earlier start).2
    exact (Feed.emitted_runAll_of_closed later closed.1).trans closed.2
  · intro calls success
    have delivered := Feed.endDelivered_of_closeInput_ok success
    have after := orderly (calls ++ [closeInput])
    rw [runAll_append] at after ⊢
    exact after.accepted_eq_of_delivered delivered
  · intro calls retries undelivered attempts failed
    rw [runAll_append]
    exact Feed.retried_runAll undelivered attempts failed
  · intro calls retries undelivered attempts failed segmentWilling endWilling
    have retried := Feed.retried_runAll undelivered attempts failed
    rw [← runAll_append] at retried
    rw [runAll_append (calls ++ retries)]
    rcases Feed.accepted_run_closeInput retried.1 segmentWilling endWilling with
      ⟨answer, accepted⟩
    refine ⟨answer, accepted, accepted.trans ?_⟩
    rw [retried.accepted_append_held]

/-- A closing that fails at the end of the stream no longer holds the segment that was
pending before it. -/
theorem refused_end_keeps_no_segment :
    let feed : Feed Scripted :=
      (runAll [.addData [0x61, 0x62]] (Feed.fresh 1 {} { endAnswers := [some .closed] })).2
    feed.stream.pending = [0x61, 0x62] ∧
      (closeInput.run feed).1 = .error (.refused .closed) ∧
      (closeInput.run feed).2.stream.work = none := by
  decide

end Stream.Call

end Reassembly
