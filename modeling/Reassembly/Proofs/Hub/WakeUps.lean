import Mathlib.Data.List.Forall2
import Reassembly.Proofs.Hub.Conservation

/-!
# No wake-up is lost

A consumer waits only if it can do nothing else: no item of its stream is in the queue, and the
queue is open. Taking items does not change that, so it is enough that the waiting consumers
run whenever an item is accepted or the queue is closed. Every such change counts as a
wake-up, also one in the middle of a call on a stream. After the round that it causes, every
consumer that is left is stuck again.

Nobody gets out of waiting in another way. A roll that is called after each step has an answer
from everyone who was there before it: `exists_roll` says so for rounds and for quiet steps.
-/

namespace Reassembly

open Delivery (Item Queue Departure Traffic Refusal Rejection)

namespace Delivery.Queue

variable {before after : Queue} {departed : List Departure}

/-- Nothing comes to a stream while items only leave. -/
theorem Conserves.items_eq_nil (conserves : before.Conserves { departed } after)
    {stream : StreamId} (empty : before.items stream = []) : after.items stream = [] := by
  have conserved := conserves.items_eq stream
  have accepted : ({ departed } : Traffic).acceptedFor stream = [] := rfl
  rw [empty, accepted, List.append_nil, eq_comm, List.append_eq_nil_iff] at conserved
  exact conserved.2

/-- No delivery closes a queue, or opens one. -/
theorem keeps_isClosed (closed : Bool) (id : StreamId) :
    Keeps id fun queue : Queue => queue.isClosed = closed :=
  keeps_of_add fun _ _ _ same => same

/-- A delivery that is accepted wakes the consumers, and one that is refused does nothing. -/
theorem keeps_unless_woken (start : Queue) (id : StreamId) :
    Keeps id fun queue => queue = start ∨ start.wakeUps < queue.wakeUps := by
  apply keeps_of_add
  intro queue item _ reached
  right
  rcases reached with rfl | later
  · exact Nat.lt_succ_self _
  · exact Nat.lt_succ_of_lt later

end Delivery.Queue

namespace Consumer

/-- Letting the consumer run changes nothing. -/
def Blocked (consumer : Consumer) (queue : Queue) : Prop :=
  consumer.advance queue = (.waiting consumer, queue)

/-- The consumer wants more, there is nothing for it, and more may come. -/
structure Starved (consumer : Consumer) (queue : Queue) : Prop where
  unsatisfied : consumer.isSatisfied = false
  empty : queue.items consumer.stream = []
  isOpen : queue.isClosed = false

variable {consumer : Consumer} {queue after : Queue}

theorem Starved.blocked (starved : consumer.Starved queue) : consumer.Blocked queue := by
  have nothing : queue.pending consumer.stream = 0 := by
    rw [Queue.pending, starved.empty]
    rfl
  simp [Blocked, advance, nothing, draw, starved.unsatisfied, starved.isOpen]

theorem Starved.of_conserves {departed : List Departure} (starved : consumer.Starved queue)
    (conserves : queue.Conserves { departed } after)
    (same_closed : after.isClosed = queue.isClosed) : consumer.Starved after where
  unsatisfied := starved.unsatisfied
  empty := conserves.items_eq_nil starved.empty
  isOpen := same_closed.trans starved.isOpen

/-- A consumer that has run as far as it can and still waits is starved. -/
theorem starved_of_advance {drawn : Consumer} (sound : queue.Sound)
    (waits : (consumer.advance queue).1 = .waiting drawn) :
    drawn.Starved (consumer.advance queue).2 := by
  rcases exists_drew consumer sound (queue.pending consumer.stream) with ⟨items, drew⟩
  have settles := consumer.settles_advance queue
  generalize consumer.advance queue = result at settles waits ⊢
  generalize consumer.draw (queue.pending consumer.stream) queue = after at drew settles
  rcases after with ⟨reached, left⟩
  have consumer_eq := drew.consumer_eq
  dsimp only at consumer_eq settles
  cases settles with
  | waits unsatisfied isOpen =>
      cases waits
      have empty := drew.exhausts unsatisfied
      refine ⟨unsatisfied, ?_, isOpen⟩
      rw [consumer_eq]
      exact empty
  | _ => cases waits

/-- A consumer that finishes has what it is after, or there will be no more of it. -/
theorem satisfied_or_closed_of_advance {done : Consumer} (sound : queue.Sound)
    (finishes : (consumer.advance queue).1 = .finished done) :
    done.isSatisfied = true ∨ queue.isClosed = true := by
  rcases exists_drew consumer sound (queue.pending consumer.stream) with ⟨items, drew⟩
  have settles := consumer.settles_advance queue
  generalize consumer.advance queue = result at settles finishes
  generalize consumer.draw (queue.pending consumer.stream) queue = after at drew settles
  cases settles with
  | satisfied satisfied =>
      cases finishes
      exact .inl satisfied
  | stops _ closed => exact .inr (drew.isClosed_eq.symm.trans closed)
  | givesUp _ closed => exact .inr (drew.isClosed_eq.symm.trans closed)
  | waits => cases finishes

end Consumer

namespace Hub

open Consumer (Starved Blocked Progress)

theorem isClosed_runConsumers (consumers : List Consumer) {queue : Queue} (sound : queue.Sound) :
    (runConsumers consumers queue).2.2.isClosed = queue.isClosed := by
  induction consumers generalizing queue with
  | nil => rfl
  | cons consumer later ih =>
      have first := consumer.advanced sound
      rw [runConsumers_cons]
      exact (ih first.conserves.sound).trans first.isClosed_eq

/-- After a round, every consumer that still waits is starved. -/
theorem starved_of_mem_runConsumers {consumers : List Consumer} {queue : Queue}
    (sound : queue.Sound) :
    ∀ consumer ∈ (runConsumers consumers queue).2.1,
      consumer.Starved (runConsumers consumers queue).2.2 := by
  induction consumers generalizing queue with
  | nil => exact fun consumer consumer_mem => nomatch consumer_mem
  | cons first later ih =>
      have advanced := first.advanced sound
      have rest := ih advanced.conserves.sound
      simp only [runConsumers]
      cases progress : (first.advance queue).1 with
      | finished after => exact rest
      | waiting after =>
          intro consumer consumer_mem
          rcases List.mem_cons.mp consumer_mem with rfl | consumer_mem
          -- it was starved when it had run, and those after it only took items
          · exact (Consumer.starved_of_advance sound progress).of_conserves
              (conserves_runConsumers later advanced.conserves.sound)
              (isClosed_runConsumers later advanced.conserves.sound)
          · exact rest consumer consumer_mem

/-- Every consumer that waits at the hub is starved. -/
def Settled (hub : Hub) : Prop := ∀ consumer ∈ hub.waiting, consumer.Starved hub.queue

variable {hub : Hub} {operation : Operation}

theorem Settled.withQueue {queue : Queue} {departed : List Departure} (settled : hub.Settled)
    (conserves : hub.queue.Conserves { departed } queue)
    (same_closed : queue.isClosed = hub.queue.isClosed) : (hub.withQueue queue).Settled :=
  fun consumer consumer_mem => (settled consumer consumer_mem).of_conserves conserves same_closed

/-- An action on a stream that wakes nobody has not touched the queue. -/
theorem queue_act_of_quiet (handle : Nat) (action : Connection.Action)
    (quiet : (hub.perform (.act handle action)).hub.queue.wakeUps = hub.queue.wakeUps) :
    (hub.perform (.act handle action)).hub.queue = hub.queue := by
  have after := queueAfter_act hub handle action
  generalize (hub.perform (.act handle action)).hub.queue = queue at after quiet ⊢
  cases after with
  | quiet same nothing => exact same
  | @call call stream present made =>
      let feed : Feed Queue := { stream, queue := hub.queue }
      have unwoken : feed.queue = hub.queue ∨ hub.queue.wakeUps < feed.queue.wakeUps := .inl rfl
      have kept := call.queue_run (Queue.keeps_unless_woken hub.queue stream.id) rfl unwoken
      rw [← made] at kept
      rcases kept with same | woken
      · exact same
      · exact absurd quiet (Nat.ne_of_gt woken)

/-- An operation that wakes nobody leaves consumers behind that are starved. -/
theorem settled_perform (sound : hub.Sound) (settled : hub.Settled)
    (quiet : (hub.perform operation).hub.queue.wakeUps = hub.queue.wakeUps) :
    (hub.perform operation).hub.Settled := by
  cases operation with
  | act handle action =>
      intro consumer consumer_mem
      rw [queue_act_of_quiet handle action quiet]
      exact settled consumer consumer_mem
  | append stream octets =>
      cases answer : (Queue.append stream (.ofBytes octets)).run hub.queue with
      | ok _ queue =>
          simp only [perform, answer] at quiet
          rw [(Queue.eq_add_of_append_eq_ok answer).2] at quiet
          exact absurd quiet (Nat.succ_ne_self _)
      | error rejection queue =>
          simp only [perform, answer]
          rw [(Queue.append_error answer).2]
          exact settled
  | appendEnd stream =>
      cases answer : (Queue.appendEnd stream).run hub.queue with
      | ok _ queue =>
          simp only [perform, answer] at quiet
          rw [(Queue.eq_add_of_appendEnd_eq_ok answer).2] at quiet
          exact absurd quiet (Nat.succ_ne_self _)
      | error cause queue =>
          simp only [perform, answer]
          rw [Queue.appendEnd_error answer]
          exact settled
  | pop stream =>
      exact settled.withQueue (Queue.conserves_pop sound.queue stream .popped)
        (hub.queue.isClosed_pop stream)
  | release stream => exact settled.withQueue (Queue.conserves_release sound.queue stream) rfl
  | close => exact absurd quiet (Nat.succ_ne_self _)
  | consume consumer =>
      have advanced := consumer.advanced sound.queue
      have others := settled.withQueue advanced.conserves advanced.isClosed_eq
      cases progress : (consumer.advance hub.queue).1 with
      | finished after =>
          simp only [perform, progress]
          exact others
      | waiting after =>
          simp only [perform, progress]
          intro other other_mem
          rcases List.mem_append.mp other_mem with earlier | here
          · exact others other earlier
          · rw [List.mem_singleton.mp here]
            exact Consumer.starved_of_advance sound.queue progress
  | cancel name =>
      intro consumer consumer_mem
      simp only [perform, List.partition_eq_filter_filter] at consumer_mem
      exact settled consumer (List.mem_filter.mp consumer_mem).1

theorem settled_step (sound : hub.Sound) (settled : hub.Settled) (operation : Operation) :
    (hub.step operation).hub.Settled := by
  unfold step
  dsimp only
  split
  · rename_i quiet
    exact settled_perform sound settled quiet
  -- everyone who waits has just run, whoever was starved before
  · exact starved_of_mem_runConsumers (conserves_perform sound operation).sound.queue

theorem settled_runAll (operations : List Operation) (sound : hub.Sound)
    (settled : hub.Settled) : (runAll operations hub).Settled := by
  induction operations generalizing hub with
  | nil => exact settled
  | cons operation later ih =>
      exact ih (conserves_step sound operation).sound (settled_step sound settled operation)

/-- The operations that let no waiting consumer run. -/
inductive WakesNobody (hub : Hub) : Operation → Prop where
  | pop (stream : StreamId) : WakesNobody hub (.pop stream)
  | release (stream : StreamId) : WakesNobody hub (.release stream)
  | consume (consumer : Consumer) : WakesNobody hub (.consume consumer)
  | cancel (name : String) : WakesNobody hub (.cancel name)
  | rejected {stream : StreamId} {octets : Bytes} {rejection : Rejection}
      (reply : (hub.perform (.append stream octets)).reply = .rejected rejection) :
      WakesNobody hub (.append stream octets)
  | refused {stream : StreamId} {cause : Refusal}
      (reply : (hub.perform (.appendEnd stream)).reply = .refused cause) :
      WakesNobody hub (.appendEnd stream)

theorem WakesNobody.wakeUps_eq (sound : hub.Sound) (nobody : WakesNobody hub operation) :
    (hub.perform operation).hub.queue.wakeUps = hub.queue.wakeUps := by
  cases nobody with
  | pop stream =>
      unfold perform Queue.pop
      dsimp only
      split
      · rfl
      · rfl
  | release stream => rfl
  | consume consumer =>
      have advanced := (consumer.advanced sound.queue).wakeUps_eq
      unfold perform
      dsimp only
      cases (consumer.advance hub.queue).1 with
      | finished after => exact advanced
      | waiting after => exact advanced
  | cancel name => rfl
  | @rejected stream octets rejection reply =>
      cases answer : (Queue.append stream (.ofBytes octets)).run hub.queue with
      | ok _ queue =>
          simp only [perform, answer] at reply
          cases reply
      | error rejection queue =>
          simp only [perform, answer]
          rw [(Queue.append_error answer).2]
          rfl
  | @refused stream cause reply =>
      cases answer : (Queue.appendEnd stream).run hub.queue with
      | ok _ queue =>
          simp only [perform, answer] at reply
          cases reply
      | error cause queue =>
          simp only [perform, answer]
          rw [Queue.appendEnd_error answer]
          rfl

theorem step_of_wakesNobody (sound : hub.Sound) (nobody : WakesNobody hub operation) :
    hub.step operation = hub.perform operation := by
  unfold step
  exact if_pos (nobody.wakeUps_eq sound)

section Closing

/-- A queue is closed by a close and by nothing else. -/
theorem isClosed_perform (sound : hub.Sound) (operation : Operation) :
    (hub.perform operation).hub.queue.isClosed = true
      ↔ hub.queue.isClosed = true ∨ operation = .close := by
  cases operation with
  | act handle action =>
      have after := queueAfter_act hub handle action
      generalize (hub.perform (.act handle action)).hub.queue = queue at after ⊢
      cases after with
      | quiet same nothing => simp [same]
      | @call call stream present made =>
          let feed : Feed Queue := { stream, queue := hub.queue }
          have same : feed.queue.isClosed = hub.queue.isClosed := rfl
          have kept := call.queue_run (Queue.keeps_isClosed hub.queue.isClosed stream.id) rfl same
          rw [← made] at kept
          simp [kept]
  | append stream octets =>
      cases answer : (Queue.append stream (.ofBytes octets)).run hub.queue with
      | ok _ queue => simp [perform, answer, (Queue.eq_add_of_append_eq_ok answer).2]
      | error rejection queue => simp [perform, answer, (Queue.append_error answer).2]
  | appendEnd stream =>
      cases answer : (Queue.appendEnd stream).run hub.queue with
      | ok _ queue => simp [perform, answer, (Queue.eq_add_of_appendEnd_eq_ok answer).2]
      | error cause queue => simp [perform, answer, Queue.appendEnd_error answer]
  | pop stream => simp [perform]
  | release stream => simp [perform]
  | close => simp [perform]
  | consume consumer =>
      have isClosed_eq := (consumer.advanced sound.queue).isClosed_eq
      cases progress : (consumer.advance hub.queue).1 with
      | finished after => simp [perform, progress, isClosed_eq]
      | waiting after =>
          simp only [perform, progress, reduceCtorEq, or_false, ← isClosed_eq]
          exact Iff.rfl
  | cancel name =>
      simp only [reduceCtorEq, or_false]
      exact Iff.rfl

theorem isClosed_step (sound : hub.Sound) (operation : Operation) :
    (hub.step operation).hub.queue.isClosed = true
      ↔ hub.queue.isClosed = true ∨ operation = .close := by
  have performed := isClosed_perform sound operation
  unfold step
  dsimp only
  split
  · exact performed
  · have after := (conserves_perform sound operation).sound.queue
    change (runConsumers _ _).2.2.isClosed = true ↔ _
    rw [isClosed_runConsumers _ after]
    exact performed

/-- After a run, the queue is closed exactly if it was closed in the run or before. -/
theorem isClosed_runAll (operations : List Operation) (sound : hub.Sound) :
    (runAll operations hub).queue.isClosed = true
      ↔ hub.queue.isClosed = true ∨ .close ∈ operations := by
  induction operations generalizing hub with
  | nil => simp [runAll]
  | cons operation later ih =>
      change (runAll later (hub.step operation).hub).queue.isClosed = true ↔ _
      rw [ih (conserves_step sound operation).sound, isClosed_step sound operation,
        List.mem_cons, or_assoc, @eq_comm _ operation]

theorem isClosed_run_fresh (session : Session) (operations : List Operation) :
    (runAll operations (fresh session)).queue.isClosed = true ↔ .close ∈ operations := by
  rw [isClosed_runAll operations (sound_fresh session), or_iff_right]
  exact Bool.false_ne_true

end Closing

section Roll

/-- The consumers that wait at a hub and that an operation does not cancel. -/
def uncancelled (hub : Hub) : Operation → List Consumer
  | .cancel name => hub.waiting.filter fun consumer => consumer.name ≠ name
  | _ => hub.waiting

/-- The consumer that comes with an operation, if one comes and has to wait. -/
def newcomer (hub : Hub) (operation : Operation) : List Consumer :=
  (hub.started operation).flatMap fun entry => entry.2.ifWaiting

/-- The roll of a hub is called after an operation. All who were there answer, in the order in
which they came: they have taken what they have taken, and either finish or go on waiting. -/
structure Roll (hub : Hub) (operation : Operation) (answers : List Progress) : Prop where
  each : List.Forall₂ (fun consumer answer => ∃ items, answer.consumer = consumer.withMore items)
    (hub.uncancelled operation ++ hub.newcomer operation) answers
  woken_eq : (hub.step operation).woken = answers.flatMap Progress.ifFinished
  waiting_eq : (hub.step operation).hub.waiting = answers.flatMap Progress.ifWaiting
  /-- Nobody finishes too early. -/
  due : ∀ consumer ∈ (hub.step operation).woken,
    consumer.isSatisfied = true ∨ (hub.step operation).hub.queue.isClosed = true

theorem runConsumers_eq (consumers : List Consumer) (queue : Queue) :
    (runConsumers consumers queue).1
        = ((round consumers queue).map Prod.snd).flatMap Progress.ifFinished ∧
      (runConsumers consumers queue).2.1
        = ((round consumers queue).map Prod.snd).flatMap Progress.ifWaiting := by
  induction consumers generalizing queue with
  | nil => exact ⟨rfl, rfl⟩
  | cons first later ih =>
      rw [runConsumers_cons, (ih _).1, (ih _).2]
      exact ⟨rfl, rfl⟩

theorem forall₂_round (consumers : List Consumer) {queue : Queue} (sound : queue.Sound) :
    List.Forall₂ (fun consumer answer => ∃ items, answer.consumer = consumer.withMore items)
      consumers ((round consumers queue).map Prod.snd) := by
  induction consumers generalizing queue with
  | nil => exact .nil
  | cons first later ih =>
      have advanced := first.advanced sound
      exact .cons advanced.consumer_eq (ih advanced.conserves.sound)

theorem due_of_mem_runConsumers {consumers : List Consumer} {queue : Queue}
    (sound : queue.Sound) :
    ∀ consumer ∈ (runConsumers consumers queue).1,
      consumer.isSatisfied = true ∨ queue.isClosed = true := by
  induction consumers generalizing queue with
  | nil => exact fun consumer consumer_mem => nomatch consumer_mem
  | cons first later ih =>
      have advanced := first.advanced sound
      have rest := ih advanced.conserves.sound
      rw [advanced.isClosed_eq] at rest
      rw [runConsumers_cons]
      intro consumer consumer_mem
      rcases List.mem_append.mp consumer_mem with own | others
      · cases progress : (first.advance queue).1 with
        | finished done =>
            rw [progress] at own
            rw [List.mem_singleton.mp own]
            exact Consumer.satisfied_or_closed_of_advance sound progress
        | waiting _ =>
            rw [progress] at own
            cases own
      · exact rest consumer others

theorem waiting_perform_eq (hub : Hub) (operation : Operation) :
    (hub.perform operation).hub.waiting = hub.uncancelled operation ++ hub.newcomer operation := by
  cases operation with
  | append stream octets =>
      simp only [perform]
      cases (Queue.append stream (.ofBytes octets)).run hub.queue with
      | ok _ queue => exact (List.append_nil _).symm
      | error rejection queue => exact (List.append_nil _).symm
  | appendEnd stream =>
      simp only [perform]
      cases (Queue.appendEnd stream).run hub.queue with
      | ok _ queue => exact (List.append_nil _).symm
      | error cause queue => exact (List.append_nil _).symm
  | consume consumer =>
      cases progress : (consumer.advance hub.queue).1 with
      | finished after =>
          simp [perform, newcomer, started, uncancelled, progress, withQueue, Progress.ifWaiting]
      | waiting after =>
          simp [perform, newcomer, started, uncancelled, progress, withQueue, Progress.ifWaiting]
  | cancel name =>
      simp only [perform, newcomer, started, uncancelled, List.partition_eq_filter_filter,
        List.flatMap_nil, List.append_nil]
      apply List.filter_congr
      intro consumer _
      simp
  | _ => exact (List.append_nil _).symm

theorem step_of_ne (woken : (hub.perform operation).hub.queue.wakeUps ≠ hub.queue.wakeUps) :
    let outcome := hub.perform operation
    let ran := runConsumers outcome.hub.waiting outcome.hub.queue
    hub.step operation
      = { outcome with
          woken := ran.1, hub := { outcome.hub.withQueue ran.2.2 with waiting := ran.2.1 } } :=
  if_neg woken

/-- Nobody who waits is forgotten. -/
theorem exists_roll (sound : hub.Sound) (operation : Operation) :
    ∃ answers, hub.Roll operation answers := by
  have there := hub.waiting_perform_eq operation
  by_cases quiet : (hub.perform operation).hub.queue.wakeUps = hub.queue.wakeUps
  · have step_eq : hub.step operation = hub.perform operation := if_pos quiet
    have nobody : (hub.step operation).woken = [] := by
      rw [step_eq, perform_woken]
    refine ⟨(hub.perform operation).hub.waiting.map .waiting, ?_, ?_, ?_, ?_⟩
    · rw [← there, List.forall₂_map_right_iff, List.forall₂_same]
      intro consumer _
      exact ⟨[], by simp [Consumer.withMore, Progress.consumer]⟩
    · rw [nobody, List.flatMap_map, eq_comm, List.flatMap_eq_nil_iff]
      exact fun _ _ => rfl
    · rw [step_eq, List.flatMap_map]
      exact (List.flatMap_singleton' _).symm
    · rw [nobody]
      intro consumer consumer_mem
      cases consumer_mem
  · have after := (conserves_perform sound operation).sound.queue
    have ran := runConsumers_eq (hub.perform operation).hub.waiting
      (hub.perform operation).hub.queue
    refine ⟨(round (hub.perform operation).hub.waiting
      (hub.perform operation).hub.queue).map Prod.snd, ?_, ?_, ?_, ?_⟩
    · rw [← there]
      exact forall₂_round _ after
    · rw [step_of_ne quiet]
      exact ran.1
    · rw [step_of_ne quiet]
      exact ran.2
    · rw [step_of_ne quiet]
      change ∀ consumer ∈ (runConsumers _ _).1,
        consumer.isSatisfied = true ∨ (runConsumers _ _).2.2.isClosed = true
      rw [isClosed_runConsumers _ after]
      exact due_of_mem_runConsumers after

end Roll

/-- No wake-up is lost: after every run, whoever still waits has nothing to take and could not
go on if it were let run, and once the queue has been closed nobody waits. That also holds after
the operations for which no consumer is let run. And nobody stops waiting unnoticed: in every
step, those who were there have finished or go on waiting, unless they are cancelled. -/
theorem waiting_blocked (session : Session) (operations : List Operation) :
    let hub := runAll operations (fresh session)
    (∀ consumer ∈ hub.waiting,
      hub.queue.items consumer.stream = [] ∧ consumer.Blocked hub.queue) ∧
    (hub.queue.isClosed = true ↔ .close ∈ operations) ∧
    (hub.queue.isClosed = true → hub.waiting = []) ∧
    (∀ operation, WakesNobody hub operation →
      hub.step operation = hub.perform operation ∧
        ∀ consumer ∈ (hub.perform operation).hub.waiting,
          consumer.Blocked (hub.perform operation).hub.queue) ∧
    ∀ operation, ∃ answers, hub.Roll operation answers := by
  intro hub
  have sound : hub.Sound := (conserves_runAll operations (sound_fresh session)).sound
  have nobody_waits : (fresh session).Settled := fun consumer consumer_mem => nomatch consumer_mem
  have settled : hub.Settled := settled_runAll operations (sound_fresh session) nobody_waits
  refine ⟨?_, ?_, ?_, ?_, ?_⟩
  · intro consumer consumer_mem
    have starved := settled consumer consumer_mem
    exact ⟨starved.empty, starved.blocked⟩
  · exact isClosed_run_fresh session operations
  · intro closed
    apply List.eq_nil_iff_forall_not_mem.mpr
    intro consumer consumer_mem
    have isOpen := (settled consumer consumer_mem).isOpen
    rw [closed] at isOpen
    cases isOpen
  · intro operation nobody
    refine ⟨step_of_wakesNobody sound nobody, ?_⟩
    intro consumer consumer_mem
    exact (settled_perform sound settled (nobody.wakeUps_eq sound) consumer consumer_mem).blocked
  · exact exists_roll sound

end Hub

end Reassembly
