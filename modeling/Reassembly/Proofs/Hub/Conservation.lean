import Reassembly.Hub
import Reassembly.Proofs.Consumer
import Reassembly.Proofs.Stream.Delivered

/-!
# Conservation at a hub

The traffic of an operation is read off what the operation answers, what its stream
delivers, and what the consumers that it wakes have taken afterwards. The queue of a hub
conserves items along every run: however operations follow each other, and whichever
consumers wait, are woken, finish or are cancelled meanwhile, the items accepted for a
stream are those that have left it and those that still wait, in the order in which they
were accepted. So an item that is taken twice, lost, or taken out of turn would show.
-/

namespace Reassembly

namespace Hub

open Delivery (Item Queue Departure Traffic)

/-- How far each of several consumers gets when they run one after the other. -/
def round : List Consumer → Queue → List (Consumer × Consumer.Progress)
  | [], _ => []
  | consumer :: later, queue =>
      (consumer, (consumer.advance queue).1) :: round later (consumer.advance queue).2

/-- What leaves a queue when consumers have run. -/
def departures (ran : List (Consumer × Consumer.Progress)) : List Departure :=
  ran.flatMap fun entry => entry.1.departures entry.2.consumer

/-- What an operation itself brings to the queue and takes from it. -/
def performed (hub : Hub) (operation : Operation) : Traffic :=
  match operation, (hub.perform operation).reply with
  | .act handle (.call call), _ =>
      { accepted := (hub.connection.streams.get? handle).elim [] fun stream =>
          call.delivered stream hub.queue }
  | .append stream octets, .done => { accepted := [(stream, .chunk octets)] }
  | .appendEnd stream, .done => { accepted := [(stream, .endOfStream)] }
  | .pop stream, .item item => { departed := Traffic.leaving stream .popped item.toList }
  | .release stream, _ =>
      { departed := Traffic.leaving stream .discarded (hub.queue.items stream) }
  | _, _ => {}

/-- The consumer that an operation starts, if it starts one, and how far it gets. -/
def started (hub : Hub) (operation : Operation) : List (Consumer × Consumer.Progress) :=
  match operation, (hub.perform operation).reply with
  | .consume consumer, .progress progress => [(consumer, progress)]
  | _, _ => []

/-- The consumers that an operation wakes, and how far they get. -/
def awoken (hub : Hub) (operation : Operation) : List (Consumer × Consumer.Progress) :=
  let next := (hub.perform operation).hub
  if next.queue.wakeUps = hub.queue.wakeUps then [] else round next.waiting next.queue

/-- The consumers that an operation lets run, and how far they get. -/
def ran (hub : Hub) (operation : Operation) : List (Consumer × Consumer.Progress) :=
  hub.started operation ++ hub.awoken operation

/-- What an operation, and the consumers that it lets run, bring to the queue and take from
it. -/
def traffic (hub : Hub) (operation : Operation) : Traffic :=
  hub.performed operation ++ { departed := departures (hub.ran operation) }

def runAll (operations : List Operation) (hub : Hub) : Hub :=
  operations.foldl (fun hub operation => (hub.step operation).hub) hub

/-- All traffic of operations one after the other. -/
def history : List Operation → Hub → Traffic
  | [], _ => {}
  | operation :: later, hub => hub.traffic operation ++ history later (hub.step operation).hub

/-- Operations one after the other, none of which is followed by a round. A consumer has a turn
whenever an operation gives it one, and the next operation may come before anyone else has. -/
def performAll (operations : List Operation) (hub : Hub) : Hub :=
  operations.foldl (fun hub operation => (hub.perform operation).hub) hub

/-- What an operation, and the consumer that it starts, bring to the queue and take from it. -/
def ownTraffic (hub : Hub) (operation : Operation) : Traffic :=
  hub.performed operation ++ { departed := departures (hub.started operation) }

/-- All traffic of operations that are not followed by rounds. -/
def ownHistory : List Operation → Hub → Traffic
  | [], _ => {}
  | operation :: later, hub =>
      hub.ownTraffic operation ++ ownHistory later (hub.perform operation).hub

def fresh (session : Session) : Hub where
  connection := { session, queue := {} }

/-- The queue is sound, and the streams fill segments of the size that the session asks
for. -/
structure Sound (hub : Hub) : Prop where
  queue : hub.queue.Sound
  streams : ∀ handle stream, hub.connection.streams.get? handle = some stream →
    ({ stream, queue := hub.queue } : Feed Queue).WellSized

/-- From one moment to another, a hub stays sound and its queue conserves items. -/
structure Conserves (before : Hub) (traffic : Traffic) (after : Hub) : Prop where
  sound : after.Sound
  queue : before.queue.Conserves traffic after.queue

@[simp]
theorem queue_withQueue (hub : Hub) (queue : Queue) : (hub.withQueue queue).queue = queue := rfl

@[simp]
theorem queue_withWaiting (hub : Hub) (waiting : List Consumer) :
    ({ hub with waiting } : Hub).queue = hub.queue := rfl

variable {hub : Hub}

theorem Conserves.refl (sound : hub.Sound) : Conserves hub {} hub :=
  ⟨sound, .refl sound.queue⟩

theorem Conserves.trans {before middle after : Hub} {earlier later : Traffic}
    (first : Conserves before earlier middle) (second : Conserves middle later after) :
    Conserves before (earlier ++ later) after :=
  ⟨second.sound, first.queue.trans second.queue⟩

/-- A change of the queue leaves the streams alone. -/
theorem conserves_withQueue {queue : Queue} {traffic : Traffic} (sound : hub.Sound)
    (conserves : hub.queue.Conserves traffic queue) :
    Conserves hub traffic (hub.withQueue queue) :=
  ⟨⟨conserves.sound, sound.streams⟩, conserves⟩

theorem Conserves.withWaiting {before after : Hub} {traffic : Traffic}
    (conserves : Conserves before traffic after) (waiting : List Consumer) :
    Conserves before traffic { after with waiting } :=
  ⟨⟨conserves.sound.queue, conserves.sound.streams⟩, conserves.queue⟩

/-- The action is a call on the stream of its handle, or it does nothing to the queue. -/
inductive QueueAfter (hub : Hub) (handle : Nat) (after : Queue) : Connection.Action → Prop where
  | call {call : Stream.Call} {stream : Stream}
      (present : hub.connection.streams.get? handle = some stream)
      (made : after = (call.run { stream, queue := hub.queue }).2.queue) :
      QueueAfter hub handle after (.call call)
  | quiet {action : Connection.Action} (same : after = hub.queue)
      (nothing : hub.performed (.act handle action) = {}) : QueueAfter hub handle after action

theorem queueAfter_act (hub : Hub) (handle : Nat) (action : Connection.Action) :
    QueueAfter hub handle (hub.perform (.act handle action)).hub.queue action := by
  cases action with
  | create id => exact .quiet rfl rfl
  | destroy =>
      cases present : hub.connection.streams.get? handle with
      | none => exact .quiet (by simp only [perform, Connection.act, present]) rfl
      | some stream =>
          refine .quiet ?_ rfl
          simp only [perform, Connection.act, present]
          rfl
  | call call =>
      cases present : hub.connection.streams.get? handle with
      | none =>
          refine .quiet ?_ ?_
          · simp only [perform, Connection.act, present]
          · simp only [performed, present, Option.elim_none]
      | some stream =>
          refine .call present ?_
          simp only [perform, Connection.act, present]
          rfl

theorem conserves_act (sound : hub.Sound) (handle : Nat) (action : Connection.Action) :
    Conserves hub (hub.performed (.act handle action)) (hub.perform (.act handle action)).hub := by
  cases action with
  | create id =>
      refine ⟨⟨sound.queue, ?_⟩, .refl sound.queue⟩
      intro other stream found
      by_cases same : other = handle
      · subst other
        simp only [perform, Connection.act, Table.get?_set_self] at found
        cases found
        intro segment work
        cases work
      · simp only [perform, Connection.act, Table.get?_set_of_ne _ _ same] at found
        exact sound.streams other stream found
  | destroy =>
      cases present : hub.connection.streams.get? handle with
      | none =>
          simp only [performed, perform, Connection.act, present]
          exact .refl sound
      | some stream =>
          simp only [performed, perform, Connection.act, present]
          refine ⟨⟨sound.queue, ?_⟩, .refl sound.queue⟩
          intro other stream found
          by_cases same : other = handle
          · subst other
            simp at found
          · simp only [Table.get?_erase_of_ne _ same] at found
            exact sound.streams other stream found
  | call call =>
      cases present : hub.connection.streams.get? handle with
      | none =>
          simp only [performed, perform, Connection.act, present]
          exact .refl sound
      | some stream =>
          have made := call.conserves_run sound.queue (sound.streams handle stream present)
          simp only [performed, perform, Connection.act, present]
          refine ⟨⟨made.1.sound, ?_⟩, made.1⟩
          intro other stream found
          by_cases same : other = handle
          · subst other
            simp only [Table.get?_set_self] at found
            cases found
            exact made.2
          · simp only [Table.get?_set_of_ne _ _ same] at found
            exact sound.streams other stream found

theorem Conserves.without_consumers {before after : Hub} {traffic : Traffic}
    (conserves : Conserves before traffic after) :
    Conserves before (traffic ++ { departed := departures [] }) after :=
  conserves.trans (.refl conserves.sound)

theorem conserves_perform (sound : hub.Sound) (operation : Operation) :
    Conserves hub (hub.ownTraffic operation) (hub.perform operation).hub := by
  unfold ownTraffic
  cases operation with
  | act handle action => exact (conserves_act sound handle action).without_consumers
  | append stream octets =>
      apply Conserves.without_consumers
      cases answer : (Queue.append stream (.ofBytes octets)).run hub.queue with
      | ok _ queue =>
          simp only [performed, perform, answer]
          exact conserves_withQueue sound (Queue.conserves_append_ok sound.queue answer)
      | error rejection queue =>
          simp only [performed, perform, answer]
          rw [(Queue.append_error answer).2]
          exact conserves_withQueue sound (.refl sound.queue)
  | appendEnd stream =>
      apply Conserves.without_consumers
      cases answer : (Queue.appendEnd stream).run hub.queue with
      | ok _ queue =>
          simp only [performed, perform, answer]
          exact conserves_withQueue sound (Queue.conserves_appendEnd_ok sound.queue answer)
      | error cause queue =>
          simp only [performed, perform, answer]
          rw [Queue.appendEnd_error answer]
          exact conserves_withQueue sound (.refl sound.queue)
  | pop stream =>
      apply Conserves.without_consumers
      exact conserves_withQueue sound (Queue.conserves_pop sound.queue stream .popped)
  | release stream =>
      apply Conserves.without_consumers
      exact conserves_withQueue sound (Queue.conserves_release sound.queue stream)
  | close =>
      apply Conserves.without_consumers
      exact conserves_withQueue sound (Queue.conserves_close sound.queue)
  | consume consumer =>
      have taken := conserves_withQueue sound (consumer.advanced sound.queue).conserves
      cases progress : (consumer.advance hub.queue).1 with
      | finished after =>
          simp only [started, performed, perform, progress, departures, List.flatMap_singleton]
            at taken ⊢
          exact taken
      | waiting after =>
          simp only [started, performed, perform, progress, departures, List.flatMap_singleton]
            at taken ⊢
          exact taken.withWaiting _
  | cancel name =>
      apply Conserves.without_consumers
      exact (Conserves.refl sound).withWaiting _

/-- A round lets the first consumer run, and then those after it. -/
theorem runConsumers_cons (first : Consumer) (later : List Consumer) (queue : Queue) :
    runConsumers (first :: later) queue
      = ((first.advance queue).1.ifFinished ++ (runConsumers later (first.advance queue).2).1,
        (first.advance queue).1.ifWaiting ++ (runConsumers later (first.advance queue).2).2.1,
        (runConsumers later (first.advance queue).2).2.2) := by
  simp only [runConsumers]
  cases (first.advance queue).1 with
  | finished after => rfl
  | waiting after => rfl

theorem conserves_runConsumers (consumers : List Consumer) {queue : Queue}
    (sound : queue.Sound) :
    queue.Conserves { departed := departures (round consumers queue) }
      (runConsumers consumers queue).2.2 := by
  induction consumers generalizing queue with
  | nil => exact .refl sound
  | cons consumer later ih =>
      have first := (consumer.advanced sound).conserves
      have whole := first.trans (ih first.sound)
      rw [runConsumers_cons]
      exact whole

/-- One step of a hub accounts for all that happens to the queue. -/
theorem conserves_step (sound : hub.Sound) (operation : Operation) :
    Conserves hub (hub.traffic operation) (hub.step operation).hub := by
  have first := conserves_perform sound operation
  have split : hub.traffic operation
      = hub.ownTraffic operation ++ { departed := departures (hub.awoken operation) } := by
    change Traffic.append _ _ = Traffic.append (Traffic.append _ _) _
    simp [Traffic.append, ran, departures]
  rw [split]
  apply first.trans
  unfold awoken step
  dsimp only
  split
  · exact .refl first.sound
  · have woken := conserves_runConsumers (hub.perform operation).hub.waiting first.sound.queue
    exact (conserves_withQueue first.sound woken).withWaiting _

theorem conserves_runAll (operations : List Operation) (sound : hub.Sound) :
    Conserves hub (history operations hub) (runAll operations hub) := by
  induction operations generalizing hub with
  | nil => exact .refl sound
  | cons operation later ih =>
      have first := conserves_step sound operation
      exact first.trans (ih first.sound)

theorem conserves_performAll (operations : List Operation) (sound : hub.Sound) :
    Conserves hub (ownHistory operations hub) (performAll operations hub) := by
  induction operations generalizing hub with
  | nil => exact .refl sound
  | cons operation later ih =>
      have first := conserves_perform sound operation
      exact first.trans (ih first.sound)

theorem sound_fresh (session : Session) : (fresh session).Sound where
  queue := Queue.sound_empty
  streams handle stream found := by cases found

/-- A consumer that has run holds what it held before and what left the queue for it. -/
def Received (entry : Consumer × Consumer.Progress) : Prop :=
  ∃ items, entry.2.consumer = entry.1.withMore items ∧
    entry.1.departures entry.2.consumer
      = Traffic.leaving entry.1.stream (.taken entry.1.name) items

theorem received_advance (consumer : Consumer) {queue : Queue} (sound : queue.Sound) :
    Received (consumer, (consumer.advance queue).1) := by
  rcases (consumer.advanced sound).consumer_eq with ⟨items, consumer_eq⟩
  refine ⟨items, consumer_eq, ?_⟩
  dsimp only
  rw [consumer_eq]
  exact consumer.departures_withMore items

theorem received_of_mem_round {consumers : List Consumer} {queue : Queue}
    (sound : queue.Sound) {entry : Consumer × Consumer.Progress}
    (mem : entry ∈ round consumers queue) : Received entry := by
  induction consumers generalizing queue with
  | nil => cases mem
  | cons consumer later ih =>
      rcases List.mem_cons.mp mem with rfl | mem
      · exact received_advance consumer sound
      · exact ih (consumer.advanced sound).conserves.sound mem

theorem received_of_mem_ran (sound : hub.Sound) {operation : Operation}
    {entry : Consumer × Consumer.Progress} (mem : entry ∈ hub.ran operation) :
    Received entry := by
  rcases List.mem_append.mp mem with started | woken
  · cases operation with
    | consume consumer =>
        have reply : (hub.perform (.consume consumer)).reply
            = .progress (consumer.advance hub.queue).1 := by
          unfold perform
          dsimp only
          cases (consumer.advance hub.queue).1 with
          | finished after => rfl
          | waiting after => rfl
        simp only [Hub.started, reply, List.mem_singleton] at started
        subst entry
        exact received_advance consumer sound.queue
    | _ => cases started
  · unfold awoken at woken
    dsimp only at woken
    split at woken
    · cases woken
    · exact received_of_mem_round (conserves_perform sound operation).sound.queue woken

/-- The consumer that has finished, if it has. -/
def finished? (entry : Consumer × Consumer.Progress) : Option Consumer :=
  match entry.2 with
  | .finished consumer => some consumer
  | .waiting _ => none

theorem runConsumers_fst (consumers : List Consumer) (queue : Queue) :
    (runConsumers consumers queue).1 = (round consumers queue).filterMap finished? := by
  induction consumers generalizing queue with
  | nil => rfl
  | cons consumer later ih =>
      simp only [runConsumers, round]
      cases progress : (consumer.advance queue).1 with
      | finished after =>
          change after :: _ = after :: _
          rw [ih]
      | waiting after => exact ih _

theorem perform_woken (hub : Hub) (operation : Operation) :
    (hub.perform operation).woken = [] := by
  cases operation with
  | append stream octets =>
      unfold perform
      dsimp only
      cases (Queue.append stream (.ofBytes octets)).run hub.queue with
      | ok _ queue => rfl
      | error rejection queue => rfl
  | appendEnd stream =>
      unfold perform
      dsimp only
      cases (Queue.appendEnd stream).run hub.queue with
      | ok _ queue => rfl
      | error cause queue => rfl
  | consume consumer =>
      unfold perform
      dsimp only
      cases (consumer.advance hub.queue).1 with
      | finished after => rfl
      | waiting after => rfl
  | _ => rfl

/-- The consumers that a step reports are those that were awoken and have finished. -/
theorem woken_eq (hub : Hub) (operation : Operation) :
    (hub.step operation).woken = (hub.awoken operation).filterMap finished? := by
  unfold step awoken
  dsimp only
  split
  · exact perform_woken hub operation
  · exact runConsumers_fst _ _

theorem step_release (hub : Hub) (stream : StreamId) :
    hub.step (.release stream) = hub.perform (.release stream) := by
  unfold step
  exact if_pos rfl

/-- What holds of all traffic since a hub was new. -/
theorem Conserves.law {session : Session} {traffic : Traffic}
    (conserves : Conserves (fresh session) traffic hub) :
    (∀ stream, traffic.acceptedFor stream
      = traffic.departedFor stream ++ hub.queue.items stream) ∧
    hub.queue.size + traffic.departed.length = traffic.accepted.length := by
  have sizes : 0 + traffic.accepted.length = traffic.departed.length + hub.queue.size :=
    conserves.queue.size_eq
  exact ⟨conserves.queue.items_eq, by omega⟩

/-- The history law, at the end of every run: for each stream, the items accepted are those
that have left followed by those that wait. The size accounts for the items of all streams,
a release counts exactly what it discards, and consumers hold exactly what left for them.

The law does not depend on rounds: it also holds if the turns of consumers come in any order
between the other operations, however long after they were woken. -/
theorem history_conserved (session : Session) (operations : List Operation) :
    let hub := runAll operations (fresh session)
    let traffic := history operations (fresh session)
    let direct := performAll operations (fresh session)
    let own := ownHistory operations (fresh session)
    (∀ stream, traffic.acceptedFor stream
      = traffic.departedFor stream ++ hub.queue.items stream) ∧
    hub.queue.size + traffic.departed.length = traffic.accepted.length ∧
    (∀ stream, ∃ items,
      (hub.traffic (.release stream)).departed = Traffic.leaving stream .discarded items ∧
        (hub.step (.release stream)).reply = .count items.length ∧
        (hub.step (.release stream)).hub.queue.items stream = []) ∧
    (∀ operation,
      (∀ entry ∈ hub.ran operation, Received entry) ∧
        (hub.step operation).woken = (hub.awoken operation).filterMap finished?) ∧
    (∀ stream, own.acceptedFor stream
      = own.departedFor stream ++ direct.queue.items stream) ∧
    direct.queue.size + own.departed.length = own.accepted.length := by
  intro hub traffic direct own
  have conserves : Conserves (fresh session) traffic hub :=
    conserves_runAll operations (sound_fresh session)
  have conservesDirectly : Conserves (fresh session) own direct :=
    conserves_performAll operations (sound_fresh session)
  refine ⟨conserves.law.1, conserves.law.2, ?_, ?_, conservesDirectly.law⟩
  · intro stream
    have discards : (hub.traffic (.release stream)).departed
        = Traffic.leaving stream .discarded (hub.queue.items stream) := by
      have quiet : hub.ran (.release stream) = [] := if_pos rfl
      simp only [Hub.traffic, quiet]
      exact List.append_nil _
    refine ⟨hub.queue.items stream, discards, ?_, ?_⟩
    · rw [step_release]
      rfl
    · rw [step_release]
      exact congrArg Delivery.Lane.items (Queue.lane_release_self hub.queue stream)
  · intro operation
    exact ⟨fun entry => received_of_mem_ran conserves.sound, woken_eq hub operation⟩

end Hub

end Reassembly
