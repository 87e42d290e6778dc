import Reassembly.Proofs.Hub.WakeUps
import Reassembly.Proofs.Interleaving

/-!
# Consumers that have a stream to themselves

Let one consumer after all of a stream be the only one that takes from the stream. Whatever it
comes to depends on what has been accepted for the stream and on whether the queue is closed,
and on nothing else: not on when the consumer came, nor on how the octets were cut into chunks,
nor on what happened elsewhere.

Every run of a hub is an interleaving: what consumers of other streams do is none of the
stream's business, and the consumer itself takes one turn after the other when it is let run.
That it finishes as soon as it is due something follows because nobody waits who could go on.
-/

namespace Reassembly

open Delivery (Item Queue Traffic)

namespace Consumer

variable {consumer : Consumer} {accepted : List Item} {queue : Queue} {progress : Option Progress}

/-- An item that is accepted is either for the stream of the consumer or none of its business. -/
theorem Interleaved.add (reached : Interleaved consumer accepted queue progress) {id : StreamId}
    (willing : queue.refusal? id = none) (item : Item) :
    Interleaved consumer
      (accepted ++ ({ accepted := [(id, item)] } : Traffic).acceptedFor consumer.stream)
      (queue.add id item) progress := by
  by_cases same : consumer.stream = id
  · subst id
    simpa [Traffic.acceptedFor] using reached.deliver willing item
  · simpa [Traffic.acceptedFor, Ne.symm same] using reached.elsewhere (Queue.spares_add same item)

theorem Interleaved.run (reached : Interleaved consumer accepted queue progress)
    (call : Stream.Call) (stream : Stream) :
    Interleaved consumer
      (accepted ++ ({ accepted := call.delivered stream queue } : Traffic).acceptedFor
        consumer.stream)
      (call.run { stream, queue }).2.queue progress := by
  apply call.run_delivered stream (motive := fun items queue => Interleaved consumer
    (accepted ++ ({ accepted := items } : Traffic).acceptedFor consumer.stream) queue progress)
  · intro items queue item willing reached
    have more := reached.add willing item
    rw [List.append_assoc, ← Traffic.acceptedFor_append] at more
    exact more
  · simpa [Traffic.acceptedFor] using reached

end Consumer

namespace Hub

open Consumer (Progress Interleaved)

/-- The operations that take nothing from a stream and do not release it. -/
def Operation.Spares (stream : StreamId) : Operation → Prop
  | .pop other | .release other => other ≠ stream
  | .consume consumer => consumer.stream ≠ stream
  | _ => True

/-- The consumer that an operation started, if it has finished at once. -/
def Reply.ifFinished : Reply → List Consumer
  | .progress far => far.ifFinished
  | _ => []

/-- The consumers that finish in a step: the one that the operation started, and those that it
woke. -/
def Outcome.finished (outcome : Outcome) : List Consumer :=
  outcome.reply.ifFinished ++ outcome.woken

/-- The consumers of a stream among others. -/
def ofStream (stream : StreamId) (consumers : List Consumer) : List Consumer :=
  consumers.filter (·.stream = stream)

/-- The consumers of a stream that finish in a run, each with the queue after the step in which
it finishes. -/
def finishings (stream : StreamId) : List Operation → Hub → List (Consumer × Queue)
  | [], _ => []
  | operation :: later, hub =>
      let outcome := hub.step operation
      (ofStream stream outcome.finished).map (·, outcome.hub.queue)
        ++ finishings stream later outcome.hub

/-- Nobody cancels the consumers of this name while one waits for the stream. -/
def Uncancelled (name : String) (stream : StreamId) : List Operation → Hub → Prop
  | [], _ => True
  | operation :: later, hub =>
      (operation = .cancel name → ofStream stream hub.waiting = []) ∧
        Uncancelled name stream later (hub.step operation).hub

section OfStream

variable {stream : StreamId} {progress : Progress}

@[simp]
theorem ofStream_append (stream : StreamId) (first second : List Consumer) :
    ofStream stream (first ++ second) = ofStream stream first ++ ofStream stream second :=
  List.filter_append first second

theorem ofStream_of_eq (same : progress.consumer.stream = stream) :
    ofStream stream progress.ifFinished = progress.ifFinished ∧
      ofStream stream progress.ifWaiting = progress.ifWaiting := by
  cases progress with
  | finished consumer =>
      have here : consumer.stream = stream := same
      simp [ofStream, Progress.ifFinished, Progress.ifWaiting, here]
  | waiting consumer =>
      have here : consumer.stream = stream := same
      simp [ofStream, Progress.ifFinished, Progress.ifWaiting, here]

theorem ofStream_of_ne (differ : progress.consumer.stream ≠ stream) :
    ofStream stream progress.ifFinished = [] ∧ ofStream stream progress.ifWaiting = [] := by
  cases progress with
  | finished consumer =>
      have elsewhere : consumer.stream ≠ stream := differ
      simp [ofStream, Progress.ifFinished, Progress.ifWaiting, elsewhere]
  | waiting consumer =>
      have elsewhere : consumer.stream ≠ stream := differ
      simp [ofStream, Progress.ifFinished, Progress.ifWaiting, elsewhere]

theorem waiting_of_ofStream_cons {first : Consumer} {later : List Consumer}
    {progress : Option Progress} (same : first.stream = stream)
    (alone : ofStream stream (first :: later) = progress.elim [] Progress.ifWaiting) :
    progress = some (.waiting first) ∧ ofStream stream later = [] := by
  have split : ofStream stream (first :: later) = first :: ofStream stream later := by
    simp [ofStream, same]
  rw [split] at alone
  rcases progress with _ | far
  · cases alone
  · cases far with
    | finished done => cases alone
    | waiting current =>
        rcases List.cons.inj alone with ⟨rfl, apart⟩
        exact ⟨rfl, apart⟩

end OfStream

/-- Consumers of other streams leave the stream alone. -/
theorem spares_runConsumers {stream : StreamId} (consumers : List Consumer)
    (apart : ofStream stream consumers = []) (queue : Queue) :
    queue.Spares stream (runConsumers consumers queue).2.2 ∧
      ofStream stream (runConsumers consumers queue).1 = [] ∧
      ofStream stream (runConsumers consumers queue).2.1 = [] := by
  induction consumers generalizing queue with
  | nil => exact ⟨.refl queue stream, rfl, rfl⟩
  | cons first later ih =>
      have differ : first.stream ≠ stream := by
        intro same
        simp [ofStream, same] at apart
      have others : ofStream stream later = [] := by
        simpa [ofStream, differ] using apart
      have rest := ih others (first.advance queue).2
      have own := ofStream_of_ne ((first.stream_advance queue).trans_ne differ)
      rw [runConsumers_cons]
      simp only [ofStream_append, own.1, own.2, List.nil_append]
      exact ⟨(first.spares_advance differ.symm queue).trans rest.1, rest.2⟩

section Performing

variable {hub : Hub} {operation : Operation}

/-- What an operation does itself to the queue of a hub is part of an interleaving, unless it
takes from the stream. -/
theorem interleaved_perform {consumer : Consumer} {accepted : List Item}
    {progress : Option Progress} (reached : Interleaved consumer accepted hub.queue progress)
    (spares : operation.Spares consumer.stream) :
    Interleaved consumer (accepted ++ (hub.performed operation).acceptedFor consumer.stream)
      (hub.perform operation).hub.queue progress := by
  have nothing : ({} : Traffic).acceptedFor consumer.stream = [] := rfl
  cases operation with
  | act handle action =>
      have after := queueAfter_act hub handle action
      generalize (hub.perform (.act handle action)).hub.queue = queue at after ⊢
      cases after with
      | quiet same quiet =>
          rw [same, quiet, nothing, List.append_nil]
          exact reached
      | @call call stream present made =>
          rw [made]
          simpa [performed, present] using reached.run call stream
  | append stream octets =>
      cases answer : (Queue.append stream (.ofBytes octets)).run hub.queue with
      | ok _ queue =>
          rcases Queue.eq_add_of_append_eq_ok answer with ⟨willing, rfl⟩
          simp only [performed, perform, answer]
          exact reached.add willing (.chunk octets)
      | error rejection queue =>
          rcases Queue.append_error answer with ⟨_, rfl⟩
          simp only [performed, perform, answer, nothing, List.append_nil]
          exact reached
  | appendEnd stream =>
      cases answer : (Queue.appendEnd stream).run hub.queue with
      | ok _ queue =>
          rcases Queue.eq_add_of_appendEnd_eq_ok answer with ⟨willing, rfl⟩
          simp only [performed, perform, answer]
          exact reached.add willing .endOfStream
      | error cause queue =>
          cases Queue.appendEnd_error answer
          simp only [performed, perform, answer, nothing, List.append_nil]
          exact reached
  | pop stream =>
      have apart : consumer.stream ≠ stream := Ne.symm spares
      simpa [performed, perform, Traffic.acceptedFor]
        using reached.elsewhere (Queue.spares_pop apart)
  | release stream =>
      have apart : consumer.stream ≠ stream := Ne.symm spares
      simpa [performed, perform, Traffic.acceptedFor]
        using reached.elsewhere (Queue.spares_release apart)
  | close =>
      simpa [performed, perform, Traffic.acceptedFor]
        using reached.elsewhere (hub.queue.spares_close consumer.stream)
  | consume other =>
      have apart : consumer.stream ≠ other.stream := Ne.symm spares
      have moved := reached.elsewhere (other.spares_advance apart hub.queue)
      cases progress : (other.advance hub.queue).1 with
      | finished after => simpa [performed, perform, progress, Traffic.acceptedFor] using moved
      | waiting after => simpa [performed, perform, progress, Traffic.acceptedFor] using moved
  | cancel name => simpa [performed, perform, Traffic.acceptedFor] using reached

/-- The waiting consumers of a stream stay the same, unless another one comes or they are
cancelled. -/
theorem waiting_perform {stream : StreamId} (spares : operation.Spares stream)
    (kept : ∀ waiting ∈ ofStream stream hub.waiting, operation ≠ .cancel waiting.name) :
    ofStream stream (hub.perform operation).hub.waiting = ofStream stream hub.waiting := by
  cases operation with
  | append id octets =>
      simp only [perform]
      cases (Queue.append id (.ofBytes octets)).run hub.queue with
      | ok _ queue => rfl
      | error rejection queue => rfl
  | appendEnd id =>
      simp only [perform]
      cases (Queue.appendEnd id).run hub.queue with
      | ok _ queue => rfl
      | error cause queue => rfl
  | consume other =>
      have own := ofStream_of_ne ((other.stream_advance hub.queue).trans_ne spares)
      simp only [perform]
      cases far : (other.advance hub.queue).1 with
      | finished after => rfl
      | waiting after =>
          rw [far] at own
          change ofStream stream (hub.waiting ++ [after]) = _
          rw [ofStream_append]
          exact (congrArg (_ ++ ·) own.2).trans (List.append_nil _)
  | cancel name =>
      have others : ∀ waiting ∈ ofStream stream hub.waiting, waiting.name ≠ name := by
        rintro waiting waiting_mem rfl
        exact kept waiting waiting_mem rfl
      simp only [perform, List.partition_eq_filter_filter]
      rw [ofStream, List.filter_comm]
      exact List.filter_eq_self.mpr (by simpa [ofStream] using others)
  | _ => rfl

theorem finished_perform (hub : Hub) {stream : StreamId} (spares : operation.Spares stream) :
    ofStream stream (hub.perform operation).reply.ifFinished = [] := by
  cases operation with
  | act handle action =>
      simp only [perform]
      cases (hub.connection.act handle action).answer with
      | none => rfl
      | some answer => rfl
  | append id octets =>
      simp only [perform]
      cases (Queue.append id (.ofBytes octets)).run hub.queue with
      | ok _ queue => rfl
      | error rejection queue => rfl
  | appendEnd id =>
      simp only [perform]
      cases (Queue.appendEnd id).run hub.queue with
      | ok _ queue => rfl
      | error cause queue => rfl
  | consume other =>
      have own := ofStream_of_ne ((other.stream_advance hub.queue).trans_ne spares)
      simp only [perform]
      cases far : (other.advance hub.queue).1 with
      | finished after =>
          rw [far] at own
          exact own.1
      | waiting after => rfl
  | _ => rfl

theorem acceptedFor_traffic (hub : Hub) (operation : Operation) (stream : StreamId) :
    (hub.traffic operation).acceptedFor stream
      = (hub.performed operation).acceptedFor stream := by
  simp only [traffic, Traffic.acceptedFor_append]
  exact List.append_nil _

end Performing

/-- A consumer has got so far, and if it waits it does so among these consumers, of which no other
is one of its stream. -/
structure Serves (consumer : Consumer) (accepted : List Item) (waiting : List Consumer)
    (queue : Queue) (progress : Option Progress) : Prop where
  reached : Interleaved consumer accepted queue progress
  waiting_eq : ofStream consumer.stream waiting = progress.elim [] Progress.ifWaiting

/-- What finishes meanwhile while the consumer of a stream gets from one point to another. -/
inductive Served (consumer : Consumer) :
    Option Progress → List (Consumer × Queue) → Option Progress → Prop where
  | stays (progress : Option Progress) : Served consumer progress [] progress
  | waits (before after : Consumer) :
      Served consumer (some (.waiting before)) [] (some (.waiting after))
  | finishes (before done : Consumer) {queue : Queue} (cleared : consumer.Cleared queue) :
      Served consumer (some (.waiting before)) [(done, queue)] (some (.finished done))

theorem Served.of_none {consumer : Consumer} {finished : List (Consumer × Queue)}
    {next : Option Progress} (served : Served consumer none finished next) :
    next = none ∧ finished = [] := by
  cases served with
  | stays => exact ⟨rfl, rfl⟩

theorem Served.of_some {consumer : Consumer} {finished : List (Consumer × Queue)}
    {far : Progress} {next : Option Progress} (served : Served consumer (some far) finished next) :
    ∃ last, next = some last := by
  cases served with
  | stays => exact ⟨far, rfl⟩
  | waits _ after => exact ⟨.waiting after, rfl⟩
  | finishes _ done => exact ⟨.finished done, rfl⟩

theorem Served.trans {consumer : Consumer} {first middle last : Option Progress}
    {earlier later : List (Consumer × Queue)} (before : Served consumer first earlier middle)
    (after : Served consumer middle later last) :
    Served consumer first (earlier ++ later) last := by
  cases before with
  | stays => exact after
  | waits before middle =>
      cases after with
      | stays => exact .waits before middle
      | waits _ last => exact .waits before last
      | finishes _ done cleared => exact .finishes before done cleared
  | finishes before done cleared =>
      cases after with
      | stays => exact .finishes before done cleared

section Serving

variable {consumer : Consumer} {accepted : List Item} {waiting : List Consumer} {queue : Queue}
  {progress : Option Progress} {hub : Hub} {operation : Operation}
  (whole : consumer.want ≠ .item) (fresh : consumer.taken = [])

include whole fresh

/-- A round lets the consumer of a stream run as far as it can, if it waits. -/
theorem Serves.runConsumers (serves : Serves consumer accepted waiting queue progress) :
    ∃ next,
      Serves consumer accepted (Hub.runConsumers waiting queue).2.1
        (Hub.runConsumers waiting queue).2.2 next ∧
      Served consumer progress
        ((ofStream consumer.stream (Hub.runConsumers waiting queue).1).map
          (·, (Hub.runConsumers waiting queue).2.2)) next := by
  induction waiting generalizing queue with
  | nil => exact ⟨progress, serves, .stays progress⟩
  | cons first later ih =>
      have waiting_eq := serves.waiting_eq
      rw [runConsumers_cons]
      by_cases same : first.stream = consumer.stream
      · -- this is the consumer of the stream, and those after it are not
        rcases waiting_of_ofStream_cons same waiting_eq with ⟨rfl, apart⟩
        have exhausted := serves.reached.exhausted whole fresh
        have others := spares_runConsumers later apart (first.advance queue).2
        have own := ofStream_of_eq ((first.stream_advance queue).trans same)
        have reached := exhausted.reached.elsewhere others.1
        refine ⟨some (first.advance queue).1, ⟨reached, ?_⟩, ?_⟩
        · simp only [ofStream_append, own.2, others.2.2, List.append_nil]
          rfl
        · simp only [ofStream_append, own.1, others.2.1, List.append_nil]
          have standing := (reached.stands whole fresh).2
          have empty := others.1.items_eq.trans exhausted.empty
          cases far : (first.advance queue).1 with
          | finished done =>
              rw [far] at standing
              exact .finishes first done (standing.cleared empty)
          | waiting starved => exact .waits first starved
      · have apart : ofStream consumer.stream later = progress.elim [] Progress.ifWaiting := by
          simpa [ofStream, same] using waiting_eq
        have elsewhere := first.spares_advance (Ne.symm same) queue
        have own := ofStream_of_ne ((first.stream_advance queue).trans_ne same)
        rcases ih ⟨serves.reached.elsewhere elsewhere, apart⟩ with ⟨next, rest, served⟩
        refine ⟨next, ⟨rest.reached, ?_⟩, ?_⟩
        · simpa only [ofStream_append, own.2, List.nil_append] using rest.waiting_eq
        · simpa only [ofStream_append, own.1, List.nil_append] using served

/-- Whoever waits for the stream is the consumer itself. -/
theorem Serves.name_eq (serves : Serves consumer accepted hub.waiting hub.queue progress)
    {current : Consumer} (current_mem : current ∈ ofStream consumer.stream hub.waiting) :
    current.name = consumer.name := by
  have standing := (serves.reached.stands whole fresh).2
  rw [serves.waiting_eq] at current_mem
  cases standing with
  | underway chunks accepted_eq =>
      rw [List.mem_singleton.mp current_mem]
      rfl
  | _ => cases current_mem

/-- One step of a hub that takes nothing from the stream: the consumer goes on if it waits. -/
theorem Serves.step (serves : Serves consumer accepted hub.waiting hub.queue progress)
    (spares : operation.Spares consumer.stream)
    (kept : operation = .cancel consumer.name → ofStream consumer.stream hub.waiting = []) :
    ∃ next,
      Serves consumer (accepted ++ (hub.traffic operation).acceptedFor consumer.stream)
        (hub.step operation).hub.waiting (hub.step operation).hub.queue next ∧
      Served consumer progress
        ((ofStream consumer.stream (hub.step operation).finished).map
          (·, (hub.step operation).hub.queue)) next := by
  have named : ∀ waiting ∈ ofStream consumer.stream hub.waiting,
      operation ≠ .cancel waiting.name := by
    intro waiting waiting_mem cancels
    rw [serves.name_eq whole fresh waiting_mem] at cancels
    rw [kept cancels] at waiting_mem
    cases waiting_mem
  have performed : Serves consumer
      (accepted ++ (hub.performed operation).acceptedFor consumer.stream)
      (hub.perform operation).hub.waiting (hub.perform operation).hub.queue progress :=
    ⟨interleaved_perform serves.reached spares,
      (waiting_perform spares named).trans serves.waiting_eq⟩
  have finished := hub.finished_perform spares
  rw [acceptedFor_traffic]
  unfold Hub.step
  dsimp only
  split
  · refine ⟨progress, performed, ?_⟩
    rw [Outcome.finished, perform_woken, List.append_nil, finished]
    exact .stays progress
  · rcases performed.runConsumers whole fresh with ⟨next, after, served⟩
    refine ⟨next, after, ?_⟩
    rw [Outcome.finished, ofStream_append, finished]
    exact served

/-- As long as the consumer has not come it cannot be cancelled, and once it has it must not
be. -/
theorem Serves.runAll (operations : List Operation)
    (serves : Serves consumer accepted hub.waiting hub.queue progress)
    (spare : ∀ operation ∈ operations, operation.Spares consumer.stream)
    (kept : progress = none ∨ Uncancelled consumer.name consumer.stream operations hub) :
    ∃ next,
      Serves consumer (accepted ++ (history operations hub).acceptedFor consumer.stream)
        (Hub.runAll operations hub).waiting (Hub.runAll operations hub).queue next ∧
      Served consumer progress (finishings consumer.stream operations hub) next := by
  induction operations generalizing hub accepted progress with
  | nil =>
      refine ⟨progress, ?_, .stays progress⟩
      have nothing : (history [] hub).acceptedFor consumer.stream = [] := rfl
      rw [nothing, List.append_nil]
      exact serves
  | cons operation later ih =>
      have kept_now : operation = .cancel consumer.name →
          ofStream consumer.stream hub.waiting = [] := by
        intro cancels
        rcases kept with rfl | kept
        · exact serves.waiting_eq
        · exact kept.1 cancels
      rcases serves.step whole fresh (spare operation List.mem_cons_self) kept_now with
        ⟨middle, serving, first⟩
      have kept_later : middle = none ∨
          Uncancelled consumer.name consumer.stream later (hub.step operation).hub := by
        rcases kept with rfl | kept
        · exact .inl first.of_none.1
        · exact .inr kept.2
      have spare_later : ∀ operation ∈ later, operation.Spares consumer.stream :=
        fun other other_mem => spare other (List.mem_cons_of_mem _ other_mem)
      rcases ih serving spare_later kept_later with ⟨next, serves, rest⟩
      refine ⟨next, ?_, first.trans rest⟩
      rw [history, Traffic.acceptedFor_append, ← List.append_assoc]
      exact serves

/-- A consumer that comes runs at once as far as it can. -/
theorem Serves.start (sound : hub.Sound)
    (serves : Serves consumer accepted hub.waiting hub.queue none) :
    ∃ next,
      Serves consumer accepted (hub.step (.consume consumer)).hub.waiting
        (hub.step (.consume consumer)).hub.queue (some next) ∧
      Served consumer (some (.waiting consumer))
        ((ofStream consumer.stream (hub.step (.consume consumer)).finished).map
          (·, (hub.step (.consume consumer)).hub.queue)) (some next) := by
  have exhausted := serves.reached.start.exhausted whole fresh
  have standing := (exhausted.reached.stands whole fresh).2
  have own := ofStream_of_eq (consumer.stream_advance hub.queue)
  have nobody : ofStream consumer.stream hub.waiting = [] := serves.waiting_eq
  have reached := exhausted.reached
  rw [step_of_wakesNobody sound (.consume consumer)]
  refine ⟨(consumer.advance hub.queue).1, ?_⟩
  cases far : (consumer.advance hub.queue).1 with
  | finished done =>
      rw [far] at standing own reached
      simp only [perform, far]
      refine ⟨⟨reached, nobody⟩, ?_⟩
      simp only [Outcome.finished, Reply.ifFinished, List.append_nil, own.1]
      exact .finishes consumer done (standing.cleared exhausted.empty)
  | waiting current =>
      rw [far] at own reached
      simp only [perform, far]
      refine ⟨⟨reached, ?_⟩, .waits consumer current⟩
      change ofStream consumer.stream (hub.waiting ++ [current]) = [current]
      rw [ofStream_append, nobody]
      exact own.2

/-- Nobody waits in vain: a consumer that still waits has taken all that was accepted, and is
due nothing. -/
theorem Serves.of_waiting {current : Consumer} (settled : hub.Settled)
    (serves : Serves consumer accepted hub.waiting hub.queue (some (.waiting current))) :
    current = consumer.withMore accepted ∧ consumer.due accepted hub.queue.isClosed = none := by
  have waits : current ∈ ofStream consumer.stream hub.waiting := by
    rw [serves.waiting_eq]
    exact List.mem_singleton_self current
  have starved := settled current (List.mem_filter.mp waits).1
  have standing := (serves.reached.stands whole fresh).2
  have empty := starved.empty
  rw [(standing.unsatisfied whole fresh).2] at empty
  refine ⟨?_, standing.due_eq_none whole empty starved.isOpen⟩
  cases standing with
  | underway chunks accepted_eq => rw [accepted_eq, empty, List.append_nil]

theorem Serves.concludes {finished : List (Consumer × Queue)} {first : Consumer}
    {last : Progress} (settled : hub.Settled)
    (serves : Serves consumer accepted hub.waiting hub.queue (some last))
    (served : Served consumer (some (.waiting first)) finished (some last)) :
    finished.map (·.1.result) = (consumer.due accepted hub.queue.isClosed).toList ∧
      (∀ entry ∈ finished, consumer.Cleared entry.2) ∧
      ofStream consumer.stream hub.waiting
        = if (consumer.due accepted hub.queue.isClosed).isSome then []
          else [consumer.withMore accepted] := by
  rw [serves.waiting_eq]
  cases served with
  | stays | waits =>
      rcases serves.of_waiting whole fresh settled with ⟨rfl, due_eq⟩
      rw [due_eq]
      refine ⟨rfl, ?_, rfl⟩
      intro entry entry_mem
      cases entry_mem
  | finishes _ done cleared =>
      rw [(serves.reached.stands whole fresh).2.due_eq whole fresh]
      refine ⟨rfl, ?_, rfl⟩
      intro entry entry_mem
      rw [List.mem_singleton.mp entry_mem]
      exact cleared

end Serving

section Append

theorem runAll_append (earlier later : List Operation) (hub : Hub) :
    runAll (earlier ++ later) hub = runAll later (runAll earlier hub) :=
  List.foldl_append

theorem acceptedFor_history_append (earlier later : List Operation) (hub : Hub)
    (stream : StreamId) :
    (history (earlier ++ later) hub).acceptedFor stream
      = (history earlier hub).acceptedFor stream
        ++ (history later (runAll earlier hub)).acceptedFor stream := by
  induction earlier generalizing hub with
  | nil => rfl
  | cons operation others ih =>
      simp only [List.cons_append, history, Traffic.acceptedFor_append, ih, List.append_assoc]
      rfl

theorem finishings_append (stream : StreamId) (earlier later : List Operation) (hub : Hub) :
    finishings stream (earlier ++ later) hub
      = finishings stream earlier hub ++ finishings stream later (runAll earlier hub) := by
  induction earlier generalizing hub with
  | nil => rfl
  | cons operation others ih =>
      simp only [List.cons_append, finishings, ih, List.append_assoc]
      rfl

end Append

/-- A consumer that is after all of a stream and has the stream to itself comes to what it is
due, in whatever order things happen.

This holds of every interleaving. Whenever the consumer is about to go on, what it has taken and
what waits for it is what has been accepted; if it is let run it finishes exactly if something
is due, and with just that; and the turn in which it finishes clears the stream.

And it holds of every run of a hub, where the queue is closed if there has been a close. The
consumer finishes once if something is due at the end of the run, after a step that leaves the
stream cleared; else it does not finish but waits, with all that has been accepted. -/
theorem sole_consumer_due (consumer : Consumer) (whole : consumer.want ≠ .item)
    (fresh : consumer.taken = []) :
    (∀ accepted queue current,
      Interleaved consumer accepted queue (some (.waiting current)) →
        current.taken ++ queue.items consumer.stream = accepted ∧
        (current.advance queue).1.result? = consumer.due accepted queue.isClosed ∧
        ∀ done left, current.turn queue = (.finished done, left) →
          consumer.due accepted queue.isClosed = some done.result ∧ consumer.Cleared left) ∧
    ∀ session before after,
      (∀ operation ∈ before ++ after, operation.Spares consumer.stream) →
      Uncancelled consumer.name consumer.stream after
        (runAll (before ++ [.consume consumer]) (Hub.fresh session)) →
      let operations := before ++ .consume consumer :: after
      let hub := runAll operations (Hub.fresh session)
      let accepted := (history operations (Hub.fresh session)).acceptedFor consumer.stream
      let finished := finishings consumer.stream operations (Hub.fresh session)
      (hub.queue.isClosed = true ↔ .close ∈ operations) ∧
      finished.map (·.1.result) = (consumer.due accepted hub.queue.isClosed).toList ∧
      (∀ entry ∈ finished, consumer.Cleared entry.2) ∧
      ofStream consumer.stream hub.waiting
        = if (consumer.due accepted hub.queue.isClosed).isSome then []
          else [consumer.withMore accepted] := by
  constructor
  · intro accepted queue current reached
    exact reached.outcome whole fresh
  · intro session before after spare kept operations hub accepted finished
    rcases List.forall_mem_append.mp spare with ⟨spare_before, spare_after⟩
    have nobody : Serves consumer [] (Hub.fresh session).waiting (Hub.fresh session).queue none :=
      ⟨.nothing, rfl⟩
    rcases nobody.runAll whole fresh before spare_before (.inl rfl) with ⟨next, serves, served⟩
    rcases served.of_none with ⟨rfl, earlier_eq⟩
    let here := runAll before (Hub.fresh session)
    let start : Operation := .consume consumer
    have hub_eq : hub = runAll after (here.step start).hub := runAll_append before _ _
    have sound : here.Sound := (conserves_runAll before (sound_fresh session)).sound
    rcases serves.start whole fresh sound with ⟨started, serves, first⟩
    rw [runAll_append] at kept
    rcases serves.runAll whole fresh after spare_after (.inr kept) with ⟨last, serves, rest⟩
    rcases rest.of_some with ⟨last, rfl⟩
    have finished_eq : finished = (ofStream consumer.stream (here.step start).finished).map
        (·, (here.step start).hub.queue) ++ finishings consumer.stream after
          (here.step start).hub := by
      refine (finishings_append consumer.stream before _ _).trans ?_
      rw [earlier_eq]
      rfl
    have accepted_eq : accepted = [] ++ (history before (Hub.fresh session)).acceptedFor
        consumer.stream ++ (history after (here.step start).hub).acceptedFor consumer.stream := by
      refine (acceptedFor_history_append before _ _ consumer.stream).trans ?_
      rw [history, Traffic.acceptedFor_append, acceptedFor_traffic]
      rfl
    have settled : hub.Settled :=
      settled_runAll operations (sound_fresh session) fun _ waits => nomatch waits
    rw [← hub_eq] at serves
    rw [accepted_eq, finished_eq]
    exact ⟨isClosed_run_fresh session operations,
      serves.concludes whole fresh settled (first.trans rest)⟩

/-- Part of a request line waits before the reader of the stream comes. -/
def beforeReader : List Operation := [
  .append 7 (Bytes.ascii "GET / HT"),
  .append 9 (Bytes.ascii "else")]

def reader : Consumer where
  name := "reader"
  want := .request
  stream := 7

/-- The rest comes in pieces, one of them empty, while others do something else. -/
def afterReader : List Operation := [
  .append 7 [],
  .append 7 (Bytes.ascii "TP/1.1\r\n"),
  .pop 9,
  .cancel "other",
  .append 7 (Bytes.ascii "\r\nbody"),
  .appendEnd 7,
  .close]

/-- The request that the pieces spell. -/
def readerRequest : Request where
  method := Bytes.ascii "GET"
  target := { path := Bytes.ascii "/", query := none }
  version := .http11
  fields := []
  body := Bytes.ascii "body"

theorem sole_consumer_due_reader :
    let operations := beforeReader ++ .consume reader :: afterReader
    let finished := finishings 7 operations (Hub.fresh {})
    (∀ operation ∈ beforeReader ++ afterReader, operation.Spares 7) ∧
      Uncancelled "reader" 7 afterReader
        (runAll (beforeReader ++ [.consume reader]) (Hub.fresh {})) ∧
      finished.map (·.1.result) = [.request (.ok readerRequest)] ∧
      ∀ entry ∈ finished, reader.Cleared entry.2 := by
  intro operations finished
  have spare : ∀ operation ∈ beforeReader ++ afterReader, operation.Spares 7 := by
    simp [beforeReader, afterReader, Operation.Spares]
  have kept : Uncancelled "reader" 7 afterReader
      (runAll (beforeReader ++ [.consume reader]) (Hub.fresh {})) := by
    simp [afterReader, Uncancelled]
  have accepted : (history operations (Hub.fresh {})).acceptedFor 7
      = [.chunk (Bytes.ascii "GET / HT"), .chunk [], .chunk (Bytes.ascii "TP/1.1\r\n"),
        .chunk (Bytes.ascii "\r\nbody"), .endOfStream] := by decide
  have spelled : Request.assemble 7 (Bytes.ascii "GET / HTTP/1.1\r\n\r\nbody")
      = .ok readerRequest := by decide
  have served := (sole_consumer_due reader (by decide) rfl).2 {} beforeReader afterReader spare kept
  have results := served.2.1
  change _ = (reader.due ((history operations (Hub.fresh {})).acceptedFor 7) _).toList at results
  rw [accepted] at results
  refine ⟨spare, kept, ?_, served.2.2.1⟩
  rw [← spelled]
  exact results

end Hub

end Reassembly
