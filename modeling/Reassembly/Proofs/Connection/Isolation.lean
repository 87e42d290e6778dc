import Reassembly.Connection
import Reassembly.Proofs.Delivery.Locality
import Reassembly.Proofs.Stream.Delivered
import Reassembly.Proofs.Stream.Frame

/-!
# Streams are isolated

The streams of a connection share a queue, but no stream can tell what happens to another one.
Take any run of operations on streams and on the queue, and leave out all that do not concern
one stream id: what is left answers as it did, tells observers what it told them, and leaves
the same streams and the same lane behind.

Two connections are indistinct for an id if they agree in all that can be seen through it. An
operation that concerns the id does the same to both, and one that does not concern it keeps
the one indistinct from the other.
-/

namespace Reassembly

open Delivery (Item Queue Rejection Refusal)

namespace Delivery.Queue

variable {id other : StreamId} {left right : Queue}

theorem SameFor.append (same : SameFor id left right) (segment : Segment) :
    Alike (SameFor id) ((Queue.append id segment).run left)
      ((Queue.append id segment).run right) := by
  cases refusal : left.refusal? id with
  | none =>
      rw [run_append_of_willing refusal, run_append_of_willing (same.refusal_eq.trans refusal)]
      exact .ok () (same.add _)
  | some cause =>
      simp only [Queue.append, EStateM.run, refusal, same.refusal_eq]
      exact .error _ same

theorem SameFor.appendEnd (same : SameFor id left right) :
    Alike (SameFor id) ((Queue.appendEnd id).run left) ((Queue.appendEnd id).run right) := by
  cases refusal : left.refusal? id with
  | none =>
      rw [run_appendEnd_of_willing refusal,
        run_appendEnd_of_willing (same.refusal_eq.trans refusal)]
      exact .ok () (same.add _)
  | some cause =>
      simp only [Queue.appendEnd, EStateM.run, refusal, same.refusal_eq]
      exact .error _ same

theorem coupling_sameFor (id : StreamId) : Coupling id (SameFor id) where
  append segment _ _ same := same.append segment
  appendEnd same := same.appendEnd

theorem keeps_sameFor (differ : id ≠ other) (right : Queue) :
    Keeps other fun queue => SameFor id queue right :=
  keeps_of_add fun _ item _ same => same.add_other differ item

end Delivery.Queue

namespace Connection

open Delivery.Queue (SameFor)
open Feed (Twins)

/-- Something done at a connection: to one of its streams, or to its queue. -/
inductive Operation where
  | act (handle : Nat) (action : Action)
  | append (id : StreamId) (segment : Segment)
  | appendEnd (id : StreamId)
  | pop (id : StreamId)
  | release (id : StreamId)
  | hasEnd (id : StreamId)
  | pending (id : StreamId)
  | close
  deriving DecidableEq, Repr

inductive Reply where
  | done
  /-- What the stream of a handle answers, unless the handle has none. -/
  | stream (answer : Option Stream.Answer)
  | rejected (rejection : Rejection)
  | refused (cause : Refusal)
  | item (item : Option Item)
  | count (count : Nat)
  | flag (flag : Bool)

/-- What is noticed of an operation. -/
structure Report where
  reply : Reply
  /-- What observers are told meanwhile. -/
  notices : List Notice := []

def perform (connection : Connection Queue) : Operation → Report × Connection Queue
  | .act handle action =>
      let outcome := connection.act handle action
      ({ reply := .stream outcome.answer, notices := outcome.notices }, outcome.connection)
  | .append id segment =>
      match (Queue.append id segment).run connection.queue with
      | .ok _ queue => ({ reply := .done }, { connection with queue })
      | .error rejection queue => ({ reply := .rejected rejection }, { connection with queue })
  | .appendEnd id =>
      match (Queue.appendEnd id).run connection.queue with
      | .ok _ queue => ({ reply := .done }, { connection with queue })
      | .error cause queue => ({ reply := .refused cause }, { connection with queue })
  | .pop id =>
      let (item, queue) := connection.queue.pop id
      ({ reply := .item item }, { connection with queue })
  | .release id =>
      let (discarded, queue) := connection.queue.release id
      ({ reply := .count discarded }, { connection with queue })
  | .hasEnd id => ({ reply := .flag (connection.queue.hasEnd id) }, connection)
  | .pending id => ({ reply := .count (connection.queue.pending id) }, connection)
  | .close => ({ reply := .done }, { connection with queue := connection.queue.close })

/-- Operations one after the other, and what is noticed of each. -/
def runAll : List Operation → Connection Queue → List Report × Connection Queue
  | [], connection => ([], connection)
  | operation :: later, connection =>
      let (report, next) := connection.perform operation
      let (reports, last) := runAll later next
      (report :: reports, last)

/-- The stream of a handle, if it has this id. -/
def streamOf (connection : Connection Queue) (id : StreamId) (handle : Nat) : Option Stream :=
  (connection.streams.get? handle).filter (·.id = id)

/-- Whether an operation is about streams with this id, or about what the queue keeps for
them. A stream is also concerned if its place is taken by another one. -/
def concerns (connection : Connection Queue) (id : StreamId) : Operation → Bool
  | .act handle (.create new) => new = id || (connection.streamOf id handle).isSome
  | .act handle (.call _) | .act handle .destroy => (connection.streamOf id handle).isSome
  | .append other _ | .appendEnd other | .pop other | .release other | .hasEnd other
  | .pending other => other = id
  | .close => true

/-- The operations of a run that concern an id, and what is noticed of each. -/
def concerning (id : StreamId) :
    List Operation → Connection Queue → List (Operation × Report)
  | [], _ => []
  | operation :: later, connection =>
      let (report, next) := connection.perform operation
      if connection.concerns id operation then (operation, report) :: concerning id later next
      else concerning id later next

/-- Two connections that agree in all that can be seen through one id. -/
structure Indistinct (id : StreamId) (left right : Connection Queue) : Prop where
  session_eq : right.session = left.session
  queues : SameFor id left.queue right.queue
  streams_eq (handle : Nat) : right.streamOf id handle = left.streamOf id handle

variable {id : StreamId} {left right : Connection Queue}

theorem Indistinct.refl (id : StreamId) (connection : Connection Queue) :
    Indistinct id connection connection :=
  ⟨rfl, .refl id connection.queue, fun _ => rfl⟩

theorem streamOf_eq_some_iff {connection : Connection Queue} {handle : Nat} {stream : Stream} :
    connection.streamOf id handle = some stream ↔
      connection.streams.get? handle = some stream ∧ stream.id = id := by
  simp [streamOf]

theorem streamOf_eq_none_iff {connection : Connection Queue} {handle : Nat} :
    connection.streamOf id handle = none ↔
      ∀ stream, connection.streams.get? handle = some stream → stream.id ≠ id := by
  simp [streamOf]

theorem Indistinct.set (same : Indistinct id left right) {leftQueue rightQueue : Queue}
    (queues : SameFor id leftQueue rightQueue) (handle : Nat) (stream : Stream) :
    Indistinct id
      { left with queue := leftQueue, streams := left.streams.set handle stream }
      { right with queue := rightQueue, streams := right.streams.set handle stream } where
  session_eq := same.session_eq
  queues := queues
  streams_eq other := by
    by_cases here : other = handle
    · subst other
      simp [streamOf]
    · have frame := same.streams_eq other
      simpa [streamOf, Table.get?_set_of_ne _ _ here] using frame

/-- A stream of another id takes a place in which there is none of this id. -/
theorem Indistinct.set_other (same : Indistinct id left right) {leftQueue : Queue}
    (queues : SameFor id leftQueue right.queue) {handle : Nat}
    (absent : left.streamOf id handle = none) {stream : Stream} (differ : stream.id ≠ id) :
    Indistinct id
      { left with queue := leftQueue, streams := left.streams.set handle stream } right where
  session_eq := same.session_eq
  queues := queues
  streams_eq other := by
    by_cases here : other = handle
    · subst other
      rw [same.streams_eq, absent, eq_comm, streamOf_eq_none_iff]
      intro placed present
      rw [Table.get?_set_self] at present
      cases present
      exact differ
    · have frame := same.streams_eq other
      simpa [streamOf, Table.get?_set_of_ne _ _ here] using frame

theorem act_concerned (same : Indistinct id left right) (handle : Nat) (action : Action)
    (concerned : left.concerns id (.act handle action) = true) :
    (right.perform (.act handle action)).1 = (left.perform (.act handle action)).1 ∧
      Indistinct id (left.perform (.act handle action)).2
        (right.perform (.act handle action)).2 := by
  cases action with
  | create new =>
      -- the new stream need not have the id: it may take the place of one that has
      have placed := same.set same.queues handle { id := new, session := left.session }
      simp only [perform, act, same.session_eq] at placed ⊢
      exact ⟨trivial, placed⟩
  | call call =>
      rcases Option.isSome_iff_exists.mp concerned with ⟨stream, present⟩
      have found := streamOf_eq_some_iff.mp present
      have foundToo := streamOf_eq_some_iff.mp ((same.streams_eq handle).trans present)
      have twins : Twins id (SameFor id) { stream, queue := left.queue }
          { stream, queue := right.queue } := ⟨found.2, rfl, rfl, same.queues⟩
      have made := Stream.Call.run_twins (Delivery.Queue.coupling_sameFor id) twins call
      simp only [perform, act, found.1, foundToo.1]
      refine ⟨?_, ?_⟩
      · rw [made.1, made.2.notices_eq]
      · rw [made.2.stream_eq]
        exact same.set made.2.queues handle _
  | destroy =>
      rcases Option.isSome_iff_exists.mp concerned with ⟨stream, present⟩
      have found := streamOf_eq_some_iff.mp present
      have foundToo := streamOf_eq_some_iff.mp ((same.streams_eq handle).trans present)
      simp only [perform, act, found.1, foundToo.1]
      refine ⟨trivial, same.session_eq, same.queues, ?_⟩
      intro other
      by_cases here : other = handle
      · subst other
        simp [streamOf]
      · have frame := same.streams_eq other
        simpa [streamOf, Table.get?_erase_of_ne _ here] using frame

/-- What an operation that concerns the id does to one of two connections, it does to the
other. -/
theorem perform_concerned (same : Indistinct id left right) (operation : Operation)
    (concerned : left.concerns id operation = true) :
    (right.perform operation).1 = (left.perform operation).1 ∧
      Indistinct id (left.perform operation).2 (right.perform operation).2 := by
  cases operation with
  | act handle action => exact act_concerned same handle action concerned
  | append other segment =>
      obtain rfl : other = id := of_decide_eq_true concerned
      have answers := same.queues.append segment
      simp only [perform]
      generalize (Queue.append other segment).run left.queue = result at answers ⊢
      generalize (Queue.append other segment).run right.queue = twin at answers ⊢
      cases answers with
      | ok _ queues => exact ⟨rfl, same.session_eq, queues, same.streams_eq⟩
      | error rejection queues => exact ⟨rfl, same.session_eq, queues, same.streams_eq⟩
  | appendEnd other =>
      obtain rfl : other = id := of_decide_eq_true concerned
      have answers := same.queues.appendEnd
      simp only [perform]
      generalize (Queue.appendEnd other).run left.queue = result at answers ⊢
      generalize (Queue.appendEnd other).run right.queue = twin at answers ⊢
      cases answers with
      | ok _ queues => exact ⟨rfl, same.session_eq, queues, same.streams_eq⟩
      | error cause queues => exact ⟨rfl, same.session_eq, queues, same.streams_eq⟩
  | pop other =>
      obtain rfl : other = id := of_decide_eq_true concerned
      have popped := same.queues.pop
      simp only [perform]
      exact ⟨by rw [popped.1], same.session_eq, popped.2, same.streams_eq⟩
  | release other =>
      obtain rfl : other = id := of_decide_eq_true concerned
      have released := same.queues.release
      simp only [perform]
      exact ⟨by rw [released.1], same.session_eq, released.2, same.streams_eq⟩
  | hasEnd other =>
      obtain rfl : other = id := of_decide_eq_true concerned
      refine ⟨?_, same⟩
      simp only [perform, Queue.hasEnd, same.queues.lane_eq]
  | pending other =>
      obtain rfl : other = id := of_decide_eq_true concerned
      refine ⟨?_, same⟩
      simp only [perform, Queue.pending, same.queues.items_eq]
  | close => exact ⟨rfl, same.session_eq, ⟨same.queues.lane_eq, rfl⟩, same.streams_eq⟩

theorem act_unconcerned (same : Indistinct id left right) (handle : Nat) (action : Action)
    (unconcerned : left.concerns id (.act handle action) = false) :
    Indistinct id (left.perform (.act handle action)).2 right ∧
      ∀ notice ∈ (left.perform (.act handle action)).1.notices, notice.stream ≠ id := by
  have silent : ∀ notice ∈ ([] : List Notice), notice.stream ≠ id :=
    fun notice notice_mem => nomatch notice_mem
  cases action with
  | create new =>
      simp only [concerns, Bool.or_eq_false_iff, decide_eq_false_iff_not, Option.isSome_eq_false_iff,
        Option.isNone_iff_eq_none] at unconcerned
      exact ⟨same.set_other same.queues unconcerned.2 unconcerned.1, silent⟩
  | call call =>
      simp only [concerns, Option.isSome_eq_false_iff, Option.isNone_iff_eq_none] at unconcerned
      cases present : left.streams.get? handle with
      | none =>
          simp only [perform, act, present]
          exact ⟨same, silent⟩
      | some stream =>
          have differ := streamOf_eq_none_iff.mp unconcerned stream present
          let feed : Feed Queue := { stream, queue := left.queue }
          have queues : SameFor id (call.run feed).2.queue right.queue :=
            call.queue_run (Delivery.Queue.keeps_sameFor (Ne.symm differ) right.queue) rfl
              same.queues
          have stillOther : (call.run feed).2.stream.id ≠ id := by
            rw [call.id_run]
            exact differ
          simp only [perform, act, present]
          refine ⟨same.set_other queues unconcerned stillOther, ?_⟩
          intro notice notice_mem
          rcases call.stream_of_mem_notices notice_mem with earlier | own
          · cases earlier
          · rw [own]
            exact differ
  | destroy =>
      simp only [concerns, Option.isSome_eq_false_iff, Option.isNone_iff_eq_none] at unconcerned
      cases present : left.streams.get? handle with
      | none =>
          simp only [perform, act, present]
          exact ⟨same, silent⟩
      | some stream =>
          simp only [perform, act, present]
          refine ⟨⟨same.session_eq, same.queues, ?_⟩, silent⟩
          intro other
          by_cases here : other = handle
          · subst other
            rw [same.streams_eq, unconcerned]
            simp [streamOf]
          · have frame := same.streams_eq other
            simpa [streamOf, Table.get?_erase_of_ne _ here] using frame

/-- An operation that does not concern the id leaves no trace that could be seen through it. -/
theorem perform_unconcerned (same : Indistinct id left right) (operation : Operation)
    (unconcerned : left.concerns id operation = false) :
    Indistinct id (left.perform operation).2 right ∧
      ∀ notice ∈ (left.perform operation).1.notices, notice.stream ≠ id := by
  have silent : ∀ notice ∈ ([] : List Notice), notice.stream ≠ id :=
    fun notice notice_mem => nomatch notice_mem
  have withQueue {queue : Queue} (queues : SameFor id queue right.queue) :
      Indistinct id { left with queue } right := ⟨same.session_eq, queues, same.streams_eq⟩
  cases operation with
  | act handle action => exact act_unconcerned same handle action unconcerned
  | append other segment =>
      have differ : id ≠ other := Ne.symm (of_decide_eq_false unconcerned)
      simp only [perform]
      cases answer : (Queue.append other segment).run left.queue with
      | ok _ queue =>
          rw [(Delivery.Queue.eq_add_of_append_eq_ok answer).2]
          exact ⟨withQueue (same.queues.add_other differ _), silent⟩
      | error rejection queue =>
          rw [(Delivery.Queue.append_error answer).2]
          exact ⟨same, silent⟩
  | appendEnd other =>
      have differ : id ≠ other := Ne.symm (of_decide_eq_false unconcerned)
      simp only [perform]
      cases answer : (Queue.appendEnd other).run left.queue with
      | ok _ queue =>
          rw [(Delivery.Queue.eq_add_of_appendEnd_eq_ok answer).2]
          exact ⟨withQueue (same.queues.add_other differ _), silent⟩
      | error cause queue =>
          rw [Delivery.Queue.appendEnd_error answer]
          exact ⟨same, silent⟩
  | pop other =>
      have differ : id ≠ other := Ne.symm (of_decide_eq_false unconcerned)
      exact ⟨withQueue (same.queues.pop_other differ), silent⟩
  | release other =>
      have differ : id ≠ other := Ne.symm (of_decide_eq_false unconcerned)
      exact ⟨withQueue (same.queues.release_other differ), silent⟩
  | hasEnd other => exact ⟨same, silent⟩
  | pending other => exact ⟨same, silent⟩
  | close => cases unconcerned

/-- What observers are told of streams with this id. -/
def noticesOf (id : StreamId) (reports : List Report) : List Notice :=
  (reports.flatMap Report.notices).filter (·.stream = id)

theorem noticesOf_cons (report : Report) (later : List Report) :
    noticesOf id (report :: later)
      = report.notices.filter (·.stream = id) ++ noticesOf id later := by
  simp [noticesOf]

/-- Leaving out what does not concern the id keeps two connections indistinct. -/
theorem runAll_concerning (operations : List Operation) (same : Indistinct id left right) :
    (runAll ((concerning id operations left).map Prod.fst) right).1
        = (concerning id operations left).map Prod.snd ∧
      noticesOf id ((concerning id operations left).map Prod.snd)
        = noticesOf id (runAll operations left).1 ∧
      Indistinct id (runAll operations left).2
        (runAll ((concerning id operations left).map Prod.fst) right).2 := by
  induction operations generalizing left right with
  | nil => exact ⟨rfl, rfl, same⟩
  | cons operation later ih =>
      cases concerned : left.concerns id operation with
      | true =>
          have first := perform_concerned same operation concerned
          have rest := ih first.2
          simp only [concerning, concerned, if_true, List.map_cons, runAll]
          refine ⟨?_, ?_, rest.2.2⟩
          · rw [first.1, rest.1]
          · rw [noticesOf_cons, noticesOf_cons, rest.2.1]
      | false =>
          have first := perform_unconcerned same operation concerned
          have rest := ih first.1
          -- the connection on the right does nothing meanwhile
          simp only [concerning, concerned, Bool.false_eq_true, if_false, runAll]
          refine ⟨rest.1, ?_, rest.2.2⟩
          have nothing : (left.perform operation).1.notices.filter (·.stream = id) = [] := by
            rw [List.filter_eq_nil_iff]
            intro notice notice_mem
            simpa using first.2 notice notice_mem
          rw [noticesOf_cons, nothing, List.nil_append]
          exact rest.2.1

/-- A stream id is isolated from all others. The operations of a run that concern it answer
and tell observers the same if they are all that is done, and they leave the same streams of
this id behind, and the same items. -/
theorem isolated (id : StreamId) (connection : Connection Queue) (operations : List Operation) :
    let kept := concerning id operations connection
    let whole := runAll operations connection
    let alone := runAll (kept.map Prod.fst) connection
    alone.1 = kept.map Prod.snd ∧
    noticesOf id alone.1 = noticesOf id whole.1 ∧
    (∀ handle, alone.2.streamOf id handle = whole.2.streamOf id handle) ∧
    alone.2.queue.lane id = whole.2.queue.lane id := by
  intro kept whole alone
  rcases runAll_concerning operations (Indistinct.refl id connection) with
    ⟨reports_eq, notices_eq, same⟩
  refine ⟨reports_eq, ?_, same.streams_eq, same.queues.lane_eq⟩
  rw [← notices_eq, ← reports_eq]

end Connection

end Reassembly
