import Reassembly.Proofs.Delivery.Log
import Reassembly.Proofs.Delivery.Soundness

/-!
# The chronicle of a queue

A chronicle lists what happened to the lanes of a queue, oldest first: which items were
accepted and taken, and which streams were released. The queue has a lane for a stream as
long as its chronicle knows the stream, that is, from the first item accepted for the stream
until the end of the stream is taken or the stream is released. A lane out of which all
chunks have been taken stays, and a refused delivery makes none.
-/

namespace Reassembly

namespace Delivery

/-- Something that happens to a lane. -/
inductive Event where
  | accepted (stream : StreamId) (item : Item)
  | taken (stream : StreamId) (item : Item)
  | released (stream : StreamId)
  deriving DecidableEq, Repr

/-- The stream to whose lane it happens. -/
def Event.stream : Event → StreamId
  | accepted stream _ | taken stream _ | released stream => stream

/-- The events after which nothing is kept for a stream. -/
inductive Event.Forgets (stream : StreamId) : Event → Prop where
  | taken : Forgets stream (.taken stream .endOfStream)
  | released : Forgets stream (.released stream)

theorem Event.Forgets.stream_eq {stream : StreamId} {event : Event}
    (forgets : event.Forgets stream) : event.stream = stream := by
  cases forgets with
  | taken => rfl
  | released => rfl

/-- An item was accepted for the stream since the end of the stream was last taken and since
the stream was last released. -/
def Known (stream : StreamId) (chronicle : List Event) : Prop :=
  ∃ earlier item later, chronicle = earlier ++ .accepted stream item :: later ∧
    ∀ event ∈ later, ¬event.Forgets stream

variable {stream other : StreamId} {chronicle : List Event} {event : Event} {item : Item}

theorem not_known_nil : ¬Known stream [] := by
  rintro ⟨earlier, item, later, split, _⟩
  simp at split

/-- The latest event makes a stream known, or leaves it known. -/
theorem known_concat_iff :
    Known stream (chronicle ++ [event]) ↔
      (∃ item, event = .accepted stream item) ∨
        (Known stream chronicle ∧ ¬event.Forgets stream) := by
  constructor
  · rintro ⟨earlier, item, later, split, kept⟩
    -- the item that makes the stream known is the latest event or an older one
    rcases eq_or_split_of_concat_eq split with ⟨_, rfl, _⟩ | ⟨rest, rfl⟩
    · exact .inl ⟨item, rfl⟩
    · have later_eq : rest ++ [event] = later := by simpa using split
      subst later
      refine .inr ⟨⟨earlier, item, rest, rfl, ?_⟩, ?_⟩
      · intro other other_mem
        exact kept other (List.mem_append_left _ other_mem)
      · exact kept event (List.mem_append_right _ (List.mem_singleton_self event))
  · rintro (⟨item, rfl⟩ | ⟨⟨earlier, item, later, rfl, kept⟩, remembers⟩)
    · exact ⟨chronicle, item, [], rfl, fun event event_mem => nomatch event_mem⟩
    · refine ⟨earlier, item, later ++ [event], by simp, ?_⟩
      intro other other_mem
      rcases List.mem_append.mp other_mem with old | new
      · exact kept other old
      · rw [List.mem_singleton.mp new]
        exact remembers

/-- What happens to one lane leaves the other streams as well known as they were. -/
theorem known_concat_of_ne (differ : event.stream ≠ stream) :
    Known stream (chronicle ++ [event]) ↔ Known stream chronicle := by
  rw [known_concat_iff]
  constructor
  · rintro (⟨item, rfl⟩ | ⟨known, _⟩)
    · exact absurd rfl differ
    · exact known
  · intro known
    exact .inr ⟨known, fun forgets => differ forgets.stream_eq⟩

namespace Lane

variable {lane : Lane}

theorem Sound.ended_iff (sound : lane.Sound) :
    lane.ended = true ↔ .endOfStream ∈ lane.items := by
  rcases sound with ⟨chunks, items_eq⟩
  cases ended : lane.ended with
  | false => simp [items_eq, ended]
  | true => simp [items_eq, ended]

theorem Sound.eq_nil_of_split (sound : lane.Sound) {earlier later : List Item}
    (split : lane.items = earlier ++ .endOfStream :: later) : later = [] := by
  rcases sound with ⟨chunks, items_eq⟩
  have noEnd (octets : List Bytes) : Item.endOfStream ∉ octets.map Item.chunk := by simp
  rw [items_eq] at split
  cases ended : lane.ended with
  | false =>
      rw [ended, if_neg Bool.false_ne_true, List.append_nil] at split
      exfalso
      apply noEnd chunks
      rw [split]
      simp
  | true =>
      rw [ended, if_pos rfl] at split
      rcases eq_or_split_of_concat_eq split with ⟨_, _, rfl⟩ | ⟨rest, chunks_eq⟩
      · rfl
      · exfalso
        apply noEnd chunks
        rw [chunks_eq]
        simp

theorem Sound.count_end_le_one (sound : lane.Sound) : lane.items.count .endOfStream ≤ 1 := by
  rcases sound with ⟨chunks, items_eq⟩
  have noEnd : (chunks.map Item.chunk).count .endOfStream = 0 := by simp [List.count_eq_zero]
  rw [items_eq, List.count_append, noEnd]
  split
  · simp
  · simp

end Lane

namespace Queue

variable {queue : Queue} {others : List Item}

/-- The queue is sound, and it has a lane for exactly the streams that the chronicle knows. -/
structure Chronicled (queue : Queue) (chronicle : List Event) : Prop where
  sound : queue.Sound
  known_iff (stream : StreamId) :
    (queue.lanes.get? stream).isSome = true ↔ Known stream chronicle

theorem chronicled_empty : ({} : Queue).Chronicled [] where
  sound := sound_empty
  known_iff stream := by simp [not_known_nil]

theorem isSome_lane_of_items {item : Item} (waiting : queue.items stream = item :: others) :
    (queue.lanes.get? stream).isSome = true := by
  cases present : queue.lanes.get? stream with
  | some lane => rfl
  | none => simp [items, lane, present] at waiting

theorem Chronicled.add (chronicled : queue.Chronicled chronicle)
    (notEnded : queue.hasEnd stream = false) (item : Item) :
    (queue.add stream item).Chronicled (chronicle ++ [.accepted stream item]) where
  sound := sound_add chronicled.sound notEnded item
  known_iff other := by
    by_cases same : other = stream
    · subst other
      have known : Known stream (chronicle ++ [.accepted stream item]) :=
        known_concat_iff.mpr (.inl ⟨item, rfl⟩)
      simp [Queue.add, known]
    · rw [known_concat_of_ne (Ne.symm same), ← chronicled.known_iff other]
      simp only [Queue.add, Table.get?_set_of_ne _ _ same]

theorem Chronicled.take (chronicled : queue.Chronicled chronicle)
    (waiting : queue.items stream = item :: others) :
    (queue.afterTaking stream item others).Chronicled (chronicle ++ [.taken stream item]) where
  sound := sound_afterTaking chronicled.sound waiting
  known_iff other := by
    by_cases same : other = stream
    · subst other
      rw [known_concat_iff]
      have before := (chronicled.known_iff stream).mp (isSome_lane_of_items waiting)
      cases item with
      | chunk octets =>
          -- the lane stays, even if this was its last chunk
          have remembers : ¬(Event.taken stream (.chunk octets)).Forgets stream :=
            fun forgets => nomatch forgets
          simp [afterTaking, before, remembers]
      | endOfStream => simp [afterTaking, Event.Forgets.taken]
    · rw [known_concat_of_ne (Ne.symm same), ← chronicled.known_iff other]
      cases item with
      | chunk octets => simp [afterTaking, Table.get?_set_of_ne _ _ same]
      | endOfStream => simp [afterTaking, Table.get?_erase_of_ne _ same]

theorem Chronicled.release (chronicled : queue.Chronicled chronicle) (stream : StreamId) :
    (queue.release stream).2.Chronicled (chronicle ++ [.released stream]) where
  sound := sound_release chronicled.sound stream
  known_iff other := by
    by_cases same : other = stream
    · subst other
      rw [known_concat_iff]
      simp [Queue.release, Event.Forgets.released]
    · rw [known_concat_of_ne (Ne.symm same), ← chronicled.known_iff other]
      simp only [Queue.release, Table.get?_erase_of_ne _ same]

theorem Chronicled.close (chronicled : queue.Chronicled chronicle) :
    queue.close.Chronicled chronicle :=
  ⟨⟨chronicled.sound.size_eq, chronicled.sound.lanes⟩, chronicled.known_iff⟩

/-- The queues that can be reached from the empty one, with their chronicles. Whatever is done
to a queue, by whomever, consists of these steps. -/
inductive Reached : List Event → Queue → Prop where
  | empty : Reached [] {}
  | add {chronicle : List Event} {queue : Queue} {stream : StreamId}
      (reached : Reached chronicle queue) (willing : queue.refusal? stream = none) (item : Item) :
      Reached (chronicle ++ [.accepted stream item]) (queue.add stream item)
  | take {chronicle : List Event} {queue : Queue} {stream : StreamId} {item : Item}
      {others : List Item} (reached : Reached chronicle queue)
      (waiting : queue.items stream = item :: others) :
      Reached (chronicle ++ [.taken stream item]) (queue.afterTaking stream item others)
  | release {chronicle : List Event} {queue : Queue} (reached : Reached chronicle queue)
      (stream : StreamId) :
      Reached (chronicle ++ [.released stream]) (queue.release stream).2
  | close {chronicle : List Event} {queue : Queue} (reached : Reached chronicle queue) :
      Reached chronicle queue.close

theorem Reached.chronicled (reached : Reached chronicle queue) : queue.Chronicled chronicle := by
  induction reached with
  | empty => exact chronicled_empty
  | add _ willing item ih => exact ih.add (refusal?_eq_none_iff.mp willing).2 item
  | take _ waiting ih => exact ih.take waiting
  | release _ stream ih => exact ih.release stream
  | close _ ih => exact ih.close

/-- When a delivery for a stream is refused, and why: a closed queue takes nothing, and an open
one takes nothing for a stream whose end is waiting. -/
def Refuses (queue : Queue) (stream : StreamId) (cause : Refusal) : Prop :=
  (queue.isClosed = true ∧ cause = .closed) ∨
    (queue.isClosed = false ∧ .endOfStream ∈ queue.items stream ∧ cause = .streamEnded stream)

theorem refusal?_eq_some_iff (sound : queue.Sound) {cause : Refusal} :
    queue.refusal? stream = some cause ↔ queue.Refuses stream cause := by
  have ended : queue.hasEnd stream = true ↔ .endOfStream ∈ queue.items stream :=
    (sound.lanes stream).ended_iff
  rw [Refuses, ← ended]
  cases closed : queue.isClosed with
  | true => simp [refusal?, closed, @eq_comm _ cause]
  | false =>
      cases hasEnd : queue.hasEnd stream with
      | true => simp [refusal?, closed, hasEnd, @eq_comm _ cause]
      | false => simp [refusal?, closed, hasEnd]

/-- A segment is rejected exactly if deliveries for its stream are refused. It comes back, and
the queue is what it was. -/
theorem append_eq_error_iff (sound : queue.Sound) {segment : Segment} {rejection : Rejection}
    {next : Queue} :
    (append stream segment).run queue = .error rejection next ↔
      queue.Refuses stream rejection.cause ∧ rejection.segment = segment ∧ next = queue := by
  rw [← refusal?_eq_some_iff sound]
  rcases rejection with ⟨returned, cause⟩
  cases refusal : queue.refusal? stream with
  | none => simp [append, EStateM.run, refusal]
  | some reason =>
      simp only [append, EStateM.run, refusal, EStateM.Result.error.injEq, Rejection.mk.injEq,
        Option.some.injEq]
      constructor
      · rintro ⟨⟨rfl, rfl⟩, rfl⟩
        exact ⟨rfl, rfl, rfl⟩
      · rintro ⟨rfl, rfl, rfl⟩
        exact ⟨⟨rfl, rfl⟩, rfl⟩

theorem appendEnd_eq_error_iff (sound : queue.Sound) {cause : Refusal} {next : Queue} :
    (appendEnd stream).run queue = .error cause next ↔
      queue.Refuses stream cause ∧ next = queue := by
  rw [← refusal?_eq_some_iff sound]
  cases refusal : queue.refusal? stream with
  | none => simp [appendEnd, EStateM.run, refusal]
  | some reason =>
      simp only [appendEnd, EStateM.run, refusal, EStateM.Result.error.injEq, Option.some.injEq]
      constructor
      · rintro ⟨rfl, rfl⟩
        exact ⟨rfl, rfl⟩
      · rintro ⟨rfl, rfl⟩
        exact ⟨rfl, rfl⟩

theorem size_pop (sound : queue.Sound) {item : Item} {left : Queue}
    (popped : queue.pop stream = (some item, left)) : left.size + 1 = queue.size := by
  cases waiting : queue.items stream with
  | nil =>
      rw [pop_of_items_eq_nil waiting] at popped
      cases popped
  | cons first others =>
      rw [pop_of_items_eq_cons waiting] at popped
      cases popped
      exact size_afterTaking sound waiting

theorem size_release (sound : queue.Sound) (stream : StreamId) :
    (queue.release stream).2.size + (queue.release stream).1 = queue.size := by
  have enough := pending_le_size sound stream
  simp only [Queue.release]
  omega

/-- What holds of a queue with this chronicle at any time. -/
structure Consistent (queue : Queue) (chronicle : List Event) : Prop where
  /-- A lane has ended exactly if the end of its stream waits in it. -/
  ended_iff (stream : StreamId) (lane : Lane) : queue.lanes.get? stream = some lane →
    (lane.ended = true ↔ .endOfStream ∈ lane.items)
  hasEnd_iff (stream : StreamId) :
    queue.hasEnd stream = true ↔ .endOfStream ∈ queue.items stream
  end_last (stream : StreamId) (earlier later : List Item) :
    queue.items stream = earlier ++ .endOfStream :: later → later = []
  end_once (stream : StreamId) : (queue.items stream).count .endOfStream ≤ 1
  size_eq : queue.size = queue.lanes.total fun lane => lane.items.length
  /-- Taking an item makes the size smaller by exactly one. -/
  size_pop (stream : StreamId) (item : Item) (left : Queue) :
    queue.pop stream = (some item, left) → left.size + 1 = queue.size
  size_release (stream : StreamId) :
    (queue.release stream).2.size + (queue.release stream).1 = queue.size
  lane_iff (stream : StreamId) :
    (queue.lanes.get? stream).isSome = true ↔ Known stream chronicle
  append_eq_error_iff (stream : StreamId) (segment : Segment) (rejection : Rejection)
      (next : Queue) :
    (append stream segment).run queue = .error rejection next ↔
      queue.Refuses stream rejection.cause ∧ rejection.segment = segment ∧ next = queue
  appendEnd_eq_error_iff (stream : StreamId) (cause : Refusal) (next : Queue) :
    (appendEnd stream).run queue = .error cause next ↔
      queue.Refuses stream cause ∧ next = queue

theorem Reached.consistent (reached : Reached chronicle queue) : queue.Consistent chronicle where
  ended_iff stream lane present := by
    have sound := reached.chronicled.sound.lanes stream
    rw [Queue.lane, present] at sound
    exact sound.ended_iff
  hasEnd_iff stream := (reached.chronicled.sound.lanes stream).ended_iff
  end_last stream _ _ split := (reached.chronicled.sound.lanes stream).eq_nil_of_split split
  end_once stream := (reached.chronicled.sound.lanes stream).count_end_le_one
  size_eq := reached.chronicled.sound.size_eq
  size_pop _ _ _ popped := Queue.size_pop reached.chronicled.sound popped
  size_release := Queue.size_release reached.chronicled.sound
  lane_iff := reached.chronicled.known_iff
  append_eq_error_iff _ _ _ _ := Queue.append_eq_error_iff reached.chronicled.sound
  appendEnd_eq_error_iff _ _ _ := Queue.appendEnd_eq_error_iff reached.chronicled.sound

end Queue

end Delivery

end Reassembly
