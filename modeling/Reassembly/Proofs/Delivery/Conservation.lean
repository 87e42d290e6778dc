import Reassembly.Proofs.Delivery.Soundness

/-!
# Conservation of items

The traffic of a queue is what it has accepted and what has left it. Between any two
moments the queue conserves items: for each stream, those that waited at first and those
accepted since are those that have left and those that wait now, in this order. The size
accounts for all of them.
-/

namespace Reassembly

namespace Delivery

/-- How an item leaves a queue. -/
inductive Way where
  /-- Someone took it without waiting. -/
  | popped
  /-- The consumer of this name took it. -/
  | taken (consumer : String)
  /-- It went away with all that waited for its stream. -/
  | discarded
  deriving DecidableEq, Repr

/-- An item that left a queue. -/
structure Departure where
  stream : StreamId
  item : Item
  way : Way
  deriving DecidableEq, Repr

/-- What went into a queue and what came out of it, each oldest first. -/
structure Traffic where
  accepted : List (StreamId × Item) := []
  departed : List Departure := []
  deriving DecidableEq, Repr

namespace Traffic

def append (earlier later : Traffic) : Traffic where
  accepted := earlier.accepted ++ later.accepted
  departed := earlier.departed ++ later.departed

instance : Append Traffic := ⟨append⟩

@[simp]
theorem accepted_append (earlier later : Traffic) :
    (earlier ++ later).accepted = earlier.accepted ++ later.accepted := rfl

@[simp]
theorem departed_append (earlier later : Traffic) :
    (earlier ++ later).departed = earlier.departed ++ later.departed := rfl

theorem append_empty (traffic : Traffic) : traffic ++ {} = traffic := by
  change traffic.append {} = traffic
  simp [append]

def acceptedFor (traffic : Traffic) (stream : StreamId) : List Item :=
  (traffic.accepted.filter (·.1 = stream)).map Prod.snd

def departedFor (traffic : Traffic) (stream : StreamId) : List Item :=
  (traffic.departed.filter (·.stream = stream)).map Departure.item

@[simp]
theorem acceptedFor_append (earlier later : Traffic) (stream : StreamId) :
    (earlier ++ later).acceptedFor stream
      = earlier.acceptedFor stream ++ later.acceptedFor stream := by
  simp [acceptedFor]

@[simp]
theorem departedFor_append (earlier later : Traffic) (stream : StreamId) :
    (earlier ++ later).departedFor stream
      = earlier.departedFor stream ++ later.departedFor stream := by
  simp [departedFor]

/-- Items that left together, all from one stream and in one way. -/
def leaving (stream : StreamId) (way : Way) (items : List Item) : List Departure :=
  items.map fun item => { stream, item, way }

theorem departedFor_leaving_self (stream : StreamId) (way : Way) (items : List Item) :
    ({ departed := leaving stream way items } : Traffic).departedFor stream = items := by
  simp [departedFor, leaving, List.filter_map, Function.comp_def]

theorem departedFor_leaving_of_ne {stream other : StreamId} (differ : other ≠ stream) (way : Way)
    (items : List Item) :
    ({ departed := leaving stream way items } : Traffic).departedFor other = [] := by
  simp [departedFor, leaving, List.filter_map, Function.comp_def, Ne.symm differ]

end Traffic

namespace Queue

/-- From one moment to another, a queue stays sound and conserves the items of each stream
and their total number. -/
structure Conserves (before : Queue) (traffic : Traffic) (after : Queue) : Prop where
  sound : after.Sound
  items_eq (stream : StreamId) :
    before.items stream ++ traffic.acceptedFor stream
      = traffic.departedFor stream ++ after.items stream
  size_eq : before.size + traffic.accepted.length = traffic.departed.length + after.size

variable {before middle after queue : Queue}

theorem Conserves.refl (sound : queue.Sound) : Conserves queue {} queue where
  sound := sound
  items_eq stream := by simp [Traffic.acceptedFor, Traffic.departedFor]
  size_eq := by simp

/-- Traffic may be watched for some time, and then for some more. -/
theorem Conserves.trans {earlier later : Traffic} (first : Conserves before earlier middle)
    (second : Conserves middle later after) : Conserves before (earlier ++ later) after where
  sound := second.sound
  items_eq stream := by
    rw [Traffic.acceptedFor_append, Traffic.departedFor_append, ← List.append_assoc,
      first.items_eq, List.append_assoc, second.items_eq, List.append_assoc]
  size_eq := by
    have firstSize := first.size_eq
    have secondSize := second.size_eq
    simp only [Traffic.accepted_append, Traffic.departed_append, List.length_append]
    omega

theorem conserves_add (sound : queue.Sound) {stream : StreamId}
    (notEnded : queue.hasEnd stream = false) (item : Item) :
    Conserves queue { accepted := [(stream, item)] } (queue.add stream item) where
  sound := sound_add sound notEnded item
  items_eq other := by
    by_cases same : other = stream
    · subst other
      simp [Traffic.acceptedFor, Traffic.departedFor]
    · simp [Traffic.acceptedFor, Traffic.departedFor, items_add_of_ne queue item same,
        Ne.symm same]
  size_eq := by simp [add]

theorem conserves_append_ok (sound : queue.Sound) {stream : StreamId} {segment : Segment}
    (accepted : (append stream segment).run queue = .ok () after) :
    Conserves queue { accepted := [(stream, .chunk segment.bytes)] } after := by
  rcases eq_add_of_append_eq_ok accepted with ⟨willing, rfl⟩
  exact conserves_add sound (refusal?_eq_none_iff.mp willing).2 _

theorem conserves_appendEnd_ok (sound : queue.Sound) {stream : StreamId}
    (accepted : (appendEnd stream).run queue = .ok () after) :
    Conserves queue { accepted := [(stream, .endOfStream)] } after := by
  rcases eq_add_of_appendEnd_eq_ok accepted with ⟨willing, rfl⟩
  exact conserves_add sound (refusal?_eq_none_iff.mp willing).2 _

/-- Whoever pops an item takes exactly that item away. -/
theorem conserves_pop (sound : queue.Sound) (stream : StreamId) (way : Way) :
    Conserves queue { departed := Traffic.leaving stream way (queue.pop stream).1.toList }
      (queue.pop stream).2 := by
  cases waiting : queue.items stream with
  | nil =>
      rw [pop_of_items_eq_nil waiting]
      exact .refl sound
  | cons item others =>
      rw [pop_of_items_eq_cons waiting]
      have size := size_afterTaking sound waiting
      refine ⟨sound_afterTaking sound waiting, ?_, ?_⟩
      · intro other
        by_cases same : other = stream
        · subst other
          rw [items_afterTaking_self sound waiting, waiting, Option.toList_some,
            Traffic.departedFor_leaving_self]
          simp [Traffic.acceptedFor]
        · have frame : (queue.afterTaking stream item others).items other = queue.items other :=
            congrArg Lane.items (lane_afterTaking_of_ne queue item others same)
          rw [Traffic.departedFor_leaving_of_ne same, frame]
          simp [Traffic.acceptedFor]
      · simp only [Traffic.leaving, Option.toList_some, List.map_cons, List.map_nil,
          List.length_cons, List.length_nil]
        omega

/-- Releasing a stream discards what waits for it, and nothing else. -/
theorem conserves_release (sound : queue.Sound) (stream : StreamId) :
    Conserves queue { departed := Traffic.leaving stream .discarded (queue.items stream) }
      (queue.release stream).2 where
  sound := sound_release sound stream
  items_eq other := by
    by_cases same : other = stream
    · subst other
      rw [Traffic.departedFor_leaving_self]
      simp [Traffic.acceptedFor, items]
    · have frame : (queue.release stream).2.items other = queue.items other :=
        congrArg Lane.items (lane_release_of_ne queue same)
      rw [Traffic.departedFor_leaving_of_ne same, frame]
      simp [Traffic.acceptedFor]
  size_eq := by
    have enough := pending_le_size sound stream
    simp only [pending] at enough
    simp only [Traffic.leaving, release, pending, List.length_nil, List.length_map]
    omega

theorem conserves_close (sound : queue.Sound) : Conserves queue {} queue.close where
  sound := ⟨sound.size_eq, sound.lanes⟩
  items_eq := (Conserves.refl sound).items_eq
  size_eq := (Conserves.refl sound).size_eq

end Queue

end Delivery

end Reassembly
