import Reassembly.Delivery.Queue

/-!
# What holds of a queue at any time

The size of a queue is the number of items in all lanes, and the end of a stream is the last
item of its lane. Every operation keeps both facts. The second one matters because taking
the end of a stream removes its lane, which must not lose an item.

An operation that delivers either adds an item or leaves the queue as it was.
-/

namespace Reassembly

namespace Table

variable {Key Value : Type} [DecidableEq Key] (weigh : Value → Nat)

/-- The weights of all values, added up. -/
def total (table : Table Key Value) : Nat :=
  table.values.foldr (fun value others => weigh value + others) 0

theorem total_erase (table : Table Key Value) (key : Key) :
    (table.erase key).total weigh + (table.get? key).elim 0 weigh = table.total weigh := by
  rcases table with ⟨entries, keys_nodup⟩
  induction entries with
  | nil => rfl
  | cons entry later ih =>
      rcases entry with ⟨first, value⟩
      simp only [List.map_cons, List.nodup_cons] at keys_nodup
      have rest := ih keys_nodup.2
      simp only [total, values, erase, get?] at rest ⊢
      by_cases here : first = key
      · subst first
        have kept : later.filter (·.1 ≠ key) = later := by
          apply List.filter_eq_self.mpr
          intro other mem
          have differ : other.1 ≠ key := by
            rintro rfl
            exact keys_nodup.1 (List.mem_map_of_mem mem)
          simpa using differ
        simp only [ne_eq, decide_not] at kept
        simp [kept, Nat.add_comm]
      · simp only [ne_eq, decide_not] at rest
        simp only [ne_eq, here, not_false_eq_true, decide_false, decide_not, Bool.not_false,
          List.filter_cons_of_pos, List.map_cons, List.foldr_cons,
          Bool.false_eq_true, List.find?_cons_of_neg]
        omega

/-- A value that is set takes the place of the one before in the total. -/
theorem total_set (table : Table Key Value) (key : Key) (value : Value) :
    (table.set key value).total weigh + (table.get? key).elim 0 weigh
      = table.total weigh + weigh value := by
  have others := total_erase weigh table key
  have split : (table.set key value).total weigh
      = weigh value + (table.erase key).total weigh := rfl
  omega

end Table

namespace Delivery

namespace Lane

/-- A lane holds chunks, and the end of its stream after them if it has ended. -/
def Sound (lane : Lane) : Prop :=
  ∃ chunks : List Bytes,
    lane.items = chunks.map .chunk ++ if lane.ended then [.endOfStream] else []

variable {lane : Lane} {others : List Item}

theorem sound_empty : ({} : Lane).Sound := ⟨[], rfl⟩

theorem Sound.add (sound : lane.Sound) (notEnded : lane.ended = false) (item : Item) :
    (lane.add item).Sound := by
  rcases sound with ⟨chunks, items_eq⟩
  rw [notEnded] at items_eq
  cases item with
  | chunk octets =>
      refine ⟨chunks ++ [octets], ?_⟩
      simp [Lane.add, items_eq, notEnded]
  | endOfStream =>
      refine ⟨chunks, ?_⟩
      simp [Lane.add, items_eq]

theorem Sound.eq_nil_of_endOfStream (sound : lane.Sound)
    (items : lane.items = .endOfStream :: others) : others = [] := by
  rcases sound with ⟨chunks, items_eq⟩
  rw [items] at items_eq
  cases chunks with
  | nil =>
      cases ended : lane.ended with
      | false => simp [ended] at items_eq
      | true => simpa [ended] using items_eq
  | cons octets later => simp at items_eq

theorem Sound.rest (sound : lane.Sound) {octets : Bytes}
    (items : lane.items = .chunk octets :: others) :
    ({ lane with items := others } : Lane).Sound := by
  rcases sound with ⟨chunks, items_eq⟩
  rw [items] at items_eq
  cases chunks with
  | nil =>
      exfalso
      cases ended : lane.ended with
      | false => simp [ended] at items_eq
      | true => simp [ended] at items_eq
  | cons first later => exact ⟨later, (List.cons.inj items_eq).2⟩

end Lane

namespace Queue

/-- The size is that of all lanes, and every lane is sound. -/
structure Sound (queue : Queue) : Prop where
  size_eq : queue.size = queue.lanes.total fun lane => lane.items.length
  lanes : ∀ stream, (queue.lane stream).Sound

variable {queue after : Queue} {stream : StreamId}

theorem pending_eq_elim (queue : Queue) (stream : StreamId) :
    queue.pending stream = (queue.lanes.get? stream).elim 0 fun lane => lane.items.length := by
  unfold pending items lane
  cases queue.lanes.get? stream with
  | none => rfl
  | some lane => rfl

theorem total_set_lane (sound : queue.Sound) (stream : StreamId) (lane : Lane) :
    ((queue.lanes.set stream lane).total fun lane => lane.items.length) + queue.pending stream
      = queue.size + lane.items.length := by
  rw [pending_eq_elim, sound.size_eq]
  exact Table.total_set _ _ _ _

theorem total_erase_lane (sound : queue.Sound) (stream : StreamId) :
    ((queue.lanes.erase stream).total fun lane => lane.items.length) + queue.pending stream
      = queue.size := by
  rw [pending_eq_elim, sound.size_eq]
  exact Table.total_erase _ _ _

theorem pending_le_size (sound : queue.Sound) (stream : StreamId) :
    queue.pending stream ≤ queue.size := by
  have erased := total_erase_lane sound stream
  omega

theorem sound_empty : ({} : Queue).Sound where
  size_eq := rfl
  lanes _ := Lane.sound_empty

theorem sound_add (sound : queue.Sound) (notEnded : queue.hasEnd stream = false) (item : Item) :
    (queue.add stream item).Sound where
  size_eq := by
    have total := total_set_lane sound stream ((queue.lane stream).add item)
    have grown : ((queue.lane stream).add item).items.length = queue.pending stream + 1 := by
      simp [Lane.add, pending, items]
    simp only [add]
    omega
  lanes other := by
    by_cases same : other = stream
    · subst other
      rw [lane_add_self]
      exact (sound.lanes stream).add notEnded item
    · rw [lane_add_of_ne queue item same]
      exact sound.lanes other

section Taking

variable {item : Item} {others : List Item}
  (sound : queue.Sound) (waiting : queue.items stream = item :: others)

include sound waiting

theorem items_afterTaking_self : (queue.afterTaking stream item others).items stream = others := by
  cases item with
  | chunk octets => simp [items]
  | endOfStream =>
      rw [(sound.lanes stream).eq_nil_of_endOfStream waiting]
      simp [items]

theorem size_afterTaking : (queue.afterTaking stream item others).size + 1 = queue.size := by
  have count : queue.pending stream = others.length + 1 := by simp [pending, waiting]
  have enough := pending_le_size sound stream
  simp only [afterTaking]
  omega

theorem sound_afterTaking : (queue.afterTaking stream item others).Sound where
  size_eq := by
    have count : queue.pending stream = others.length + 1 := by simp [pending, waiting]
    have size := size_afterTaking sound waiting
    cases item with
    | chunk octets =>
        have total := total_set_lane sound stream { queue.lane stream with items := others }
        dsimp only at total
        simp only [afterTaking, reduceCtorEq, ↓reduceIte] at size ⊢
        omega
    | endOfStream =>
        have total := total_erase_lane sound stream
        rw [(sound.lanes stream).eq_nil_of_endOfStream waiting, List.length_nil] at count
        simp only [afterTaking, ↓reduceIte] at size ⊢
        omega
  lanes other := by
    by_cases same : other = stream
    · subst other
      cases item with
      | chunk octets =>
          rw [lane_afterTaking_chunk]
          exact (sound.lanes stream).rest waiting
      | endOfStream =>
          rw [lane_afterTaking_endOfStream]
          exact Lane.sound_empty
    · rw [lane_afterTaking_of_ne queue item others same]
      exact sound.lanes other

end Taking

theorem sound_release (sound : queue.Sound) (stream : StreamId) :
    (queue.release stream).2.Sound where
  size_eq := by
    have total := total_erase_lane sound stream
    simp only [release]
    omega
  lanes other := by
    by_cases same : other = stream
    · subst other
      rw [lane_release_self]
      exact Lane.sound_empty
    · rw [lane_release_of_ne queue same]
      exact sound.lanes other

theorem run_append_of_willing (willing : queue.refusal? stream = none)
    (segment : Segment) :
    (append stream segment).run queue = .ok () (queue.add stream (.chunk segment.bytes)) := by
  simp only [append, EStateM.run, willing]

theorem run_appendEnd_of_willing (willing : queue.refusal? stream = none) :
    (appendEnd stream).run queue = .ok () (queue.add stream .endOfStream) := by
  simp only [appendEnd, EStateM.run, willing]

/-- A segment that is accepted becomes a chunk with its octets. -/
theorem eq_add_of_append_eq_ok {segment : Segment}
    (accepted : (append stream segment).run queue = .ok () after) :
    queue.refusal? stream = none ∧ after = queue.add stream (.chunk segment.bytes) := by
  cases refusal : queue.refusal? stream with
  | none =>
      rw [run_append_of_willing refusal] at accepted
      cases accepted
      exact ⟨rfl, rfl⟩
  | some cause =>
      simp only [append, EStateM.run, refusal] at accepted
      cases accepted

/-- A refused segment comes back, and leaves no trace. -/
theorem append_error {segment : Segment} {rejection : Rejection}
    (refused : (append stream segment).run queue = .error rejection after) :
    rejection.segment = segment ∧ after = queue := by
  cases refusal : queue.refusal? stream with
  | none =>
      rw [run_append_of_willing refusal] at refused
      cases refused
  | some cause =>
      simp only [append, EStateM.run, refusal] at refused
      cases refused
      exact ⟨rfl, rfl⟩

theorem eq_add_of_appendEnd_eq_ok
    (accepted : (appendEnd stream).run queue = .ok () after) :
    queue.refusal? stream = none ∧ after = queue.add stream .endOfStream := by
  cases refusal : queue.refusal? stream with
  | none =>
      rw [run_appendEnd_of_willing refusal] at accepted
      cases accepted
      exact ⟨rfl, rfl⟩
  | some cause =>
      simp only [appendEnd, EStateM.run, refusal] at accepted
      cases accepted

theorem appendEnd_error {cause : Refusal}
    (refused : (appendEnd stream).run queue = .error cause after) : after = queue := by
  cases refusal : queue.refusal? stream with
  | none =>
      rw [run_appendEnd_of_willing refusal] at refused
      cases refused
  | some cause =>
      simp only [appendEnd, EStateM.run, refusal] at refused
      cases refused
      rfl

end Queue

end Delivery

end Reassembly
