import Reassembly.Consumer
import Reassembly.Proofs.Delivery.Conservation

/-!
# What consumers take

A consumer that is let run takes items of its stream, in the order in which they wait, and
does nothing else to the queue. It stops when it is satisfied or when nothing is left, so a
consumer that gives up its stream discards nothing.
-/

namespace Reassembly

open Delivery (Item Queue Departure Traffic)

namespace Consumer

def Progress.consumer : Progress → Consumer
  | finished consumer => consumer
  | waiting consumer => consumer

/-- The consumer, if it has finished. -/
def Progress.ifFinished : Progress → List Consumer
  | finished consumer => [consumer]
  | waiting _ => []

/-- The consumer, if it waits. -/
def Progress.ifWaiting : Progress → List Consumer
  | finished _ => []
  | waiting consumer => [consumer]

/-- The departures of the items that a consumer has taken since it was let run. -/
def departures (before after : Consumer) : List Departure :=
  Traffic.leaving before.stream (.taken before.name) (after.taken.drop before.taken.length)

/-- The consumer after it has taken more items. -/
def withMore (consumer : Consumer) (items : List Item) : Consumer :=
  { consumer with taken := consumer.taken ++ items }

@[simp]
theorem stream_withMore (consumer : Consumer) (items : List Item) :
    (consumer.withMore items).stream = consumer.stream := rfl

@[simp]
theorem want_withMore (consumer : Consumer) (items : List Item) :
    (consumer.withMore items).want = consumer.want := rfl

@[simp]
theorem withMore_withMore (consumer : Consumer) (first second : List Item) :
    (consumer.withMore first).withMore second = consumer.withMore (first ++ second) := by
  simp [withMore]

/-- A consumer and a queue after the consumer has taken these items, and a limit on them. -/
structure Drew (consumer : Consumer) (queue : Queue) (limit : Nat) (items : List Item)
    (after : Consumer × Queue) : Prop where
  consumer_eq : after.1 = consumer.withMore items
  conserves : queue.Conserves
    { departed := Traffic.leaving consumer.stream (.taken consumer.name) items } after.2
  isClosed_eq : after.2.isClosed = queue.isClosed
  wakeUps_eq : after.2.wakeUps = queue.wakeUps
  /-- The consumer stops before the limit only if it has all that it can have. -/
  stops : after.1.isSatisfied = true ∨ items.length = limit ∨
    after.2.items consumer.stream = []

variable {consumer : Consumer} {queue : Queue}

theorem Drew.nothing {limit : Nat} (sound : queue.Sound)
    (stops : consumer.isSatisfied = true ∨ 0 = limit ∨ queue.items consumer.stream = []) :
    Drew consumer queue limit [] (consumer, queue) where
  consumer_eq := by
    rw [withMore, List.append_nil]
  conserves := .refl sound
  isClosed_eq := rfl
  wakeUps_eq := rfl
  stops := stops

theorem draw_of_isSatisfied (satisfied : consumer.isSatisfied = true) (limit : Nat) :
    consumer.draw limit queue = (consumer, queue) := by
  cases limit with
  | zero => rfl
  | succ limit => simp [draw, satisfied]

theorem draw_of_items_eq_nil (unsatisfied : consumer.isSatisfied = false)
    (waiting : queue.items consumer.stream = []) (limit : Nat) :
    consumer.draw (limit + 1) queue = (consumer, queue) := by
  simp [draw, unsatisfied, Queue.pop_of_items_eq_nil waiting]

theorem draw_of_items_eq_cons (unsatisfied : consumer.isSatisfied = false) {item : Item}
    {others : List Item} (waiting : queue.items consumer.stream = item :: others)
    (limit : Nat) :
    consumer.draw (limit + 1) queue
      = (consumer.withMore [item]).draw limit
        (queue.afterTaking consumer.stream item others) := by
  simp [draw, unsatisfied, Queue.pop_of_items_eq_cons waiting, withMore]

/-- A consumer draws from its stream one item after the other. -/
theorem exists_drew (consumer : Consumer) (sound : queue.Sound) (limit : Nat) :
    ∃ items, Drew consumer queue limit items (consumer.draw limit queue) := by
  induction limit generalizing consumer queue with
  | zero => exact ⟨[], .nothing sound (.inr (.inl rfl))⟩
  | succ limit ih =>
      cases satisfied : consumer.isSatisfied with
      | true =>
          rw [draw_of_isSatisfied satisfied]
          exact ⟨[], .nothing sound (.inl satisfied)⟩
      | false =>
          cases waiting : queue.items consumer.stream with
          | nil =>
              rw [draw_of_items_eq_nil satisfied waiting]
              exact ⟨[], .nothing sound (.inr (.inr waiting))⟩
          | cons item others =>
              have first := Queue.conserves_pop sound consumer.stream (.taken consumer.name)
              rw [Queue.pop_of_items_eq_cons waiting] at first
              rcases ih (consumer.withMore [item]) first.sound with ⟨items, later⟩
              rw [draw_of_items_eq_cons satisfied waiting]
              refine ⟨item :: items, ?_⟩
              constructor
              · rw [later.consumer_eq, withMore_withMore]
                rfl
              · exact first.trans later.conserves
              · exact later.isClosed_eq
              · exact later.wakeUps_eq
              · rcases later.stops with done | spent | empty
                · exact .inl done
                · exact .inr (.inl (congrArg (· + 1) spent))
                · exact .inr (.inr empty)

/-- A consumer that may take all that waits stops when it is satisfied or nothing is left. -/
theorem Drew.exhausts {items : List Item} {after : Consumer × Queue}
    (drew : Drew consumer queue (queue.pending consumer.stream) items after)
    (unsatisfied : after.1.isSatisfied = false) : after.2.items consumer.stream = [] := by
  rcases drew.stops with satisfied | spent | empty
  · rw [unsatisfied] at satisfied
    cases satisfied
  · have conserved := congrArg List.length (drew.conserves.items_eq consumer.stream)
    rw [Traffic.departedFor_leaving_self] at conserved
    simp only [List.length_append, Queue.pending] at conserved spent
    apply List.eq_nil_of_length_eq_zero
    have accepted : ({ departed := Traffic.leaving consumer.stream (.taken consumer.name) items } :
        Traffic).acceptedFor consumer.stream = [] := rfl
    rw [accepted] at conserved
    simp only [List.length_nil] at conserved
    omega
  · exact empty

theorem conserves_release_of_items_eq_nil {queue : Queue} {stream : StreamId}
    (sound : queue.Sound) (empty : queue.items stream = []) :
    queue.Conserves {} (queue.release stream).2 := by
  have released := Queue.conserves_release sound stream
  rwa [empty] at released

/-- A consumer that is let run takes the items that it then has more than before, and does
nothing else to the items of the queue. -/
structure Advanced (consumer : Consumer) (queue : Queue) (progress : Progress) (after : Queue) :
    Prop where
  consumer_eq : ∃ items, progress.consumer = consumer.withMore items
  conserves : queue.Conserves { departed := consumer.departures progress.consumer } after
  isClosed_eq : after.isClosed = queue.isClosed
  wakeUps_eq : after.wakeUps = queue.wakeUps

theorem departures_withMore (consumer : Consumer) (items : List Item) :
    consumer.departures (consumer.withMore items)
      = Traffic.leaving consumer.stream (.taken consumer.name) items := by
  simp [departures, withMore]

/-- How a consumer goes on that has drawn all that it can. -/
inductive Settles (drawn : Consumer) (left : Queue) : Progress × Queue → Prop where
  | satisfied (satisfied : drawn.isSatisfied = true) : Settles drawn left (.finished drawn, left)
  | stops (unsatisfied : drawn.isSatisfied = false) (closed : left.isClosed = true)
      (want : drawn.want ≠ .request) : Settles drawn left (.finished drawn, left)
  | givesUp (unsatisfied : drawn.isSatisfied = false) (closed : left.isClosed = true)
      (want : drawn.want = .request) :
      Settles drawn left (.finished drawn, (left.release drawn.stream).2)
  | waits (unsatisfied : drawn.isSatisfied = false) (isOpen : left.isClosed = false) :
      Settles drawn left (.waiting drawn, left)

theorem settles_advance (consumer : Consumer) (queue : Queue) :
    Settles (consumer.draw (queue.pending consumer.stream) queue).1
      (consumer.draw (queue.pending consumer.stream) queue).2 (consumer.advance queue) := by
  unfold advance
  generalize consumer.draw (queue.pending consumer.stream) queue = result
  rcases result with ⟨drawn, left⟩
  dsimp only
  cases satisfied : drawn.isSatisfied with
  | true => exact .satisfied satisfied
  | false =>
      cases closed : left.isClosed with
      | false => exact .waits satisfied closed
      | true =>
          cases want : drawn.want with
          | item => exact .stops satisfied closed (by simp [want])
          | chunks => exact .stops satisfied closed (by simp [want])
          | request => exact .givesUp satisfied closed want

theorem advanced (consumer : Consumer) (sound : queue.Sound) :
    Advanced consumer queue (consumer.advance queue).1 (consumer.advance queue).2 := by
  rcases exists_drew consumer sound (queue.pending consumer.stream) with ⟨items, drew⟩
  have settles := consumer.settles_advance queue
  generalize consumer.advance queue = result at settles ⊢
  generalize consumer.draw (queue.pending consumer.stream) queue = after at drew settles
  rcases after with ⟨drawn, left⟩
  have consumer_eq := drew.consumer_eq
  have conserves := drew.conserves
  rw [← departures_withMore, ← consumer_eq] at conserves
  dsimp only at conserves consumer_eq settles
  cases settles with
  | satisfied => exact ⟨⟨items, consumer_eq⟩, conserves, drew.isClosed_eq, drew.wakeUps_eq⟩
  | stops => exact ⟨⟨items, consumer_eq⟩, conserves, drew.isClosed_eq, drew.wakeUps_eq⟩
  | waits => exact ⟨⟨items, consumer_eq⟩, conserves, drew.isClosed_eq, drew.wakeUps_eq⟩
  | givesUp unsatisfied closed want =>
      have sameStream : drawn.stream = consumer.stream := by
        rw [consumer_eq]
        rfl
      -- nothing is left of the stream, so giving it up loses nothing
      have empty := drew.exhausts unsatisfied
      rw [← sameStream] at empty
      have released :=
        conserves.trans (conserves_release_of_items_eq_nil drew.conserves.sound empty)
      rw [Traffic.append_empty] at released
      exact ⟨⟨items, consumer_eq⟩, released, drew.isClosed_eq, drew.wakeUps_eq⟩

section Whole

variable {chunks : List Bytes}

/-- A consumer that is after all of a stream is satisfied once it has taken the end. -/
theorem isSatisfied_eq_atEnd (whole : consumer.want ≠ .item) :
    consumer.isSatisfied = consumer.atEnd := by
  cases want : consumer.want with
  | item => exact absurd want whole
  | chunks => rw [isSatisfied, want]
  | request => rw [isSatisfied, want]

theorem atEnd_withMore_chunk (consumer : Consumer) (octets : Bytes) :
    (consumer.withMore [.chunk octets]).atEnd = false := by
  simp [atEnd, withMore]

theorem unsatisfied_of_chunk (whole : consumer.want ≠ .item) (octets : Bytes) :
    (consumer.withMore [.chunk octets]).isSatisfied = false := by
  rw [isSatisfied_eq_atEnd (by rwa [want_withMore]), atEnd_withMore_chunk]

theorem atEnd_withMore_end (consumer : Consumer) (items : List Item) :
    (consumer.withMore (items ++ [.endOfStream])).atEnd = true := by
  simp [atEnd, withMore]

theorem satisfied_of_end (whole : consumer.want ≠ .item) (items : List Item) :
    (consumer.withMore (items ++ [.endOfStream])).isSatisfied = true := by
  rw [isSatisfied_eq_atEnd (by rwa [want_withMore]), atEnd_withMore_end]

theorem chunks_withMore (fresh : consumer.taken = []) (chunks : List Bytes) :
    (consumer.withMore (chunks.map .chunk)).chunks = chunks := by
  simp only [Consumer.chunks, withMore, fresh, List.nil_append, List.filterMap_map]
  exact List.filterMap_some

theorem chunks_withMore_end (fresh : consumer.taken = []) (chunks : List Bytes) :
    (consumer.withMore (chunks.map .chunk ++ [.endOfStream])).chunks = chunks := by
  have taken := chunks_withMore fresh chunks
  simp only [Consumer.chunks, withMore, fresh, List.nil_append] at taken
  simp [Consumer.chunks, withMore, fresh, taken]

theorem result_of_atEnd (want : consumer.want = .request) (atEnd : consumer.atEnd = true) :
    consumer.result = .request (Request.assemble consumer.stream consumer.chunks.flatten) := by
  simp only [result, want, atEnd, if_true]

/-- A consumer that is after all of a stream takes all chunks and the end of the stream. -/
theorem draw_whole (whole : consumer.want ≠ .item) (unfinished : consumer.atEnd = false)
    (waiting : queue.items consumer.stream = chunks.map .chunk ++ [.endOfStream]) {limit : Nat}
    (enough : chunks.length < limit) :
    ∃ left, consumer.draw limit queue
        = (consumer.withMore (chunks.map .chunk ++ [.endOfStream]), left) ∧
      left.lane consumer.stream = {} := by
  induction chunks generalizing consumer queue limit with
  | nil =>
      rcases limit with _ | limit
      · cases enough
      · have unsatisfied := (isSatisfied_eq_atEnd whole).trans unfinished
        rw [draw_of_items_eq_cons unsatisfied waiting]
        refine ⟨_, draw_of_isSatisfied (satisfied_of_end whole []) limit, ?_⟩
        exact Queue.lane_afterTaking_endOfStream queue consumer.stream []
  | cons octets later ih =>
      rcases limit with _ | limit
      · cases enough
      · have unsatisfied := (isSatisfied_eq_atEnd whole).trans unfinished
        have left : (queue.afterTaking consumer.stream (.chunk octets)
            (later.map .chunk ++ [.endOfStream])).items consumer.stream
            = later.map .chunk ++ [.endOfStream] := by
          simp [Queue.items]
        have rest := ih (by rwa [want_withMore]) (atEnd_withMore_chunk consumer octets) left
          (Nat.lt_of_succ_lt_succ enough)
        rcases rest with ⟨after, drawn, lane⟩
        refine ⟨after, ?_, lane⟩
        refine (draw_of_items_eq_cons unsatisfied waiting limit).trans (drawn.trans ?_)
        rw [withMore_withMore]
        rfl

/-- Once the end of a stream waits, a consumer that is after its request finishes, with what
the chunks spell, and leaves nothing of the stream behind. -/
theorem advance_request (want : consumer.want = .request) (fresh : consumer.taken = [])
    (waiting : queue.items consumer.stream = chunks.map .chunk ++ [.endOfStream]) :
    ∃ after left, consumer.advance queue = (.finished after, left) ∧
      after.result = .request (Request.assemble consumer.stream chunks.flatten) ∧
      left.lane consumer.stream = {} := by
  have whole : consumer.want ≠ .item := by simp [want]
  have unfinished : consumer.atEnd = false := by
    rw [atEnd, fresh]
    rfl
  have enough : chunks.length < queue.pending consumer.stream := by
    simp [Queue.pending, waiting]
  rcases draw_whole whole unfinished waiting enough with ⟨left, drawn, lane⟩
  refine ⟨consumer.withMore (chunks.map .chunk ++ [.endOfStream]), left, ?_, ?_, lane⟩
  · rw [advance, drawn]
    exact if_pos (satisfied_of_end whole _)
  · have wanted : (consumer.withMore (chunks.map .chunk ++ [.endOfStream])).want = .request := want
    rw [result_of_atEnd wanted (atEnd_withMore_end consumer _), chunks_withMore_end fresh]
    rfl

end Whole

end Consumer

end Reassembly
