import Mathlib.Algebra.GroupWithZero.Nat
import Reassembly.Proofs.Delivery.Soundness

/-!
# Appends in a row

A segment that is appended to again and again keeps the leading octets of all pieces together, as
many as it has room for. This file runs appends one after the other with the counts that they
report. That the run as a whole acts like one append rests on what a cut piece leaves behind: a
segment without room, into which no later piece gets a single octet.
-/

namespace Reassembly

/-- What some contents hold in the place of a piece that was appended behind earlier ones. -/
def Bytes.share (contents : Bytes) (earlier : List Bytes) (piece : Bytes) : Bytes :=
  (contents.drop earlier.flatten.length).take piece.length

theorem Bytes.share_take (capacity : Nat) (earlier : List Bytes) (piece : Bytes)
    (later : List Bytes) :
    share ((earlier ++ piece :: later).flatten.take capacity) earlier piece
      = piece.take (capacity - earlier.flatten.length) := by
  rw [share, List.flatten_append, List.flatten_cons, List.drop_take, List.drop_left,
    List.take_take, List.take_append_of_le_length (Nat.min_le_left _ _), List.take_eq_take_iff]
  -- both are leading octets of the piece, and equally many
  omega

namespace Segment

/-- Appends pieces one after the other and lists the counts that are reported. -/
def appendAll (segment : Segment) (pieces : List Bytes) : List Nat × Segment :=
  match pieces with
  | [] => ([], segment)
  | piece :: later =>
      let (count, filled) := segment.append piece
      let (counts, last) := filled.appendAll later
      (count :: counts, last)

variable (segment : Segment) (pieces : List Bytes)

theorem size_add_remaining : segment.size + segment.remaining = segment.capacity :=
  Nat.add_sub_cancel' segment.size_le_capacity

theorem appendAll_cons (piece : Bytes) (later : List Bytes) :
    segment.appendAll (piece :: later)
      = ((segment.append piece).1 :: ((segment.append piece).2.appendAll later).1,
        ((segment.append piece).2.appendAll later).2) := rfl

theorem appendAll_append (earlier later : List Bytes) :
    segment.appendAll (earlier ++ later)
      = ((segment.appendAll earlier).1 ++ ((segment.appendAll earlier).2.appendAll later).1,
        ((segment.appendAll earlier).2.appendAll later).2) := by
  induction earlier generalizing segment with
  | nil => rfl
  | cons piece rest ih =>
      rw [List.cons_append, appendAll_cons, ih, appendAll_cons]
      rfl

/-- The pieces leave behind what one append of all their octets would have left. -/
theorem appendAll_snd : (segment.appendAll pieces).2 = (segment.append pieces.flatten).2 := by
  have folded : (segment.appendAll pieces).2
      = pieces.foldl (fun filled piece => (filled.append piece).2) segment := by
    induction pieces generalizing segment with
    | nil => rfl
    | cons piece later ih => exact ih (segment.append piece).2
  rw [folded, foldl_append]

theorem capacity_appendAll : (segment.appendAll pieces).2.capacity = segment.capacity := by
  rw [appendAll_snd, capacity_append]

theorem remaining_appendAll :
    (segment.appendAll pieces).2.remaining = segment.remaining - pieces.flatten.length := by
  rw [appendAll_snd, remaining_append]

theorem length_counts : (segment.appendAll pieces).1.length = pieces.length := by
  induction pieces generalizing segment with
  | nil => rfl
  | cons piece later ih => rw [appendAll_cons, List.length_cons, ih, List.length_cons]

theorem sum_counts :
    (segment.appendAll pieces).1.sum = min segment.remaining pieces.flatten.length := by
  induction pieces generalizing segment with
  | nil => simp [appendAll]
  | cons piece later ih =>
      rw [appendAll_cons, List.sum_cons, ih, written_append, remaining_append, List.flatten_cons,
        List.length_append]
      omega

/-- What is reported of a piece is the room that the pieces before it have left, if that is less
than the whole piece. -/
theorem getElem?_counts (earlier : List Bytes) (piece : Bytes) (later : List Bytes) :
    (segment.appendAll (earlier ++ piece :: later)).1[earlier.length]?
      = some (min (segment.remaining - earlier.flatten.length) piece.length) := by
  have counted := segment.length_counts earlier
  rw [appendAll_append, List.getElem?_append_right (Nat.le_of_eq counted), counted, Nat.sub_self,
    appendAll_cons, List.getElem?_cons_zero, written_append, remaining_appendAll]

/-- If there is room for all the pieces, none of them is cut. -/
theorem appendAll_of_room {segment : Segment} {pieces : List Bytes}
    (room : pieces.flatten.length ≤ segment.remaining) :
    segment.appendAll pieces
      = (pieces.map List.length, (segment.append pieces.flatten).2) := by
  induction pieces generalizing segment with
  | nil => exact Prod.ext rfl (segment.appendAll_snd [])
  | cons piece later ih =>
      rw [List.flatten_cons, List.length_append] at room
      have left : later.flatten.length ≤ (segment.append piece).2.remaining := by
        rw [remaining_append]
        omega
      have whole : (segment.append piece).1 = piece.length := by
        rw [written_append]
        omega
      rw [appendAll_cons, ih left, append_append, whole, List.map_cons, List.flatten_cons]

/-- What becomes of a segment of a capacity, and of the pieces that are appended to it. -/
structure Truncates (capacity : Nat) (pieces : List Bytes) (fresh : Segment) : Prop where
  /-- There is no gap behind a piece that was cut, and nothing behind the end. -/
  bytes_eq : (fresh.appendAll pieces).2.bytes = pieces.flatten.take capacity
  length_eq : (fresh.appendAll pieces).1.length = pieces.length
  sum_eq : (fresh.appendAll pieces).1.sum = min capacity pieces.flatten.length
  /-- The segment holds the leading octets of each piece, as many as were reported of it. -/
  count_eq {earlier : List Bytes} {piece : Bytes} {later : List Bytes} :
    pieces = earlier ++ piece :: later →
      let share := Bytes.share (fresh.appendAll pieces).2.bytes earlier piece
      (fresh.appendAll pieces).1[earlier.length]? = some share.length ∧ share <+: piece
  /-- After each of the appends, the octets and the room for more make up the capacity. -/
  room_eq {earlier : List Bytes} :
    earlier <+: pieces →
      let reached := (fresh.appendAll earlier).2
      reached.capacity = capacity ∧ reached.size + reached.remaining = capacity
  /-- Frozen for delivery, the segment is the octets that it kept, without the room behind them. -/
  delivered {stream : StreamId} {queue : Delivery.Queue} :
    queue.refusal? stream = none →
      (Delivery.Queue.append stream (fresh.appendAll pieces).2).run queue
        = .ok () (queue.add stream (.chunk (pieces.flatten.take capacity)))

/-- A segment keeps of all that is appended to it what fits, from the first octet on. -/
theorem appends_truncate {capacity : Nat} {fresh : Segment}
    (allocated : allocate capacity = .ok fresh) (pieces : List Bytes) :
    Truncates capacity pieces fresh := by
  obtain ⟨-, rfl⟩ := allocate_eq_ok_iff.mp allocated
  have roomy : (empty capacity).remaining = capacity := rfl
  have kept : ((empty capacity).appendAll pieces).2.bytes = pieces.flatten.take capacity := by
    rw [appendAll_snd, bytes_append, bytes_empty, List.nil_append, roomy]
  constructor
  case bytes_eq => exact kept
  case length_eq => exact (empty capacity).length_counts pieces
  case sum_eq => rw [sum_counts, roomy]
  case count_eq =>
    rintro earlier piece later rfl share
    have share_eq : share = piece.take (capacity - earlier.flatten.length) := by
      rw [← Bytes.share_take capacity earlier piece later, ← kept]
    rw [share_eq, getElem?_counts, roomy, List.length_take]
    exact ⟨rfl, List.take_prefix _ _⟩
  case room_eq =>
    intro earlier _ reached
    have capacity_eq : reached.capacity = capacity := (empty capacity).capacity_appendAll earlier
    exact ⟨capacity_eq, reached.size_add_remaining.trans capacity_eq⟩
  case delivered =>
    intro stream queue willing
    rw [Delivery.Queue.run_append_of_willing willing, kept]

/-- The second piece is cut, and of the third nothing is kept. -/
theorem appends_truncate_overfull :
    let pieces := [Bytes.ascii "hello", Bytes.ascii " world", Bytes.ascii "rld"]
    allocate 8 = .ok (empty 8) ∧ Truncates 8 pieces (empty 8) ∧
      (empty 8).appendAll pieces = ([5, 3, 0], ofBytes (Bytes.ascii "hello wo")) := by
  intro pieces
  have allocated : allocate 8 = .ok (empty 8) := rfl
  exact ⟨allocated, appends_truncate allocated pieces, by decide⟩

end Segment

end Reassembly
