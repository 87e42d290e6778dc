import Reassembly.Bytes

/-!
# Segments

A segment is a buffer whose capacity is fixed when it is allocated. Appending to it keeps
the leading octets that fit and reports how many those are. The lemmas say what an append
does to the contents, to the count it reports and to the room that is left.
-/

namespace Reassembly

/-- A buffer that never holds more than `capacity` octets. -/
@[ext]
structure Segment where
  capacity : Nat
  bytes : Bytes
  fits : bytes.length ≤ capacity
  deriving DecidableEq, Repr

/-- A segment of this capacity is more than the address space can hold. -/
structure AllocationError where
  capacity : Nat
  deriving DecidableEq, Repr

def AllocationError.message (error : AllocationError) : String :=
  s!"failed to allocate a segment of {error.capacity} bytes"

namespace Segment

/-- No allocation reaches half of a 64-bit address space. -/
def allocationLimit : Nat := 0x7FFFFFFFFFFFFFFF

def empty (capacity : Nat) : Segment where
  capacity
  bytes := []
  fits := Nat.zero_le _

/-- An empty segment of the given capacity, if that much can be allocated. The capacity alone
decides on that: that there is no memory left for a segment below the limit does not occur. -/
def allocate (capacity : Nat) : Except AllocationError Segment :=
  if capacity < allocationLimit then .ok (.empty capacity) else .error { capacity }

/-- A full segment that holds exactly these octets. -/
def ofBytes (octets : Bytes) : Segment where
  capacity := octets.length
  bytes := octets
  fits := Nat.le_refl _

def size (segment : Segment) : Nat := segment.bytes.length

def remaining (segment : Segment) : Nat := segment.capacity - segment.size

/-- Whether `count` more octets fit. -/
def hasFree (segment : Segment) (count : Nat) : Bool := count ≤ segment.remaining

def isEmpty (segment : Segment) : Bool := segment.bytes.isEmpty

def isFull (segment : Segment) : Bool := segment.remaining = 0

/-- Writes the leading octets that fit, and tells how many those are. -/
def append (segment : Segment) (octets : Bytes) : Nat × Segment :=
  let kept := octets.take segment.remaining
  (kept.length,
    { segment with
      bytes := segment.bytes ++ kept
      fits := by
        have := segment.fits
        simp only [kept, remaining, size, List.length_append, List.length_take]
        omega })

/-- A short description: how full the segment is, not what it holds. -/
def describe (segment : Segment) : String :=
  s!"Segment \x7b len: {segment.size}, capacity: {segment.capacity} \x7d"

theorem size_le_capacity (segment : Segment) : segment.size ≤ segment.capacity :=
  segment.fits

@[simp]
theorem capacity_append (segment : Segment) (octets : Bytes) :
    (segment.append octets).2.capacity = segment.capacity := rfl

@[simp]
theorem bytes_append (segment : Segment) (octets : Bytes) :
    (segment.append octets).2.bytes = segment.bytes ++ octets.take segment.remaining := rfl

@[simp]
theorem written_append (segment : Segment) (octets : Bytes) :
    (segment.append octets).1 = min segment.remaining octets.length := by
  simp [append]

/-- What is left of octets after as many of them as fit have been written. -/
theorem drop_written (segment : Segment) (octets : Bytes) :
    octets.drop (segment.append octets).1 = octets.drop segment.remaining := by
  rw [written_append]
  rcases Nat.le_total segment.remaining octets.length with within | beyond
  · rw [Nat.min_eq_left within]
  · rw [Nat.min_eq_right beyond, List.drop_length, List.drop_of_length_le beyond]

theorem remaining_append (segment : Segment) (octets : Bytes) :
    (segment.append octets).2.remaining = segment.remaining - octets.length := by
  simp only [remaining, size, capacity_append, bytes_append, List.length_append,
    List.length_take]
  omega

/-- Two appends write what one append of both octet strings would have written. -/
theorem append_append (segment : Segment) (left right : Bytes) :
    ((segment.append left).2.append right).2 = (segment.append (left ++ right)).2 := by
  ext1
  · rfl
  · rw [bytes_append, bytes_append, bytes_append, remaining_append, List.take_append,
      List.append_assoc]

/-- Appends in a row write what one append of all octets would have written. -/
theorem foldl_append (segment : Segment) (pieces : List Bytes) :
    pieces.foldl (fun filled piece => (filled.append piece).2) segment
      = (segment.append pieces.flatten).2 := by
  induction pieces generalizing segment with
  | nil => ext1 <;> simp
  | cons piece later ih => rw [List.foldl_cons, ih, append_append, List.flatten_cons]

@[simp]
theorem capacity_empty (capacity : Nat) : (empty capacity).capacity = capacity := rfl

@[simp]
theorem bytes_empty (capacity : Nat) : (empty capacity).bytes = [] := rfl

theorem allocate_eq_ok_iff {capacity : Nat} {segment : Segment} :
    allocate capacity = .ok segment ↔ capacity < allocationLimit ∧ empty capacity = segment := by
  by_cases allocatable : capacity < allocationLimit <;> simp [allocate, allocatable]

theorem isEmpty_iff {segment : Segment} : segment.isEmpty = true ↔ segment.bytes = [] := by
  simp [isEmpty]

theorem isEmpty_append_iff {segment : Segment} {octets : Bytes} :
    (segment.append octets).2.isEmpty = true
      ↔ segment.isEmpty = true ∧ (segment.append octets).1 = 0 := by
  rw [isEmpty_iff, isEmpty_iff, bytes_append, List.append_eq_nil_iff,
    ← List.length_eq_zero_iff (l := octets.take segment.remaining), List.length_take,
    written_append]

end Segment

end Reassembly
