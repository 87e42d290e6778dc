import Reassembly.Proofs.Segment.Appends
import Reassembly.Proofs.Stream.Packing

/-!
# Lines in a segment

A line is measured before any of it is written. So there is room for all of its parts, or none of
them is written: of a line that fails, no octet gets into the segment, and a line that succeeds
stands there as it is spelled. A run of writes that may fail leaves the texts of those that
succeeded, one behind the other.
-/

namespace Reassembly

namespace HeadLine

/-- Whether a line can be spelled. Request lines exist without a version and for two of them. -/
def Supported (line : HeadLine) : Prop :=
  ∀ method path version, line = .request method path (some version) →
    version = .http10 ∨ version = .http11

theorem supported_iff {line : HeadLine} :
    line.Supported ↔ line.unsupportedVersion? = none := by
  cases line with
  | request method path version =>
      cases version with
      | none => simp [Supported, unsupportedVersion?]
      | some version =>
          cases version <;> simp [Supported, unsupportedVersion?, Version.isTextual]
  | field name value => simp [Supported, unsupportedVersion?]
  | blank => simp [Supported, unsupportedVersion?]

theorem unsupportedVersion?_request {version : Version} (not_http10 : version ≠ .http10)
    (not_http11 : version ≠ .http11) (method path : Bytes) :
    (request method path (some version)).unsupportedVersion? = some version := by
  cases version with
  | http10 => exact absurd rfl not_http10
  | http11 => exact absurd rfl not_http11
  | http09 | http2 | http3 => rfl

/-- What may become of a line that is written at the end of a segment. -/
structure WholeOrNothing (line : HeadLine) (segment : Segment) : Prop where
  /-- However much room there is, a line that cannot be spelled is not written. -/
  unsupported {method path : Bytes} {version : Version} :
    line = .request method path (some version) → version ≠ .http10 → version ≠ .http11 →
      line.write.run segment = .error (.unsupportedVersion version) segment
  ok_iff :
    line.Supported →
      ((∃ written, line.write.run segment = .ok () written) ↔
        line.text.length ≤ segment.remaining)
  whole {written : Segment} :
    line.write.run segment = .ok () written →
      written.bytes = segment.bytes ++ line.text ∧ written.capacity = segment.capacity
  /-- A line is written in parts. Each append takes the whole of its part. -/
  uncut {written : Segment} :
    line.write.run segment = .ok () written →
      segment.appendAll line.parts = (line.parts.map List.length, written)
  tooLarge :
    line.Supported → segment.remaining < line.text.length →
      line.write.run segment = .error (.tooLarge line.text.length segment.remaining) segment

theorem wholeOrNothing (line : HeadLine) (segment : Segment) :
    line.WholeOrNothing segment where
  unsupported := by
    rintro method path version rfl not_http10 not_http11
    exact write_of_unsupportedVersion
      (unsupportedVersion?_request not_http10 not_http11 method path) segment
  ok_iff supported := by
    constructor
    · rintro ⟨written, success⟩
      exact (eq_append_of_write_eq_ok success).1
    · intro room
      exact ⟨_, write_of_le_remaining (supported_iff.mp supported) room⟩
  whole success := by
    obtain ⟨room, rfl⟩ := eq_append_of_write_eq_ok success
    refine ⟨?_, rfl⟩
    rw [Segment.bytes_append, List.take_of_length_le room]
  uncut success := by
    obtain ⟨room, rfl⟩ := eq_append_of_write_eq_ok success
    rw [← flatten_parts] at room ⊢
    exact Segment.appendAll_of_room room
  tooLarge supported full := write_of_remaining_lt (supported_iff.mp supported) full

/-- A blank line is a single part, so that writing it comes down to a single append. -/
example :
    blank.write = (do
      let segment ← get
      if segment.hasFree 2 then
        set (segment.append Bytes.crlf).2
      else
        throw (.tooLarge 2 segment.remaining)) := by
  rfl

/-- Writes a line and tells whether that has failed. -/
def writeInto (line : HeadLine) (segment : Segment) : Except EncodeError Unit × Segment :=
  match line.write.run segment with
  | .ok _ written => (.ok (), written)
  | .error error kept => (.error error, kept)

/-- Writes lines one after the other, whatever becomes of those before, and lists the answers. -/
def writeAll (lines : List HeadLine) (segment : Segment) :
    List (Except EncodeError Unit) × Segment :=
  match lines with
  | [] => ([], segment)
  | line :: later =>
      let (answer, next) := line.writeInto segment
      let (answers, last) := writeAll later next
      (answer :: answers, last)

/-- The lines that were answered with success. -/
def succeeded (lines : List HeadLine) (answers : List (Except EncodeError Unit)) :
    List HeadLine :=
  (lines.zip answers).filterMap fun (line, answer) => if answer.isOk then some line else none

theorem writeAll_cons (line : HeadLine) (later : List HeadLine) (segment : Segment) :
    writeAll (line :: later) segment
      = ((line.writeInto segment).1 :: (writeAll later (line.writeInto segment).2).1,
        (writeAll later (line.writeInto segment).2).2) := rfl

theorem succeeded_cons (line : HeadLine) (later : List HeadLine)
    (answer : Except EncodeError Unit) (answers : List (Except EncodeError Unit)) :
    succeeded (line :: later) (answer :: answers)
      = succeeded [line] [answer] ++ succeeded later answers := by
  cases answer <;> rfl

/-- One line leaves its text behind if it succeeds, and nothing if it fails. -/
theorem bytes_writeInto (line : HeadLine) (segment : Segment) :
    (line.writeInto segment).2.bytes
        = segment.bytes ++ joined (succeeded [line] [(line.writeInto segment).1]) ∧
      (line.writeInto segment).2.capacity = segment.capacity := by
  unfold writeInto
  cases result : line.write.run segment with
  | ok answer written =>
      obtain ⟨bytes_eq, capacity_eq⟩ := (line.wholeOrNothing segment).whole result
      refine ⟨?_, capacity_eq⟩
      rw [bytes_eq, ← joined_singleton line]
      rfl
  | error error kept =>
      rw [eq_of_write_eq_error result]
      exact ⟨(List.append_nil _).symm, rfl⟩

theorem bytes_writeAll (lines : List HeadLine) (segment : Segment) :
    (writeAll lines segment).2.bytes
        = segment.bytes ++ joined (succeeded lines (writeAll lines segment).1) ∧
      (writeAll lines segment).2.capacity = segment.capacity := by
  induction lines generalizing segment with
  | nil => exact ⟨(List.append_nil _).symm, rfl⟩
  | cons line later ih =>
      obtain ⟨bytes_eq, capacity_eq⟩ := line.bytes_writeInto segment
      obtain ⟨later_bytes, later_capacity⟩ := ih (line.writeInto segment).2
      rw [writeAll_cons, succeeded_cons, joined_append, ← List.append_assoc, ← bytes_eq]
      exact ⟨later_bytes, later_capacity.trans capacity_eq⟩

theorem length_answers (lines : List HeadLine) (segment : Segment) :
    (writeAll lines segment).1.length = lines.length := by
  induction lines generalizing segment with
  | nil => rfl
  | cons line later ih => rw [writeAll_cons, List.length_cons, ih, List.length_cons]

/-- A line is written as it is spelled or not at all, and of many lines exactly those are in the
segment that were answered with success. -/
theorem lines_written_whole (segment : Segment) (lines : List HeadLine) :
    (∀ line : HeadLine, line.WholeOrNothing segment) ∧
      (writeAll lines segment).1.length = lines.length ∧
      (writeAll lines segment).2.bytes
        = segment.bytes ++ joined (succeeded lines (writeAll lines segment).1) ∧
      (writeAll lines segment).2.capacity = segment.capacity :=
  ⟨fun line => line.wholeOrNothing segment, length_answers lines segment,
    bytes_writeAll lines segment⟩

/-- A line that is too long does not keep a shorter one behind it from being written. -/
example :
    writeAll [.field (Bytes.ascii "a") (Bytes.ascii "1"),
        .field (Bytes.ascii "accept") (Bytes.ascii "*/*"), .blank] (.empty 8)
      = ([.ok (), .error (.tooLarge 13 2), .ok ()],
        Segment.ofBytes (Bytes.ascii "a: 1\r\n\r\n")) := by
  decide

end HeadLine

end Reassembly
