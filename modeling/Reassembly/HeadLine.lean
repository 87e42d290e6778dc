import Reassembly.Segment
import Reassembly.Version

/-!
# Lines of a request head

A request head is a request line, then header lines, then a blank line. This file says how
each of them is spelled and writes it into a segment. A line is written whole or not at
all: its length is measured first, and a segment without room for it stays as it was.
-/

namespace Reassembly

/-- One line of a request head. -/
inductive HeadLine where
  /-- The line that opens the head. -/
  | request (method path : Bytes) (version : Option Version)
  | field (name value : Bytes)
  /-- The line that closes the head. -/
  | blank
  deriving DecidableEq, Repr

/-- Why a line was not written. -/
inductive EncodeError where
  /-- The line needs more octets than the segment has left. -/
  | tooLarge (needed available : Nat)
  /-- The version has no textual request line. -/
  | unsupportedVersion (version : Version)
  deriving DecidableEq, Repr

namespace EncodeError

def message : EncodeError → String
  | tooLarge needed available =>
      s!"name too long, needs {needed} bytes but only {available} left"
  | unsupportedVersion version => s!"unsupported http version {version.name}"

end EncodeError

namespace HeadLine

/-- The parts of a line, in the order in which they are written. -/
def parts : HeadLine → List Bytes
  | request method path none => [method, Bytes.ascii " ", path, Bytes.crlf]
  | request method path (some version) =>
      [method, Bytes.ascii " ", path, Bytes.ascii " ", Bytes.ascii version.name, Bytes.crlf]
  | field name value => [name, Bytes.ascii ": ", value, Bytes.crlf]
  | blank => [Bytes.crlf]

def text : HeadLine → Bytes
  | request method path version =>
      method ++ Bytes.ascii " " ++ path
        ++ (version.elim [] fun version => Bytes.ascii " " ++ Bytes.ascii version.name)
        ++ Bytes.crlf
  | field name value => name ++ Bytes.ascii ": " ++ value ++ Bytes.crlf
  | blank => Bytes.crlf

/-- The version that keeps a request line from being written. -/
def unsupportedVersion? : HeadLine → Option Version
  | request _ _ (some version) => if version.isTextual then none else some version
  | request _ _ none | field .. | blank => none

/-- The room that a line needs, measured part by part. -/
def size (line : HeadLine) : Nat :=
  line.parts.foldl (fun total part => total + part.length) 0

/-- Writes a line at the end of a segment, or fails and leaves the segment as it was. -/
def write (line : HeadLine) : EStateM EncodeError Segment Unit := do
  match line.unsupportedVersion? with
  | some version => throw (.unsupportedVersion version)
  | none =>
      let segment ← get
      if segment.hasFree line.size then
        set (line.parts.foldl (fun filled part => (filled.append part).2) segment)
      else
        throw (.tooLarge line.size segment.remaining)

theorem flatten_parts (line : HeadLine) : line.parts.flatten = line.text := by
  cases line with
  | request method path version => cases version <;> simp [parts, text]
  | field name value => simp [parts, text]
  | blank => simp [parts, text]

theorem size_eq_length_text (line : HeadLine) : line.size = line.text.length := by
  have total (parts : List Bytes) (before : Nat) :
      parts.foldl (fun total part => total + part.length) before
        = before + parts.flatten.length := by
    induction parts generalizing before with
    | nil => rfl
    | cons part later ih => simp [ih, Nat.add_assoc]
  rw [size, total, flatten_parts, Nat.zero_add]

theorem write_of_unsupportedVersion {line : HeadLine} {version : Version}
    (unsupported : line.unsupportedVersion? = some version) (segment : Segment) :
    line.write.run segment = .error (.unsupportedVersion version) segment := by
  simp [write, unsupported]

theorem write_of_le_remaining {line : HeadLine} {segment : Segment}
    (supported : line.unsupportedVersion? = none)
    (room : line.text.length ≤ segment.remaining) :
    line.write.run segment = .ok () (segment.append line.text).2 := by
  simp [write, supported, size_eq_length_text, Segment.hasFree, room, Segment.foldl_append,
    flatten_parts]

theorem write_of_remaining_lt {line : HeadLine} {segment : Segment}
    (supported : line.unsupportedVersion? = none)
    (full : segment.remaining < line.text.length) :
    line.write.run segment
      = .error (.tooLarge line.text.length segment.remaining) segment := by
  simp [write, supported, size_eq_length_text, Segment.hasFree, Nat.not_le.mpr full]

theorem write_cases (line : HeadLine) (segment : Segment) :
    (∃ version, line.unsupportedVersion? = some version ∧
      line.write.run segment = .error (.unsupportedVersion version) segment) ∨
    line.unsupportedVersion? = none ∧
      (line.text.length ≤ segment.remaining ∧
          line.write.run segment = .ok () (segment.append line.text).2 ∨
        segment.remaining < line.text.length ∧
          line.write.run segment
            = .error (.tooLarge line.text.length segment.remaining) segment) := by
  cases unsupported : line.unsupportedVersion? with
  | some version => exact .inl ⟨version, rfl, write_of_unsupportedVersion unsupported segment⟩
  | none =>
      right
      refine ⟨rfl, ?_⟩
      rcases Nat.lt_or_ge segment.remaining line.text.length with full | room
      · exact .inr ⟨full, write_of_remaining_lt unsupported full⟩
      · exact .inl ⟨room, write_of_le_remaining unsupported room⟩

theorem eq_append_of_write_eq_ok {line : HeadLine} {segment written : Segment}
    (success : line.write.run segment = .ok () written) :
    line.text.length ≤ segment.remaining ∧ written = (segment.append line.text).2 := by
  rcases line.write_cases segment with ⟨version, -, failed⟩ | ⟨-, ⟨room, done⟩ | ⟨full, failed⟩⟩
  · rw [failed] at success
    cases success
  · rw [done] at success
    cases success
    exact ⟨room, rfl⟩
  · rw [failed] at success
    cases success

theorem eq_of_write_eq_error {line : HeadLine} {segment kept : Segment} {error : EncodeError}
    (failure : line.write.run segment = .error error kept) : kept = segment := by
  rcases line.write_cases segment with ⟨version, -, failed⟩ | ⟨-, ⟨room, done⟩ | ⟨full, failed⟩⟩
  · rw [failed] at failure
    cases failure
    rfl
  · rw [done] at failure
    cases failure
  · rw [failed] at failure
    cases failure
    rfl

end HeadLine

end Reassembly
