import Mathlib.Data.List.Chain
import Mathlib.Data.List.Induction
import Reassembly.HeadLine

/-!
# Lines packed into segments

A line goes behind the lines before it, if there is room for it in their segment, and begins a
segment of its own otherwise. Of lines that are not longer than a segment, this makes groups that
fit and of which each is as long as it can be: `Greedy` says so, and determines the groups.
-/

namespace Reassembly

/-- The octets of some lines. -/
def HeadLine.joined (lines : List HeadLine) : Bytes := lines.flatMap HeadLine.text

open HeadLine (joined)

namespace HeadLine

@[simp]
theorem joined_nil : joined [] = [] := rfl

@[simp]
theorem joined_append (earlier later : List HeadLine) :
    joined (earlier ++ later) = joined earlier ++ joined later :=
  List.flatMap_append

theorem joined_flatten (groups : List (List HeadLine)) :
    joined groups.flatten = groups.flatMap joined := by
  induction groups with
  | nil => rfl
  | cons group later ih => rw [List.flatten_cons, joined_append, ih, List.flatMap_cons]

@[simp]
theorem joined_singleton (line : HeadLine) : joined [line] = line.text := by
  simp [joined]

theorem text_ne_nil (line : HeadLine) : line.text ≠ [] := by
  cases line <;> simp [text, Bytes.crlf]

@[simp]
theorem joined_eq_nil_iff {lines : List HeadLine} : joined lines = [] ↔ lines = [] := by
  cases lines <;> simp [joined, text_ne_nil]

end HeadLine

/-- Lines in segments. -/
structure Packing where
  /-- The lines of the segments that are closed, oldest first. -/
  closed : List (List HeadLine) := []
  /-- The lines of the segment that is being filled. -/
  current : List HeadLine := []

namespace Packing

/-- Closes the segment that is being filled, if there are lines in it. -/
def close (packing : Packing) : Packing where
  closed := if packing.current = [] then packing.closed else packing.closed ++ [packing.current]

/-- Packs one more line into segments of a capacity. -/
def add (capacity : Nat) (packing : Packing) (line : HeadLine) : Packing :=
  if (joined packing.current).length + line.text.length ≤ capacity then
    { packing with current := packing.current ++ [line] }
  else { packing.close with current := [line] }

def addAll (capacity : Nat) (packing : Packing) (lines : List HeadLine) : Packing :=
  lines.foldl (add capacity) packing

/-- All lines of a packing, in order. -/
def lines (packing : Packing) : List HeadLine := packing.closed.flatten ++ packing.current

variable {capacity : Nat} {packing : Packing} {line : HeadLine} {more : List HeadLine}

theorem lines_close : packing.close.lines = packing.lines := by
  by_cases nothing : packing.current = [] <;> simp [lines, close, nothing]

theorem lines_add (line : HeadLine) :
    (packing.add capacity line).lines = packing.lines ++ [line] := by
  by_cases room : (joined packing.current).length + line.text.length ≤ capacity
  · simp [add, room, lines]
  · rw [← packing.lines_close]
    simp [add, room, lines, close]

theorem lines_addAll (more : List HeadLine) :
    (packing.addAll capacity more).lines = packing.lines ++ more := by
  induction more generalizing packing with
  | nil => simp [addAll]
  | cons line later ih =>
      change ((packing.add capacity line).addAll capacity later).lines = _
      rw [ih, lines_add, List.append_assoc]
      rfl

theorem close_of_nil (nothing : packing.current = []) : packing.close = packing := by
  cases packing
  simp_all [close]

theorem addAll_append (earlier later : List HeadLine) :
    packing.addAll capacity (earlier ++ later)
      = (packing.addAll capacity earlier).addAll capacity later :=
  List.foldl_append

end Packing

/-- Groups of lines in segments of a capacity, of which a new one is begun exactly if the next line
does not fit behind the lines before it. -/
structure Greedy (capacity : Nat) (lines : List HeadLine) (groups : List (List HeadLine)) :
    Prop where
  flatten_eq : groups.flatten = lines
  nonempty : ∀ group ∈ groups, group ≠ []
  fits : ∀ group ∈ groups, (joined group).length ≤ capacity
  full : groups.IsChain fun group next =>
    ∀ line ∈ next.head?, capacity < (joined group).length + line.text.length

namespace Greedy

variable {capacity : Nat} {lines current : List HeadLine} {closed : List (List HeadLine)}
  {line : HeadLine}

theorem nil : Greedy capacity [] [] where
  flatten_eq := rfl
  nonempty := by simp
  fits := by simp
  full := .nil

/-- One more line in the last segment. -/
theorem extend (greedy : Greedy capacity lines (closed ++ [current]))
    (room : (joined current).length + line.text.length ≤ capacity) :
    Greedy capacity (lines ++ [line]) (closed ++ [current ++ [line]]) where
  flatten_eq := by
    rw [← greedy.flatten_eq]
    simp
  nonempty := by
    rw [List.forall_mem_append]
    exact ⟨(List.forall_mem_append.mp greedy.nonempty).1, by simp⟩
  fits := by
    rw [List.forall_mem_append]
    exact ⟨(List.forall_mem_append.mp greedy.fits).1, by simpa using room⟩
  full := by
    have used := greedy.nonempty current (List.mem_append_right _ (List.mem_singleton_self _))
    rcases List.exists_cons_of_ne_nil used with ⟨first, others, rfl⟩
    have full := greedy.full
    rw [List.isChain_append] at full ⊢
    exact ⟨full.1, .singleton _, by simpa using full.2.2⟩

/-- A line that begins a segment, because the last one has no room for it. -/
theorem begin (greedy : Greedy capacity lines closed) (fits : line.text.length ≤ capacity)
    (full : ∀ group ∈ closed.getLast?, capacity < (joined group).length + line.text.length) :
    Greedy capacity (lines ++ [line]) (closed ++ [[line]]) where
  flatten_eq := by simp [greedy.flatten_eq]
  nonempty := by
    rw [List.forall_mem_append]
    exact ⟨greedy.nonempty, by simp⟩
  fits := by
    rw [List.forall_mem_append]
    exact ⟨greedy.fits, by simpa using fits⟩
  full := by
    rw [List.isChain_append]
    exact ⟨greedy.full, .singleton _, by simpa using full⟩

theorem tail {group : List HeadLine} {later : List (List HeadLine)}
    (greedy : Greedy capacity lines (group :: later)) : Greedy capacity later.flatten later where
  flatten_eq := rfl
  nonempty := (List.forall_mem_cons.mp greedy.nonempty).2
  fits := (List.forall_mem_cons.mp greedy.fits).2
  full := greedy.full.tail

/-- A segment has no room for any of the lines behind it. -/
theorem eq_nil_of_room {group more rest : List HeadLine} {later : List (List HeadLine)}
    (greedy : Greedy capacity lines (group :: later)) (behind : later.flatten = more ++ rest)
    (room : (joined (group ++ more)).length ≤ capacity) : more = [] := by
  cases more with
  | nil => rfl
  | cons line others =>
      cases later with
      | nil => cases behind
      | cons next last =>
          have used := greedy.nonempty next (by simp)
          rcases List.exists_cons_of_ne_nil used with ⟨first, following, rfl⟩
          simp only [List.flatten_cons, List.cons_append, List.cons.injEq] at behind
          have full := (List.isChain_cons_cons.mp greedy.full).1 first rfl
          rw [behind.1, ← HeadLine.joined_singleton line] at full
          rw [List.append_cons] at room
          simp only [HeadLine.joined_append, List.length_append] at room
          omega

/-- Lines can be packed greedily in one way only. -/
theorem unique {first second : List (List HeadLine)} (greedy : Greedy capacity lines first)
    (other : Greedy capacity lines second) : first = second := by
  induction first generalizing lines second with
  | nil =>
      cases second with
      | nil => rfl
      | cons group later =>
          have nothing := other.flatten_eq.trans greedy.flatten_eq.symm
          exact absurd (List.append_eq_nil_iff.mp nothing).1 (other.nonempty group (by simp))
  | cons group later ih =>
      cases second with
      | nil =>
          have nothing := greedy.flatten_eq.trans other.flatten_eq.symm
          exact absurd (List.append_eq_nil_iff.mp nothing).1 (greedy.nonempty group (by simp))
      | cons begun rest =>
          have same : group ++ later.flatten = begun ++ rest.flatten :=
            greedy.flatten_eq.trans other.flatten_eq.symm
          have groups_eq : group = begun := by
            rcases List.append_eq_append_iff.mp same with ⟨more, rfl, behind⟩ | ⟨more, rfl, behind⟩
            · simp [greedy.eq_nil_of_room behind (other.fits _ (by simp))]
            · simp [other.eq_nil_of_room behind (greedy.fits _ (by simp))]
          subst begun
          have rest_eq := List.append_cancel_left same
          rw [ih greedy.tail (rest_eq ▸ other.tail)]

end Greedy

namespace Packing

variable {capacity : Nat} {packing : Packing} {line : HeadLine} {lines : List HeadLine}

/-- What holds of a packing while no line is too long. -/
structure Packs (capacity : Nat) (lines : List HeadLine) (packing : Packing) : Prop where
  greedy : Greedy capacity lines packing.close.closed
  /-- Once a segment is begun, there is always one being filled. -/
  filling : packing.current = [] → packing.closed = []

theorem Packs.add (packs : packing.Packs capacity lines) (fits : line.text.length ≤ capacity) :
    (packing.add capacity line).Packs capacity (lines ++ [line]) := by
  have greedy := packs.greedy
  by_cases room : (joined packing.current).length + line.text.length ≤ capacity
  · refine ⟨?_, by simp [Packing.add, room]⟩
    have closed_eq : (packing.add capacity line).close.closed
        = packing.closed ++ [packing.current ++ [line]] := by
      simp [Packing.add, room, close]
    rw [closed_eq]
    by_cases nothing : packing.current = []
    · rw [close_of_nil nothing] at greedy
      rw [nothing, List.nil_append]
      apply greedy.begin fits
      simp [packs.filling nothing]
    · rw [close, if_neg nothing] at greedy
      exact greedy.extend room
  · have used : packing.current ≠ [] := by
      intro nothing
      rw [nothing] at room
      simp_all
    refine ⟨?_, by simp [Packing.add, room]⟩
    have closed_eq : (packing.add capacity line).close.closed
        = packing.close.closed ++ [[line]] := by
      simp [Packing.add, room, close]
    rw [closed_eq]
    apply greedy.begin fits
    simpa [close, used] using room

/-- The packing of lines that fit is greedy. -/
theorem greedy_addAll (fit : ∀ line ∈ lines, line.text.length ≤ capacity) :
    Greedy capacity lines (addAll capacity {} lines).close.closed := by
  have packs : (addAll capacity {} lines).Packs capacity lines := by
    induction lines using List.reverseRecOn with
    | nil => exact ⟨.nil, fun _ => rfl⟩
    | append_singleton earlier line ih =>
        rw [List.forall_mem_append, List.forall_mem_singleton] at fit
        rw [addAll_append]
        exact (ih fit.1).add fit.2
  exact packs.greedy

end Packing

end Reassembly
