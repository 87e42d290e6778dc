import Mathlib.Data.List.TakeWhile
import Reassembly.Proofs.Request.Reading

/-!
# The lines of a head

To a reader, a head is a row of lines that end with line feeds: line breaks that it skips, a
request line, header lines, and a line that is blank. Where these lines end does not depend on
what else is in them. So a head that was written line by line is read line by line if no line
feed was written into a line, and otherwise it is read as more lines, or as fewer with a longer
body.
-/

namespace Reassembly

/-- An octet that is part of a line break. -/
def Octet.isBreak (octet : UInt8) : Bool := octet = Bytes.lf || octet = Bytes.cr

namespace Bytes

/-- Lines with a line feed after each of them. -/
def terminated (lines : List Bytes) : Bytes := lines.flatMap fun line => line ++ [lf]

/-- A line that a reader takes for the end of a head. -/
def IsBlank (line : Bytes) : Prop := line = [] ∨ line = [cr]

theorem IsBlank.unbroken {line : Bytes} (isBlank : IsBlank line) : lf ∉ line := by
  rcases isBlank with rfl | rfl <;> decide

theorem terminated_cons (line : Bytes) (later : List Bytes) (rest : Bytes) :
    terminated (line :: later) ++ rest = line ++ lf :: (terminated later ++ rest) := by
  simp [terminated]

/-- Where a line ends is where its first line feed is. -/
theorem line_unique {line other rest later : Bytes} (unbroken : lf ∉ line)
    (otherUnbroken : lf ∉ other) (same : line ++ lf :: rest = other ++ lf :: later) :
    line = other ∧ rest = later := by
  have inside {part : Bytes} (absent : lf ∉ part) :
      ∀ octet ∈ part, decide (octet ≠ lf) = true := by
    intro octet octet_mem
    apply decide_eq_true
    rintro rfl
    exact absent octet_mem
  have outside : decide (lf ≠ lf) = false := by decide
  have lines := congrArg (List.takeWhile fun octet => decide (octet ≠ lf)) same
  rw [takeWhile_append_cons (inside unbroken) outside,
    takeWhile_append_cons (inside otherUnbroken) outside] at lines
  subst lines
  exact ⟨rfl, (List.cons_inj_right lf).mp (List.append_cancel_left same)⟩

/-- The lines of a head end with its first blank line, so there is one way to read them. -/
theorem lines_unique {lines others : List Bytes} {blank otherBlank rest later : Bytes}
    (unbroken : ∀ line ∈ lines, lf ∉ line) (otherUnbroken : ∀ line ∈ others, lf ∉ line)
    (filled : ∀ line ∈ lines, ¬IsBlank line) (otherFilled : ∀ line ∈ others, ¬IsBlank line)
    (isBlank : IsBlank blank) (otherIsBlank : IsBlank otherBlank)
    (same : terminated lines ++ (blank ++ lf :: rest)
      = terminated others ++ (otherBlank ++ lf :: later)) :
    lines = others ∧ rest = later := by
  induction lines generalizing others with
  | nil =>
      cases others with
      | nil => exact ⟨rfl, (line_unique isBlank.unbroken otherIsBlank.unbroken same).2⟩
      | cons other more =>
          rw [terminated_cons] at same
          have first := line_unique isBlank.unbroken (otherUnbroken other List.mem_cons_self) same
          exact absurd (first.1 ▸ isBlank) (otherFilled other List.mem_cons_self)
  | cons line more ih =>
      rw [terminated_cons] at same
      cases others with
      | nil =>
          have first := line_unique (unbroken line List.mem_cons_self) otherIsBlank.unbroken same
          exact absurd (first.1 ▸ otherIsBlank) (filled line List.mem_cons_self)
      | cons other others =>
          rw [terminated_cons] at same
          rcases line_unique (unbroken line List.mem_cons_self)
            (otherUnbroken other List.mem_cons_self) same with ⟨rfl, rest_eq⟩
          rcases ih (fun line line_mem => unbroken line (List.mem_cons_of_mem _ line_mem))
            (fun line line_mem => otherUnbroken line (List.mem_cons_of_mem _ line_mem))
            (fun line line_mem => filled line (List.mem_cons_of_mem _ line_mem))
            (fun line line_mem => otherFilled line (List.mem_cons_of_mem _ line_mem))
            rest_eq with ⟨rfl, bodies⟩
          exact ⟨rfl, bodies⟩

/-- The line feeds in lines, and those after them. -/
theorem count_lf_terminated (lines : List Bytes) :
    (terminated lines).count lf = lines.flatten.count lf + lines.length := by
  induction lines with
  | nil => rfl
  | cons line later ih =>
      rw [terminated, List.flatMap_cons, ← terminated]
      simp only [List.count_append, List.count_singleton_self, ih, List.flatten_cons,
        List.length_cons]
      omega

/-- A head with its lines, of which some may have line feeds in them, and the head that a reader
finds in the same text. The reader finds as many lines and the same body if and only if the
lines have no line feeds in them. -/
theorem same_lines_iff {first opener blank otherBlank rest later : Bytes}
    {lines others : List Bytes} (filled : ∀ line ∈ lines, ¬IsBlank line) (isBlank : IsBlank blank)
    (foundUnbroken : ∀ line ∈ opener :: others, lf ∉ line)
    (foundFilled : ∀ line ∈ others, ¬IsBlank line) (foundBlank : IsBlank otherBlank)
    (same : terminated (first :: lines ++ [blank]) ++ rest
      = terminated (opener :: others ++ [otherBlank]) ++ later) :
    (others.length = lines.length ∧ later = rest) ↔ ∀ line ∈ first :: lines, lf ∉ line := by
  constructor
  · rintro ⟨length_eq, rfl⟩
    -- the same text has the same line feeds, and the reader has found none but those at the ends
    have counts := congrArg (List.count lf) (List.append_cancel_right same)
    have foundNone : (opener :: others ++ [otherBlank]).flatten.count lf = 0 := by
      rw [List.count_eq_zero, List.mem_flatten]
      rintro ⟨line, line_mem, feed_mem⟩
      rcases List.mem_append.mp line_mem with found | last
      · exact foundUnbroken line found feed_mem
      · exact foundBlank.unbroken (List.mem_singleton.mp last ▸ feed_mem)
    rw [count_lf_terminated, count_lf_terminated, foundNone] at counts
    simp only [List.length_append, List.length_cons, List.length_nil, length_eq] at counts
    have none : (first :: lines ++ [blank]).flatten.count lf = 0 := by omega
    intro line line_mem feed_mem
    apply List.count_eq_zero.mp none
    exact List.mem_flatten.mpr ⟨line, List.mem_append_left _ line_mem, feed_mem⟩
  · intro unbroken
    rcases List.forall_mem_cons.mp unbroken with ⟨firstUnbroken, linesUnbroken⟩
    rcases List.forall_mem_cons.mp foundUnbroken with ⟨openerUnbroken, othersUnbroken⟩
    have split (front : Bytes) (middle : List Bytes) (last after : Bytes) :
        terminated (front :: middle ++ [last]) ++ after
          = front ++ lf :: (terminated middle ++ (last ++ lf :: after)) := by
      simp [terminated]
    rw [split, split] at same
    rcases line_unique firstUnbroken openerUnbroken same with ⟨_, more⟩
    rcases lines_unique linesUnbroken othersUnbroken filled foundFilled isBlank foundBlank more with
      ⟨rfl, rfl⟩
    exact ⟨rfl, rfl⟩

end Bytes

namespace Head

open Bytes (terminated IsBlank)

/-- A text, cut into the lines that a reader finds in it. -/
structure Layout (text : Bytes) where
  /-- The line breaks before the head. -/
  breaks : Bytes
  requestLine : Bytes
  lines : List Bytes
  blank : Bytes
  body : Bytes
  all_breaks : ∀ octet ∈ breaks, Octet.isBreak octet = true
  starts : ∃ first more, requestLine = first :: more ∧ Octet.isBreak first = false
  unbroken : ∀ line ∈ requestLine :: lines, Bytes.lf ∉ line
  filled : ∀ line ∈ lines, ¬IsBlank line
  isBlank : IsBlank blank
  text_eq : text = breaks ++ (terminated (requestLine :: lines ++ [blank]) ++ body)

variable {input rest : Bytes}

theorem exists_of_bind_eq_ok {Value Other : Type} {first : Except ReadError Other}
    {next : Other → Except ReadError Value} {value : Value}
    (ok : (first >>= next) = .ok value) :
    ∃ middle, first = .ok middle ∧ next middle = .ok value := by
  cases first with
  | error error => cases ok
  | ok middle => exact ⟨middle, rfl, ok⟩

theorem readNewLine_eq_ok {fault : Fault} (read : readNewLine fault input = .ok rest) :
    ∃ ending, IsBlank ending ∧ input = ending ++ Bytes.lf :: rest := by
  unfold readNewLine at read
  split at read
  · cases read
    exact ⟨[], .inl rfl, rfl⟩
  · cases read
    exact ⟨[Bytes.cr], .inr rfl, rfl⟩
  · cases read
  · cases read
  · cases read

theorem skipNewLines_eq_ok (read : skipNewLines input = .ok rest) :
    ∃ breaks, (∀ octet ∈ breaks, Octet.isBreak octet = true) ∧ input = breaks ++ rest := by
  induction input using skipNewLines.induct with
  | case1 more ih =>
      rcases ih read with ⟨breaks, all, rfl⟩
      exact ⟨Bytes.lf :: breaks, by simpa [Octet.isBreak] using all, rfl⟩
  | case2 more ih =>
      rcases ih read with ⟨breaks, all, rfl⟩
      exact ⟨Bytes.cr :: Bytes.lf :: breaks, by simpa [Octet.isBreak] using all, rfl⟩
  | case3 => cases read
  | case4 tail notLf single =>
      rw [skipNewLines.eq_def] at read
      split at read
      · rename_i same
        exact absurd (List.cons.inj same).1 (by decide)
      · rename_i more same
        exact absurd (List.cons.inj same).2 (notLf more)
      · cases read
      · cases read
      · rename_i other
        exact absurd rfl (other tail)
  | case5 input noLf noCrLf noCr noTail =>
      refine ⟨[], by simp, ?_⟩
      rw [skipNewLines.eq_def] at read
      split at read
      · rename_i more
        exact absurd rfl (noLf more)
      · rename_i more
        exact absurd rfl (noCrLf more)
      · exact absurd rfl noCr
      · rename_i tail _ _
        exact absurd rfl (noTail tail)
      · cases read
        rfl

/-- A reader that takes octets of a class, up to one that ends them. -/
theorem readMethod_eq_ok {method : Bytes} (read : readMethod input = .ok (method, rest)) :
    (∀ octet ∈ method, Octet.isToken octet = true) ∧ method ≠ [] ∧
      input = method ++ Bytes.space :: rest := by
  have cut := List.takeWhile_append_dropWhile (p := Octet.isToken) (l := input)
  unfold readMethod at read
  simp only at read
  split at read
  · cases read
  · rename_i next more dropped
    split at read
    · rename_i accepted
      cases read
      refine ⟨fun octet octet_mem => List.mem_takeWhile_imp octet_mem, accepted.2, ?_⟩
      rw [dropped, accepted.1] at cut
      exact cut.symm
    · cases read

theorem readTarget_eq_ok {target : Bytes} (read : readTarget input = .ok (target, rest)) :
    (∀ octet ∈ target, Octet.isTarget octet = true) ∧
      input = target ++ Bytes.space :: rest := by
  have cut := List.takeWhile_append_dropWhile (p := Octet.isTarget) (l := input)
  unfold readTarget at read
  simp only at read
  split at read
  · cases read
  · rename_i next more dropped
    split at read
    · rename_i accepted
      cases read
      refine ⟨fun octet octet_mem => List.mem_takeWhile_imp octet_mem, ?_⟩
      rw [dropped, accepted.1] at cut
      exact cut.symm
    · cases read

theorem readVersion_eq_ok {version : Version} (read : readVersion input = .ok (version, rest)) :
    input = Bytes.ascii version.name ++ rest ∧ Bytes.lf ∉ Bytes.ascii version.name := by
  have dropped {name : Bytes} (isPrefix : name.isPrefixOf input = true) :
      input = name ++ input.drop name.length := by
    rcases List.isPrefixOf_iff_prefix.mp isPrefix with ⟨more, rfl⟩
    rw [List.drop_left]
  unfold readVersion at read
  split at read
  · rename_i isPrefix
    cases read
    exact ⟨dropped isPrefix, by decide⟩
  · split at read
    · rename_i isPrefix
      cases read
      exact ⟨dropped isPrefix, by decide⟩
    · split at read <;> cases read

/-- Octets of a class that has no line feed in it. -/
theorem lf_not_mem_takeWhile {belongs : UInt8 → Bool} (outside : belongs Bytes.lf = false)
    (octets : Bytes) : Bytes.lf ∉ octets.takeWhile belongs := by
  intro mem
  have inside := List.mem_takeWhile_imp mem
  rw [outside] at inside
  cases inside

/-- Whatever is taken for a header line ends at a line feed, and has a name before it. -/
theorem readField_eq_ok {field : Field} (read : readField input = .ok (field, rest)) :
    ∃ line, Bytes.lf ∉ line ∧ ¬IsBlank line ∧ input = line ++ Bytes.lf :: rest := by
  unfold readField at read
  simp only at read
  split at read
  · cases read
  · rename_i next more dropped
    split at read
    · rename_i accepted
      rcases accepted with ⟨rfl, named⟩
      rcases exists_of_bind_eq_ok read with ⟨after, newLine, done⟩
      cases done
      rcases readNewLine_eq_ok newLine with ⟨ending, isBlank, ending_eq⟩
      have whole : input = input.takeWhile Octet.isToken ++ Bytes.colon ::
          (more.takeWhile Octet.isBlank ++
            ((more.dropWhile Octet.isBlank).takeWhile Octet.isValue ++
              (ending ++ Bytes.lf :: rest))) := by
        rw [← ending_eq, List.takeWhile_append_dropWhile, List.takeWhile_append_dropWhile,
          ← dropped, List.takeWhile_append_dropWhile]
      refine ⟨input.takeWhile Octet.isToken ++ Bytes.colon ::
        (more.takeWhile Octet.isBlank ++
          ((more.dropWhile Octet.isBlank).takeWhile Octet.isValue ++ ending)), ?_, ?_, ?_⟩
      · simp only [List.mem_append, List.mem_cons, not_or]
        exact ⟨lf_not_mem_takeWhile Octet.isToken_lf input, by decide,
          lf_not_mem_takeWhile (by decide) more, lf_not_mem_takeWhile (by decide) _,
          isBlank.unbroken⟩
      · rintro (nothing | cr)
        · simp at nothing
        · have length := congrArg List.length cr
          have := List.length_pos_iff.mpr named
          simp only [List.length_append, List.length_cons, List.length_nil] at length
          omega
      · simpa using whole
    · cases read

/-- What a reader of header lines has found: a line for each field, and then a blank one. -/
def FoundLines (input : Bytes) (count : Nat) (rest : Bytes) : Prop :=
  ∃ lines blank, lines.length = count ∧ (∀ line ∈ lines, Bytes.lf ∉ line) ∧
    (∀ line ∈ lines, ¬IsBlank line) ∧ IsBlank blank ∧
    input = terminated lines ++ (blank ++ Bytes.lf :: rest)

theorem FoundLines.cons {line input : Bytes} {count : Nat} (unbroken : Bytes.lf ∉ line)
    (filled : ¬IsBlank line) (found : FoundLines input count rest) :
    FoundLines (line ++ Bytes.lf :: input) (count + 1) rest := by
  rcases found with ⟨lines, blank, length_eq, allUnbroken, allFilled, isBlank, rfl⟩
  refine ⟨line :: lines, blank, congrArg (· + 1) length_eq,
    List.forall_mem_cons.mpr ⟨unbroken, allUnbroken⟩,
    List.forall_mem_cons.mpr ⟨filled, allFilled⟩, isBlank, ?_⟩
  rw [Bytes.terminated_cons]

theorem foundLines_of_readNewLine {fields : List Field}
    (read : (do let rest ← readNewLine .newLine input; pure ([], rest))
      = (.ok (fields, rest) : Except ReadError (List Field × Bytes))) :
    FoundLines input fields.length rest := by
  rcases exists_of_bind_eq_ok read with ⟨after, newLine, done⟩
  cases done
  rcases readNewLine_eq_ok newLine with ⟨blank, isBlank, rfl⟩
  exact ⟨[], blank, rfl, by simp, by simp, isBlank, rfl⟩

/-- The induction over the header lines that may still come: a line is found whole before the
next one is looked for. -/
theorem readFields_eq_ok {allowed : Nat} {fields : List Field}
    (read : readFields allowed input = .ok (fields, rest)) :
    FoundLines input fields.length rest := by
  induction allowed generalizing input fields with
  | zero =>
      rw [readFields.eq_def] at read
      split at read
      · exact foundLines_of_readNewLine read
      · exact foundLines_of_readNewLine read
      · exact foundLines_of_readNewLine read
      · rcases exists_of_bind_eq_ok read with ⟨_, _, refused⟩
        cases refused
  | succ allowed ih =>
      rw [readFields.eq_def] at read
      split at read
      · exact foundLines_of_readNewLine read
      · exact foundLines_of_readNewLine read
      · exact foundLines_of_readNewLine read
      · rcases exists_of_bind_eq_ok read with ⟨⟨field, after⟩, first, read⟩
        rcases exists_of_bind_eq_ok read with ⟨⟨later, last⟩, others, done⟩
        cases done
        rcases readField_eq_ok first with ⟨line, unbroken, filled, rfl⟩
        exact (ih others).cons unbroken filled

/-- A text that was read as a head is laid out in lines, with a header line for each field. -/
theorem exists_layout {text body : Bytes} {head : Head} (read : Head.read text = .ok (head, body)) :
    ∃ layout : Layout text, layout.lines.length = head.fields.length ∧ layout.body = body := by
  rcases exists_of_bind_eq_ok read with ⟨first, skipped, read⟩
  rcases exists_of_bind_eq_ok read with ⟨⟨method, second⟩, methodRead, read⟩
  rcases exists_of_bind_eq_ok read with ⟨⟨target, third⟩, targetRead, read⟩
  rcases exists_of_bind_eq_ok read with ⟨⟨version, fourth⟩, versionRead, read⟩
  rcases exists_of_bind_eq_ok read with ⟨fifth, newLine, read⟩
  rcases exists_of_bind_eq_ok read with ⟨⟨fields, last⟩, fieldsRead, done⟩
  cases done
  rcases skipNewLines_eq_ok skipped with ⟨breaks, all_breaks, rfl⟩
  rcases readMethod_eq_ok methodRead with ⟨tokens, named, rfl⟩
  rcases readTarget_eq_ok targetRead with ⟨targets, rfl⟩
  rcases readVersion_eq_ok versionRead with ⟨rfl, noFeed⟩
  rcases readNewLine_eq_ok newLine with ⟨ending, isBlank, rfl⟩
  rcases readFields_eq_ok fieldsRead with
    ⟨lines, blank, length_eq, unbroken, filled, blankIsBlank, rfl⟩
  have token : Octet.Token method := ⟨named, tokens⟩
  rcases token.cons with ⟨initial, more, method_eq, notLf, notCr⟩
  have lineUnbroken : Bytes.lf ∉
      method ++ Bytes.space :: (target ++ Bytes.space :: (Bytes.ascii version.name ++ ending)) := by
    simp only [List.mem_append, List.mem_cons, not_or]
    refine ⟨?_, by decide, ?_, by decide, noFeed, isBlank.unbroken⟩
    · intro mem
      exact absurd (tokens _ mem) (by decide)
    · intro mem
      exact absurd (targets _ mem) (by decide)
  refine ⟨{
    breaks
    requestLine :=
      method ++ Bytes.space :: (target ++ Bytes.space :: (Bytes.ascii version.name ++ ending))
    lines
    blank
    body
    all_breaks
    starts := ⟨initial, _, by rw [method_eq]; rfl, by simp [Octet.isBreak, notLf, notCr]⟩
    unbroken := List.forall_mem_cons.mpr ⟨lineUnbroken, unbroken⟩
    filled
    isBlank := blankIsBlank
    text_eq := ?_ }, length_eq, rfl⟩
  simp [Bytes.terminated]

theorem dropWhile_append_stop {belongs : UInt8 → Bool} {part later : Bytes} {stop : UInt8}
    (outside : belongs stop = false) :
    (part ++ stop :: later).dropWhile belongs = part.dropWhile belongs ++ stop :: later := by
  rw [List.dropWhile_append]
  split
  · rename_i nothing
    rw [List.isEmpty_iff.mp nothing, List.nil_append,
      List.dropWhile_cons_of_neg (by simp [outside])]
  · rfl

/-- The request line comes after the line breaks that a reader skips. -/
theorem Layout.dropWhile_isBreak {text : Bytes} (layout : Layout text) :
    text.dropWhile Octet.isBreak
      = terminated (layout.requestLine :: layout.lines ++ [layout.blank]) ++ layout.body := by
  rcases layout.starts with ⟨initial, more, line_eq, notBreak⟩
  have skipped := congrArg (List.dropWhile Octet.isBreak) layout.text_eq
  rw [List.dropWhile_append_of_pos layout.all_breaks] at skipped
  refine skipped.trans ?_
  rw [line_eq]
  exact List.dropWhile_cons_of_neg (by simp [notBreak])

/-- What a reader finds in a text that was written line by line, the first line with a space in
it. The reader finds as many header lines and the same body if and only if no line feed stands
in a line, other than in the line breaks that it skips at the start. -/
theorem Layout.agrees_iff {text method tail body : Bytes} {lines : List Bytes}
    (layout : Layout text) (filled : ∀ line ∈ lines, ¬IsBlank line)
    (text_eq : text
      = terminated ((method ++ Bytes.space :: tail) :: lines ++ [[Bytes.cr]]) ++ body) :
    (layout.lines.length = lines.length ∧ layout.body = body) ↔
      Bytes.lf ∉ method.dropWhile Octet.isBreak ∧ Bytes.lf ∉ tail ∧
        ∀ line ∈ lines, Bytes.lf ∉ line := by
  have same : terminated ((method.dropWhile Octet.isBreak ++ Bytes.space :: tail) :: lines
        ++ [[Bytes.cr]]) ++ body
      = terminated (layout.requestLine :: layout.lines ++ [layout.blank]) ++ layout.body := by
    have written : text.dropWhile Octet.isBreak
        = method.dropWhile Octet.isBreak ++ Bytes.space ::
          (tail ++ Bytes.lf :: (terminated (lines ++ [[Bytes.cr]]) ++ body)) := by
      rw [text_eq, List.cons_append, Bytes.terminated_cons, List.append_assoc, List.cons_append,
        dropWhile_append_stop (by decide)]
    rw [← layout.dropWhile_isBreak, written]
    simp [terminated]
  rw [Bytes.same_lines_iff filled (.inr rfl) layout.unbroken layout.filled layout.isBlank same]
  simp [show Bytes.lf ≠ Bytes.space by decide, and_assoc]

end Head

end Reassembly
