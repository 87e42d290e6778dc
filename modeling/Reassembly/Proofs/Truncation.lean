import Reassembly.Proofs.Interleaving
import Reassembly.Proofs.Request.Reading

/-!
# Heads that are cut off

A reader answers at the octet that settles its answer and looks at no octet after it. So what it
says of some input it says of every longer input, unless it has run out of input. `Final` states
this of one reader, and readers one after the other inherit it.

A head that can be written is read, and nothing is left of its text. If a reader of a shorter
text came to an answer, it would have to leave the rest of the text over. So every proper prefix
of the text of a head is incomplete, wherever it is cut off, and no consumer assembles it.
-/

namespace Reassembly

open Delivery (Item Queue)

namespace Head

variable {Value Other : Type}

/-- A reader whose answer is final. Unless it runs out of input, it says the same of every longer
input, and leaves what that has more. -/
def Final (read : Reader Value) : Prop :=
  ∀ input more, read input = .error .incomplete ∨
    read (input ++ more) = (read input).map fun (value, rest) => (value, rest ++ more)

/-- A final answer to a text that leaves nothing over is an answer to the whole of it only. -/
theorem Final.incomplete_of_prefix {read : Reader Value} (final : Final read) {text octets : Bytes}
    {value : Value} (whole : read text = .ok (value, [])) (cut : octets <+: text)
    (proper : octets ≠ text) : read octets = .error .incomplete := by
  rcases cut with ⟨more, rfl⟩
  rcases final octets more with ranOut | same
  · exact ranOut
  · rw [whole] at same
    cases answer : read octets with
    | error error =>
        rw [answer] at same
        cases same
    | ok result =>
        rw [answer] at same
        have left := congrArg Prod.snd (Except.ok.inj same)
        have nothing := (List.append_eq_nil_iff.mp left.symm).2
        rw [nothing, List.append_nil] at proper
        exact absurd rfl proper

theorem Final.bind {read : Reader Other} {next : Other → Reader Value} (first : Final read)
    (second : ∀ value, Final (next value)) :
    Final (fun input => do
      let (value, rest) ← read input
      next value rest) := by
  intro input more
  dsimp only
  rcases first input more with ranOut | same
  · rw [ranOut]
    exact .inl rfl
  · rw [same]
    cases read input with
    | error error => exact .inr rfl
    | ok result => exact second result.1 result.2 more

theorem final_pure (value : Value) : Final fun rest => pure (value, rest) :=
  fun _ _ => .inr rfl

theorem readNewLine_of_ne {first : UInt8} (notLf : first ≠ Bytes.lf) (notCr : first ≠ Bytes.cr)
    (fault : Fault) (rest : Bytes) :
    readNewLine fault (first :: rest) = .error (.malformed fault) := by
  simp [readNewLine, notLf, notCr]

theorem readNewLine_cr_of_ne {second : UInt8} (notLf : second ≠ Bytes.lf) (fault : Fault)
    (rest : Bytes) : readNewLine fault (Bytes.cr :: second :: rest) = .error (.malformed fault) := by
  rw [readNewLine.eq_def]
  split
  · rename_i same
    cases same
  · rename_i same
    cases same
    exact absurd rfl notLf
  · rename_i same
    cases same
  · rename_i same
    cases same
  · rfl

/-- A line feed settles a new line, and so does whatever cannot be part of one. -/
theorem readNewLine_append (fault : Fault) (input more : Bytes) :
    readNewLine fault input = .error .incomplete ∨
      readNewLine fault (input ++ more) = (readNewLine fault input).map (· ++ more) := by
  rcases input with _ | ⟨first, rest⟩
  · exact .inl rfl
  by_cases isLf : first = Bytes.lf
  · subst isLf
    exact .inr rfl
  by_cases isCr : first = Bytes.cr
  · subst isCr
    rcases rest with _ | ⟨second, rest⟩
    · exact .inl rfl
    by_cases endsLine : second = Bytes.lf
    · subst endsLine
      exact .inr rfl
    · right
      rw [List.cons_append, List.cons_append, readNewLine_cr_of_ne endsLine,
        readNewLine_cr_of_ne endsLine]
      rfl
  · right
    rw [List.cons_append, readNewLine_of_ne isLf isCr, readNewLine_of_ne isLf isCr]
    rfl

theorem Final.afterNewLine {next : Reader Value} (final : Final next) (fault : Fault) :
    Final (fun input => do
      let rest ← readNewLine fault input
      next rest) := by
  intro input more
  dsimp only
  rcases readNewLine_append fault input more with ranOut | same
  · rw [ranOut]
    exact .inl rfl
  · rw [same]
    cases readNewLine fault input with
    | error error => exact .inr rfl
    | ok rest => exact final rest more

/-- The octet that ends the octets of a class settles which they are. -/
theorem span_append {belongs : UInt8 → Bool} {input rest : Bytes} {next : UInt8}
    (stops : input.dropWhile belongs = next :: rest) (more : Bytes) :
    (input ++ more).takeWhile belongs = input.takeWhile belongs ∧
      (input ++ more).dropWhile belongs = next :: (rest ++ more) := by
  have parts : input = input.takeWhile belongs ++ next :: rest := by
    rw [← stops, List.takeWhile_append_dropWhile]
  have inside : ∀ octet ∈ input.takeWhile belongs, belongs octet = true :=
    List.all_eq_true.mp List.all_takeWhile
  have outside : belongs next = false := by
    have stopped := List.head?_dropWhile_not belongs input
    rw [stops] at stopped
    simpa using stopped
  have whole : input ++ more = input.takeWhile belongs ++ next :: (rest ++ more) := by
    rw [← List.cons_append, ← List.append_assoc, ← parts]
  rw [whole]
  exact ⟨takeWhile_append_cons inside outside, dropWhile_append_cons inside outside⟩

theorem final_readMethod : Final readMethod := by
  intro input more
  unfold readMethod
  cases stops : input.dropWhile Octet.isToken with
  | nil => exact .inl rfl
  | cons next rest =>
      right
      rcases span_append stops more with ⟨taken, left⟩
      simp only [taken, left]
      split <;> rfl

theorem final_readTarget : Final readTarget := by
  intro input more
  unfold readTarget
  cases stops : input.dropWhile Octet.isTarget with
  | nil => exact .inl rfl
  | cons next rest =>
      right
      rcases span_append stops more with ⟨taken, left⟩
      simp only [taken, left]
      split <;> rfl

/-- More input does not make a word out of what is not the beginning of one. -/
theorem isPrefixOf_append {stem input : Bytes} (unlike : ¬input <+: stem) (digit : UInt8)
    (more : Bytes) :
    (stem ++ [digit]).isPrefixOf (input ++ more) = (stem ++ [digit]).isPrefixOf input := by
  rw [Bool.eq_iff_iff, List.isPrefixOf_iff_prefix, List.isPrefixOf_iff_prefix]
  constructor
  · intro word
    rcases List.prefix_or_prefix_of_prefix word (List.prefix_append input more) with whole | part
    · exact whole
    · rcases List.prefix_concat_iff.mp part with same | short
      · exact same ▸ List.prefix_rfl
      · exact absurd short unlike
  · exact fun word => word.trans (List.prefix_append input more)

theorem final_readVersion : Final readVersion := by
  intro input more
  have word10 : Bytes.ascii "HTTP/1.0" = Bytes.ascii "HTTP/1." ++ [0x30] := rfl
  have word11 : Bytes.ascii "HTTP/1.1" = Bytes.ascii "HTTP/1." ++ [0x31] := rfl
  -- the two words differ in the last digit only, so up to there the input may become either
  by_cases part : input <+: Bytes.ascii "HTTP/1."
  · left
    have short (digit : UInt8) :
        (Bytes.ascii "HTTP/1." ++ [digit]).isPrefixOf input = false := by
      rw [Bool.eq_false_iff, ne_eq, List.isPrefixOf_iff_prefix]
      intro word
      exact absurd (word.trans part).length_le (by simp)
    simp only [readVersion, word10, word11, short, List.isPrefixOf_iff_prefix.mpr part]
    rfl
  · right
    have unlike : ¬input.isPrefixOf (Bytes.ascii "HTTP/1.") := by
      rwa [List.isPrefixOf_iff_prefix]
    have longer : ¬(input ++ more).isPrefixOf (Bytes.ascii "HTTP/1.") := by
      rw [List.isPrefixOf_iff_prefix]
      exact fun whole => part ((List.prefix_append input more).trans whole)
    have afterWord {digit : UInt8}
        (isWord : (Bytes.ascii "HTTP/1." ++ [digit]).isPrefixOf input = true) :
        (input ++ more).drop 8 = input.drop 8 ++ more := by
      have long : 8 ≤ input.length := (List.isPrefixOf_iff_prefix.mp isWord).length_le
      exact List.drop_append_of_le_length long
    simp only [readVersion, word10, word11, isPrefixOf_append part, unlike, longer]
    split
    · rename_i isWord
      rw [afterWord isWord]
      rfl
    · split
      · rename_i isWord
        rw [afterWord isWord]
        rfl
      · rfl

/-- Blanks at the end of the input may not be the last ones, and neither may the octets of a
value; so a field is settled only after both. -/
theorem final_readField : Final readField := by
  intro input more
  unfold readField
  cases stops : input.dropWhile Octet.isToken with
  | nil => exact .inl rfl
  | cons next rest =>
      rcases span_append stops more with ⟨taken, left⟩
      simp only [taken, left]
      split
      · cases ends : (rest.dropWhile Octet.isBlank).dropWhile Octet.isValue with
        | nil => exact .inl rfl
        | cons last others =>
            -- the value has ended, so the blanks before it have
            cases starts : rest.dropWhile Octet.isBlank with
            | nil =>
                rw [starts] at ends
                cases ends
            | cons first value =>
                rw [starts] at ends
                rcases span_append ends more with ⟨valueTaken, valueLeft⟩
                rw [List.cons_append] at valueTaken valueLeft
                simp only [(span_append starts more).2, valueTaken, valueLeft]
                exact (final_pure _).afterNewLine .fieldValue (last :: others) more
      · exact .inr rfl

/-- The first octet tells the blank line from a header line. -/
theorem final_readFields_of_line {allowed : Nat}
    (line : Final (fun input => do
      let (field, rest) ← readField input
      match allowed with
      | 0 => throw .tooManyFields
      | allowed + 1 =>
          let (later, rest) ← readFields allowed rest
          pure (field :: later, rest))) :
    Final (readFields allowed) := by
  intro input more
  rcases input with _ | ⟨first, rest⟩
  · cases allowed <;> exact .inl rfl
  have blank := (final_pure ([] : List Field)).afterNewLine .newLine (first :: rest) more
  by_cases isLf : first = Bytes.lf
  · subst isLf
    cases allowed <;> exact blank
  by_cases isCr : first = Bytes.cr
  · subst isCr
    cases allowed <;> exact blank
  · rw [List.cons_append, readFields_cons isLf isCr, readFields_cons isLf isCr]
    exact line (first :: rest) more

theorem final_readFields (allowed : Nat) : Final (readFields allowed) := by
  induction allowed with
  | zero =>
      have tooMany : Final (fun _ => throw .tooManyFields : Reader (List Field)) :=
        fun _ _ => .inr rfl
      exact final_readFields_of_line (final_readField.bind fun _ => tooMany)
  | succ allowed ih =>
      exact final_readFields_of_line
        (final_readField.bind fun _ => ih.bind fun _ => final_pure _)

theorem skipNewLines_cr_of_ne {second : UInt8} (notLf : second ≠ Bytes.lf) (rest : Bytes) :
    skipNewLines (Bytes.cr :: second :: rest) = .error (.malformed .newLine) := by
  rw [skipNewLines.eq_def]
  split
  · rename_i same
    cases same
  · rename_i same
    cases same
    exact absurd rfl notLf
  · rename_i same
    cases same
  · rfl
  · rename_i notCr
    exact absurd rfl (notCr _)

/-- Where only blank lines have come, what comes next may be one more. -/
theorem skipNewLines_append (input more : Bytes) :
    skipNewLines input = .error .incomplete ∨ skipNewLines input = .ok [] ∨
      skipNewLines (input ++ more) = (skipNewLines input).map (· ++ more) := by
  fun_induction skipNewLines input with
  | case1 rest ih => exact ih
  | case2 rest ih => exact ih
  | case3 => exact .inl rfl
  | case4 rest notLf notEnd =>
      rcases rest with _ | ⟨second, rest⟩
      · exact absurd rfl notEnd
      · have notLf : second ≠ Bytes.lf := by
          rintro rfl
          exact notLf rest rfl
        exact .inr (.inr (skipNewLines_cr_of_ne notLf (rest ++ more)))
  | case5 input notLf notCrLf notEnd notCr =>
      rcases input with _ | ⟨first, rest⟩
      · exact .inr (.inl rfl)
      · have notLf : first ≠ Bytes.lf := by
          rintro rfl
          exact notLf rest rfl
        have notCr : first ≠ Bytes.cr := by
          rintro rfl
          exact notCr rest rfl
        exact .inr (.inr (skipNewLines_of_ne notLf notCr (rest ++ more)))

theorem Final.afterNewLines {next : Reader Value} (final : Final next)
    (needs : next [] = .error .incomplete) :
    Final (fun input => do
      let rest ← skipNewLines input
      next rest) := by
  intro input more
  dsimp only
  rcases skipNewLines_append input more with ranOut | blank | same
  · rw [ranOut]
    exact .inl rfl
  · rw [blank]
    exact .inl needs
  · rw [same]
    cases skipNewLines input with
    | error error => exact .inr rfl
    | ok rest => exact final rest more

theorem final_read : Final read := by
  have final := (final_readMethod.bind fun method => final_readTarget.bind fun target =>
    final_readVersion.bind fun version =>
      ((final_readFields maxFields).bind fun fields =>
        final_pure { method, target, version, fields : Head }).afterNewLine .newLine).afterNewLines rfl
  exact final

/-- A head is read whole or, as long as its text is cut off, not at all. -/
theorem read_of_prefix {head : Head} (spellable : head.Spellable)
    (few : head.fields.length ≤ maxFields) {octets : Bytes} (cut : octets <+: head.text)
    (proper : octets ≠ head.text) : read octets = .error .incomplete := by
  have whole := read_text_append spellable []
  rw [if_pos few, List.append_nil] at whole
  exact final_read.incomplete_of_prefix whole cut proper

end Head

namespace Consumer

/-- What a consumer comes to if it runs as far as it can. -/
def Progress.outcome? (progress : Progress) (queue : Queue) : Option Result :=
  match progress with
  | .finished done => some done.result
  | .waiting current => (current.advance queue).1.result?

theorem Interleaved.outcome?_eq {consumer : Consumer} (whole : consumer.want ≠ .item)
    (fresh : consumer.taken = []) {accepted : List Item} {queue : Queue} {progress : Progress}
    (reached : Interleaved consumer accepted queue (some progress)) :
    progress.outcome? queue = consumer.due accepted queue.isClosed := by
  cases progress with
  | finished done => exact ((reached.stands whole fresh).2.due_eq whole fresh).symm
  | waiting current => exact (reached.outcome whole fresh).2.1

/-- However the text of a head is cut off, into whatever chunks what is left of it is cut, and
whatever happens between its turns, a reader of the stream finds the head incomplete. -/
theorem cut_head_incomplete {consumer : Consumer} (whole : consumer.want = .request)
    (fresh : consumer.taken = []) {head : Head} (spellable : head.Spellable)
    (few : head.fields.length ≤ Head.maxFields) {chunks : List Bytes}
    (cut : chunks.flatten <+: head.text) (proper : chunks.flatten ≠ head.text) {queue : Queue}
    {progress : Progress}
    (reached : Interleaved consumer (chunks.map .chunk ++ [.endOfStream]) queue (some progress)) :
    progress.outcome? queue = some (.request (.error (.incomplete consumer.stream))) := by
  have afterAll : consumer.want ≠ .item := by simp [whole]
  have incomplete : Request.assemble consumer.stream chunks.flatten
      = .error (.incomplete consumer.stream) := by
    rw [Request.assemble, Head.read_of_prefix spellable few cut proper]
    rfl
  rw [reached.outcome?_eq afterAll fresh, due, whole]
  simp [incomplete]

/-- The head of a request that has one header field. -/
def plainHead : Head where
  method := Bytes.ascii "GET"
  target := Bytes.ascii "/"
  version := .http11
  fields := [⟨Bytes.ascii "a", Bytes.ascii "b"⟩]

theorem spellable_plainHead : plainHead.Spellable where
  version := rfl
  method := ⟨by decide, List.all_eq_true.mp rfl⟩
  target_nonempty := by decide
  target := List.all_eq_true.mp rfl
  target_valid := by decide
  fields field field_mem := by
    rw [List.mem_singleton.mp field_mem]
    exact ⟨⟨by decide, List.all_eq_true.mp rfl⟩, List.all_eq_true.mp rfl⟩

/-- The text is cut off between a carriage return and its line feed, and the reader comes when only
one of the chunks has been accepted. -/
theorem cut_head_incomplete_plainHead :
    let chunks := [Bytes.ascii "GET / HT", Bytes.ascii "TP/1.1\r"]
    let reader : Consumer := { name := "reader", want := .request, stream := 7 }
    let first := reader.turn (Queue.add {} 7 (.chunk (Bytes.ascii "GET / HT")))
    let queue := (first.2.add 7 (.chunk (Bytes.ascii "TP/1.1\r"))).add 7 .endOfStream
    chunks.flatten <+: plainHead.text ∧ chunks.flatten ≠ plainHead.text ∧
      first.1.outcome? queue = some (.request (.error (.incomplete 7))) := by
  intro chunks reader first queue
  have cut : chunks.flatten <+: plainHead.text := List.isPrefixOf_iff_prefix.mp (by decide)
  have proper : chunks.flatten ≠ plainHead.text := by decide
  have reached : Interleaved reader (chunks.map .chunk ++ [.endOfStream]) queue (some first.1) :=
    ((Interleaved.nothing.deliver rfl _).start.turn.deliver rfl _).deliver rfl _
  exact ⟨cut, proper,
    cut_head_incomplete rfl rfl spellable_plainHead (by decide) cut proper reached⟩

end Consumer

end Reassembly
