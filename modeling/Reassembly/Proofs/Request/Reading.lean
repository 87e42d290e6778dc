import Reassembly.HeadLine
import Reassembly.Request.Assembly

/-!
# Reading what was written

The readers of a request head undo the spelling of its lines. Each of them takes exactly
one part off the front of the text and leaves the rest, because the octet after the part
cannot belong to it: a space ends a method and a target, a colon ends a name, and a
carriage return ends a value. So the head ends where its blank line ends, whatever the body
looks like.
-/

namespace Reassembly

namespace Octet

theorem isToken_space : isToken Bytes.space = false := by decide

theorem isToken_colon : isToken Bytes.colon = false := by decide

theorem isToken_lf : isToken Bytes.lf = false := by decide

theorem isToken_cr : isToken Bytes.cr = false := by decide

theorem isTarget_space : isTarget Bytes.space = false := by decide

theorem isValue_cr : isValue Bytes.cr = false := by decide

theorem isBlank_space : isBlank Bytes.space = true := by decide

theorem isBlank_cr : isBlank Bytes.cr = false := by decide

end Octet

section Spans

variable {Entry : Type} {belongs : Entry → Bool} {part later : List Entry} {stop : Entry}

theorem takeWhile_append_cons (inside : ∀ entry ∈ part, belongs entry = true)
    (outside : belongs stop = false) :
    (part ++ stop :: later).takeWhile belongs = part := by
  rw [List.takeWhile_append_of_pos inside, List.takeWhile_cons_of_neg (by simp [outside]),
    List.append_nil]

theorem dropWhile_append_cons (inside : ∀ entry ∈ part, belongs entry = true)
    (outside : belongs stop = false) :
    (part ++ stop :: later).dropWhile belongs = stop :: later := by
  rw [List.dropWhile_append_of_pos inside, List.dropWhile_cons_of_neg (by simp [outside])]

end Spans

/-- A nonempty string of token octets. -/
structure Octet.Token (octets : Bytes) : Prop where
  nonempty : octets ≠ []
  tokens : ∀ octet ∈ octets, isToken octet = true

theorem Octet.Token.cons {octets : Bytes} (token : Token octets) :
    ∃ first rest, octets = first :: rest ∧ first ≠ Bytes.lf ∧ first ≠ Bytes.cr := by
  rcases List.exists_cons_of_ne_nil token.nonempty with ⟨first, rest, rfl⟩
  have isFirst := token.tokens first List.mem_cons_self
  refine ⟨first, rest, rfl, ?_, ?_⟩
  · rintro rfl
    rw [isToken_lf] at isFirst
    cases isFirst
  · rintro rfl
    rw [isToken_cr] at isFirst
    cases isFirst

/-- A header value without the spaces and tabs around it. -/
def Bytes.trim (value : Bytes) : Bytes := Head.trimEnd (value.dropWhile Octet.isBlank)

/-- A header field as it is read after it was written: without the spaces and tabs around
its value. -/
def Field.trimmed (field : Field) : Field where
  name := field.name
  value := field.value.trim

/-- The line that spells a header field. -/
def Field.line (field : Field) : HeadLine := .field field.name field.value

/-- A header field that can be written as a line. -/
structure Field.Spellable (field : Field) : Prop where
  name : Octet.Token field.name
  value : ∀ octet ∈ field.value, Octet.isValue octet = true

namespace Head

theorem skipNewLines_of_ne {first : UInt8} (notLf : first ≠ Bytes.lf) (notCr : first ≠ Bytes.cr)
    (rest : Bytes) : skipNewLines (first :: rest) = .ok (first :: rest) := by
  simp [skipNewLines, notLf, notCr]

theorem skipNewLines_token {method rest : Bytes} (token : Octet.Token method) :
    skipNewLines (method ++ rest) = .ok (method ++ rest) := by
  rcases token.cons with ⟨first, others, rfl, notLf, notCr⟩
  exact skipNewLines_of_ne notLf notCr (others ++ rest)

theorem readMethod_append {method rest : Bytes} (token : Octet.Token method) :
    readMethod (method ++ Bytes.space :: rest) = .ok (method, rest) := by
  simp [readMethod, takeWhile_append_cons token.tokens Octet.isToken_space,
    dropWhile_append_cons token.tokens Octet.isToken_space, token.nonempty]

theorem readTarget_append {target rest : Bytes} (nonempty : target ≠ [])
    (octets : ∀ octet ∈ target, Octet.isTarget octet = true)
    (valid : Text.Utf8.isValid target = true) :
    readTarget (target ++ Bytes.space :: rest) = .ok (target, rest) := by
  simp [readTarget, takeWhile_append_cons octets Octet.isTarget_space,
    dropWhile_append_cons octets Octet.isTarget_space, nonempty, valid]

theorem readVersion_append {version : Version} (textual : version.isTextual = true)
    (rest : Bytes) :
    readVersion (Bytes.ascii version.name ++ rest) = .ok (version, rest) := by
  cases version with
  | http10 => rfl
  | http11 => rfl
  | http09 => cases textual
  | http2 => cases textual
  | http3 => cases textual

theorem readNewLine_crlf (fault : Fault) (rest : Bytes) :
    readNewLine fault (Bytes.crlf ++ rest) = .ok rest := rfl

theorem readField_append {field : Field} (spellable : field.Spellable) (rest : Bytes) :
    readField (field.line.text ++ rest) = .ok (field.trimmed, rest) := by
  have text : field.line.text ++ rest
      = field.name ++ Bytes.colon :: Bytes.space :: (field.value ++ Bytes.cr :: Bytes.lf :: rest) := by
    simp [Field.line, HeadLine.text, Bytes.crlf, show Bytes.ascii ": " = [0x3A, 0x20] from rfl]
  have blanks : (Bytes.space :: (field.value ++ Bytes.cr :: Bytes.lf :: rest)).dropWhile
        Octet.isBlank
      = field.value.dropWhile Octet.isBlank ++ Bytes.cr :: Bytes.lf :: rest := by
    rw [List.dropWhile_cons_of_pos Octet.isBlank_space, List.dropWhile_append]
    split
    · rename_i allBlank
      rw [List.isEmpty_iff.mp allBlank, List.nil_append,
        List.dropWhile_cons_of_neg (by simp [Octet.isBlank_cr])]
    · rfl
  have value : ∀ octet ∈ field.value.dropWhile Octet.isBlank, Octet.isValue octet = true := by
    intro octet octet_mem
    exact spellable.value octet (List.dropWhile_sublist _ |>.subset octet_mem)
  rw [text, readField]
  simp only [takeWhile_append_cons spellable.name.tokens Octet.isToken_colon,
    dropWhile_append_cons spellable.name.tokens Octet.isToken_colon, spellable.name.nonempty,
    ne_eq, not_false_eq_true, and_self, ↓reduceIte, blanks,
    takeWhile_append_cons value Octet.isValue_cr, dropWhile_append_cons value Octet.isValue_cr]
  rfl

/-- What reading the header lines of a head comes to. -/
def readLines (allowed : Nat) (fields : List Field) (body : Bytes) :
    Except ReadError (List Field × Bytes) :=
  if fields.length ≤ allowed then .ok (fields.map Field.trimmed, body)
  else .error .tooManyFields

/-- Unless a blank line begins, a header line is read, and then those after it. -/
theorem readFields_cons {first : UInt8} (notLf : first ≠ Bytes.lf) (notCr : first ≠ Bytes.cr)
    (allowed : Nat) (more : Bytes) :
    readFields allowed (first :: more) = (do
      let (field, rest) ← readField (first :: more)
      match allowed with
      | 0 => throw .tooManyFields
      | allowed + 1 =>
          let (later, rest) ← readFields allowed rest
          pure (field :: later, rest)) := by
  rw [readFields.eq_def]
  split
  · rename_i same
    cases same
  · rename_i same
    cases same
    exact absurd rfl notLf
  · rename_i same
    cases same
    exact absurd rfl notCr
  · rfl

/-- The text of header lines and of the blank line after them. -/
def headerText (fields : List Field) : Bytes :=
  (fields.map fun field => field.line.text).flatten ++ HeadLine.blank.text

/-- The induction over the header lines: each line is read whole before the next one, and the
blank line stops the reader. -/
theorem readFields_headerText {fields : List Field}
    (spellable : ∀ field ∈ fields, field.Spellable) (allowed : Nat) (body : Bytes) :
    readFields allowed (headerText fields ++ body) = readLines allowed fields body := by
  induction fields generalizing allowed with
  | nil =>
      cases allowed with
      | zero => rfl
      | succ allowed => rfl
  | cons field later ih =>
      have spellableLater : ∀ other ∈ later, other.Spellable := fun other other_mem =>
        spellable other (List.mem_cons_of_mem field other_mem)
      have spellableField := spellable field List.mem_cons_self
      have reads := readField_append spellableField (headerText later ++ body)
      have text : headerText (field :: later) ++ body
          = field.line.text ++ (headerText later ++ body) := by
        simp [headerText]
      rcases spellableField.name.cons with ⟨first, others, name_eq, notLf, notCr⟩
      have start : ∃ more, field.line.text ++ (headerText later ++ body) = first :: more := by
        simp [Field.line, HeadLine.text, name_eq]
      rcases start with ⟨more, start⟩
      rw [start] at reads
      rw [text, start, readFields_cons notLf notCr, reads]
      cases allowed with
      | zero => rfl
      | succ allowed =>
          change (readFields allowed (headerText later ++ body) >>= fun (others, rest) =>
            pure (field.trimmed :: others, rest)) = _
          rw [ih spellableLater allowed]
          by_cases enough : later.length ≤ allowed
          · simp only [readLines, enough, List.length_cons, Nat.add_le_add_iff_right]
            rfl
          · simp only [readLines, enough, List.length_cons, Nat.add_le_add_iff_right]
            rfl

/-- The text of a head as a stream writes it, up to and including the blank line. -/
def text (head : Head) : Bytes :=
  (HeadLine.request head.method head.target (some head.version)).text ++ headerText head.fields

/-- A head that can be written as text. -/
structure Spellable (head : Head) : Prop where
  version : head.version.isTextual = true
  method : Octet.Token head.method
  target_nonempty : head.target ≠ []
  target : ∀ octet ∈ head.target, Octet.isTarget octet = true
  target_valid : Text.Utf8.isValid head.target = true
  fields : ∀ field ∈ head.fields, field.Spellable

/-- A head as it is read after it was written. -/
def trimmed (head : Head) : Head := { head with fields := head.fields.map Field.trimmed }

theorem text_append (head : Head) (rest : Bytes) :
    head.text ++ rest
      = head.method ++ Bytes.space :: (head.target ++ Bytes.space ::
        (Bytes.ascii head.version.name ++ (Bytes.crlf ++ (headerText head.fields ++ rest)))) := by
  have space : Bytes.ascii " " = [Bytes.space] := rfl
  simp [text, HeadLine.text, space]

/-- Reading the text of a head and of a body after it splits them where the body begins. -/
theorem read_text_append {head : Head} (spellable : head.Spellable) (body : Bytes) :
    read (head.text ++ body)
      = if head.fields.length ≤ maxFields then .ok (head.trimmed, body)
        else .error .tooManyFields := by
  have reads := readFields_headerText spellable.fields maxFields body
  simp only [text_append, read, bind, Except.bind, skipNewLines_token spellable.method,
    readMethod_append spellable.method,
    readTarget_append spellable.target_nonempty spellable.target spellable.target_valid,
    readVersion_append spellable.version, readNewLine_crlf, reads, readLines]
  by_cases enough : head.fields.length ≤ maxFields
  · simp only [enough, ↓reduceIte]
    rfl
  · simp only [enough, ↓reduceIte]

end Head

end Reassembly
