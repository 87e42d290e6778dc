import Reassembly.Proofs.Request.Reading
import Reassembly.Stream.Feed

/-!
# Messages

A message is a request as a peer means it: its pseudo-headers, its header fields and its
body in pieces. Its text is what a stream writes for it. Assembling this text gives the
message back, except that header names come in lower case and their values without the
spaces and tabs around them, and that too many header lines are refused.
-/

namespace Reassembly

/-- A request as a peer means it. -/
structure Message where
  version : Version
  method : Bytes
  path : Bytes
  scheme : Option Bytes := none
  authority : Option Bytes := none
  /-- The header fields, without the pseudo-headers. -/
  headers : List Field := []
  /-- The body, in the pieces in which it arrives. -/
  data : List Bytes := []
  deriving DecidableEq, Repr

namespace Message

/-- A message that can be written as text, whose path reads as this target. -/
structure WellFormed (message : Message) (target : Target) : Prop where
  version : message.version.isTextual = true
  method : Octet.Token message.method
  path_nonempty : message.path ≠ []
  path : ∀ octet ∈ message.path, Octet.isTarget octet = true
  path_valid : Text.Utf8.isValid message.path = true
  path_target : Target.parse message.path = .ok target
  scheme : ∀ scheme, message.scheme = some scheme → scheme ≠ []
  authority : ∀ authority, message.authority = some authority →
    authority ≠ [] ∧ ∀ octet ∈ authority, Octet.isValue octet = true
  headers : ∀ field ∈ message.headers,
    field.Spellable ∧ field.name.length ≤ Request.maxNameLength

/-- The header fields of a message, its authority among them. -/
def fields (message : Message) : List Field :=
  (message.authority.map fun value => { name := Feed.hostName, value }).toList ++ message.headers

def requestLine (message : Message) : HeadLine :=
  .request message.method message.path (some message.version)

def lines (message : Message) : List HeadLine :=
  message.requestLine :: (message.fields.map Field.line ++ [.blank])

def body (message : Message) : Bytes := message.data.flatten

def text (message : Message) : Bytes :=
  (message.lines.map HeadLine.text).flatten ++ message.body

end Message

/-- A header field as an assembled request has it. -/
def Field.received (field : Field) : Field where
  name := Bytes.toLower field.name
  value := field.value.trim

/-- The request that a message is assembled to. -/
def Message.request (message : Message) (target : Target) : Request where
  method := message.method
  target
  version := message.version
  fields := message.fields.map Field.received
  body := message.body

namespace Message

variable {message : Message} {target : Target}

theorem token_hostName : Octet.Token Feed.hostName where
  nonempty := List.cons_ne_nil _ _
  tokens := List.all_eq_true.mp rfl

theorem length_hostName_le : Feed.hostName.length ≤ Request.maxNameLength := by decide

/-- The authority makes a header line like any other. -/
theorem WellFormed.fields (wellFormed : message.WellFormed target) :
    ∀ field ∈ message.fields,
      field.Spellable ∧ field.name.length ≤ Request.maxNameLength := by
  intro field field_mem
  rcases List.mem_append.mp field_mem with host | regular
  · simp only [Option.mem_toList, Option.map_eq_some_iff] at host
    rcases host with ⟨value, authority_eq, rfl⟩
    exact ⟨⟨token_hostName, (wellFormed.authority value authority_eq).2⟩, length_hostName_le⟩
  · exact wellFormed.headers field regular

theorem text_requestLine (message : Message) (rest : Bytes) :
    message.requestLine.text ++ rest
      = message.method ++ Bytes.space :: (message.path ++ Bytes.space ::
        (Bytes.ascii message.version.name ++ (Bytes.crlf ++ rest))) := by
  have space : Bytes.ascii " " = [Bytes.space] := rfl
  simp [requestLine, HeadLine.text, space]

theorem text_eq (message : Message) :
    message.text
      = message.requestLine.text ++ (Head.headerText message.fields ++ message.body) := by
  simp [text, lines, Head.headerText, Function.comp_def]

/-- The head of a message, as it is read back. -/
def head (message : Message) : Head where
  method := message.method
  target := message.path
  version := message.version
  fields := message.fields.map Field.trimmed

/-- Reading the text of a message splits it where the body begins. -/
theorem read_text (wellFormed : message.WellFormed target) :
    Head.read message.text
      = if message.fields.length ≤ Head.maxFields then .ok (message.head, message.body)
        else .error .tooManyFields := by
  let written : Head := {
    method := message.method
    target := message.path
    version := message.version
    fields := message.fields }
  have spellable : written.Spellable := {
    version := wellFormed.version
    method := wellFormed.method
    target_nonempty := wellFormed.path_nonempty
    target := wellFormed.path
    target_valid := wellFormed.path_valid
    fields := fun field field_mem => (wellFormed.fields field field_mem).1 }
  have text : message.text = written.text ++ message.body := by
    rw [text_eq, Head.text, List.append_assoc]
    rfl
  rw [text]
  exact Head.read_text_append spellable message.body

/-- Assembling the text of a message gives the message back. -/
theorem assemble_text (wellFormed : message.WellFormed target) (stream : StreamId) :
    Request.assemble stream message.text
      = if message.fields.length ≤ Head.maxFields then .ok (message.request target)
        else .error .tooManyFields := by
  rw [Request.assemble, read_text wellFormed]
  split
  · have short : message.head.fields.all
        (fun field => decide (field.name.length ≤ Request.maxNameLength)) = true := by
      simp only [List.all_eq_true, head, List.forall_mem_map, decide_eq_true_eq]
      intro field field_mem
      exact (wellFormed.fields field field_mem).2
    change Request.ofHead message.head message.body = _
    have parsed : Target.parse message.head.target = .ok target := wellFormed.path_target
    rw [Request.ofHead, parsed]
    change (if message.head.fields.all
      (fun field => decide (field.name.length ≤ Request.maxNameLength)) = true then _ else _) = _
    rw [if_pos short]
    simp [request, head, Field.trimmed, Function.comp_def]
    rfl
  · rfl

end Message

end Reassembly
