import Reassembly.Proofs.Request.Message
import Reassembly.Proofs.Stream.Additions
import Reassembly.Proofs.Stream.PseudoHeaders
import Reassembly.Proofs.Stream.Termination

/-!
# Announcing a message

A peer announces a message to a stream: its pseudo-headers in some order, its header fields,
the end of the headers, its body in pieces, and the end of the input. On a willing sink
every one of these calls succeeds, and together they emit the text of the message.
-/

namespace Reassembly

namespace Message

open Delivery (LoggingSink)
open Feed (Willing Ready Announcing Announced Fits)
open Reassembly.Stream (Call)

def pseudo (message : Message) : PseudoHeaders where
  method := some message.method
  scheme := message.scheme
  path := some message.path
  authority := message.authority

/-- The pseudo-headers of a message with their names, in one of their orders. -/
def announced (message : Message) : List (PseudoField × Bytes) :=
  [(.method, message.method), (.path, message.path)] ++
    ((message.scheme.map fun scheme => (.scheme, scheme)).toList ++
      (message.authority.map fun authority => (.authority, authority)).toList)

def pseudoCall (entry : PseudoField × Bytes) : Call :=
  .addHeader (Bytes.ascii entry.1.name) entry.2

def headerCall (field : Field) : Call := .addHeader field.name field.value

/-- The calls that announce what follows the header fields of a message. -/
def closingCalls (message : Message) : List Call :=
  .endHeaders :: (message.data.map .addData ++ [.closeInput])

/-- The calls that announce a message whose pseudo-headers come in this order. -/
def calls (message : Message) (order : List (PseudoField × Bytes)) : List Call :=
  order.map pseudoCall ++ (message.headers.map headerCall ++ message.closingCalls)

variable {message : Message} {target : Target} {order : List (PseudoField × Bytes)}

theorem mem_announced_iff {field : PseudoField} {value : Bytes} :
    (field, value) ∈ message.announced ↔ message.pseudo.get? field = some value := by
  cases field with
  | method => simp [announced, pseudo, PseudoHeaders.get?, eq_comm]
  | scheme => simp [announced, pseudo, PseudoHeaders.get?]
  | path => simp [announced, pseudo, PseudoHeaders.get?, eq_comm]
  | authority => simp [announced, pseudo, PseudoHeaders.get?]

theorem nodup_announced (message : Message) : (message.announced.map Prod.fst).Nodup := by
  cases scheme : message.scheme with
  | none =>
      cases authority : message.authority with
      | none => simp [announced, scheme, authority]
      | some value => simp [announced, scheme, authority]
  | some value =>
      cases authority : message.authority with
      | none => simp [announced, scheme, authority]
      | some value => simp [announced, scheme, authority]

/-- The order of the pseudo-headers does not matter. -/
theorem putAll_eq (perm : order.Perm message.announced) :
    PseudoHeaders.putAll {} order = message.pseudo := by
  apply PseudoHeaders.ext_get?
  intro field
  have distinct : (order.map Prod.fst).Nodup :=
    (perm.map Prod.fst).nodup_iff.mpr message.nodup_announced
  cases known : message.pseudo.get? field with
  | some value =>
      have present := perm.mem_iff.mpr (mem_announced_iff.mpr known)
      exact PseudoHeaders.get?_putAll_of_mem {} distinct present
  | none =>
      have absent : field ∉ order.map Prod.fst := by
        intro field_mem
        rcases List.mem_map.mp field_mem with ⟨⟨other, value⟩, entry_mem, rfl⟩
        have given := mem_announced_iff.mp (perm.mem_iff.mp entry_mem)
        rw [known] at given
        cases given
      rw [PseudoHeaders.get?_putAll_of_not_mem {} absent]
      cases field with
      | method => rfl
      | scheme => rfl
      | path => rfl
      | authority => rfl

theorem WellFormed.announced_ne_nil (wellFormed : message.WellFormed target) :
    ∀ entry ∈ message.announced, entry.2 ≠ [] := by
  rintro ⟨field, value⟩ entry_mem
  have given := mem_announced_iff.mp entry_mem
  cases field with
  | method =>
      cases given
      exact wellFormed.method.nonempty
  | path =>
      cases given
      exact wellFormed.path_nonempty
  | scheme => exact wellFormed.scheme value given
  | authority => exact (wellFormed.authority value given).1

/-- A session whose streams can write this message: its segments can be allocated and hold
each line of the head, and its request lines name the version of the message. -/
structure Suits (session : Session) (message : Message) : Prop where
  version : session.config.requestVersion = some message.version
  allocatable : session.config.segmentCapacity < Segment.allocationLimit
  fit : ∀ line ∈ message.lines, line.text.length ≤ session.config.segmentCapacity

theorem Suits.fits {session : Session} (suits : Suits session message)
    (wellFormed : message.WellFormed target) {line : HeadLine} (line_mem : line ∈ message.lines) :
    Fits session.config.segmentCapacity line where
  length_le := suits.fit line line_mem
  supported := by
    rcases List.mem_cons.mp line_mem with rfl | others
    · simp [requestLine, HeadLine.unsupportedVersion?, wellFormed.version]
    · rcases List.mem_append.mp others with header | blank
      · rcases List.mem_map.mp header with ⟨field, _, rfl⟩
        rfl
      · cases List.mem_singleton.mp blank
        rfl

/-- The lines that open the text of a message. -/
def openers (message : Message) : List HeadLine :=
  message.requestLine :: (message.authority.map (.field Feed.hostName)).toList

theorem lines_eq (message : Message) :
    message.lines = message.openers ++ (message.headers.map Field.line ++ [.blank]) := by
  rw [openers, lines, fields]
  cases message.authority with
  | none => rfl
  | some authority => rfl

section Announce

variable {Queue : Type} {accepts : StreamId → Queue → Prop} {session : Session} {id : StreamId}
  {queue : Queue}

/-- A fresh stream that has received the pseudo-headers of a message. -/
def opened (message : Message) (id : StreamId) (session : Session) (queue : Queue) : Feed Queue :=
  Call.withPseudo (Feed.fresh id session queue) message.pseudo

theorem openingLines_opened (version : session.config.requestVersion = some message.version) :
    (message.opened id session queue).stream.openingLines = message.openers := by
  change HeadLine.request message.method message.path session.config.requestVersion :: _ = _
  rw [version]
  rfl

theorem opened_announcing (wellFormed : message.WellFormed target)
    (suits : Suits session message) (accepting : accepts id queue) :
    Announcing accepts session (message.opened id session queue) where
  session_eq := rfl
  ready := ⟨rfl, suits.allocatable, Call.fresh_wellSized id session queue, accepting⟩
  startable := by
    refine ⟨fun _ => rfl, ?_, ?_⟩
    · intro _ none
      cases none
    · intro line line_mem
      apply suits.fits wellFormed
      rw [openingLines_opened suits.version] at line_mem
      rw [lines_eq]
      exact List.mem_append_left _ line_mem

variable [LoggingSink Queue]

theorem committed_opened (version : session.config.requestVersion = some message.version)
    (unused : LoggingSink.log queue = []) :
    (message.opened id session queue).committed
      = (message.openers.map HeadLine.text).flatten := by
  have nothing : (message.opened id session queue).emitted = [] := by
    have log : (message.opened id session queue).log = [] := unused
    rw [Feed.emitted, Feed.accepted, log]
    rfl
  rw [Feed.committed, nothing, List.nil_append, openingLines_opened version]

theorem headers_addAll (willing : Willing accepts) (wellFormed : message.WellFormed target)
    (suits : Suits session message) {before : Feed Queue}
    (announcing : before.Announcing accepts session) :
    Call.AddAll (Announcing accepts session) before
      (message.headers.map fun field => field.line.text).flatten
      (Call.runAll (message.headers.map headerCall) before) := by
  apply Call.runAll_addAll headerCall (fun field => field.line.text)
  · intro field field_mem feed announcing
    apply Call.adds_addHeader willing announcing (wellFormed.headers field field_mem).1.name
    apply suits.fits wellFormed
    apply List.mem_cons_of_mem
    apply List.mem_append_left
    exact List.mem_map_of_mem (List.mem_append_right _ field_mem)
  · exact fun feed announced => announced.announcing
  · exact announcing

theorem data_addAll (willing : Willing accepts) (suits : Suits session message)
    {before : Feed Queue} (announced : before.Announced accepts session) :
    Call.AddAll (Announced accepts session) before message.body
      (Call.runAll (message.data.map .addData) before) := by
  have roomy : 0 < session.config.segmentCapacity := by
    have blank := suits.fit .blank (by simp [lines])
    have length : HeadLine.blank.text.length = 2 := rfl
    omega
  have added := Call.runAll_addAll Call.addData (fun data => data) message.data
    (fun data _ feed announced => Call.adds_addData willing announced roomy data)
    (fun feed announced => announced) announced
  rwa [List.map_id'] at added

/-- The calls after the headers end the head, add the body and deliver all of it. -/
theorem runAll_closingCalls (willing : Willing accepts) (wellFormed : message.WellFormed target)
    (suits : Suits session message) {before : Feed Queue}
    (announcing : before.Announcing accepts session) :
    (∀ answer ∈ (Call.runAll message.closingCalls before).1, answer = .ok .done) ∧
      (Call.runAll message.closingCalls before).2.stream.endDelivered = true ∧
      (Call.runAll message.closingCalls before).2.emitted
        = before.committed ++ (HeadLine.blank.text ++ message.body) := by
  have blank : Fits session.config.segmentCapacity .blank :=
    suits.fits wellFormed (by simp [lines])
  have ended := Call.adds_endHeaders willing announcing blank
  have body := data_addAll willing suits ended.announced
  change (∀ answer ∈ (Call.endHeaders.run before).1 :: (Call.runAll
      (message.data.map Call.addData ++ [.closeInput]) (Call.endHeaders.run before).2).1, _) ∧
    (Call.runAll (message.data.map Call.addData ++ [.closeInput])
      (Call.endHeaders.run before).2).2.stream.endDelivered = true ∧
    (Call.runAll (message.data.map Call.addData ++ [.closeInput])
      (Call.endHeaders.run before).2).2.emitted = _
  rw [Call.answers_runAll_append, Call.runAll_append]
  generalize Call.endHeaders.run before = first at ended body ⊢
  generalize Call.runAll (message.data.map Call.addData) first.2 = filled at body ⊢
  have emitted := (Feed.emitted_run_closeInput filled.2).2
  rw [← Feed.committed_of_started body.holds.started, body.committed_eq, ended.committed_eq]
    at emitted
  have closes := Call.run_of_done .closeInput rfl
    (Feed.closeInput_succeeds willing body.holds.ready.accepting)
  change (∀ answer ∈ first.1 :: (filled.1 ++ [(Call.closeInput.run filled.2).1]), _) ∧
    (Call.closeInput.run filled.2).2.stream.endDelivered = true ∧
    (Call.closeInput.run filled.2).2.emitted = _
  rcases result : Call.closeInput.run filled.2 with ⟨answer, after⟩
  rw [result] at closes emitted
  cases answer with
  | error error => exact closes.elim
  | ok reply =>
      rcases closes with ⟨rfl, delivered⟩
      refine ⟨?_, delivered, ?_⟩
      · intro answer answer_mem
        rcases List.mem_cons.mp answer_mem with rfl | answer_mem
        · exact ended.answer_eq
        · rcases List.mem_append.mp answer_mem with earlier | last
          · exact body.answers_eq answer earlier
          · exact List.mem_singleton.mp last
      · rw [List.append_assoc] at emitted
        exact emitted

theorem text_eq_of_openers (message : Message) :
    message.text
      = (message.openers.map HeadLine.text).flatten ++
        ((message.headers.map fun field => field.line.text).flatten ++
          (HeadLine.blank.text ++ message.body)) := by
  rw [text, lines_eq]
  simp [Function.comp_def]

omit [LoggingSink Queue] in
theorem get?_fresh (field : PseudoField) :
    (Feed.fresh id session queue).stream.pseudo.get? field = none := by
  cases field <;> rfl

/-- The pseudo-headers of a message are taken in any order, if they have values. -/
theorem runAll_order (perm : order.Perm message.announced)
    (nonempty : ∀ entry ∈ order, entry.2 ≠ []) :
    (∀ answer ∈ (Call.runAll (order.map pseudoCall) (Feed.fresh id session queue)).1,
        answer = .ok .done) ∧
      (Call.runAll (order.map pseudoCall) (Feed.fresh id session queue)).2
        = message.opened id session queue := by
  have distinct : (order.map Prod.fst).Nodup :=
    (perm.map Prod.fst).nodup_iff.mpr message.nodup_announced
  have unstarted : Call.Unstarted (Feed.fresh id session queue) := ⟨rfl, rfl, rfl⟩
  have put : (Feed.fresh id session queue).stream.pseudo.putAll order = message.pseudo :=
    putAll_eq perm
  have taken := Call.runAll_pseudo unstarted distinct nonempty fun field _ => get?_fresh field
  rw [put] at taken
  exact taken

/-- Announcing a message to a fresh stream succeeds call by call, and emits its text. -/
theorem runAll_calls (willing : Willing accepts) (wellFormed : message.WellFormed target)
    (suits : Suits session message) (perm : order.Perm message.announced)
    (accepting : accepts id queue) (unused : LoggingSink.log queue = []) :
    (∀ answer ∈ (Call.runAll (message.calls order) (Feed.fresh id session queue)).1,
        answer = .ok .done) ∧
      (Call.runAll (message.calls order) (Feed.fresh id session queue)).2.stream.endDelivered
        = true ∧
      (Call.runAll (message.calls order) (Feed.fresh id session queue)).2.emitted
        = message.text := by
  have nonempty : ∀ entry ∈ order, entry.2 ≠ [] := fun entry entry_mem =>
    wellFormed.announced_ne_nil entry (perm.mem_iff.mp entry_mem)
  have pseudo : _ ∧ _ = message.opened id session queue := runAll_order perm nonempty
  have announcing : (message.opened id session queue).Announcing accepts session :=
    opened_announcing wellFormed suits accepting
  have headers := headers_addAll willing wellFormed suits announcing
  have closing := runAll_closingCalls willing wellFormed suits headers.holds
  rw [headers.committed_eq, committed_opened suits.version unused, List.append_assoc,
    ← text_eq_of_openers] at closing
  rw [calls, Call.answers_runAll_append, Call.answers_runAll_append, Call.runAll_append,
    Call.runAll_append, pseudo.2]
  refine ⟨?_, closing.2⟩
  intro answer answer_mem
  rcases List.mem_append.mp answer_mem with first | later
  · exact pseudo.1 answer first
  · rcases List.mem_append.mp later with header | last
    · exact headers.answers_eq answer header
    · exact closing.1 answer last

end Announce

end Message

end Reassembly
