import Reassembly.Proofs.Stream.Announcement
import Reassembly.Proofs.Stream.ExactlyOnce
import Reassembly.Proofs.Stream.Sections

/-!
# Announcements that succeed

Whatever octets a message is made of, a peer can try to announce it. If every call succeeds,
the stream has delivered the text that the calls spell: the request line, a line for the
authority and for each header field with a name, the blank line, and the body. No octet of a
field is looked at on the way, except to tell pseudo-headers from header fields.
-/

namespace Reassembly

namespace Feed

open Delivery (LoggingSink)

variable {Queue : Type} [LoggingSink Queue]

/-- A request that is to be started is started, or the call fails. -/
theorem ensureStarted_starts (before : Feed Queue) :
    Ensures ensureStarted before (fun _ after => after.stream.requestStarted = true)
      (fun _ _ => True) := by
  unfold ensureStarted
  rw [ensures_bind, ensures_get]
  cases started : before.stream.requestStarted with
  | true => exact started
  | false =>
      unfold startRequest
      rw [if_neg Bool.false_ne_true, ensures_bind, ensures_get]
      dsimp only
      cases before.stream.pseudo.method with
      | none => exact trivial
      | some method =>
          cases before.stream.pseudo.path with
          | none => exact trivial
          | some path =>
              apply ensures_bind_of_forall
              intro _ middle
              rw [ensures_bind, ensures_modifyStream]
              cases before.stream.pseudo.authority with
              | none => exact rfl
              | some authority =>
                  apply (preserves_writeLine Stream.Call.overlooks_requestStarted _ _).imp
                  · exact fun _ _ same => same
                  · exact fun _ _ _ => trivial

/-- A program that writes a line of a head has started the request if it succeeds. -/
theorem ensureStarted_bind_starts {program : FeedM Queue Unit}
    (preserves : Preserves (fun feed : Feed Queue => feed.stream.requestStarted) program)
    (before : Feed Queue) :
    Ensures (do ensureStarted; program) before
      (fun _ after => after.stream.requestStarted = true) (fun _ _ => True) := by
  apply (ensureStarted_starts before).bind
  · intro _ middle started
    apply (preserves middle).imp
    · exact fun _ after same => same.trans started
    · exact fun _ _ _ => trivial
  · exact fun _ _ _ => trivial

end Feed

namespace Stream.Call

open Delivery (LoggingSink)
open Feed (Ensures)

variable {Queue : Type} [LoggingSink Queue] {before : Feed Queue}

/-- A call that writes a line of a head has started the request if it succeeds. -/
theorem program_starts {call : Call} (writes : call.writesLine = true) (before : Feed Queue) :
    Ensures call.program before (fun _ after => after.stream.requestStarted = true)
      (fun _ _ => True) := by
  cases call with
  | addHeader name value =>
      have written : name.isEmpty = false ∧ isPseudoName name = false := by
        simpa [writesLine] using writes
      apply Feed.ensures_bind_pure.mpr
      unfold Feed.addHeader
      rw [written.1, if_neg Bool.false_ne_true, Feed.ensures_bind, Feed.ensures_get]
      apply Feed.ensures_bind_of_forall
      intro _ middle
      rw [written.2, if_neg Bool.false_ne_true]
      exact Feed.ensureStarted_bind_starts
        (Feed.preserves_writeLine overlooks_requestStarted _) middle
  | endHeaders =>
      apply Feed.ensures_bind_pure.mpr
      apply Feed.ensures_bind_of_forall
      intro _ checked
      apply Feed.ensures_bind_of_forall
      intro _ middle
      exact Feed.ensureStarted_bind_starts
        (Feed.preserves_endOfHeaders overlooks_requestStarted fun _ => rfl) middle
  | _ => cases writes

theorem pieces_of_writesLine {call : Call} (writes : call.writesLine = true) (stream : Stream) :
    (call.pieces stream).flatten
      = (stream.openingLines.map HeadLine.text).flatten ++ call.ownText := by
  cases call with
  | addHeader name value =>
      have written : name.isEmpty = false ∧ isPseudoName name = false := by
        simpa [writesLine] using writes
      simp [pieces, lines, ownText, written]
  | endHeaders => simp [pieces, lines, ownText]
  | _ => cases writes

/-- What a call that writes a line adds, if it succeeds, to what the stream is committed to. -/
theorem committed_run_of_writesLine {call : Call} (writes : call.writesLine = true)
    {reply : Reply} (ok : (call.run before).1 = .ok reply) :
    (call.run before).2.stream.requestStarted = true ∧
      (call.run before).2.committed = before.committed ++ call.ownText := by
  have added := Feed.emitted_call call before
  have starts := run_of_ensures (program_starts writes before)
  rcases result : call.run before with ⟨answer, after⟩
  rw [result] at ok added starts
  cases ok
  dsimp only at starts added ⊢
  refine ⟨starts, ?_⟩
  rw [Feed.committed_of_started starts, added, pieces_of_writesLine writes, ← List.append_assoc]
  rfl

/-- What data adds to it once the request is started. -/
theorem committed_run_addData (started : before.stream.requestStarted = true)
    {data : Bytes} {reply : Reply}
    (ok : ((addData data).run before).1 = .ok reply) :
    ((addData data).run before).2.stream.requestStarted = true ∧
      ((addData data).run before).2.committed = before.committed ++ data := by
  have stays := (requestStarted_run (addData data) started).trans started
  have added := Feed.emitted_call (addData data) before
  refine ⟨stays, ?_⟩
  rw [Feed.committed_of_started stays, Feed.committed_of_started started]
  rcases result : (addData data).run before with ⟨answer, after⟩
  rw [result] at ok added
  cases ok
  rwa [pieces_of_started _ started] at added

/-- A field without a name is passed over. -/
theorem run_addHeader_nameless {name : Bytes} (nameless : name = []) (value : Bytes) :
    (addHeader name value).run before = (.ok .done, before) := by
  subst nameless
  rfl

theorem run_pseudo_valueless (unstarted : Unstarted before) (field : PseudoField) :
    ((addHeader (Bytes.ascii field.name) []).run before).1
      = .error (.violation (.pseudoHeaderWithoutValue (Bytes.ascii field.name))) := by
  rw [Feed.run_of_fault fun _ _ => unstarted.work]
  simp [fault?, PseudoField.isEmpty_name, unstarted.inputOpen, PseudoField.isPseudoName_name,
    Stream.pseudoFault?, unstarted.started]

/-- Pseudo-headers that are taken have values. -/
theorem nonempty_of_ok (unstarted : Unstarted before) {received : List (PseudoField × Bytes)}
    (distinct : (received.map Prod.fst).Nodup)
    (absent : ∀ field ∈ received.map Prod.fst, before.stream.pseudo.get? field = none)
    (ok : ∀ answer ∈ (runAll (received.map Message.pseudoCall) before).1, answer = .ok .done) :
    ∀ entry ∈ received, entry.2 ≠ [] := by
  induction received generalizing before with
  | nil => simp
  | cons entry later ih =>
      rcases entry with ⟨field, value⟩
      rw [List.map_cons, List.nodup_cons] at distinct
      rw [List.map_cons, List.forall_mem_cons] at absent
      have nonempty : value ≠ [] := by
        rintro rfl
        have refused := run_pseudo_valueless unstarted field
        have taken := ok _ List.mem_cons_self
        exact absurd (taken.symm.trans refused) (by simp)
      have taken := run_addHeader_pseudo unstarted nonempty absent.1
      have stillAbsent := PseudoHeaders.get?_put_eq_none distinct.1 absent.2 value
      have next : Unstarted (withPseudo before (before.stream.pseudo.put value field)) :=
        ⟨unstarted.inputOpen, unstarted.started, unstarted.work⟩
      rw [List.forall_mem_cons]
      refine ⟨nonempty, ih next distinct.2 stillAbsent ?_⟩
      intro answer answer_mem
      apply ok
      apply List.mem_cons_of_mem
      change answer ∈ (runAll (later.map Message.pseudoCall)
        ((addHeader (Bytes.ascii field.name) value).run before).2).1
      rw [taken]
      exact answer_mem

/-- A run of which every call succeeds, one call at a time. -/
theorem forall_ok_cons {call : Call} {later : List Call} :
    (∀ answer ∈ (runAll (call :: later) before).1, answer = .ok .done) ↔
      (call.run before).1 = .ok .done ∧
        ∀ answer ∈ (runAll later (call.run before).2).1, answer = .ok .done :=
  List.forall_mem_cons

/-- What header fields add: the lines of those that have names. -/
theorem committed_runAll_headers {headers : List Field}
    (regular : ∀ field ∈ headers, isPseudoName field.name = false)
    (ok : ∀ answer ∈ (runAll (headers.map Message.headerCall) before).1, answer = .ok .done) :
    (runAll (headers.map Message.headerCall) before).2.committed
      = before.committed ++
        ((headers.filter fun field => !field.name.isEmpty).map fun field =>
          field.line.text).flatten := by
  induction headers generalizing before with
  | nil => exact (List.append_nil _).symm
  | cons field later ih =>
      rw [List.forall_mem_cons] at regular
      rw [List.map_cons, forall_ok_cons] at ok
      change (runAll (later.map Message.headerCall)
        ((Message.headerCall field).run before).2).2.committed = _
      rw [ih regular.2 ok.2]
      cases named : field.name.isEmpty with
      | true =>
          have passedOver : (Message.headerCall field).run before = (.ok .done, before) :=
            run_addHeader_nameless (List.isEmpty_iff.mp named) field.value
          rw [passedOver, List.filter_cons_of_neg (by simp [named])]
      | false =>
          have writes : (Message.headerCall field).writesLine = true := by
            simp [Message.headerCall, writesLine, named, regular.1]
          have text : (Message.headerCall field).ownText = field.line.text := by
            simp [Message.headerCall, ownText, named, regular.1, Field.line]
          rw [(committed_run_of_writesLine writes ok.1).2, text,
            List.filter_cons_of_pos (by simp [named]), List.append_assoc]
          rfl

/-- What pieces of data add once the request is started. -/
theorem committed_runAll_data {pieces : List Bytes} (started : before.stream.requestStarted = true)
    (ok : ∀ answer ∈ (runAll (pieces.map addData) before).1, answer = .ok .done) :
    (runAll (pieces.map addData) before).2.stream.requestStarted = true ∧
      (runAll (pieces.map addData) before).2.committed = before.committed ++ pieces.flatten := by
  induction pieces generalizing before with
  | nil => exact ⟨started, (List.append_nil _).symm⟩
  | cons piece later ih =>
      rw [List.map_cons, forall_ok_cons] at ok
      have first := committed_run_addData started ok.1
      have rest := ih first.1 ok.2
      refine ⟨rest.1, ?_⟩
      change (runAll (later.map addData) ((addData piece).run before).2).2.committed = _
      rw [rest.2, first.2, List.append_assoc]
      rfl

end Stream.Call

namespace Message

open Delivery (LoggingSink)
open Reassembly.Stream (Call)

variable {Queue : Type} [LoggingSink Queue] {message : Message}
  {order : List (PseudoField × Bytes)} {session : Session} {id : StreamId} {queue : Queue}

/-- The header fields of which lines are written: the authority, and the fields with names. -/
def spelled (message : Message) : List Field :=
  (message.authority.map fun value => { name := Feed.hostName, value }).toList ++
    message.headers.filter fun field => !field.name.isEmpty

/-- The text that announcing a message spells, whatever octets are in it. -/
def dictated (message : Message) : Bytes :=
  message.requestLine.text ++ (Head.headerText message.spelled ++ message.body)

theorem dictated_eq (message : Message) :
    message.dictated
      = (message.openers.map HeadLine.text).flatten ++
        (((message.headers.filter fun field => !field.name.isEmpty).map fun field =>
            field.line.text).flatten ++
          (HeadLine.blank.text ++ message.body)) := by
  rw [dictated, openers, spelled]
  cases message.authority with
  | none => simp [Head.headerText]
  | some authority => simp [Head.headerText, Field.line]

/-- What the calls after the header fields have done if they succeed. -/
theorem emitted_closingCalls_of_ok {before : Feed Queue}
    (ok : ∀ answer ∈ (Call.runAll message.closingCalls before).1, answer = .ok .done) :
    (Call.runAll message.closingCalls before).2.stream.endDelivered = true ∧
      (Call.runAll message.closingCalls before).2.emitted
        = before.committed ++ (HeadLine.blank.text ++ message.body) := by
  rw [closingCalls, Call.forall_ok_cons] at ok
  rcases ok with ⟨endOk, later⟩
  have ended := Call.committed_run_of_writesLine rfl endOk
  change (Call.runAll (message.data.map Call.addData ++ [.closeInput])
      (Call.endHeaders.run before).2).2.stream.endDelivered = true ∧
    (Call.runAll (message.data.map Call.addData ++ [.closeInput])
      (Call.endHeaders.run before).2).2.emitted = _
  rw [Call.answers_runAll_append, List.forall_mem_append] at later
  rw [Call.runAll_append]
  have filled := Call.committed_runAll_data ended.1 later.1
  generalize (Call.runAll (message.data.map Call.addData) (Call.endHeaders.run before).2).2 = full
    at later filled ⊢
  have closed := Call.forall_ok_cons.mp later.2
  refine ⟨Feed.endDelivered_of_closeInput_ok closed.1, ?_⟩
  change (Call.closeInput.run full).2.emitted = _
  rw [(Feed.emitted_run_closeInput full).2, ← Feed.committed_of_started filled.1, filled.2,
    ended.2, List.append_assoc]
  rfl

/-- If every call that announces a message succeeds, the stream has delivered what the message
spells. -/
theorem emitted_of_ok (version : session.config.requestVersion = some message.version)
    (perm : order.Perm message.announced)
    (regular : ∀ field ∈ message.headers, isPseudoName field.name = false)
    (unused : LoggingSink.log queue = [])
    (ok : ∀ answer ∈ (Call.runAll (message.calls order) (Feed.fresh id session queue)).1,
      answer = .ok .done) :
    (Call.runAll (message.calls order) (Feed.fresh id session queue)).2.stream.endDelivered = true ∧
      (Call.runAll (message.calls order) (Feed.fresh id session queue)).2.emitted
        = message.dictated := by
  have distinct : (order.map Prod.fst).Nodup :=
    (perm.map Prod.fst).nodup_iff.mpr message.nodup_announced
  rw [calls, Call.answers_runAll_append, List.forall_mem_append] at ok
  have nonempty := Call.nonempty_of_ok ⟨rfl, rfl, rfl⟩ distinct (fun field _ => get?_fresh field)
    ok.1
  have pseudo : _ ∧ _ = message.opened id session queue := runAll_order perm nonempty
  rw [pseudo.2, Call.answers_runAll_append, List.forall_mem_append] at ok
  have headers := Call.committed_runAll_headers regular ok.2.1
  have closing := emitted_closingCalls_of_ok ok.2.2
  rw [headers, committed_opened version unused, List.append_assoc, ← dictated_eq] at closing
  rw [calls, Call.runAll_append, Call.runAll_append, pseudo.2]
  exact closing

end Message

end Reassembly
