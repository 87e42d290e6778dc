import Reassembly.Proofs.Stream.PseudoHeaders
import Reassembly.Proofs.Stream.Sections

/-!
# What becomes of a pseudo-header

Of the values that come for a pseudo-header, the stream accepts one at most, and keeps it. So in
every run a pseudo-header has the value that was accepted for it, if any was.
-/

namespace Reassembly

namespace Stream.Call

open Delivery (LoggingSink)
open Feed (Ensures Preserves Overlooks OverlooksStart)

/-- The value that a call passes on for a pseudo-header, if that is what it does. -/
def carried? (field : PseudoField) : Call → Option Bytes
  | addHeader name value => if name = Bytes.ascii field.name then some value else none
  | _ => none

/-- The values that were accepted for a pseudo-header. -/
def received (field : PseudoField) (calls : List Call) (answers : List Answer) : List Bytes :=
  (succeeded calls answers).filterMap (carried? field)

/-- The pseudo-headers once a call has been accepted that may have passed one on. -/
structure Receives (field : PseudoField) (call : Call) (before after : PseudoHeaders) : Prop where
  added : (after.get? field).toList = (before.get? field).toList ++ (call.carried? field).toList
  nonempty {value : Bytes} : call.carried? field = some value → value ≠ []

theorem receives_of_none {field : PseudoField} {call : Call} (none : call.carried? field = none)
    {before after : PseudoHeaders} (same : after = before) : Receives field call before after where
  added := by rw [same, none, Option.toList_none, List.append_nil]
  nonempty := by
    rw [none]
    intro value impossible
    cases impossible

theorem carried?_of_ne {field : PseudoField} {name : Bytes} (value : Bytes)
    (differ : name ≠ Bytes.ascii field.name) : (addHeader name value).carried? field = none :=
  if_neg differ

variable {Queue : Type} [LoggingSink Queue] {before : Feed Queue} (field : PseudoField)

omit [LoggingSink Queue] in
theorem overlooks_pseudo : Overlooks fun feed : Feed Queue => feed.stream.pseudo where
  work _ _ := rfl
  queue _ _ := rfl
  endDelivered _ := rfl

omit [LoggingSink Queue] in
theorem overlooksStart_pseudo : OverlooksStart fun feed : Feed Queue => feed.stream.pseudo :=
  fun _ => rfl

omit [LoggingSink Queue] in
theorem addPseudoHeader_receives (name value : Bytes) :
    Ensures (Feed.addPseudoHeader name value) before
      (fun _ after =>
        Receives field (addHeader name value) before.stream.pseudo after.stream.pseudo)
      (fun _ after => after.stream.pseudo = before.stream.pseudo) := by
  unfold Feed.addPseudoHeader
  rw [Feed.ensures_bind, Feed.ensures_get, Feed.ensures_bind, Feed.ensures_refuseIf]
  refine ⟨fun _ => rfl, fun _ => ?_⟩
  rw [Feed.ensures_bind, Feed.ensures_refuseIf]
  refine ⟨fun _ => rfl, fun valued => ?_⟩
  cases found : PseudoField.ofName? name with
  | none =>
      apply receives_of_none _ rfl
      apply carried?_of_ne
      rintro rfl
      rw [PseudoField.ofName?_name] at found
      cases found
  | some other =>
      rw [Feed.ensures_bind, Feed.ensures_refuseIf]
      refine ⟨fun _ => rfl, fun absent => ?_⟩
      have named := PseudoField.ofName?_eq_some_iff.mp found
      have nonempty : value ≠ [] := by simpa using valued
      by_cases same : field = other
      · subst other
        have carries : (addHeader name value).carried? field = some value := if_pos named
        have missing : before.stream.pseudo.get? field = none := by simpa using absent
        refine ⟨?_, fun carried => ?_⟩
        · rw [PseudoHeaders.get?_put_self, missing, carries]
          rfl
        · rw [carries] at carried
          cases carried
          exact nonempty
      · have carries : (addHeader name value).carried? field = none := by
          apply carried?_of_ne
          rintro rfl
          rw [PseudoField.ofName?_name] at found
          cases found
          exact same rfl
        refine ⟨?_, fun carried => ?_⟩
        · rw [PseudoHeaders.get?_put_of_ne _ _ same, carries, Option.toList_none, List.append_nil]
        · rw [carries] at carried
          cases carried

theorem addHeader_receives (name value : Bytes) :
    Ensures (Feed.addHeader name value) before
      (fun _ after =>
        Receives field (addHeader name value) before.stream.pseudo after.stream.pseudo)
      (fun _ after => after.stream.pseudo = before.stream.pseudo) := by
  unfold Feed.addHeader
  cases named : name.isEmpty with
  | true =>
      apply receives_of_none _ rfl
      apply carried?_of_ne
      rintro rfl
      rw [PseudoField.isEmpty_name] at named
      cases named
  | false =>
      rw [if_neg Bool.false_ne_true, Feed.ensures_bind, Feed.ensures_get, Feed.ensures_bind,
        Feed.ensures_refuseIf]
      refine ⟨fun _ => rfl, fun _ => ?_⟩
      cases pseudo : isPseudoName name with
      | true =>
          rw [if_pos rfl]
          exact addPseudoHeader_receives field name value
      | false =>
          have regular : (addHeader name value).carried? field = none := by
            apply carried?_of_ne
            rintro rfl
            rw [PseudoField.isPseudoName_name] at pseudo
            cases pseudo
          have keeps : Preserves (fun feed : Feed Queue => feed.stream.pseudo)
              (do Feed.ensureStarted; Feed.writeLine (.field name value)) :=
            (Feed.preserves_ensureStarted overlooks_pseudo overlooksStart_pseudo).bind
              fun _ => Feed.preserves_writeLine overlooks_pseudo _
          rw [if_neg Bool.false_ne_true]
          apply (keeps before).imp
          · exact fun _ after same => receives_of_none regular same
          · exact fun _ _ same => same

/-- A call that succeeds leaves the pseudo-header with the value that it has passed on, if it has.
A call that fails leaves all pseudo-headers as they are. -/
theorem run_receives (call : Call) (before : Feed Queue) :
    match call.run before with
    | (.ok _, after) => Receives field call before.stream.pseudo after.stream.pseudo
    | (.error _, after) => after.stream.pseudo = before.stream.pseudo := by
  cases onHead : call.isOnHead with
  | false =>
      have same : (call.run before).2.stream.pseudo = before.stream.pseudo :=
        congrArg Prod.snd (opening_run call onHead)
      have nothing : call.carried? field = none := by
        cases call with
        | addHeader name value => cases onHead
        | _ => rfl
      rcases result : call.run before with ⟨answer, after⟩
      rw [result] at same
      cases answer with
      | ok reply => exact receives_of_none nothing same
      | error error => exact same
  | true =>
      apply run_of_ensures
      cases call with
      | addHeader name value =>
          exact Feed.ensures_bind_pure.mpr (addHeader_receives field name value)
      | endHeaders =>
          apply Feed.ensures_bind_pure.mpr
          apply (Feed.preserves_endHeaders overlooks_pseudo overlooksStart_pseudo
            (fun _ => rfl) before).imp
          · exact fun _ _ same => receives_of_none rfl same
          · exact fun _ _ same => same
      | _ => cases onHead

theorem run_received (call : Call) (before : Feed Queue) :
    ((call.run before).2.stream.pseudo.get? field).toList
        = (before.stream.pseudo.get? field).toList ++ received field [call] [(call.run before).1] ∧
      ∀ value ∈ received field [call] [(call.run before).1], value ≠ [] := by
  have receives := run_receives field call before
  rcases result : call.run before with ⟨answer, after⟩
  rw [result] at receives
  cases answer with
  | ok reply =>
      have passed : received field [call] [.ok reply] = (call.carried? field).toList := by
        cases carried : call.carried? field with
        | none => simp [received, succeeded, Except.isOk, Except.toBool, carried]
        | some value => simp [received, succeeded, Except.isOk, Except.toBool, carried]
      rw [passed]
      exact ⟨receives.added, fun value mem => receives.nonempty (Option.mem_toList.mp mem)⟩
  | error error =>
      have nothing : received field [call] [.error error] = [] := rfl
      rw [nothing]
      dsimp only at receives ⊢
      rw [receives, List.append_nil]
      exact ⟨rfl, fun value mem => by cases mem⟩

theorem received_cons (call : Call) (later : List Call) (answer : Answer) (answers : List Answer) :
    received field (call :: later) (answer :: answers)
      = received field [call] [answer] ++ received field later answers := by
  have paired : (call :: later).zip (answer :: answers)
      = [call].zip [answer] ++ later.zip answers := rfl
  rw [received, succeeded, paired, List.filterMap_append, List.filterMap_append]
  rfl

/-- The value that a pseudo-header has is the one that was accepted for it, and no empty value
is accepted. -/
theorem runAll_received (calls : List Call) (before : Feed Queue) :
    ((runAll calls before).2.stream.pseudo.get? field).toList
        = (before.stream.pseudo.get? field).toList
          ++ received field calls (runAll calls before).1 ∧
      ∀ value ∈ received field calls (runAll calls before).1, value ≠ [] := by
  induction calls generalizing before with
  | nil => exact ⟨(List.append_nil _).symm, fun value mem => by cases mem⟩
  | cons call later ih =>
      rcases run_received field call before with ⟨first, nonempty⟩
      rcases ih (call.run before).2 with ⟨rest, laterNonempty⟩
      rw [runAll_cons, received_cons]
      refine ⟨?_, List.forall_mem_append.mpr ⟨nonempty, laterNonempty⟩⟩
      rw [← List.append_assoc, ← first]
      exact rest

/-- What a pseudo-header has is what it keeps. -/
theorem get?_runAll_of_some {value : Bytes} (calls : List Call)
    (present : before.stream.pseudo.get? field = some value) :
    (runAll calls before).2.stream.pseudo.get? field = some value := by
  have kept := (runAll_received field calls before).1
  rw [present] at kept
  cases after : (runAll calls before).2.stream.pseudo.get? field with
  | none =>
      rw [after] at kept
      cases kept
  | some other =>
      rw [after] at kept
      exact congrArg some (List.cons.inj kept).1

end Stream.Call

end Reassembly
