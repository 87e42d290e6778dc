import Reassembly.Proofs.Stream.Frame
import Reassembly.Proofs.Stream.Success
import Reassembly.Proofs.Stream.Termination

/-!
# Drafts of a request

A draft is what the calls of a peer make of a stream if nothing is said about segments and
deliveries: which pseudo-headers are known, how far the request is, and its text so far. A
call that the peer may not make is a fault and changes nothing. Any other call notes
something and adds its text.

As long as the lines that it writes fit and its sink is willing, a stream keeps to its draft:
every call answers as the draft says and leaves the stream with the next draft. The segments
have no say in this, not even by being there or not, because a stream opens none before its
request is started.
-/

namespace Reassembly

namespace Stream

/-- The stream without its segment, and without what is particular to its deliveries. -/
def outline (stream : Stream) : Stream :=
  { stream with
    session := { config := { requestVersion := stream.session.config.requestVersion } }
    work := none
    endDelivered := false }

/-- The stream with its request line written. -/
def withStart (stream : Stream) : Stream := { stream with requestStarted := true }

/-- The stream with its header section ended. -/
def withHead (stream : Stream) : Stream :=
  { stream with requestStarted := true, endOfHeaders := true }

theorem withStart_eq_self {stream : Stream} (started : stream.requestStarted = true) :
    stream.withStart = stream := by
  cases stream
  cases started
  rfl

theorem withHead_eq_self {stream : Stream} (started : stream.requestStarted = true)
    (ended : stream.endOfHeaders = true) : stream.withHead = stream := by
  cases stream
  cases started
  cases ended
  rfl

/-- Why the request cannot be started, unless it is or can be. -/
def startFault? (stream : Stream) : Option Violation :=
  if stream.requestStarted then none
  else
    match stream.pseudo.method, stream.pseudo.path with
    | none, _ => some (.missing .method)
    | some _, none => some (.missing .path)
    | some _, some _ => none

/-- Why a pseudo-header is not taken, if so. -/
def pseudoFault? (stream : Stream) (name value : Bytes) : Option Violation :=
  if stream.requestStarted then some .pseudoHeaderAfterStart
  else if value.isEmpty then some (.pseudoHeaderWithoutValue name)
  else
    match PseudoField.ofName? name with
    | none => none
    | some field =>
        if (stream.pseudo.get? field).isSome then some (.duplicatePseudoHeader name) else none

namespace Call

/-- Whether a call passes on a pseudo-header. -/
def isPseudo : Call → Bool
  | addHeader name _ => isPseudoName name
  | _ => false

/-- What the peer does wrong with a call, if anything. -/
def fault? (call : Call) (stream : Stream) : Option Violation :=
  match call with
  | addHeader name value =>
      if name.isEmpty then none
      else if stream.lifecycle.isInputClosed then some .headerAfterEnd
      else if isPseudoName name then stream.pseudoFault? name value
      else stream.startFault?
  | addData _ => if stream.lifecycle.isInputClosed then some .dataAfterEnd else none
  | endHeaders =>
      if stream.lifecycle.isInputClosed then some .endOfHeadersAfterEnd
      else stream.startFault?
  | _ => none

/-- The stream with what a call notes, apart from the text that it writes. -/
def noted (call : Call) (stream : Stream) : Stream :=
  match call with
  | addHeader name value =>
      if name.isEmpty then stream
      else if isPseudoName name then
        match PseudoField.ofName? name with
        | none => stream
        | some field => { stream with pseudo := stream.pseudo.put value field }
      else stream.withStart
  | endHeaders => stream.withHead
  | closeInput => { stream with lifecycle := stream.lifecycle.closeInput }
  | _ => stream

/-- Whether a call passes on what the peer sends. -/
def isPeers : Call → Bool
  | addHeader _ _ | addData _ | endHeaders | closeInput => true
  | push | closeOutput | abort | observe _ | setResponseHead _ | takeResponseHead => false

section Kinds

variable {stream : Stream} {name value data : Bytes}

theorem addHeader_faultless (named : name.isEmpty = false)
    (faultless : (addHeader name value).fault? stream = none) :
    stream.lifecycle.isInputClosed = false ∧
      (if isPseudoName name then stream.pseudoFault? name value else stream.startFault?) = none := by
  cases closed : stream.lifecycle.isInputClosed with
  | true => simp [fault?, named, closed] at faultless
  | false => simpa [fault?, named, closed] using faultless

theorem addData_faultless (faultless : (addData data).fault? stream = none) :
    stream.lifecycle.isInputClosed = false := by
  simpa [fault?] using faultless

theorem endHeaders_faultless (faultless : endHeaders.fault? stream = none) :
    stream.lifecycle.isInputClosed = false ∧ stream.startFault? = none := by
  cases closed : stream.lifecycle.isInputClosed with
  | true => simp [fault?, closed] at faultless
  | false => simpa [fault?, closed] using faultless

theorem noted_of_nameless (nameless : name.isEmpty = true) :
    (addHeader name value).noted stream = stream := by
  simp only [noted, nameless, if_true]

theorem noted_of_regular (named : name.isEmpty = false) (regular : isPseudoName name = false) :
    (addHeader name value).noted stream = stream.withStart := by
  simp only [noted, named, regular, Bool.false_eq_true, if_false]

theorem noted_of_pseudo (named : name.isEmpty = false) (pseudo : isPseudoName name = true) :
    (addHeader name value).noted stream
      = match PseudoField.ofName? name with
        | none => stream
        | some field => { stream with pseudo := stream.pseudo.put value field } := by
  simp only [noted, named, pseudo, if_true, Bool.false_eq_true, if_false]

end Kinds

theorem fault?_outline (call : Call) (stream : Stream) :
    call.fault? stream.outline = call.fault? stream := by
  cases call <;> rfl

theorem noted_outline (call : Call) (stream : Stream) :
    call.noted stream.outline = (call.noted stream).outline := by
  cases call with
  | addHeader name value =>
      simp only [noted]
      split
      · rfl
      · split
        · split
          · rfl
          · rfl
        · rfl
  | _ => rfl

theorem pieces_outline (call : Call) (stream : Stream) :
    call.pieces stream.outline = call.pieces stream := by
  cases call <;> rfl

end Call

end Stream

/-- A request as its peer sees it. -/
structure Draft where
  stream : Stream
  text : Bytes := []

namespace Draft

open Reassembly.Stream (Call Answer)

def answer (draft : Draft) (call : Call) : Answer :=
  match call.fault? draft.stream with
  | none => .ok .done
  | some fault => .error (.violation fault)

def next (draft : Draft) (call : Call) : Draft :=
  match call.fault? draft.stream with
  | none => {
      stream := call.noted draft.stream
      text := draft.text ++ (call.pieces draft.stream).flatten }
  | some _ => draft

/-- Calls one after the other, with the answers to them. -/
def run : List Call → Draft → List Answer × Draft
  | [], draft => ([], draft)
  | call :: later, draft =>
      let (answers, last) := run later (draft.next call)
      (draft.answer call :: answers, last)

/-- Data may be passed on in two pieces. -/
theorem run_addData_append (draft : Draft) (first others : Bytes) (later : List Call) :
    run (.addData others :: later) (draft.next (.addData first))
      = run (.addData (first ++ others) :: later) draft := by
  have next_eq : (draft.next (.addData first)).next (.addData others)
      = draft.next (.addData (first ++ others)) := by
    cases closed : draft.stream.lifecycle.isInputClosed <;>
      simp [next, Call.fault?, Call.noted, Call.pieces, closed]
  have answer_eq : (draft.next (.addData first)).answer (.addData others)
      = draft.answer (.addData (first ++ others)) := by
    cases closed : draft.stream.lifecycle.isInputClosed <;>
      simp [answer, next, Call.fault?, Call.noted, closed]
  rw [run, run, next_eq, answer_eq]

end Draft

namespace Feed

open Delivery (Sink LoggingSink)

section Faults

variable {Queue Value Other : Type} {before : Feed Queue} {fault : Violation}

/-- A program that stops at a fault of the peer before it has done anything. -/
abbrev Faults (program : FeedM Queue Value) (before : Feed Queue) (fault : Violation) : Prop :=
  Ensures program before (fun _ _ => False)
    (fun error after => error = .violation fault ∧ after = before)

theorem faults_refuseIf_bind {condition : Bool} {next : FeedM Queue Value}
    (holds : condition = true) : Faults (do refuseIf condition fault; next) before fault := by
  subst holds
  exact ⟨rfl, rfl⟩

theorem faults_of_refuseIf_bind {condition : Bool} {other : Violation}
    {next : FeedM Queue Value} (passed : condition = false)
    (later : Faults next before fault) : Faults (do refuseIf condition other; next) before fault := by
  subst passed
  exact later

theorem Faults.bind {program : FeedM Queue Other} {next : Other → FeedM Queue Value}
    (faults : Faults program before fault) : Faults (program >>= next) before fault := by
  apply Ensures.bind faults
  · intro _ _ impossible
    exact impossible.elim
  · intro error after failed
    exact failed

theorem ensureStarted_faults [Sink Queue] (faulty : before.stream.startFault? = some fault) :
    Faults ensureStarted before fault := by
  unfold ensureStarted
  rw [Faults, ensures_bind, ensures_get]
  unfold Stream.startFault? at faulty
  cases started : before.stream.requestStarted with
  | true =>
      rw [started, if_pos rfl] at faulty
      cases faulty
  | false =>
      rw [started, if_neg Bool.false_ne_true] at faulty
      rw [if_neg Bool.false_ne_true]
      unfold startRequest
      rw [ensures_bind, ensures_get]
      dsimp only
      cases method : before.stream.pseudo.method with
      | none =>
          rw [method] at faulty
          cases faulty
          exact ⟨rfl, rfl⟩
      | some name =>
          cases path : before.stream.pseudo.path with
          | none =>
              rw [method, path] at faulty
              cases faulty
              exact ⟨rfl, rfl⟩
          | some target =>
              rw [method, path] at faulty
              cases faulty

theorem addPseudoHeader_faults {name value : Bytes}
    (unopened : before.stream.requestStarted = false → before.stream.work = none)
    (faulty : before.stream.pseudoFault? name value = some fault) :
    Faults (addPseudoHeader name value) before fault := by
  unfold addPseudoHeader
  rw [Faults, ensures_bind, ensures_get]
  unfold Stream.pseudoFault? at faulty
  cases started : before.stream.requestStarted with
  | true =>
      rw [started, if_pos rfl] at faulty
      cases faulty
      exact faults_refuseIf_bind (by rw [started, Bool.true_or])
  | false =>
      rw [started, if_neg Bool.false_ne_true] at faulty
      have early : (before.stream.requestStarted || before.stream.work.isSome) = false := by
        rw [started, unopened started]
        rfl
      apply faults_of_refuseIf_bind early
      cases valueless : value.isEmpty with
      | true =>
          rw [valueless, if_pos rfl] at faulty
          cases faulty
          exact faults_refuseIf_bind rfl
      | false =>
          rw [valueless, if_neg Bool.false_ne_true] at faulty
          apply faults_of_refuseIf_bind rfl
          cases named : PseudoField.ofName? name with
          | none =>
              rw [named] at faulty
              cases faulty
          | some field =>
              rw [named] at faulty
              dsimp only at faulty
              split at faulty
              · rename_i known
                cases faulty
                exact faults_refuseIf_bind known
              · cases faulty

/-- A fault is noticed, and nothing has changed. Only pseudo-headers depend on whether there is
a segment. -/
theorem program_faults [Sink Queue] (call : Stream.Call)
    (unopened : call.isPseudo = true → before.stream.requestStarted = false →
      before.stream.work = none)
    (faulty : call.fault? before.stream = some fault) : Faults call.program before fault := by
  cases call with
  | addHeader name value =>
      change Faults (do addHeader name value; pure Stream.Reply.done) before fault
      apply Faults.bind
      unfold addHeader
      simp only [Stream.Call.fault?] at faulty
      cases unnamed : name.isEmpty with
      | true =>
          rw [unnamed, if_pos rfl] at faulty
          cases faulty
      | false =>
          rw [unnamed, if_neg Bool.false_ne_true] at faulty
          rw [if_neg Bool.false_ne_true, Faults, ensures_bind, ensures_get]
          cases closed : before.stream.lifecycle.isInputClosed with
          | true =>
              rw [closed, if_pos rfl] at faulty
              cases faulty
              exact faults_refuseIf_bind rfl
          | false =>
              rw [closed, if_neg Bool.false_ne_true] at faulty
              apply faults_of_refuseIf_bind rfl
              cases pseudo : isPseudoName name with
              | true =>
                  rw [pseudo, if_pos rfl] at faulty
                  exact addPseudoHeader_faults (unopened pseudo) faulty
              | false =>
                  rw [pseudo, if_neg Bool.false_ne_true] at faulty
                  exact (ensureStarted_faults faulty).bind
  | addData data =>
      change Faults (do addData data; pure Stream.Reply.done) before fault
      apply Faults.bind
      unfold addData
      rw [Faults, ensures_bind, ensures_get]
      simp only [Stream.Call.fault?] at faulty
      split at faulty
      · rename_i closed
        cases faulty
        exact faults_refuseIf_bind closed
      · cases faulty
  | endHeaders =>
      change Faults (do endHeaders; pure Stream.Reply.done) before fault
      apply Faults.bind
      unfold endHeaders
      rw [Faults, ensures_bind, ensures_get]
      simp only [Stream.Call.fault?] at faulty
      cases closed : before.stream.lifecycle.isInputClosed with
      | true =>
          rw [closed, if_pos rfl] at faulty
          cases faulty
          exact faults_refuseIf_bind rfl
      | false =>
          rw [closed, if_neg Bool.false_ne_true] at faulty
          apply faults_of_refuseIf_bind rfl
          exact (ensureStarted_faults faulty).bind
  | _ => cases faulty

theorem run_of_faults [Sink Queue] {call : Stream.Call}
    (faults : Faults call.program before fault) :
    call.run before = (.error (.violation fault), before) := by
  have outcome := Stream.Call.run_of_ensures faults
  rcases result : call.run before with ⟨answer, after⟩
  rw [result] at outcome
  cases answer with
  | ok reply => exact outcome.elim
  | error error =>
      rcases outcome with ⟨rfl, rfl⟩
      rfl

theorem run_of_fault [Sink Queue] {call : Stream.Call}
    (unopened : call.isPseudo = true → before.stream.requestStarted = false →
      before.stream.work = none)
    (faulty : call.fault? before.stream = some fault) :
    call.run before = (.error (.violation fault), before) :=
  run_of_faults (program_faults call unopened faulty)

end Faults

end Feed

end Reassembly
