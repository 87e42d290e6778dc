import Reassembly.Proofs.Stream.Runs

/-!
# The ledger of a stream

The octets that a stream has emitted are those that its sink has accepted, followed by those
that wait in its segment. They only ever grow, by what a call adds to them: by the whole
text of the call if it succeeds, and by the first few pieces of that text if it fails. So
no octet is lost, repeated or moved, whatever the sink answers and whenever it does.
-/

namespace Reassembly

namespace Feed

open Delivery (Attempt Item LoggingSink acceptedFor acceptedFor_append)

variable {Queue : Type} [LoggingSink Queue] {before after : Feed Queue} {octets : Bytes}

/-- The log of the sink. -/
abbrev log (feed : Feed Queue) : List Attempt := LoggingSink.log feed.queue

/-- The items that the sink has accepted from the stream, oldest first. -/
def accepted (feed : Feed Queue) : List Item := acceptedFor feed.stream.id feed.log

/-- The octets that the stream has delivered, followed by those it still holds. -/
def emitted (feed : Feed Queue) : Bytes :=
  feed.accepted.flatMap Item.octets ++ feed.stream.pending

/-- Dropping an empty segment, or delivering a full one, takes no octet away. -/
theorem Move.emitted_eq (move : Move before octets after) :
    after.emitted = before.emitted ++ octets := by
  cases move with
  | note => exact (List.append_nil _).symm
  | openSegment inputOpen work =>
      simp [emitted, accepted, withWork, Stream.pending, work]
  | fill data inputOpen work =>
      simp [emitted, accepted, withWork, Stream.pending, work]
  | drop work empty =>
      simp [emitted, accepted, withWork, Stream.pending, work, empty]
  | deliver work nonempty delivered =>
      have log := LoggingSink.append_ok delivered
      simp [emitted, accepted, withWork, Stream.pending, work, log, acceptedFor_append,
        Item.octets]
  | refuse work nonempty refused =>
      have log := (LoggingSink.append_error refused).2
      simp [emitted, accepted, Stream.pending, work, log, acceptedFor_append]
  | deliverEnd inputClosed work undelivered delivered =>
      have log := LoggingSink.appendEnd_ok delivered
      simp [emitted, accepted, Stream.pending, work, log, acceptedFor_append, Item.octets]
  | refuseEnd inputClosed work undelivered refused =>
      have log := LoggingSink.appendEnd_error refused
      simp [emitted, accepted, Stream.pending, work, log, acceptedFor_append]

theorem Path.emitted_eq (path : Path before octets after) :
    after.emitted = before.emitted ++ octets := by
  induction path with
  | refl feed => exact (List.append_nil _).symm
  | step move rest ih => rw [ih, move.emitted_eq, List.append_assoc]

theorem emitted_moved (feed : Feed Queue) (next : Lifecycle) :
    (feed.moved next).emitted = feed.emitted := by
  rw [moved_eq]
  rfl

/-- A call adds its pieces to what the stream has emitted, all of them if it succeeds. A
violation changes nothing. -/
theorem emitted_call (call : Stream.Call) (before : Feed Queue) :
    match call.run before with
    | (.ok _, after) => after.emitted = before.emitted ++ (call.pieces before.stream).flatten
    | (.error error, after) =>
        (∃ written, written <+: call.pieces before.stream ∧
          after.emitted = before.emitted ++ written.flatten) ∧
        (error.isViolation = true → after = call.start before) := by
  have path := call.run_path before
  have start : (call.start before).emitted = before.emitted := emitted_moved before _
  rcases result : call.run before with ⟨answer, after⟩
  rw [result] at path
  cases answer with
  | ok reply =>
      have added := path.emitted_eq
      rwa [start] at added
  | error error =>
      rcases path with ⟨written, written_prefix, path, atomic⟩
      have added := path.emitted_eq
      rw [start] at added
      exact ⟨⟨written, written_prefix, added⟩, atomic⟩

end Feed

namespace Stream.Call

open Delivery (Scripted)

/-- The ledger of a stream, for every run and every script of answers: what one more call
adds is its text if it succeeds, and otherwise the first pieces of that text. -/
theorem emitted_runAll (id : StreamId) (session : Session) (sink : Scripted)
    (calls : List Call) (call : Call) :
    let before := (runAll calls (Feed.fresh id session sink)).2
    match call.run before with
    | (.ok _, after) => after.emitted = before.emitted ++ (call.pieces before.stream).flatten
    | (.error error, after) =>
        (∃ written, written <+: call.pieces before.stream ∧
          after.emitted = before.emitted ++ written.flatten) ∧
        (error.isViolation = true → after.emitted = before.emitted) := by
  intro before
  have added := Feed.emitted_call call before
  rcases result : call.run before with ⟨answer, after⟩
  rw [result] at added
  cases answer with
  | ok reply => exact added
  | error error =>
      refine ⟨added.1, ?_⟩
      intro violation
      rw [added.2 violation]
      exact Feed.emitted_moved before _

end Stream.Call

end Reassembly
