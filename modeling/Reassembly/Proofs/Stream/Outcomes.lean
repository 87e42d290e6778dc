import Reassembly.Stream.Call

/-!
# Outcomes of programs on a feed

A program on a feed returns a value or fails, and leaves a feed behind either way.
`Feed.Ensures` says what holds then, for the two cases apart. A sequence of programs is
treated one program at a time: if the first fails, so does the sequence, and with the
same feed. `Ensures.fill` treats the loop that fills segments with data: what every pass keeps
up, the loop keeps up until nothing is left.
-/

namespace Reassembly

namespace Feed

variable {Queue Value Other : Type}

/-- A program that starts from a feed ends with `success` if it returns a value, and with
`failure` if it fails. -/
def Ensures (program : FeedM Queue Value) (before : Feed Queue)
    (success : Value → Feed Queue → Prop)
    (failure : StreamError → Feed Queue → Prop) : Prop :=
  match program.run before with
  | .ok value after => success value after
  | .error error after => failure error after

variable {before : Feed Queue} {success : Value → Feed Queue → Prop}
  {failure : StreamError → Feed Queue → Prop}

theorem ensures_bind {program : FeedM Queue Other} {next : Other → FeedM Queue Value} :
    Ensures (program >>= next) before success failure ↔
      Ensures program before
        (fun value middle => Ensures (next value) middle success failure) failure := by
  simp only [Ensures, EStateM.run_bind]
  cases program.run before with
  | ok value middle => exact Iff.rfl
  | error error after => exact Iff.rfl

@[simp]
theorem ensures_pure {value : Value} :
    Ensures (pure value) before success failure ↔ success value before := Iff.rfl

@[simp]
theorem ensures_throw {error : StreamError} :
    Ensures (throw error) before success failure ↔ failure error before := Iff.rfl

@[simp]
theorem ensures_get {success : Feed Queue → Feed Queue → Prop} :
    Ensures get before success failure ↔ success before before := Iff.rfl

@[simp]
theorem ensures_modify {change : Feed Queue → Feed Queue}
    {success : PUnit → Feed Queue → Prop} :
    Ensures (modify change) before success failure ↔ success () (change before) := Iff.rfl

@[simp]
theorem ensures_modifyStream {change : Stream → Stream} {success : Unit → Feed Queue → Prop} :
    Ensures (modifyStream change) before success failure ↔
      success () { before with stream := change before.stream } := Iff.rfl

@[simp]
theorem ensures_setWork {work : Option Segment} {success : Unit → Feed Queue → Prop} :
    Ensures (setWork work) before success failure ↔
      success () { before with stream := { before.stream with work } } := Iff.rfl

theorem ensures_refuseIf {condition : Bool} {fault : Violation}
    {success : Unit → Feed Queue → Prop} :
    Ensures (refuseIf condition fault) before success failure ↔
      (condition = true → failure (.violation fault) before) ∧
        (condition = false → success () before) := by
  cases condition with
  | true => simp [refuseIf]
  | false => simp [refuseIf]

/-- It does not matter to the feed which value is answered in the end. -/
theorem ensures_bind_pure {program : FeedM Queue Other} {value : Value}
    {success : Feed Queue → Prop} :
    Ensures (program >>= fun _ => pure value) before (fun _ after => success after) failure ↔
      Ensures program before (fun _ after => success after) failure :=
  ensures_bind

/-- What holds after a program may be replaced by what follows from it. -/
theorem Ensures.imp {program : FeedM Queue Value}
    {weakerSuccess : Value → Feed Queue → Prop} {weakerFailure : StreamError → Feed Queue → Prop}
    (ensured : Ensures program before success failure)
    (ifSuccess : ∀ value after, success value after → weakerSuccess value after)
    (ifFailure : ∀ error after, failure error after → weakerFailure error after) :
    Ensures program before weakerSuccess weakerFailure := by
  unfold Ensures at ensured ⊢
  cases result : program.run before with
  | ok value after =>
      rw [result] at ensured
      exact ifSuccess value after ensured
  | error error after =>
      rw [result] at ensured
      exact ifFailure error after ensured

/-- What is known of a program in two ways is known of it together. -/
theorem Ensures.and {program : FeedM Queue Value}
    {otherSuccess : Value → Feed Queue → Prop} {otherFailure : StreamError → Feed Queue → Prop}
    (left : Ensures program before success failure)
    (right : Ensures program before otherSuccess otherFailure) :
    Ensures program before
      (fun value after => success value after ∧ otherSuccess value after)
      (fun error after => failure error after ∧ otherFailure error after) := by
  unfold Ensures at left right ⊢
  cases result : program.run before with
  | ok value after =>
      rw [result] at left right
      exact ⟨left, right⟩
  | error error after =>
      rw [result] at left right
      exact ⟨left, right⟩

/-- Two programs one after the other, where the second one starts from what is known after
the first. -/
theorem Ensures.bind {program : FeedM Queue Other} {next : Other → FeedM Queue Value}
    {between : Other → Feed Queue → Prop}
    {firstFailure : StreamError → Feed Queue → Prop}
    (first : Ensures program before between firstFailure)
    (second : ∀ value middle, between value middle →
      Ensures (next value) middle success failure)
    (ifFailure : ∀ error after, firstFailure error after → failure error after) :
    Ensures (program >>= next) before success failure := by
  rw [ensures_bind]
  exact first.imp second ifFailure

section Fill

open Delivery (Sink)

variable [Sink Queue] {data : Bytes}

/-- One pass, and then the others if there is something left for them. -/
theorem fill_eq (data : Bytes) :
    (fill data : FeedM Queue Unit)
      = fillOnce data >>= fun rest => if rest.isEmpty then pure () else fill rest := by
  funext before
  change _ = EStateM.run _ before
  rw [fill, EStateM.run_bind]
  split
  · rename_i pass
    rw [pass]
  · rename_i rest after pass
    rw [pass]
    by_cases nothingLeft : rest.isEmpty = true
    · simp only [nothingLeft, if_true]
      rfl
    · simp only [nothingLeft]
      rfl

/-- An invariant of the loop relates what is left of the data to the feed. -/
theorem Ensures.fill (invariant : Bytes → Feed Queue → Prop) {success : Unit → Feed Queue → Prop}
    (start : invariant data before)
    (pass : ∀ data before, invariant data before →
      Ensures (fillOnce data) before invariant failure)
    (stop : ∀ after, invariant [] after → success () after) :
    Ensures (fill data) before success failure := by
  induction data, before using fill.induct with
  | case1 data before error after failed =>
      have kept := pass data before start
      rw [Ensures, failed] at kept
      rw [fill_eq, ensures_bind, Ensures, failed]
      exact kept
  | case2 data before rest after passed nothingLeft =>
      have kept := pass data before start
      rw [Ensures, passed, List.isEmpty_iff.mp nothingLeft] at kept
      rw [fill_eq, ensures_bind, Ensures, passed]
      simpa [nothingLeft] using stop after kept
  | case3 data before rest after passed more ih =>
      have kept := pass data before start
      rw [Ensures, passed] at kept
      rw [fill_eq, ensures_bind, Ensures, passed]
      simpa [more] using ih kept

end Fill

end Feed

end Reassembly
