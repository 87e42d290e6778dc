import Reassembly.Proofs.Stream.Sides

/-!
# The life of a stream

A half of a stream is closed by the first call that closes it, whatever becomes of the rest of
that call, and stays closed. So the state of a stream can be read off its calls, and it changes
no more often than there are halves. Whoever observes the stream when it changes is told so,
once.
-/

namespace Reassembly

namespace Lifecycle

/-- Changes that lead from one state to another, each setting out from where the one before it
has ended. -/
inductive Chained : Lifecycle → List Change → Lifecycle → Prop where
  | nil (state : Lifecycle) : Chained state [] state
  | cons {old new final : Lifecycle} {later : List Change} (changed : old ≠ new)
      (rest : Chained new later final) : Chained old ({ old, new } :: later) final

def openHalves (lifecycle : Lifecycle) : Nat :=
  (!lifecycle.isInputClosed).toNat + (!lifecycle.isOutputClosed).toNat

end Lifecycle

namespace Stream.Call

open Delivery (Sink)
open Lifecycle (Chained)

section Closing

variable (call : Call) (lifecycle : Lifecycle)

theorem isInputClosed_lifecycleAfter :
    (call.lifecycleAfter lifecycle).isInputClosed = true
      ↔ call = closeInput ∨ lifecycle.isInputClosed = true := by
  cases call <;> simp [lifecycleAfter]

theorem isOutputClosed_lifecycleAfter :
    (call.lifecycleAfter lifecycle).isOutputClosed = true
      ↔ call = closeOutput ∨ lifecycle.isOutputClosed = true := by
  cases call <;> simp [lifecycleAfter]

variable {lifecycle}

/-- A change of state closes a half that was open, and opens none. -/
theorem openHalves_lifecycleAfter (changed : lifecycle ≠ call.lifecycleAfter lifecycle) :
    (call.lifecycleAfter lifecycle).openHalves < lifecycle.openHalves := by
  cases call with
  | closeInput =>
      cases lifecycle with
      | idle | closedOutput => decide
      | closedInput | closed => exact absurd rfl changed
  | closeOutput =>
      cases lifecycle with
      | idle | closedInput => decide
      | closedOutput | closed => exact absurd rfl changed
  | _ => exact absurd rfl changed

end Closing

/-- Who is installed as an observer by a call. -/
def observed? : Call → Option ObserverId
  | observe observer => some observer
  | _ => none

theorem observed?_eq_some_iff {call : Call} {observer : ObserverId} :
    call.observed? = some observer ↔ call = observe observer := by
  cases call <;> simp [observed?]

/-- Who was last installed as an observer. -/
def lastObserved? (calls : List Call) : Option ObserverId :=
  (calls.filterMap observed?).getLast?

/-- What an observer of a stream is told of a change. -/
def notice (stream : StreamId) (change : Lifecycle.Change) (observer : ObserverId) : Notice :=
  { observer, stream, old := change.old, new := change.new }

variable {Queue : Type} [Sink Queue]

section Step

variable (call : Call) (before : Feed Queue)

theorem lifecycle_run :
    (call.run before).2.stream.lifecycle = call.lifecycleAfter before.stream.lifecycle := by
  have turned : (call.turn before.outputSide).lifecycle
      = call.lifecycleAfter before.stream.lifecycle := by
    cases call with
    | closeInput => exact before.outputSide.lifecycle_moved _
    | closeOutput => exact before.outputSide.lifecycle_moved _
    | _ => rfl
  exact (congrArg OutputSide.lifecycle (outputSide_run call before)).trans turned

theorem observer_run :
    (call.run before).2.stream.observer = call.observed?.or before.stream.observer := by
  have turned : (call.turn before.outputSide).observer
      = call.observed?.or before.stream.observer := by
    cases call with
    | closeInput => exact before.outputSide.observer_moved _
    | closeOutput => exact before.outputSide.observer_moved _
    | _ => rfl
  exact (congrArg OutputSide.observer (outputSide_run call before)).trans turned

/-- Whoever is installed when a call changes the state is told so, once. -/
theorem notices_run_eq :
    (call.run before).2.notices
      = before.notices ++ (call.change? before).toList.flatMap fun change =>
          before.stream.observer.toList.map (notice before.stream.id change) := by
  rw [notices_run, start, Feed.moved, change?, lifecycle_run]
  dsimp only
  split
  · simp
  · simp [notice]

theorem chained_change {later : List Lifecycle.Change} {final : Lifecycle}
    (rest : Chained (call.run before).2.stream.lifecycle later final) :
    Chained before.stream.lifecycle ((call.change? before).toList ++ later) final := by
  unfold change?
  dsimp only
  split
  · rename_i unchanged
    rw [unchanged]
    exact rest
  · rename_i changed
    exact .cons changed rest

theorem length_change_le :
    (call.change? before).toList.length + (call.run before).2.stream.lifecycle.openHalves
      ≤ before.stream.lifecycle.openHalves := by
  unfold change?
  dsimp only
  split
  · rename_i unchanged
    rw [← unchanged]
    simp
  · rename_i changed
    rw [lifecycle_run] at changed ⊢
    have fewer := openHalves_lifecycleAfter call changed
    simp only [Option.toList_some, List.length_singleton]
    omega

end Step

section Run

variable (calls : List Call) (before : Feed Queue)

/-- A half that one kind of call closes, and none opens, is closed once there was such a call. -/
theorem closed_runAll {closed : Lifecycle → Bool} {closing : Call}
    (closes : ∀ call lifecycle, closed (lifecycleAfter call lifecycle) = true
      ↔ call = closing ∨ closed lifecycle = true) :
    closed (runAll calls before).2.stream.lifecycle = true
      ↔ closing ∈ calls ∨ closed before.stream.lifecycle = true := by
  induction calls generalizing before with
  | nil => simp [runAll]
  | cons call later ih =>
      rw [runAll_cons, ih, lifecycle_run, closes, List.mem_cons]
      tauto

theorem isInputClosed_runAll :
    (runAll calls before).2.stream.lifecycle.isInputClosed = true
      ↔ closeInput ∈ calls ∨ before.stream.lifecycle.isInputClosed = true :=
  closed_runAll calls before isInputClosed_lifecycleAfter

theorem isOutputClosed_runAll :
    (runAll calls before).2.stream.lifecycle.isOutputClosed = true
      ↔ closeOutput ∈ calls ∨ before.stream.lifecycle.isOutputClosed = true :=
  closed_runAll calls before isOutputClosed_lifecycleAfter

theorem chained_changes :
    Chained before.stream.lifecycle (changes calls before)
      (runAll calls before).2.stream.lifecycle := by
  induction calls generalizing before with
  | nil => exact .nil _
  | cons call later ih => exact chained_change call before (ih _)

theorem length_changes_le :
    (changes calls before).length + (runAll calls before).2.stream.lifecycle.openHalves
      ≤ before.stream.lifecycle.openHalves := by
  induction calls generalizing before with
  | nil => simp [changes, runAll]
  | cons call later ih =>
      have first := length_change_le call before
      have rest := ih (call.run before).2
      rw [changes_cons, runAll_cons, List.length_append]
      dsimp only
      omega

theorem observer_runAll :
    (runAll calls before).2.stream.observer
      = (lastObserved? calls).or before.stream.observer := by
  induction calls generalizing before with
  | nil => rfl
  | cons call later ih =>
      rw [runAll_cons, ih, observer_run]
      unfold lastObserved?
      cases observed : call.observed? with
      | none => simp [observed]
      | some observer => simp [observed, List.getLast?_cons]

variable {before} {observer : ObserverId}

/-- An observer that no other one takes the place of is told of all changes. -/
theorem notices_runAll_of_sole (installed : before.stream.observer = some observer)
    (sole : ∀ other, observe other ∈ calls → other = observer) :
    (runAll calls before).2.notices
      = before.notices ++ (changes calls before).map
          fun change => notice before.stream.id change observer := by
  induction calls generalizing before with
  | nil => simp [runAll, changes]
  | cons call later ih =>
      have still : (call.run before).2.stream.observer = some observer := by
        rw [observer_run, installed]
        cases observed : call.observed? with
        | none => rfl
        | some other =>
            rw [observed?_eq_some_iff] at observed
            rw [sole other (observed ▸ List.mem_cons_self)]
            rfl
      have rest := ih still fun other mem => sole other (List.mem_cons_of_mem _ mem)
      rw [runAll_cons, rest, id_run, notices_run_eq, installed, changes_cons]
      simp [List.map_eq_flatMap]

end Run

/-- How a stream has lived through calls from its creation on. -/
structure Lifetime (created : Feed Queue) (calls : List Call) : Prop where
  /-- Whether a half is closed is known from the calls alone. -/
  input_closed :
    (runAll calls created).2.stream.lifecycle.isInputClosed = true ↔ closeInput ∈ calls
  output_closed :
    (runAll calls created).2.stream.lifecycle.isOutputClosed = true ↔ closeOutput ∈ calls
  input_stays_closed (later : List Call) :
    (runAll calls created).2.stream.lifecycle.isInputClosed = true →
      (runAll (calls ++ later) created).2.stream.lifecycle.isInputClosed = true
  output_stays_closed (later : List Call) :
    (runAll calls created).2.stream.lifecycle.isOutputClosed = true →
      (runAll (calls ++ later) created).2.stream.lifecycle.isOutputClosed = true
  at_most_two : (changes calls created).length ≤ 2
  chained : Chained .idle (changes calls created) (runAll calls created).2.stream.lifecycle
  /-- What the next call has observers told, whatever call it is. Only the one who has been
  installed last is told, and only of a change. -/
  told (call : Call) :
    let before := (runAll calls created).2
    (call.run before).2.notices
      = before.notices ++ (call.change? before).toList.flatMap fun change =>
          (lastObserved? calls).toList.map (notice created.stream.id change)
  /-- Who watches the stream from the beginning, and is not replaced, is told of all changes. -/
  watched (observer : ObserverId) :
    calls.head? = some (observe observer) →
      (∀ other, observe other ∈ calls → other = observer) →
        (runAll calls created).2.notices
          = (changes calls created).map fun change => notice created.stream.id change observer

/-- A stream lives through any calls as its lifecycle demands, whatever its sink answers. -/
theorem lifetime_of_calls (id : StreamId) (session : Session) (queue : Queue) (calls : List Call) :
    Lifetime (Feed.fresh id session queue) calls where
  input_closed := by
    rw [isInputClosed_runAll]
    exact or_iff_left Bool.false_ne_true
  output_closed := by
    rw [isOutputClosed_runAll]
    exact or_iff_left Bool.false_ne_true
  input_stays_closed later closed := by
    rw [runAll_append, isInputClosed_runAll]
    exact .inr closed
  output_stays_closed later closed := by
    rw [runAll_append, isOutputClosed_runAll]
    exact .inr closed
  at_most_two :=
    (Nat.le_add_right _ _).trans (length_changes_le calls (Feed.fresh id session queue))
  chained := chained_changes calls (Feed.fresh id session queue)
  told call := by
    intro before
    have installed : before.stream.observer = lastObserved? calls := by
      rw [observer_runAll]
      exact Option.or_none
    rw [notices_run_eq, installed, id_runAll]
  watched observer first sole := by
    cases calls with
    | nil => cases first
    | cons call rest =>
        cases first
        have installed : ((observe observer).run (Feed.fresh id session queue)).2.stream.observer
            = some observer := rfl
        exact notices_runAll_of_sole rest installed fun other mem =>
          sole other (List.mem_cons_of_mem _ mem)

end Stream.Call

end Reassembly
