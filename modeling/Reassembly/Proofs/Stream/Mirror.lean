import Reassembly.Proofs.Stream.Twins

/-!
# Exchanging the sink

If one sink is the image of another one and always gives the same answers, then a stream on
the one is a twin of the stream on the other. So every call does the same to both: it answers
alike, leaves the same stream behind, and leaves one sink the image of the other.
-/

namespace Reassembly

open Delivery (Sink)

variable {Source Target : Type}

/-- The result of a program, with the state seen through a map. -/
def mapState {Error State Image Value : Type} (view : State → Image) :
    EStateM.Result Error State Value → EStateM.Result Error Image Value
  | .ok value state => .ok value (view state)
  | .error error state => .error error (view state)

theorem alike_mapState {Error State Image Value : Type} (view : State → Image)
    (result : EStateM.Result Error State Value) :
    Alike (fun state image => image = view state) result (mapState view result) := by
  cases result with
  | ok value state => exact .ok value rfl
  | error error state => exact .error error rfl

/-- A map from one kind of sink to another under which deliveries are answered alike. -/
structure Delivery.SinkMap [Sink Source] [Sink Target] (view : Source → Target) : Prop where
  append_eq (stream : StreamId) (segment : Segment) (queue : Source) :
    (Sink.append stream segment).run (view queue)
      = mapState view ((Sink.append stream segment).run queue)
  appendEnd_eq (stream : StreamId) (queue : Source) :
    (Sink.appendEnd stream).run (view queue)
      = mapState view ((Sink.appendEnd stream).run queue)

theorem Delivery.SinkMap.coupling [Sink Source] [Sink Target] {view : Source → Target}
    (sinkMap : SinkMap view) (id : StreamId) :
    Coupling id fun queue image => image = view queue where
  append segment := by
    rintro queue _ rfl
    rw [sinkMap.append_eq]
    exact alike_mapState view _
  appendEnd := by
    rintro queue _ rfl
    rw [sinkMap.appendEnd_eq]
    exact alike_mapState view _

/-- The feed with its sink seen through a map. -/
def Feed.mapQueue (view : Source → Target) (feed : Feed Source) : Feed Target :=
  { feed with queue := view feed.queue }

namespace Stream.Call

open Feed (mapQueue Twins)

variable {view : Source → Target} [Sink Source] [Sink Target]
  (sinkMap : Delivery.SinkMap view)

include sinkMap

/-- A call answers alike on a sink and on its image, and does the same to both. -/
theorem run_mapQueue (call : Call) (feed : Feed Source) :
    call.run (feed.mapQueue view) = ((call.run feed).1, (call.run feed).2.mapQueue view) := by
  have twins : Twins feed.stream.id (fun queue image => image = view queue) feed
      (feed.mapQueue view) := ⟨rfl, rfl, rfl, rfl⟩
  rcases run_twins (sinkMap.coupling feed.stream.id) twins call with ⟨answer_eq, after⟩
  rcases result : call.run (feed.mapQueue view) with ⟨answer, ⟨stream, queue, notices⟩⟩
  rw [result] at answer_eq after
  rcases after with ⟨_, rfl, rfl, rfl⟩
  cases answer_eq
  rfl

/-- So do calls one after the other. -/
theorem runAll_mapQueue (calls : List Call) (feed : Feed Source) :
    runAll calls (feed.mapQueue view)
      = ((runAll calls feed).1, (runAll calls feed).2.mapQueue view) := by
  induction calls generalizing feed with
  | nil => rfl
  | cons call later ih =>
      simp only [runAll, run_mapQueue sinkMap call feed, ih]

end Stream.Call

end Reassembly
