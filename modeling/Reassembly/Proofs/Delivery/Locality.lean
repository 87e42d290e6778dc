import Reassembly.Delivery.Queue

/-!
# One stream of a queue

What a queue does for a stream depends on the lane of the stream and on whether the queue is
closed, and on nothing else. What is done for another stream changes neither.
-/

namespace Reassembly

namespace Delivery.Queue

/-- Two queues that hold the same for a stream, and are both open or both closed. -/
structure SameFor (id : StreamId) (left right : Queue) : Prop where
  lane_eq : right.lane id = left.lane id
  isClosed_eq : right.isClosed = left.isClosed

variable {id other : StreamId} {left right : Queue}

theorem SameFor.refl (id : StreamId) (queue : Queue) : SameFor id queue queue := ⟨rfl, rfl⟩

theorem SameFor.refusal_eq (same : SameFor id left right) :
    right.refusal? id = left.refusal? id := by
  rw [refusal?, refusal?, hasEnd, hasEnd, same.lane_eq, same.isClosed_eq]

theorem SameFor.items_eq (same : SameFor id left right) : right.items id = left.items id :=
  congrArg Lane.items same.lane_eq

theorem SameFor.add (same : SameFor id left right) (item : Item) :
    SameFor id (left.add id item) (right.add id item) where
  lane_eq := by rw [lane_add_self, lane_add_self, same.lane_eq]
  isClosed_eq := same.isClosed_eq

theorem SameFor.add_other (same : SameFor id left right) (differ : id ≠ other) (item : Item) :
    SameFor id (left.add other item) right where
  lane_eq := by rw [lane_add_of_ne left item differ, same.lane_eq]
  isClosed_eq := same.isClosed_eq

theorem SameFor.pop (same : SameFor id left right) :
    (right.pop id).1 = (left.pop id).1 ∧ SameFor id (left.pop id).2 (right.pop id).2 := by
  cases waiting : left.items id with
  | nil =>
      rw [pop_of_items_eq_nil waiting, pop_of_items_eq_nil (same.items_eq.trans waiting)]
      exact ⟨rfl, same⟩
  | cons item others =>
      rw [pop_of_items_eq_cons waiting, pop_of_items_eq_cons (same.items_eq.trans waiting)]
      refine ⟨rfl, ?_, same.isClosed_eq⟩
      cases item with
      | chunk octets => rw [lane_afterTaking_chunk, lane_afterTaking_chunk, same.lane_eq]
      | endOfStream => rw [lane_afterTaking_endOfStream, lane_afterTaking_endOfStream]

theorem SameFor.pop_other (same : SameFor id left right) (differ : id ≠ other) :
    SameFor id (left.pop other).2 right := by
  cases waiting : left.items other with
  | nil =>
      rw [pop_of_items_eq_nil waiting]
      exact same
  | cons item others =>
      rw [pop_of_items_eq_cons waiting]
      refine ⟨?_, same.isClosed_eq⟩
      rw [lane_afterTaking_of_ne left item others differ, same.lane_eq]

theorem SameFor.release (same : SameFor id left right) :
    (right.release id).1 = (left.release id).1 ∧
      SameFor id (left.release id).2 (right.release id).2 := by
  refine ⟨?_, ?_, same.isClosed_eq⟩
  · exact congrArg List.length same.items_eq
  · rw [lane_release_self, lane_release_self]

theorem SameFor.release_other (same : SameFor id left right) (differ : id ≠ other) :
    SameFor id (left.release other).2 right where
  lane_eq := by rw [lane_release_of_ne left differ, same.lane_eq]
  isClosed_eq := same.isClosed_eq

end Delivery.Queue

end Reassembly
