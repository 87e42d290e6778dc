import Reassembly.Proofs.Stream.Success

/-!
# Receiving pseudo-headers

Until the request is started, a stream only remembers its pseudo-headers. So they may come
in any order: as long as they differ in name, each of them keeps its value.
-/

namespace Reassembly

namespace PseudoField

theorem ofName?_name (field : PseudoField) : ofName? (Bytes.ascii field.name) = some field := by
  cases field <;> rfl

theorem ofName?_eq_some_iff {name : Bytes} {field : PseudoField} :
    ofName? name = some field ↔ name = Bytes.ascii field.name := by
  constructor
  · intro found
    simpa using List.find?_some found
  · rintro rfl
    exact ofName?_name field

theorem isPseudoName_name (field : PseudoField) :
    isPseudoName (Bytes.ascii field.name) = true := by
  cases field <;> rfl

theorem isEmpty_name (field : PseudoField) : (Bytes.ascii field.name).isEmpty = false := by
  cases field <;> rfl

end PseudoField

namespace PseudoHeaders

/-- The pseudo-headers after some more have been received. -/
def putAll (headers : PseudoHeaders) (received : List (PseudoField × Bytes)) : PseudoHeaders :=
  received.foldl (fun headers entry => headers.put entry.2 entry.1) headers

theorem ext_get? {headers others : PseudoHeaders}
    (same : ∀ field, headers.get? field = others.get? field) : headers = others := by
  have method := same .method
  have scheme := same .scheme
  have path := same .path
  have authority := same .authority
  cases headers
  cases others
  simp_all [get?]

theorem get?_putAll_of_not_mem (headers : PseudoHeaders)
    {received : List (PseudoField × Bytes)} {field : PseudoField}
    (absent : field ∉ received.map Prod.fst) :
    (headers.putAll received).get? field = headers.get? field := by
  induction received generalizing headers with
  | nil => rfl
  | cons entry later ih =>
      rw [List.map_cons, List.mem_cons, not_or] at absent
      exact (ih (headers.put entry.2 entry.1) absent.2).trans
        (headers.get?_put_of_ne entry.2 absent.1)

/-- Of pseudo-headers that differ in name, each keeps its value. -/
theorem get?_putAll_of_mem (headers : PseudoHeaders) {received : List (PseudoField × Bytes)}
    (distinct : (received.map Prod.fst).Nodup) {field : PseudoField} {value : Bytes}
    (present : (field, value) ∈ received) :
    (headers.putAll received).get? field = some value := by
  induction received generalizing headers with
  | nil => cases present
  | cons entry later ih =>
      rw [List.map_cons, List.nodup_cons] at distinct
      rcases List.mem_cons.mp present with rfl | present
      · exact (get?_putAll_of_not_mem _ distinct.1).trans (headers.get?_put_self value field)
      · exact ih (headers.put entry.2 entry.1) distinct.2 present

/-- Receiving one pseudo-header leaves the others to be received. -/
theorem get?_put_eq_none {headers : PseudoHeaders} {field : PseudoField} {others : List PseudoField}
    (differs : field ∉ others) (absent : ∀ other ∈ others, headers.get? other = none)
    (value : Bytes) : ∀ other ∈ others, (headers.put value field).get? other = none := by
  intro other other_mem
  have differ : other ≠ field := by
    rintro rfl
    exact differs other_mem
  rw [get?_put_of_ne _ value differ]
  exact absent other other_mem

end PseudoHeaders

namespace Stream.Call

open Delivery (Sink)
open Feed (Succeeds)

variable {Queue : Type} [Sink Queue] {before : Feed Queue}

/-- The stream has received nothing but pseudo-headers. -/
structure Unstarted (feed : Feed Queue) : Prop where
  inputOpen : feed.stream.lifecycle.isInputClosed = false
  started : feed.stream.requestStarted = false
  work : feed.stream.work = none

/-- The feed with other pseudo-headers. -/
def withPseudo (feed : Feed Queue) (pseudo : PseudoHeaders) : Feed Queue :=
  { feed with stream := { feed.stream with pseudo } }

theorem addHeader_pseudo (unstarted : Unstarted before) {field : PseudoField} {value : Bytes}
    (nonempty : value ≠ []) (absent : before.stream.pseudo.get? field = none) :
    Succeeds (Feed.addHeader (Bytes.ascii field.name) value) before
      (fun _ after => after = withPseudo before (before.stream.pseudo.put value field)) := by
  have early : (before.stream.requestStarted || before.stream.work.isSome) = false := by
    rw [unstarted.started, unstarted.work]
    rfl
  have valued : value.isEmpty = false := by simpa using nonempty
  have first : (before.stream.pseudo.get? field).isSome = false := by
    rw [absent]
    rfl
  unfold Feed.addHeader
  rw [PseudoField.isEmpty_name, if_neg Bool.false_ne_true, Succeeds, Feed.ensures_bind,
    Feed.ensures_get]
  apply Feed.succeeds_refuseIf_bind unstarted.inputOpen
  rw [PseudoField.isPseudoName_name, if_pos rfl]
  unfold Feed.addPseudoHeader
  rw [Succeeds, Feed.ensures_bind, Feed.ensures_get]
  apply Feed.succeeds_refuseIf_bind early
  apply Feed.succeeds_refuseIf_bind valued
  rw [PseudoField.ofName?_name]
  apply Feed.succeeds_refuseIf_bind first
  rfl

theorem run_addHeader_pseudo (unstarted : Unstarted before) {field : PseudoField} {value : Bytes}
    (nonempty : value ≠ []) (absent : before.stream.pseudo.get? field = none) :
    (addHeader (Bytes.ascii field.name) value).run before
      = (.ok .done, withPseudo before (before.stream.pseudo.put value field)) := by
  have outcome := run_of_done (addHeader (Bytes.ascii field.name) value) rfl
    (addHeader_pseudo unstarted nonempty absent)
  rcases result : (addHeader (Bytes.ascii field.name) value).run before with ⟨answer, after⟩
  rw [result] at outcome
  cases answer with
  | error error => exact outcome.elim
  | ok reply =>
      rcases outcome with ⟨rfl, rfl⟩
      rfl

/-- Pseudo-headers may come in any order. -/
theorem runAll_pseudo (unstarted : Unstarted before) {received : List (PseudoField × Bytes)}
    (distinct : (received.map Prod.fst).Nodup) (nonempty : ∀ entry ∈ received, entry.2 ≠ [])
    (absent : ∀ field ∈ received.map Prod.fst, before.stream.pseudo.get? field = none) :
    (∀ answer ∈ (runAll (received.map fun entry =>
        addHeader (Bytes.ascii entry.1.name) entry.2) before).1, answer = .ok .done) ∧
      (runAll (received.map fun entry =>
        addHeader (Bytes.ascii entry.1.name) entry.2) before).2
        = withPseudo before (before.stream.pseudo.putAll received) := by
  induction received generalizing before with
  | nil =>
      refine ⟨?_, rfl⟩
      intro answer answer_mem
      cases answer_mem
  | cons entry later ih =>
      rcases entry with ⟨field, value⟩
      rw [List.map_cons, List.nodup_cons] at distinct
      have first := run_addHeader_pseudo unstarted (nonempty _ List.mem_cons_self)
        (absent field List.mem_cons_self)
      have stillAbsent := PseudoHeaders.get?_put_eq_none distinct.1
        (fun other other_mem => absent other (List.mem_cons_of_mem field other_mem)) value
      have next : Unstarted (withPseudo before (before.stream.pseudo.put value field)) :=
        ⟨unstarted.inputOpen, unstarted.started, unstarted.work⟩
      have rest := ih next distinct.2
        (fun entry entry_mem => nonempty entry (List.mem_cons_of_mem _ entry_mem)) stillAbsent
      rw [List.map_cons, runAll, first]
      refine ⟨?_, rest.2⟩
      intro answer answer_mem
      rcases List.mem_cons.mp answer_mem with rfl | answer_mem
      · rfl
      · exact rest.1 answer answer_mem

end Stream.Call

end Reassembly
