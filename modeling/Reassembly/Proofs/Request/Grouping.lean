import Reassembly.Request.Assembly

/-!
# Header fields by name

Inserting a field into groups that are sorted by name keeps them sorted, and adds the value
of the field behind the values of its own name. So the group of a name holds the values of
that name in order of arrival, wherever other fields stand between them.
-/

namespace Reassembly

namespace FieldGroup

/-- The groups are sorted by name, so no name has two of them. -/
def Sorted (groups : List FieldGroup) : Prop :=
  groups.Pairwise fun earlier later => earlier.name < later.name

/-- The values that are found for a name. -/
def valuesOf (name : Bytes) (groups : List FieldGroup) : List Bytes :=
  (groups.find? (·.name = name)).elim [] FieldGroup.values

/-- The values of one field, as far as they belong to a name. -/
def ownValues (name : Bytes) (field : Field) : List Bytes :=
  if field.name = name then [field.value] else []

theorem name_mem_insert {field : Field} {groups : List FieldGroup} {group : FieldGroup}
    (group_mem : group ∈ insert field groups) :
    group.name = field.name ∨ ∃ other ∈ groups, group.name = other.name := by
  induction groups with
  | nil =>
      rw [insert, List.mem_singleton] at group_mem
      exact .inl (congrArg FieldGroup.name group_mem)
  | cons first later ih =>
      rw [insert] at group_mem
      split at group_mem
      · rename_i same
        rcases List.mem_cons.mp group_mem with rfl | rest
        · exact .inl same.symm
        · exact .inr ⟨group, List.mem_cons_of_mem first rest, rfl⟩
      · split at group_mem
        · rcases List.mem_cons.mp group_mem with rfl | rest
          · exact .inl rfl
          · exact .inr ⟨group, rest, rfl⟩
        · rcases List.mem_cons.mp group_mem with rfl | rest
          · exact .inr ⟨group, List.mem_cons_self, rfl⟩
          · rcases ih rest with own | ⟨other, other_mem, same⟩
            · exact .inl own
            · exact .inr ⟨other, List.mem_cons_of_mem first other_mem, same⟩

theorem Sorted.insert {groups : List FieldGroup} (sorted : Sorted groups) (field : Field) :
    Sorted (insert field groups) := by
  induction groups with
  | nil => exact List.pairwise_singleton _ _
  | cons first later ih =>
      have sortedLater : Sorted later := List.Pairwise.of_cons sorted
      have ahead : ∀ other ∈ later, first.name < other.name := (List.pairwise_cons.mp sorted).1
      rw [FieldGroup.insert]
      split
      · exact List.pairwise_cons.mpr ⟨ahead, sortedLater⟩
      · rename_i differ
        split
        · rename_i before
          apply List.pairwise_cons.mpr
          refine ⟨?_, sorted⟩
          intro other other_mem
          rcases List.mem_cons.mp other_mem with rfl | other_mem
          · exact before
          · exact List.lt_trans before (ahead other other_mem)
        · rename_i notBefore
          apply List.pairwise_cons.mpr
          refine ⟨?_, ih sortedLater⟩
          intro other other_mem
          have after : first.name < field.name := by
            rcases Std.lt_trichotomy field.name first.name with below | same | above
            · exact absurd below notBefore
            · exact absurd same differ
            · exact above
          rcases name_mem_insert other_mem with own | ⟨group, group_mem, same⟩
          · rw [own]
            exact after
          · rw [same]
            exact ahead group group_mem

theorem valuesOf_eq_nil {name : Bytes} {groups : List FieldGroup}
    (absent : ∀ group ∈ groups, group.name ≠ name) : valuesOf name groups = [] := by
  have none : groups.find? (·.name = name) = none := by
    apply List.find?_eq_none.mpr
    intro group group_mem
    simpa using absent group group_mem
  rw [valuesOf, none]
  rfl

theorem valuesOf_cons (name : Bytes) (group : FieldGroup) (later : List FieldGroup) :
    valuesOf name (group :: later)
      = if group.name = name then group.values else valuesOf name later := by
  by_cases here : group.name = name
  · simp [valuesOf, here]
  · simp [valuesOf, here]

/-- A new value comes last among those of its name. -/
theorem valuesOf_insert {groups : List FieldGroup} (sorted : Sorted groups) (field : Field)
    (name : Bytes) :
    valuesOf name (insert field groups) = valuesOf name groups ++ ownValues name field := by
  induction groups with
  | nil =>
      rw [insert, valuesOf_cons]
      rfl
  | cons first later ih =>
      have sortedLater : Sorted later := List.Pairwise.of_cons sorted
      have ahead : ∀ other ∈ later, first.name < other.name := (List.pairwise_cons.mp sorted).1
      rw [insert]
      split
      · rename_i same
        rw [valuesOf_cons, valuesOf_cons]
        by_cases here : first.name = name
        · simp [here, ownValues, same]
        · simp [here, ownValues, same]
      · rename_i differ
        split
        · rename_i before
          rw [valuesOf_cons]
          by_cases here : field.name = name
          · have absent : ∀ group ∈ first :: later, group.name ≠ name := by
              rintro group group_mem rfl
              rcases List.mem_cons.mp group_mem with rfl | group_mem
              · exact differ here
              · apply List.lt_irrefl field.name
                apply List.lt_trans before
                rw [here]
                exact ahead group group_mem
            simp [valuesOf_eq_nil absent, ownValues, here]
          · simp [ownValues, here]
        · rw [valuesOf_cons, valuesOf_cons, ih sortedLater]
          by_cases here : first.name = name
          · have notOwn : field.name ≠ name := by
              rintro rfl
              exact differ here.symm
            simp [here, ownValues, notOwn]
          · simp [here]

theorem valuesOf_foldl {groups : List FieldGroup} (sorted : Sorted groups) (fields : List Field)
    (name : Bytes) :
    valuesOf name (fields.foldl (fun groups field => insert field groups) groups)
      = valuesOf name groups ++ fields.flatMap (ownValues name) := by
  induction fields generalizing groups with
  | nil => exact (List.append_nil _).symm
  | cons field later ih =>
      rw [List.foldl_cons, ih (sorted.insert field), valuesOf_insert sorted, List.append_assoc]
      rfl

theorem flatMap_ownValues (fields : List Field) (name : Bytes) :
    fields.flatMap (ownValues name) = (fields.filter (·.name = name)).map Field.value := by
  induction fields with
  | nil => rfl
  | cons field later ih =>
      rw [List.flatMap_cons, ih]
      by_cases here : field.name = name
      · simp [ownValues, here]
      · simp [ownValues, here]

end FieldGroup

namespace Request

/-- The group of a name holds its values in order of arrival. -/
theorem valuesOf_fieldGroups (request : Request) (name : Bytes) :
    FieldGroup.valuesOf name request.fieldGroups
      = (request.fields.filter (·.name = name)).map Field.value := by
  have folded := FieldGroup.valuesOf_foldl List.Pairwise.nil request.fields name
  rw [FieldGroup.flatMap_ownValues] at folded
  exact folded

end Request

end Reassembly
