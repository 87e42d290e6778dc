/-!
# Finite tables

A table maps finitely many keys to values. It is a list of entries in which no key occurs
twice, so an entry that is erased leaves nothing behind. `Table.get?` is the view of a table
that the lemmas are about: they say what is found after a key is set or erased.
-/

namespace Reassembly

/-- A finite map from keys to values. -/
structure Table (Key Value : Type) where
  entries : List (Key × Value)
  keys_nodup : (entries.map Prod.fst).Nodup
  deriving DecidableEq, Repr

namespace Table

variable {Key Value : Type}

def empty : Table Key Value where
  entries := []
  keys_nodup := List.nodup_nil

def values (table : Table Key Value) : List Value := table.entries.map Prod.snd

variable [DecidableEq Key]

def get? (table : Table Key Value) (key : Key) : Option Value :=
  (table.entries.find? (·.1 = key)).map Prod.snd

/-- Removes a key and its value. -/
def erase (table : Table Key Value) (key : Key) : Table Key Value where
  entries := table.entries.filter (·.1 ≠ key)
  keys_nodup := table.keys_nodup.sublist (List.filter_sublist.map _)

/-- Gives a key a value, in the place of any earlier one. -/
def set (table : Table Key Value) (key : Key) (value : Value) : Table Key Value where
  entries := (key, value) :: (table.erase key).entries
  keys_nodup := by
    rw [List.map_cons, List.nodup_cons]
    exact ⟨by simp [erase], (table.erase key).keys_nodup⟩

@[simp]
theorem get?_empty (key : Key) : (empty : Table Key Value).get? key = none := rfl

@[simp]
theorem get?_erase_self (table : Table Key Value) (key : Key) :
    (table.erase key).get? key = none := by
  simp [get?, erase]

theorem get?_erase_of_ne (table : Table Key Value) {key other : Key} (differ : other ≠ key) :
    (table.erase key).get? other = table.get? other := by
  have same (entry : Key × Value) : (entry.1 ≠ key ∧ entry.1 = other) ↔ entry.1 = other :=
    ⟨And.right, fun found => ⟨found ▸ differ, found⟩⟩
  simp only [get?, erase, List.find?_filter, decide_eq_true_eq, same]

@[simp]
theorem get?_set_self (table : Table Key Value) (key : Key) (value : Value) :
    (table.set key value).get? key = some value := by
  simp [get?, set]

theorem get?_set_of_ne (table : Table Key Value) {key other : Key} (value : Value)
    (differ : other ≠ key) : (table.set key value).get? other = table.get? other := by
  rw [← get?_erase_of_ne table differ]
  simp [get?, set, Ne.symm differ]

end Table

end Reassembly
