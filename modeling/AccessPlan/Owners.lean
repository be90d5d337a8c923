import AccessPlan.Collection.Sorted
import AccessPlan.PolicyError

/-!
# Owners

Records list their owners in ascending order, each once. Owners that have not been checked may be any values; a record
cannot have an owner that is no text.

* `ownersOf_texts`: owners that are texts are sorted.
-/

namespace AccessPlan

/-- The owners of a record of the given name, in ascending order. -/
def ownersOf (record : String) (values : List Json) : Except Failure (List String) :=
  match Json.texts? values with
  | some owners => .ok (sortedUnique owners)
  | none => do
    let values ← (Json.distinct values).mapError .misfit
    (Json.checkOrdered values).mapError .misfit
    (Schema.Reader.texts (.arr values)).toExcept fun faults =>
      .invalid record (faults.map (·.under (.field "owners")))

theorem texts?_map_str (xs : List String) : Json.texts? (xs.map .str) = some xs := by
  induction xs with
  | nil => rfl
  | cons x xs ih => simp [Json.texts?, ih]

/-- Owners that are texts are sorted. -/
@[simp] theorem ownersOf_texts (record : String) (owners : List String) :
    ownersOf record (owners.map .str) = .ok (sortedUnique owners) := by
  rw [ownersOf, texts?_map_str]

end AccessPlan
