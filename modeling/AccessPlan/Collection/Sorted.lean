/-!
# Lists in the order of their texts

Every list the library puts out is in ascending order of some text, compared code point by code point.

* `sortedBy key xs` orders records by their key and keeps the given order among equal keys.
* `sortedUnique xs` is the strictly ascending list of the texts that occur in `xs` (`mem_sortedUnique`,
  `pairwise_sortedUnique`): how often and in which order they occur is forgotten.
-/

namespace AccessPlan

/-- The items of `xs` in ascending order of their keys; items with equal keys stay in their given order. -/
def sortedBy {α : Type u} (key : α → String) (xs : List α) : List α :=
  xs.mergeSort fun a b => decide (key a ≤ key b)

/-- A text put at its place into a strictly ascending list; a text that is there already is not repeated. -/
def insertUnique (x : String) : List String → List String
  | [] => [x]
  | y :: ys => if x < y then x :: y :: ys else if x = y then y :: ys else y :: insertUnique x ys

/-- The texts that occur in `xs`, each once, in ascending order. -/
def sortedUnique (xs : List String) : List String :=
  xs.foldr insertUnique []

/-- Of two different texts one comes first. -/
theorem lt_of_not_lt_of_ne {x y : String} (h : ¬ x < y) (hne : x ≠ y) : y < x :=
  String.not_le.1 fun hle => hne (String.le_antisymm hle (String.not_lt.1 h))

theorem mem_insertUnique {x z : String} : ∀ {ys : List String}, z ∈ insertUnique x ys ↔ z = x ∨ z ∈ ys
  | [] => by simp [insertUnique]
  | y :: ys => by
    unfold insertUnique
    split
    · simp
    · split
      · rename_i h; subst h; simp
      · simp only [List.mem_cons, @mem_insertUnique x z ys]
        constructor <;> rintro (h | h | h) <;> simp [h]

/-- Insertion keeps a list strictly ascending. -/
theorem pairwise_insertUnique {x : String} : ∀ {ys : List String}, ys.Pairwise (· < ·) →
    (insertUnique x ys).Pairwise (· < ·)
  | [], _ => by simp [insertUnique]
  | y :: ys, h => by
    obtain ⟨hy, hys⟩ := List.pairwise_cons.1 h
    unfold insertUnique
    split
    · rename_i hxy
      refine List.pairwise_cons.2 ⟨?_, h⟩
      intro z hz
      rcases List.mem_cons.1 hz with rfl | hz
      · exact hxy
      · exact String.lt_trans hxy (hy z hz)
    · split
      · exact h
      · rename_i hxy hne
        refine List.pairwise_cons.2 ⟨?_, pairwise_insertUnique hys⟩
        intro z hz
        rcases mem_insertUnique.1 hz with rfl | hz
        · exact lt_of_not_lt_of_ne hxy hne
        · exact hy z hz

@[simp] theorem mem_sortedUnique {z : String} {xs : List String} : z ∈ sortedUnique xs ↔ z ∈ xs := by
  unfold sortedUnique
  induction xs with
  | nil => simp
  | cons x xs ih => simp [mem_insertUnique, ih]

theorem pairwise_sortedUnique (xs : List String) : (sortedUnique xs).Pairwise (· < ·) := by
  unfold sortedUnique
  induction xs with
  | nil => simp
  | cons x xs ih => exact pairwise_insertUnique ih

end AccessPlan
