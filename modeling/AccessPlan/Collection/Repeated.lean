/-!
# Repetitions

`firstRepeated xs` is the first text of a list that also occurs before.

* `firstRepeated_eq_none`: there is none exactly when the texts are all different.
-/

namespace AccessPlan

/-- The first text that is among those seen before or is repeated. -/
def firstRepeatedAfter : (seen : List String) → List String → Option String
  | _, [] => none
  | seen, x :: xs => if x ∈ seen then some x else firstRepeatedAfter (x :: seen) xs

/-- The first text that also occurs before. -/
def firstRepeated (xs : List String) : Option String := firstRepeatedAfter [] xs

theorem firstRepeatedAfter_eq_none : ∀ {seen xs : List String},
    firstRepeatedAfter seen xs = none ↔ xs.Nodup ∧ ∀ x ∈ xs, x ∉ seen
  | _, [] => by simp [firstRepeatedAfter]
  | seen, x :: xs => by
    unfold firstRepeatedAfter
    split
    · rename_i h
      simp [h]
    · rename_i h
      rw [firstRepeatedAfter_eq_none, List.nodup_cons]
      constructor
      · rintro ⟨hn, hx⟩
        refine ⟨⟨fun hm => hx x hm List.mem_cons_self, hn⟩, fun y hy => ?_⟩
        rcases List.mem_cons.1 hy with rfl | hy
        · exact h
        · exact fun hs => hx y hy (List.mem_cons_of_mem _ hs)
      · rintro ⟨⟨hx, hn⟩, hs⟩
        refine ⟨hn, fun y hy hm => ?_⟩
        rcases List.mem_cons.1 hm with rfl | hm
        · exact hx hy
        · exact hs y (List.mem_cons_of_mem _ hy) hm

/-- No text is repeated exactly when the texts are all different. -/
theorem firstRepeated_eq_none {xs : List String} : firstRepeated xs = none ↔ xs.Nodup := by
  simp [firstRepeated, firstRepeatedAfter_eq_none]

end AccessPlan
