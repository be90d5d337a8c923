import AccessPlan.Proofs.Collection.Order
import Mathlib.Data.Finset.Card
import Mathlib.Data.List.Induction

/-!
# Lists without their repetitions

* `eraseDups_concat`: one more item at the end is left if it is a new one.
* `pairwise_idxOf_eraseDups`: what is left stands in the order in which it comes first.
* `eraseDups_map`, `length_eraseDups_map_eq_iff`: a map leaves as many different items as there are exactly if
  different items stay different.
-/

namespace AccessPlan

variable {α β : Type} [BEq α] [LawfulBEq α] [BEq β] [LawfulBEq β]

theorem eraseDups_concat (xs : List α) (x : α) :
    (xs ++ [x]).eraseDups = if x ∈ xs then xs.eraseDups else xs.eraseDups ++ [x] := by
  rw [List.eraseDups_append]
  by_cases h : x ∈ xs <;> simp [List.removeAll, List.eraseDups_cons, h]

/-- What is left of a list stands in the order in which it comes first. -/
theorem pairwise_idxOf_eraseDups (xs : List α) : xs.eraseDups.Pairwise fun a b => xs.idxOf a < xs.idxOf b := by
  induction xs using List.reverseRecOn with
  | nil => exact .nil
  | append_singleton xs x ih =>
    -- The item at the end does not change where the others come first.
    have hidx : ∀ a ∈ xs.eraseDups, (xs ++ [x]).idxOf a = xs.idxOf a := fun a ha =>
      List.idxOf_append_of_mem (List.mem_eraseDups.1 ha)
    have hxs : xs.eraseDups.Pairwise fun a b => (xs ++ [x]).idxOf a < (xs ++ [x]).idxOf b :=
      ih.imp_of_mem fun {a b} ha hb hlt => by rwa [hidx a ha, hidx b hb]
    rw [eraseDups_concat]
    split
    · exact hxs
    · have hx : x ∉ xs := ‹_›
      refine List.pairwise_append.2 ⟨hxs, List.pairwise_singleton _ _, fun a ha b hb => ?_⟩
      rw [List.mem_singleton.1 hb, hidx a ha, List.idxOf_append_of_notMem hx]
      exact Nat.lt_add_right _ (List.idxOf_lt_length_of_mem (List.mem_eraseDups.1 ha))

/-- Different items that stay different under a map are left by it one for one. -/
theorem eraseDups_map {f : α → β} {xs : List α} (h : ∀ x ∈ xs, ∀ y ∈ xs, f x = f y → x = y) :
    (xs.map f).eraseDups = xs.eraseDups.map f := by
  induction xs using List.reverseRecOn with
  | nil => rfl
  | append_singleton xs x ih =>
    have hmem : f x ∈ xs.map f ↔ x ∈ xs := by
      refine ⟨fun hm => ?_, List.mem_map_of_mem⟩
      obtain ⟨y, hy, hxy⟩ := List.mem_map.1 hm
      exact h y (List.mem_append_left _ hy) x (List.mem_append_right _ List.mem_cons_self) hxy ▸ hy
    rw [List.map_append, List.map_singleton, eraseDups_concat, eraseDups_concat,
      ih fun y hy z hz => h y (List.mem_append_left _ hy) z (List.mem_append_left _ hz)]
    simp only [hmem]
    split
    · rfl
    · rw [List.map_append, List.map_singleton]

theorem length_eraseDups [DecidableEq α] (xs : List α) : xs.eraseDups.length = xs.toFinset.card := by
  have hsame : xs.eraseDups.toFinset = xs.toFinset := by
    ext x
    simp
  rw [← hsame, List.toFinset_card_of_nodup (nodup_eraseDups xs)]

/-- As many different items are left by a map exactly if different items stay different. -/
theorem length_eraseDups_map_eq_iff {f : α → β} {xs : List α} :
    (xs.map f).eraseDups.length = xs.eraseDups.length ↔ ∀ x ∈ xs, ∀ y ∈ xs, f x = f y → x = y := by
  classical
  have himage : (xs.map f).toFinset = xs.toFinset.image f := by
    ext y
    simp
  rw [length_eraseDups, length_eraseDups, himage, Finset.card_image_iff]
  simp [Set.InjOn]

end AccessPlan
