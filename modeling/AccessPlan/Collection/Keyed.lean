/-!
# Entries in the order of their coming

A list of entries binds keys to values in the order in which the keys came first. A key that comes again keeps its
place and takes the new value.

* `lookup_withEntry`: the key is bound to the new value, and every other key as before.
-/

namespace AccessPlan

variable {κ α : Type} [BEq κ]

/-- The entries with one more at the end; an entry of the same key keeps its place and takes the new value. -/
def withEntry (entries : List (κ × α)) (key : κ) (value : α) : List (κ × α) :=
  if entries.any (·.1 == key) then entries.map fun e => if e.1 == key then (e.1, value) else e
  else entries ++ [(key, value)]

variable [LawfulBEq κ]

theorem lookup_map_replace (key k : κ) (value : α) : ∀ {entries : List (κ × α)}, (entries.any (·.1 == key)) = true →
    (entries.map fun e => if e.1 == key then (e.1, value) else e).lookup k =
      if k == key then some value else entries.lookup k
  | [], h => by simp at h
  | (a, b) :: es, h => by
    by_cases ha : a = key
    · subst ha
      by_cases hk : k = a
      · simp [hk]
      · simp only [List.map_cons, beq_self_eq_true, if_true, List.lookup_cons, beq_eq_false_iff_ne.2 hk]
        cases he : es.any (·.1 == a) with
        | true => simpa [hk] using lookup_map_replace a k value he
        | false =>
          have hm : (es.map fun e => if e.1 == a then (e.1, value) else e) = es := by
            refine (List.map_congr_left fun e hm => ?_).trans (List.map_id es)
            have hf := List.any_eq_false.1 he e hm
            simp [hf]
          simp [hm]
    · have h' : (es.any (·.1 == key)) = true := by simpa [ha] using h
      by_cases hk : k = a
      · subst hk
        simp [ha]
      · simpa [ha, hk, List.lookup_cons, beq_eq_false_iff_ne.2 hk] using lookup_map_replace key k value h'

theorem lookup_append_of_not_any (key k : κ) (value : α) : ∀ {entries : List (κ × α)},
    (entries.any (·.1 == key)) = false →
      (entries ++ [(key, value)]).lookup k = if k == key then some value else entries.lookup k
  | [], _ => by cases h : k == key <;> simp [List.lookup_cons, h]
  | (a, b) :: es, h => by
    have hn : a ≠ key := by
      intro he
      simp [he] at h
    have h' : (es.any (·.1 == key)) = false := by
      rw [List.any_cons, Bool.or_eq_false_iff] at h
      exact h.2
    rw [List.cons_append, List.lookup_cons, List.lookup_cons, lookup_append_of_not_any key k value h']
    by_cases hk : k = a
    · subst hk
      simp [hn]
    · simp [beq_eq_false_iff_ne.2 hk]

/-- The key is bound to the new value, and every other key as before. -/
theorem lookup_withEntry (entries : List (κ × α)) (key k : κ) (value : α) :
    (withEntry entries key value).lookup k = if k == key then some value else entries.lookup k := by
  unfold withEntry
  split
  · exact lookup_map_replace key k value ‹_›
  · exact lookup_append_of_not_any key k value (Bool.eq_false_iff.2 ‹_›)

end AccessPlan
