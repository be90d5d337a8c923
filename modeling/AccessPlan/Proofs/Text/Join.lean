/-!
# Joined texts

Keys are texts joined by a hyphen or a slash. A slash that the first part does not hold is found again; a
hyphen may stand in either part.

* `append_slash_inj`: parts before a slash that hold none, and what follows it, are determined by the joined
  text.
* `hyphen_join_eq_iff`: two pairs of parts give one text exactly when they are the same, or the first part of
  one continues that of the other by a hyphen and a text that the other second part begins with.
-/

namespace AccessPlan

/-- A list before the first occurrence of a mark, and the rest, are determined by the whole. -/
theorem append_mark_inj {α : Type} {x : α} : ∀ {as bs as' bs' : List α}, x ∉ as → x ∉ as' →
    (as ++ x :: bs = as' ++ x :: bs' ↔ as = as' ∧ bs = bs')
  | [], bs, [], bs', _, _ => by simp
  | [], bs, a' :: as', bs', _, h' => by
    have hne : x ≠ a' := fun h => h' (h ▸ List.mem_cons_self)
    simp [hne]
  | a :: as, bs, [], bs', h, _ => by
    have hne : a ≠ x := fun h' => h (h' ▸ List.mem_cons_self)
    simp [hne]
  | a :: as, bs, a' :: as', bs', h, h' => by
    have ih : as ++ x :: bs = as' ++ x :: bs' ↔ as = as' ∧ bs = bs' :=
      append_mark_inj (fun hm => h (List.mem_cons_of_mem a hm)) fun hm => h' (List.mem_cons_of_mem a' hm)
    rw [List.cons_append, List.cons_append, List.cons.injEq, List.cons.injEq, ih, and_assoc]

/-- Parts before a slash that hold none, and what follows it, are determined by the joined text. -/
theorem append_slash_inj {a b a' b' : String} (h : '/' ∉ a.toList) (h' : '/' ∉ a'.toList) :
    a ++ "/" ++ b = a' ++ "/" ++ b' ↔ a = a' ∧ b = b' := by
  have hs : ∀ s t : String, (s ++ "/" ++ t).toList = s.toList ++ '/' :: t.toList := by simp
  rw [← String.toList_inj, hs, hs, append_mark_inj h h', String.toList_inj, String.toList_inj]

/-- A text does not continue itself by a hyphen. -/
theorem ne_append_hyphen {a s : String} : a ≠ a ++ "-" ++ s := by
  intro h
  have hlen := congrArg String.length h
  have hone : "-".length = 1 := rfl
  simp only [String.length_append] at hlen
  omega

/-- Of two pairs of lists that give one list, the first part of one continues that of the other. -/
theorem append_cons_eq_append_cons {α : Type} {x : α} {as bs as' bs' : List α}
    (h : as ++ x :: bs = as' ++ x :: bs') :
    (as = as' ∧ bs = bs') ∨ (∃ cs, as' = as ++ x :: cs ∧ bs = cs ++ x :: bs') ∨
      ∃ cs, as = as' ++ x :: cs ∧ bs' = cs ++ x :: bs := by
  rcases List.append_eq_append_iff.1 h with ⟨ds, rfl, hd⟩ | ⟨ds, rfl, hd⟩
  · cases ds with
    | nil => exact Or.inl ⟨by simp, by simpa using hd⟩
    | cons d ds =>
      obtain ⟨rfl, rfl⟩ := List.cons.inj hd
      exact Or.inr (Or.inl ⟨ds, rfl, rfl⟩)
  · cases ds with
    | nil => exact Or.inl ⟨by simp, by simpa using hd.symm⟩
    | cons d ds =>
      obtain ⟨rfl, rfl⟩ := List.cons.inj hd
      exact Or.inr (Or.inr ⟨ds, rfl, rfl⟩)

/-- Two pairs of parts give one text exactly when they are the same, or one first part continues the other. -/
theorem hyphen_join_eq_iff {a b a' b' : String} :
    a ++ "-" ++ b = a' ++ "-" ++ b' ↔ (a = a' ∧ b = b') ∨
      (∃ s, a' = a ++ "-" ++ s ∧ b = s ++ "-" ++ b') ∨ ∃ s, a = a' ++ "-" ++ s ∧ b' = s ++ "-" ++ b := by
  have hs : ∀ s t : String, (s ++ "-" ++ t).toList = s.toList ++ '-' :: t.toList := by simp
  constructor
  · intro h
    rw [← String.toList_inj, hs, hs] at h
    rcases append_cons_eq_append_cons h with ⟨ha, hb⟩ | ⟨cs, ha, hb⟩ | ⟨cs, ha, hb⟩
    · exact Or.inl ⟨String.toList_inj.1 ha, String.toList_inj.1 hb⟩
    · refine Or.inr (Or.inl ⟨String.ofList cs, ?_, ?_⟩) <;> rw [← String.toList_inj, hs, String.toList_ofList]
      · exact ha
      · exact hb
    · refine Or.inr (Or.inr ⟨String.ofList cs, ?_, ?_⟩) <;> rw [← String.toList_inj, hs, String.toList_ofList]
      · exact ha
      · exact hb
  · rintro (⟨rfl, rfl⟩ | ⟨s, rfl, rfl⟩ | ⟨s, rfl, rfl⟩) <;> simp only [String.append_assoc]

end AccessPlan
