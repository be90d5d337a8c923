import AccessPlan.Proofs.Hierarchy.Building

/-!
# The keys of groups and memberships

The key of a group is made of the prefix and of names, so its characters are theirs (`Makes.forall_mem_key`).
No slash stands in them, so the key of a membership tells both of its groups, and memberships have different
keys if groups do (`nodup_membershipKeys`).
-/

namespace AccessPlan

section Characters

variable {name org : String}

theorem slash_not_mem_of_isName (h : IsName name) : '/' ∉ name.toList := by
  obtain ⟨first, rest, hf, hr, hn⟩ := h
  have hm : '/' ∉ first :: rest := fun hm => by
    rcases List.mem_cons.1 hm with rfl | hm
    · exact absurd hf (by decide)
    · exact absurd (hr _ hm) (by decide)
  rcases hn with hn | hn
  · rwa [hn]
  · rw [hn, List.mem_append, not_or]
    exact ⟨hm, by decide⟩

theorem slash_not_mem_of_isPrefixText (h : isPrefixText org = true) : '/' ∉ org.toList := by
  simp only [isPrefixText, Bool.and_eq_true, List.all_eq_true] at h
  have hm : '/' ∉ withoutFinalBreak org.toList := fun hm => absurd (h.2 _ hm) (by decide)
  rcases eq_withoutFinalBreak org.toList with he | he
  · rwa [he]
  · rw [he, List.mem_append, not_or]
    exact ⟨hm, by decide⟩

theorem toList_groupKey (a b : String) : (groupKey [a, b]).toList = a.toList ++ '-' :: b.toList := by
  have hk : groupKey [a, b] = a ++ "-" ++ b := rfl
  simp [hk]

end Characters

namespace Blueprint

variable {b : Blueprint} {g : Group}

/-- What holds of the characters of all names and of those that names may have holds of the characters of
keys. -/
theorem Makes.forall_mem_key {P : Char → Prop} (hc : ∀ c, isNameChar c = true → P c) (ho : ∀ c ∈ b.org.toList, P c)
    (he : ∀ e ∈ b.environments, ∀ c ∈ e.toList, P c)
    (hq : b.projectGroups = true → ∀ q ∈ b.projects, ∀ c ∈ q.toList, P c) (h : b.Makes g) :
    ∀ c ∈ g.key.toList, P c := by
  have hjoin : ∀ {s t : String}, (∀ c ∈ s.toList, P c) → (∀ c ∈ t.toList, P c) →
      ∀ c ∈ (groupKey [s, t]).toList, P c := by
    intro s t hs ht c hm
    rw [toList_groupKey, List.mem_append, List.mem_cons] at hm
    rcases hm with hm | rfl | hm
    · exact hs c hm
    · exact hc '-' (by decide)
    · exact ht c hm
  have hlabel : ∀ p : Persona, ∀ c ∈ p.label.toList, P c := fun p c hm => by
    have hl : ∀ p ∈ Persona.all, p.label.toList.all isNameChar = true := by decide
    exact hc c (List.all_eq_true.1 (hl p p.mem_all) c hm)
  cases h with
  | root =>
    have hl : "org".toList.all isNameChar = true := by decide
    exact hjoin ho fun c hm => hc c (List.all_eq_true.1 hl c hm)
  | environment hm => exact hjoin ho (he _ hm)
  | persona hm p => exact hjoin (hjoin ho (he _ hm)) (hlabel p)
  | @project e q p hm hp =>
    obtain ⟨⟨hon, -⟩, hmem⟩ := mem_projectsOf.1 hp
    exact hjoin (hjoin (hjoin ho (he _ hm)) (hlabel p)) (hq hon _ hmem)

theorem mem_memberships {m : Membership} : m ∈ b.hierarchy.memberships ↔
    ∃ g, b.Makes g ∧ g.parentKey = some m.parentKey ∧ g.key = m.childKey := by
  simp only [hierarchy, Hierarchy.membershipsOf, List.mem_filterMap, Option.map_eq_some_iff, mem_groups_iff]
  constructor
  · rintro ⟨g, hg, key, hp, rfl⟩
    exact ⟨g, hg, hp, rfl⟩
  · rintro ⟨g, hg, hp, hk⟩
    exact ⟨g, hg, m.parentKey, hp, by rw [hk]⟩

/-- The keys of memberships are different if those of the groups are, and none of these has a slash. -/
theorem nodup_membershipKeys (hn : (b.groups.map Group.key).Nodup) (hs : ∀ g, b.Makes g → '/' ∉ g.key.toList) :
    (b.hierarchy.memberships.map Membership.key).Nodup := by
  have hchildren : (b.hierarchy.memberships.map Membership.childKey).Nodup := by
    have he : b.hierarchy.memberships.map Membership.childKey =
        (b.groups.filter fun g => g.parentKey.isSome).map Group.key := by
      simp only [hierarchy, Hierarchy.membershipsOf]
      induction b.groups with
      | nil => rfl
      | cons g gs ih => cases hp : g.parentKey <;> simp [hp, ih]
    rw [he]
    exact hn.sublist (List.filter_sublist.map Group.key)
  refine List.Nodup.map_on ?_ (List.Nodup.of_map _ hchildren)
  intro m hm m' hm' hk
  obtain ⟨g, hg, hp, -⟩ := mem_memberships.1 hm
  obtain ⟨g', hg', hp', -⟩ := mem_memberships.1 hm'
  obtain ⟨parent, hm₁, he₁⟩ := exists_parent hg hp
  obtain ⟨parent', hm₂, he₂⟩ := exists_parent hg' hp'
  obtain ⟨hparent, hchild⟩ := (append_slash_inj (he₁ ▸ hs _ hm₁) (he₂ ▸ hs _ hm₂)).1 hk
  cases m
  cases m'
  exact congrArg₂ Membership.mk hparent hchild

end Blueprint

end AccessPlan
