import AccessPlan.Policy.Summary
import AccessPlan.Proofs.Hierarchy.Layers
import AccessPlan.Proofs.Role.Listing
import AccessPlan.Proofs.Schema.Reading

/-!
# A summary can always be made

`exists_ofHierarchy`: the hierarchy of a blueprint has a summary if its keys are different and roles are
listed for every persona in every environment. Below the root there are only groups of environments, below
these only groups of personas, and below these only groups of projects, so every group has the name that it is
shown under.
-/

namespace AccessPlan.PolicySummary

open Schema (Checked)

section Parts

variable {α : Type} {entries : List (Option String × α)}

/-- Entries that all have a name are named. -/
theorem exists_namedEntries (h : ∀ e ∈ entries, e.1.isSome = true) : ∃ es, namedEntries entries = .ok es := by
  have ha : entries.any (·.1.isNone) = false := by
    rw [List.any_eq_false]
    intro e he
    rw [← Option.not_isSome, h e he]
    decide
  rw [namedEntries, ha]
  exact ⟨_, rfl⟩

/-- What is named is what has a name. -/
theorem mem_namedEntries {named : List (String × α)} (h : namedEntries entries = .ok named) {e : String × α} :
    e ∈ named ↔ (some e.1, e.2) ∈ entries := by
  unfold namedEntries at h
  split at h
  · cases h
  · obtain rfl := Checked.ok.inj h
    rw [List.mem_filterMap]
    constructor
    · rintro ⟨⟨name, v⟩, hd, hname⟩
      obtain ⟨n, rfl, rfl⟩ := Option.map_eq_some_iff.1 hname
      exact hd
    · intro he
      exact ⟨_, he, rfl⟩

theorem map_fst_namedEntries {named : List (String × α)} (h : namedEntries entries = .ok named) :
    named.map (·.1) = (entries.map (·.1)).filterMap id := by
  unfold namedEntries at h
  split at h
  · cases h
  · obtain rfl := Checked.ok.inj h
    rw [List.map_filterMap, List.filterMap_map]
    apply List.filterMap_congr
    rintro ⟨name, v⟩ -
    cases name <;> rfl

theorem exists_all {α : Type} : ∀ {xs : List (Checked α)}, (∀ x ∈ xs, ∃ a, x = .ok a) → ∃ as, Checked.all xs = .ok as
  | [], _ => ⟨[], rfl⟩
  | x :: xs, h => by
    obtain ⟨a, rfl⟩ := h x List.mem_cons_self
    obtain ⟨as, has⟩ := exists_all fun y hy => h y (List.mem_cons_of_mem _ hy)
    rw [Checked.all, has]
    exact ⟨a :: as, rfl⟩

/-- The roles by resource type can be looked up for all types of the tables. -/
theorem exists_resourceTypeRolesOf (book : RoleBook String) (p : Persona) :
    ∃ m, resourceTypeRolesOf book p = .ok m := by
  have hl : ∀ t ∈ book.resourceTypes.names, ∃ y, (do return (t, ← book.resourceTypeRoles t p)) =
      Except.ok (ε := Failure) y := by
    intro t ht
    obtain ⟨roles, hr⟩ := RoleBook.exists_resourceTypeRoles_iff.2 (Or.inr ht : book.KnowsType t p)
    rw [hr]
    exact ⟨(t, roles), rfl⟩
  obtain ⟨listed, hlisted⟩ := exists_mapM_eq_ok_iff.2 hl
  have ht : ∀ x ∈ listed.map fun e => Prod.mk e.1 <$> (roleTexts e.2).under (.field e.1), ∃ a, x = .ok a := by
    intro x hx
    obtain ⟨e, -, rfl⟩ := List.mem_map.1 hx
    rw [roleTexts_texts]
    exact ⟨(e.1, e.2), rfl⟩
  obtain ⟨texts, htexts⟩ := exists_all ht
  rw [resourceTypeRolesOf, hlisted]
  show ∃ m, ((NameMap.ofList <$> (Checked.all (listed.map fun e => _)).under _).toExcept _) = .ok m
  rw [htexts]
  exact ⟨_, rfl⟩

end Parts

/-! ## Sections -/

section Sections

variable {b : Blueprint} {book : RoleBook String} {e : String} {p : Persona}

theorem mem_children {key : String} {g : Group} :
    g ∈ b.hierarchy.children key ↔ b.Makes g ∧ g.parentKey = some key := by
  rw [Hierarchy.children, Blueprint.groups_hierarchy, List.mem_filter, Blueprint.mem_groups_iff, decide_eq_true_eq]

section Found

variable {sections : List Section} (h : sectionsOf b.hierarchy book = .ok sections)
include h

/-- A section is that of a group below the root. -/
theorem exists_group_of_section {s : Section} (hs : s ∈ sections) :
    ∃ g ∈ b.hierarchy.children b.rootGroup.key, g.environment = some s.environment ∧ g.key = s.groupKey ∧
      entriesBelow b.hierarchy book g = .ok s.entries := by
  unfold sectionsOf at h
  simp only [Blueprint.root?_hierarchy] at h
  obtain ⟨found, hfound, h⟩ := bind_eq_ok.1 h
  obtain ⟨named, hnamed, h⟩ := bind_eq_ok.1 h
  rw [Checked.toExcept_eq_ok, Checked.under_eq_ok] at hnamed
  obtain rfl := Except.ok.inj h
  obtain ⟨e, he, rfl⟩ := List.mem_map.1 hs
  obtain ⟨g, hg, hsection⟩ := (mem_of_mapM_eq_ok hfound).1 ((mem_namedEntries hnamed).1 he)
  obtain ⟨entries, hentries, hsection⟩ := bind_eq_ok.1 hsection
  obtain ⟨henvironment, hrest⟩ := Prod.mk.inj (Except.ok.inj hsection)
  obtain ⟨hkey, hvalue⟩ := Prod.mk.inj hrest
  exact ⟨g, mem_sortedBy.1 hg, henvironment, hkey, hvalue ▸ hentries⟩

/-- The sections are those of the groups below the root that are of an environment, one for each. -/
theorem map_environment_sections : sections.map (·.environment) =
    (sortedBy Group.key (b.hierarchy.children b.rootGroup.key)).filterMap Group.environment := by
  unfold sectionsOf at h
  simp only [Blueprint.root?_hierarchy] at h
  obtain ⟨found, hfound, h⟩ := bind_eq_ok.1 h
  obtain ⟨named, hnamed, h⟩ := bind_eq_ok.1 h
  rw [Checked.toExcept_eq_ok, Checked.under_eq_ok] at hnamed
  obtain rfl := Except.ok.inj h
  have hnames : found.map (·.1) =
      (sortedBy Group.key (b.hierarchy.children b.rootGroup.key)).map Group.environment := by
    apply map_of_mapM_eq_ok _ hfound
    intro g s hg
    obtain ⟨entries, -, hg⟩ := bind_eq_ok.1 hg
    rw [← Except.ok.inj hg]
  rw [List.map_map]
  show named.map (·.1) = _
  rw [map_fst_namedEntries hnamed, hnames, List.filterMap_map]
  rfl

end Found

variable (hn : (b.groups.map Group.key).Nodup)
include hn

theorem exists_projectsOf (he : e ∈ b.environments) :
    ∃ m, projectsOf b.hierarchy (b.personaGroup e p) = .ok m := by
  have hnamed : ∀ x ∈ (sortedBy Group.key (b.hierarchy.children (b.personaGroup e p).key)).map fun g =>
      (g.project, g.key), x.1.isSome = true := by
    intro x hx
    obtain ⟨g, hg, rfl⟩ := List.mem_map.1 hx
    obtain ⟨hm, hp⟩ := mem_children.1 (mem_sortedBy.1 hg)
    obtain ⟨q, -, rfl⟩ := Blueprint.project_of_parent hn he hm hp
    rfl
  obtain ⟨es, hes⟩ := exists_namedEntries hnamed
  rw [projectsOf, hes]
  exact ⟨_, rfl⟩

theorem exists_entryOf (he : e ∈ b.environments) (hl : (book.listed? e p).isSome = true) :
    ∃ entry, entryOf b.hierarchy book (some e) (b.personaGroup e p) = .ok entry := by
  obtain ⟨roles, hr⟩ := RoleBook.exists_environmentRoles_iff.2 hl
  obtain ⟨projects, hp⟩ := exists_projectsOf hn he (p := p)
  refine ⟨⟨e, b.personaGroup e p, p, roles, projects⟩, ?_⟩
  unfold entryOf
  simp only [Blueprint.personaGroup] at hp ⊢
  rw [hr]
  simp only [bind, Except.bind, roleTexts_texts, hp]
  rfl

/-- The sections of the hierarchy of a blueprint. -/
theorem exists_sectionsOf (hl : ∀ e ∈ b.environments, ∀ p, (book.listed? e p).isSome = true) :
    ∃ sections, sectionsOf b.hierarchy book = .ok sections := by
  have hchild : ∀ g ∈ sortedBy Group.key (b.hierarchy.children b.rootGroup.key), ∃ e ∈ b.environments,
      g = b.environmentGroup e := fun g hg => by
    obtain ⟨hm, hp⟩ := mem_children.1 (mem_sortedBy.1 hg)
    exact Blueprint.environment_of_parent hn hm hp
  have hsection : ∀ g ∈ sortedBy Group.key (b.hierarchy.children b.rootGroup.key), ∃ y,
      (do return (g.environment, g.key, ← entriesBelow b.hierarchy book g)) = Except.ok (ε := Failure) y := by
    intro g hg
    obtain ⟨e, he, rfl⟩ := hchild g hg
    have hentries : ∃ es, entriesBelow b.hierarchy book (b.environmentGroup e) = .ok es := by
      refine exists_mapM_eq_ok_iff.2 fun g' hg' => ?_
      obtain ⟨hm, hp⟩ := mem_children.1 hg'
      obtain ⟨p, rfl⟩ := Blueprint.persona_of_parent hn he hm hp
      exact exists_entryOf hn he (hl e he p)
    obtain ⟨es, hes⟩ := hentries
    rw [hes]
    exact ⟨_, rfl⟩
  obtain ⟨sections, hs⟩ := exists_mapM_eq_ok_iff.2 hsection
  have hnamed : ∀ s ∈ sections, s.1.isSome = true := by
    have hm := map_of_mapM_eq_ok (g := fun s : Option String × String × List Entry => s.1) (k := Group.environment)
      (fun g s h => by
        obtain ⟨es, -, h⟩ := bind_eq_ok.1 h
        rw [← Except.ok.inj h]) hs
    intro s hs
    have hmem : s.1 ∈ sections.map (·.1) := List.mem_map_of_mem hs
    rw [hm] at hmem
    obtain ⟨g, hg, he⟩ := List.mem_map.1 hmem
    obtain ⟨e, -, rfl⟩ := hchild g hg
    rw [← he]
    rfl
  obtain ⟨named, hnamed⟩ := exists_namedEntries hnamed
  unfold sectionsOf
  simp only [Blueprint.root?_hierarchy]
  rw [hs]
  simp only [bind, Except.bind, hnamed]
  exact ⟨_, rfl⟩

/-- The hierarchy of a blueprint has a summary. -/
theorem exists_ofHierarchy (hl : ∀ e ∈ b.environments, ∀ p, (book.listed? e p).isSome = true) :
    ∃ summary, ofHierarchy b.hierarchy book = .ok summary := by
  have ht : ∀ p ∈ Persona.all, ∃ y, (do return (p, ← resourceTypeRolesOf book p)) = Except.ok (ε := Failure) y := by
    intro p _
    obtain ⟨m, hm⟩ := exists_resourceTypeRolesOf book p
    rw [hm]
    exact ⟨_, rfl⟩
  obtain ⟨typeRoles, hr⟩ := exists_mapM_eq_ok_iff.2 ht
  obtain ⟨sections, hs⟩ := exists_sectionsOf hn hl
  rw [ofHierarchy, hr]
  simp only [bind, Except.bind, hs]
  exact ⟨_, rfl⟩

end Sections

end AccessPlan.PolicySummary
