import AccessPlan.Proofs.Hierarchy.Keys
import AccessPlan.Proofs.Policy.Documents
import AccessPlan.Proofs.Policy.Summary
import AccessPlan.Proofs.Schema.Reading
import AccessPlan.Proofs.Text.Whole

/-!
# The names that a summary shows

The sections of a summary are named after the environments of the blueprint, and the projects in them are those of the
blueprint (`isWithin_of_mem_sectionsOf`). Names of environments and projects are ASCII texts, so they are shown as they
are (`hasWholeNames_of_ofHierarchy`). Resource types may have any name: each persona is shown with those of the tables
(`names_of_resourceTypeRolesOf`).
-/

namespace AccessPlan

open Schema (Checked)

/-! ## Names are ASCII texts -/

theorem isWhole_of_isAscii {s : String} (h : Text.IsAscii s.toList) : Text.isWhole s = true := by
  rw [Text.isWhole, Text.signs, Text.any_isHalf_ascii h]
  rfl

theorem lt_of_isNameChar {c : Char} (h : isNameChar c = true) : c.toNat < 128 := by
  rw [isNameChar, isLowerOrDigit, Bool.or_eq_true, Bool.or_eq_true] at h
  rcases h with (h | h) | h
  · have hz : c.toNat ≤ 'z'.toNat := of_decide_eq_true (Bool.and_eq_true_iff.1 h).2
    exact Nat.lt_of_le_of_lt hz (by decide)
  · have hnine : c.toNat ≤ '9'.toNat := of_decide_eq_true (Bool.and_eq_true_iff.1 h).2
    exact Nat.lt_of_le_of_lt hnine (by decide)
  · rw [eq_of_beq h]
    decide

theorem IsName.isAscii {name : String} (h : IsName name) : Text.IsAscii name.toList := by
  obtain ⟨first, rest, hf, hr, hn⟩ := h
  have hfirst : first.toNat < 128 := lt_of_isNameChar (by rw [isNameChar, hf, Bool.true_or])
  have hchars : Text.IsAscii (first :: rest) := .cons hfirst fun c hc => lt_of_isNameChar (hr c hc)
  rcases hn with hn | hn
  · rwa [hn]
  · rw [hn]
    exact hchars.append (by decide)

namespace PolicySummary

variable {b : Blueprint} {book : RoleBook String}

/-! ## Sections -/

/-- The entry is of an environment of the blueprint, and so are its projects. -/
structure Entry.IsWithin (b : Blueprint) (x : Entry) : Prop where
  environment : x.environment ∈ b.environments
  projects : ∀ e ∈ x.projects.entries, e.1 ∈ b.projects

structure Section.IsWithin (b : Blueprint) (s : Section) : Prop where
  environment : s.environment ∈ b.environments
  entries : ∀ x ∈ s.entries, x.IsWithin b

theorem makes_of_mem_children {key : String} {g : Group} (h : g ∈ b.hierarchy.children key) : b.Makes g :=
  (mem_children.1 h).1

/-- The projects below a group are those of the blueprint. -/
theorem mem_projects_of_projectsOf {g : Group} {projects : NameMap String}
    (h : projectsOf b.hierarchy g = .ok projects) {e : String × String} (he : e ∈ projects.entries) :
    e.1 ∈ b.projects := by
  obtain ⟨named, hnamed, rfl⟩ := Checked.map_eq_ok.1 h
  obtain ⟨p, hp, hproject⟩ := List.mem_map.1 ((mem_namedEntries hnamed).1 (NameMap.mem_ofList he))
  have hm := makes_of_mem_children (mem_sortedBy.1 hp)
  exact (hm.mem_projects (Prod.mk.inj hproject).1).2

theorem isWithin_of_entryOf {g : Group} {name : String} {x : Entry} (hn : name ∈ b.environments)
    (h : entryOf b.hierarchy book (some name) g = .ok x) : x.IsWithin b := by
  unfold entryOf at h
  split at h
  · obtain ⟨roles, -, h⟩ := bind_eq_ok.1 h
    rw [Checked.toExcept_eq_ok] at h
    obtain ⟨make, projects, hmake, hprojects, rfl⟩ := Checked.seq_eq_ok.1 h
    obtain ⟨texts, -, rfl⟩ := Checked.map_eq_ok.1 hmake
    rw [Checked.under_eq_ok] at hprojects
    exact ⟨hn, fun e he => mem_projects_of_projectsOf hprojects he⟩
  · cases h

/-- The sections of a summary are those of environments of the blueprint. -/
theorem isWithin_of_mem_sectionsOf {sections : List Section} (h : sectionsOf b.hierarchy book = .ok sections) :
    ∀ s ∈ sections, s.IsWithin b := by
  intro s hs
  obtain ⟨g, hg, henvironment, -, hentries⟩ := exists_group_of_section h hs
  have hname : s.environment ∈ b.environments := (makes_of_mem_children hg).mem_environments henvironment
  refine ⟨hname, fun x hx => ?_⟩
  rw [entriesBelow, henvironment] at hentries
  obtain ⟨g', -, hx⟩ := (mem_of_mapM_eq_ok hentries).1 hx
  exact isWithin_of_entryOf hname hx

/-! ## Resource types -/

theorem all_map_ok {α β : Type} (f : α → β) (xs : List α) :
    Checked.all (xs.map fun x => .ok (f x)) = .ok (xs.map f) := by
  induction xs with
  | nil => rfl
  | cons x xs ih =>
    rw [List.map_cons, Checked.all, ih]
    rfl

/-- A persona is shown with the resource types of the tables. -/
theorem names_of_resourceTypeRolesOf {p : Persona} {m : NameMap (List String)}
    (h : resourceTypeRolesOf book p = .ok m) {name : String} : name ∈ m.names ↔ name ∈ book.resourceTypes.names := by
  obtain ⟨listed, hlisted, h⟩ := bind_eq_ok.1 h
  have hnames : listed.map (·.1) = book.resourceTypes.names := by
    refine (map_of_mapM_eq_ok (k := id) (fun t y hy => ?_) hlisted).trans (List.map_id _)
    obtain ⟨roles, -, hy⟩ := bind_eq_ok.1 hy
    rw [← Except.ok.inj hy]
    rfl
  simp only [roleTexts_texts, Checked.under_ok, Checked.map_ok, all_map_ok, Checked.toExcept_eq_ok] at h
  rw [← Checked.ok.inj h, NameMap.mem_names_ofList, List.map_id'' fun _ => rfl, hnames]

/-! ## The whole summary -/

section Whole

variable {summary : PolicySummary} (h : ofHierarchy b.hierarchy book = .ok summary)
include h

/-- The names of environments, personas and projects are shown as they are. -/
theorem hasWholeNames_of_ofHierarchy (he : ∀ e ∈ b.environments, IsName e) (hq : ∀ q ∈ b.projects, IsName q) :
    summary.HasWholeNames := by
  obtain ⟨typeRoles, -, h⟩ := bind_eq_ok.1 h
  obtain ⟨sections, hs, h⟩ := bind_eq_ok.1 h
  obtain rfl := Except.ok.inj h
  have hwithin := isWithin_of_mem_sectionsOf hs
  have hname : ∀ {n : String}, IsName n → Text.isWhole n = true := fun hn => isWhole_of_isAscii hn.isAscii
  have hpersona : ∀ p : Persona, Text.isWhole p.name = true := by decide
  constructor
  · intro e hm
    obtain ⟨s, hs, rfl⟩ := List.mem_map.1 (NameMap.mem_ofList hm)
    exact hname (he _ (hwithin s hs).environment)
  · intro e hm
    obtain ⟨s, hs, rfl⟩ := List.mem_map.1 (NameMap.mem_ofList hm)
    refine ⟨fun e hm => ?_, fun e hm d hd => ?_⟩
    · obtain ⟨x, -, rfl⟩ := List.mem_map.1 (NameMap.mem_ofList hm)
      exact hpersona x.persona
    · obtain ⟨x, hx, rfl⟩ := List.mem_map.1 (NameMap.mem_ofList hm)
      exact hname (hq _ (((hwithin s hs).entries x hx).projects d hd))
  · intro e hm
    obtain ⟨d, -, rfl⟩ := List.mem_map.1 (NameMap.mem_ofList hm)
    exact hpersona d.1
  · intro e hm d hd
    obtain ⟨t, -, rfl⟩ := List.mem_map.1 (NameMap.mem_ofList hm)
    obtain ⟨x, hx, rfl⟩ := List.mem_map.1 (NameMap.mem_ofList hd)
    obtain ⟨s, hs, hxs⟩ := List.mem_flatMap.1 (List.mem_filter.1 hx).1
    exact hname (he _ ((hwithin s hs).entries x hxs).environment)

/-- The summary is shown as it is exactly if the names of the resource types of the tables are whole. -/
theorem shown_eq_self_iff_of_ofHierarchy :
    summary.shown = summary ↔ ∀ t ∈ book.resourceTypes.names, Text.isWhole t = true := by
  obtain ⟨typeRoles, ht, h⟩ := bind_eq_ok.1 h
  obtain ⟨sections, -, h⟩ := bind_eq_ok.1 h
  obtain rfl := Except.ok.inj h
  have hwhole : ∀ d ∈ typeRoles, d.2.IsWhole ↔ ∀ t ∈ book.resourceTypes.names, Text.isWhole t = true := by
    intro d hd
    obtain ⟨p, -, hp⟩ := (mem_of_mapM_eq_ok ht).1 hd
    obtain ⟨m, hm, hp⟩ := bind_eq_ok.1 hp
    rw [← Except.ok.inj hp, NameMap.isWhole_iff]
    exact forall_congr' fun t => imp_congr_left (names_of_resourceTypeRolesOf hm)
  rw [shown_eq_self_iff]
  constructor
  · -- every persona is shown with all types, so one of them tells
    intro h
    obtain ⟨m, hm⟩ := exists_resourceTypeRolesOf book .admin
    have hd : (Persona.admin, m) ∈ typeRoles := (mem_of_mapM_eq_ok ht).2 ⟨.admin, Persona.mem_all _, by rw [hm]; rfl⟩
    have hn : Persona.admin.name ∈ (ofSections typeRoles sections).byPersona.names := by
      rw [ofSections, NameMap.mem_names_ofList, List.map_map]
      exact List.mem_map.2 ⟨_, hd, rfl⟩
    obtain ⟨v, hv⟩ := NameMap.mem_names.1 hn
    obtain ⟨d, hd', he⟩ := List.mem_map.1 (NameMap.mem_ofList hv)
    obtain rfl := (Prod.mk.inj he).2
    exact (hwhole d hd').1 (h _ hv)
  · intro h e he
    obtain ⟨d, hd, rfl⟩ := List.mem_map.1 (NameMap.mem_ofList he)
    exact (hwhole d hd).2 h

end Whole

end PolicySummary

end AccessPlan
