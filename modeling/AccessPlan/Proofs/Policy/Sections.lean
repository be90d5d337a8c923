import AccessPlan.Proofs.Policy.Summary
import Mathlib.Data.List.Perm.Basic

/-!
# What the sections of a summary hold

The sections are found by looking for the groups below each group, and their roles are looked up again. In the
hierarchy of a blueprint this comes to the names that the hierarchy is made of: below the root stand the groups of the
environments, below each of these those of the four personas, and below these those of the projects
(`children_root`, `children_environment`, `children_persona`).

* `expectedEntry` is the entry of a persona in an environment, made of these names alone; `entryOf_personaGroup` says
  that it is what is found.
* `perm_environments`, `isOf_of_sectionsOf`: there is one section for each environment, with the four entries of it.
* `entries_perm`, `own_perm`: all entries, and those of one persona.
-/

namespace AccessPlan.PolicySummary

open Schema (Checked)

/-- The groups of the projects of a persona in an environment, by project. -/
def expectedProjects (b : Blueprint) (e : String) (p : Persona) : NameMap String :=
  .ofList ((b.projectsOf p).map fun q => (q, b.projectKey e p q))

/-- The entry of a persona in an environment of a blueprint. -/
def expectedEntry (b : Blueprint) (book : RoleBook String) (e : String) (p : Persona) : Entry where
  environment := e
  group := b.personaGroup e p
  persona := p
  roles := book.rolesIn e p
  projects := expectedProjects b e p

/-- The section of an environment of a blueprint, with its entries in any order. -/
structure Section.IsOf (b : Blueprint) (book : RoleBook String) (s : Section) : Prop where
  groupKey : s.groupKey = b.environmentKey s.environment
  entries : s.entries.Perm (Persona.all.map (expectedEntry b book s.environment))

/-! ## The groups below a group -/

section Children

variable {b : Blueprint} {e : String} {p : Persona} (hn : (b.groups.map Group.key).Nodup)
include hn

/-- The groups below a group are a list of groups, if they are the same ones. -/
theorem children_perm {key : String} {gs : List Group} (hgs : gs.Nodup)
    (h : ∀ g, b.Makes g ∧ g.parentKey = some key ↔ g ∈ gs) : (b.hierarchy.children key).Perm gs := by
  have hchildren : (b.hierarchy.children key).Nodup := (List.Nodup.of_map Group.key hn).filter _
  apply (List.perm_ext_iff_of_nodup hchildren hgs).2
  intro g
  rw [mem_children, h]

theorem children_root (hes : b.environments.Nodup) :
    (b.hierarchy.children b.rootGroup.key).Perm (b.environments.map b.environmentGroup) := by
  apply children_perm hn
  · exact hes.map fun _ _ h => Option.some.inj (congrArg Group.environment h)
  · intro g
    rw [List.mem_map]
    constructor
    · rintro ⟨hg, hp⟩
      obtain ⟨e, he, rfl⟩ := Blueprint.environment_of_parent hn hg hp
      exact ⟨e, he, rfl⟩
    · rintro ⟨e, he, rfl⟩
      exact ⟨.environment he, rfl⟩

theorem children_environment (he : e ∈ b.environments) :
    (b.hierarchy.children (b.environmentGroup e).key).Perm (Persona.all.map (b.personaGroup e)) := by
  have hall : Persona.all.Nodup := by decide
  apply children_perm hn
  · exact hall.map fun _ _ h => Option.some.inj (congrArg Group.persona h)
  · intro g
    rw [List.mem_map]
    constructor
    · rintro ⟨hg, hp⟩
      obtain ⟨p, rfl⟩ := Blueprint.persona_of_parent hn he hg hp
      exact ⟨p, p.mem_all, rfl⟩
    · rintro ⟨p, -, rfl⟩
      exact ⟨.persona he p, rfl⟩

theorem mem_children_persona (he : e ∈ b.environments) {g : Group} :
    g ∈ b.hierarchy.children (b.personaGroup e p).key ↔ ∃ q ∈ b.projectsOf p, g = b.projectGroup e p q := by
  rw [mem_children]
  constructor
  · rintro ⟨hg, hp⟩
    exact Blueprint.project_of_parent hn he hg hp
  · rintro ⟨q, hq, rfl⟩
    exact ⟨.project he hq, rfl⟩

end Children

/-! ## Entries -/

section Entries

variable {b : Blueprint} {book : RoleBook String} {e : String} {p : Persona}

/-- No project is bound to two keys. -/
theorem key_eq_of_mem {q key key' : String} (h : (q, key) ∈ (b.projectsOf p).map fun q => (q, b.projectKey e p q))
    (h' : (q, key') ∈ (b.projectsOf p).map fun q => (q, b.projectKey e p q)) : key = key' := by
  obtain ⟨_, -, hq⟩ := List.mem_map.1 h
  obtain ⟨_, -, hq'⟩ := List.mem_map.1 h'
  rw [← (Prod.mk.inj hq).2, ← (Prod.mk.inj hq').2, (Prod.mk.inj hq).1, (Prod.mk.inj hq').1]

theorem get?_expectedProjects {q key : String} :
    (expectedProjects b e p).get? q = some key ↔ q ∈ b.projectsOf p ∧ b.projectKey e p q = key := by
  rw [expectedProjects, NameMap.get?_ofList_eq_some_iff fun _ _ _ h h' => key_eq_of_mem h h', List.mem_map]
  constructor
  · rintro ⟨q', hq, heq⟩
    obtain ⟨rfl, rfl⟩ := Prod.mk.inj heq
    exact ⟨hq, rfl⟩
  · rintro ⟨hq, rfl⟩
    exact ⟨q, hq, rfl⟩

variable (hn : (b.groups.map Group.key).Nodup)
include hn

/-- The projects that are found below a persona group are those that it has groups for. -/
theorem projectsOf_personaGroup (he : e ∈ b.environments) :
    projectsOf b.hierarchy (b.personaGroup e p) = .ok (expectedProjects b e p) := by
  obtain ⟨projects, hprojects⟩ := exists_projectsOf hn he (p := p)
  rw [hprojects]
  obtain ⟨named, hnamed, rfl⟩ := Checked.map_eq_ok.1 hprojects
  have hmem : ∀ d, (d ∈ (b.projectsOf p).map fun q => (q, b.projectKey e p q)) ↔ d ∈ named := by
    rintro ⟨q, key⟩
    rw [mem_namedEntries hnamed, List.mem_map, List.mem_map]
    constructor
    · rintro ⟨q', hq', heq⟩
      obtain ⟨rfl, rfl⟩ := Prod.mk.inj heq
      exact ⟨b.projectGroup e p q', mem_sortedBy.2 ((mem_children_persona hn he).2 ⟨q', hq', rfl⟩), rfl⟩
    · rintro ⟨g, hg, heq⟩
      obtain ⟨q', hq', rfl⟩ := (mem_children_persona hn he).1 (mem_sortedBy.1 hg)
      obtain ⟨hq, rfl⟩ := Prod.mk.inj heq
      obtain rfl : q' = q := Option.some.inj hq
      exact ⟨q', hq', rfl⟩
  exact congrArg Checked.ok (NameMap.ofList_congr (fun _ _ _ h h' => key_eq_of_mem h h') hmem).symm

/-- What is found for a persona group. -/
theorem entryOf_personaGroup (he : e ∈ b.environments) (hl : (book.listed? e p).isSome = true) :
    entryOf b.hierarchy book (some e) (b.personaGroup e p) = .ok (expectedEntry b book e p) := by
  have hroles : book.environmentRoles (some e) p = .ok (book.rolesIn e p) :=
    RoleBook.environmentRoles_eq_ok_iff.2 ⟨hl, rfl⟩
  have hprojects := projectsOf_personaGroup (p := p) hn he
  unfold entryOf
  simp only [Blueprint.personaGroup] at hprojects ⊢
  rw [hroles]
  simp only [bind, Except.bind, roleTexts_texts, hprojects]
  rfl

/-- What is found below the group of an environment. -/
theorem entriesBelow_environmentGroup (he : e ∈ b.environments) (hl : ∀ p, (book.listed? e p).isSome = true)
    {entries : List Entry} (h : entriesBelow b.hierarchy book (b.environmentGroup e) = .ok entries) :
    entries.Perm (Persona.all.map (expectedEntry b book e)) := by
  have hchildren := children_environment hn he
  have hentry : ∀ g ∈ b.hierarchy.children (b.environmentGroup e).key, ∀ x,
      entryOf b.hierarchy book (some e) g = .ok x ↔ True ∧ x = expectedEntry b book e (g.persona.getD .admin) := by
    intro g hg x
    obtain ⟨p, -, rfl⟩ := List.mem_map.1 (hchildren.mem_iff.1 hg)
    rw [entryOf_personaGroup hn he (hl p), Except.ok.injEq, true_and, eq_comm]
    rfl
  obtain ⟨-, rfl⟩ := (mapM_eq_ok_iff hentry).1 h
  have hmap := hchildren.map fun g => expectedEntry b book e (g.persona.getD .admin)
  rwa [List.map_map] at hmap

end Entries

/-! ## Sections -/

section Sections

variable {b : Blueprint} {book : RoleBook String} {sections : List Section}
  (hn : (b.groups.map Group.key).Nodup) (hs : sectionsOf b.hierarchy book = .ok sections)
include hn hs

/-- Every section is that of its environment. -/
theorem isOf_of_sectionsOf (hl : ∀ e ∈ b.environments, ∀ p, (book.listed? e p).isSome = true) :
    ∀ s ∈ sections, s.IsOf b book := by
  intro s hsection
  obtain ⟨g, hg, henvironment, hkey, hentries⟩ := exists_group_of_section hs hsection
  obtain ⟨hm, hp⟩ := mem_children.1 hg
  obtain ⟨e, he, rfl⟩ := Blueprint.environment_of_parent hn hm hp
  obtain rfl : e = s.environment := Option.some.inj henvironment
  exact ⟨hkey.symm, entriesBelow_environmentGroup hn he (hl _ he) hentries⟩

/-- There is one section for each environment. -/
theorem perm_environments (hes : b.environments.Nodup) : (sections.map (·.environment)).Perm b.environments := by
  rw [map_environment_sections hs]
  have hp := ((sortedBy_perm Group.key _).trans (children_root hn hes)).filterMap Group.environment
  rwa [List.filterMap_map, show Group.environment ∘ b.environmentGroup = some from rfl, List.filterMap_some] at hp

variable (hes : b.environments.Nodup) (hl : ∀ e ∈ b.environments, ∀ p, (book.listed? e p).isSome = true)
include hes hl

/-- The entries of all sections are those of the personas in the environments. -/
theorem entries_perm : (sections.flatMap (·.entries)).Perm
    (b.environments.flatMap fun e => Persona.all.map (expectedEntry b book e)) := by
  have hsections : (sections.flatMap (·.entries)).Perm
      (sections.flatMap fun s => Persona.all.map (expectedEntry b book s.environment)) :=
    List.Perm.flatMap_left _ fun s hsection => (isOf_of_sectionsOf hn hs hl s hsection).entries
  refine hsections.trans ?_
  have henvironments := (perm_environments hn hs hes).flatMap_right
    fun e => Persona.all.map (expectedEntry b book e)
  rwa [List.flatMap_map] at henvironments

/-- The entries of one persona are those in the environments. -/
theorem own_perm (r : Persona) : ((sections.flatMap (·.entries)).filter fun x => x.persona = r).Perm
    (b.environments.map fun e => expectedEntry b book e r) := by
  have hone : ∀ e, (Persona.all.map (expectedEntry b book e)).filter (fun x => x.persona = r) =
      [expectedEntry b book e r] := by
    intro e
    cases r <;> rfl
  have hall : (b.environments.flatMap fun e => Persona.all.map (expectedEntry b book e)).filter
      (fun x => x.persona = r) = b.environments.map fun e => expectedEntry b book e r := by
    rw [List.filter_flatMap, List.map_eq_flatMap]
    simp only [hone]
  rw [← hall]
  exact (entries_perm hn hs hes hl).filter _

end Sections

/-! ## Views -/

/-- What is shown of a persona in an environment. -/
def Entry.shown (x : Entry) : PersonaGroupSummary := ⟨x.group.key, x.roles, x.projects⟩

section Views

variable {b : Blueprint} {book : RoleBook String} {summary : PolicySummary}

/-- A summary is made of the sections, and for all personas. -/
theorem exists_sections (h : ofHierarchy b.hierarchy book = .ok summary) :
    ∃ typeRoles sections, typeRoles.map (·.1) = Persona.all ∧ sectionsOf b.hierarchy book = .ok sections ∧
      ofSections typeRoles sections = summary := by
  obtain ⟨typeRoles, ht, h⟩ := bind_eq_ok.1 h
  obtain ⟨sections, hs, h⟩ := bind_eq_ok.1 h
  refine ⟨typeRoles, sections, ?_, hs, Except.ok.inj h⟩
  refine (map_of_mapM_eq_ok (k := id) (fun r d hd => ?_) ht).trans (List.map_id _)
  obtain ⟨roles, -, hd⟩ := bind_eq_ok.1 hd
  rw [← Except.ok.inj hd]
  rfl

variable (hn : (b.groups.map Group.key).Nodup) (hes : b.environments.Nodup)
  (hl : ∀ e ∈ b.environments, ∀ p, (book.listed? e p).isSome = true)
  (h : ofHierarchy b.hierarchy book = .ok summary)
include h

/-- The personas that are shown are the four. -/
theorem mem_names_byPersona {name : String} : name ∈ summary.byPersona.names ↔ ∃ r : Persona, r.name = name := by
  obtain ⟨typeRoles, sections, hpersonas, -, rfl⟩ := exists_sections h
  have hnames : typeRoles.map (fun d => d.1.name) = Persona.all.map Persona.name := by
    rw [← hpersonas, List.map_map]
    rfl
  rw [ofSections, NameMap.mem_names_ofList, List.map_map]
  show name ∈ typeRoles.map (fun d => d.1.name) ↔ _
  rw [hnames, List.mem_map]
  exact exists_congr fun r => and_iff_right r.mem_all

include hn hes

/-- The environments that are shown are those of the blueprint. -/
theorem mem_names_byEnvironment {e : String} : e ∈ summary.byEnvironment.names ↔ e ∈ b.environments := by
  obtain ⟨typeRoles, sections, -, hs, rfl⟩ := exists_sections h
  rw [ofSections, NameMap.mem_names_ofList, List.map_map, ← (perm_environments hn hs hes).mem_iff]
  rfl

include hl

/-- An environment is shown with its group and the four personas. -/
theorem get?_byEnvironment {e : String} {s : EnvironmentSummary} (he : summary.byEnvironment.get? e = some s) :
    e ∈ b.environments ∧ s.groupKey = b.environmentKey e ∧ ∀ name x, s.personas.get? name = some x ↔
      ∃ r : Persona, r.name = name ∧ (expectedEntry b book e r).shown = x := by
  obtain ⟨typeRoles, sections, -, hs, rfl⟩ := exists_sections h
  obtain ⟨sec, hsec, heq⟩ := List.mem_map.1 (NameMap.mem_ofList (NameMap.get?_eq_some_iff.1 he))
  obtain ⟨rfl, rfl⟩ := Prod.mk.inj heq
  obtain ⟨hkey, hentries⟩ := isOf_of_sectionsOf hn hs hl sec hsec
  have hmem : sec.environment ∈ b.environments :=
    (perm_environments hn hs hes).mem_iff.1 (List.mem_map_of_mem hsec)
  have hpersonas : ∀ name x, (name, x) ∈ sec.entries.map (fun d => (d.persona.name, d.shown)) ↔
      ∃ r : Persona, r.name = name ∧ (expectedEntry b book sec.environment r).shown = x := by
    intro name x
    rw [List.mem_map]
    constructor
    · rintro ⟨d, hd, hx⟩
      obtain ⟨r, -, rfl⟩ := List.mem_map.1 (hentries.mem_iff.1 hd)
      exact ⟨r, Prod.mk.inj hx⟩
    · rintro ⟨r, rfl, rfl⟩
      exact ⟨_, hentries.mem_iff.2 (List.mem_map_of_mem r.mem_all), rfl⟩
  refine ⟨hmem, hkey, fun name x => ?_⟩
  refine (NameMap.get?_ofList_eq_some_iff ?_).trans (hpersonas name x)
  intro name x y hx hy
  obtain ⟨r, rfl, rfl⟩ := (hpersonas _ x).1 hx
  obtain ⟨r', hname, rfl⟩ := (hpersonas _ y).1 hy
  rw [Persona.name_inj hname]

/-- A persona is shown with its groups and with its roles in every environment. -/
theorem get?_byPersona {r : Persona} {s : PersonaSummary} (hr : summary.byPersona.get? r.name = some s) :
    s.groups = sortedBy id (b.environments.map fun e => b.personaKey e r) ∧
      ∀ e roles, s.environmentRoles.get? e = some roles ↔ e ∈ b.environments ∧ book.rolesIn e r = roles := by
  obtain ⟨typeRoles, sections, -, hs, rfl⟩ := exists_sections h
  obtain ⟨d, -, heq⟩ := List.mem_map.1 (NameMap.mem_ofList (NameMap.get?_eq_some_iff.1 hr))
  obtain ⟨hname, rfl⟩ := Prod.mk.inj heq
  obtain rfl := Persona.name_inj hname
  have hown := own_perm hn hs hes hl d.1
  have hroles : ∀ e roles, (e, roles) ∈ ((sections.flatMap (·.entries)).filter fun x => x.persona = d.1).map
      (fun x => (x.environment, x.roles)) ↔ e ∈ b.environments ∧ book.rolesIn e d.1 = roles := by
    intro e roles
    rw [(hown.map _).mem_iff, List.map_map, List.mem_map]
    constructor
    · rintro ⟨e', he, hx⟩
      obtain ⟨rfl, rfl⟩ := Prod.mk.inj hx
      exact ⟨he, rfl⟩
    · rintro ⟨he, rfl⟩
      exact ⟨e, he, rfl⟩
  constructor
  · refine (sortedBy_eq_of_perm (hown.map fun x => x.group.key)).trans ?_
    rw [List.map_map]
    rfl
  · intro e roles
    refine (NameMap.get?_ofList_eq_some_iff ?_).trans (hroles e roles)
    intro e roles roles' hm hm'
    rw [← ((hroles e roles).1 hm).2, ← ((hroles e roles').1 hm').2]

/-- The privileged groups are those of the administrators in the environments. -/
theorem privilegedGroups_perm : summary.privilegedGroups.Perm
    (b.environments.map fun e => ⟨b.personaKey e .admin, e, book.rolesIn e .admin⟩) := by
  obtain ⟨typeRoles, sections, -, hs, rfl⟩ := exists_sections h
  -- in these entries the group is that of the persona
  have hfilter : (sections.flatMap (·.entries)).filter (fun x => x.group.isPrivileged) =
      (sections.flatMap (·.entries)).filter fun x => x.persona = .admin := by
    apply List.filter_congr
    intro x hx
    obtain ⟨e, -, hx⟩ := List.mem_flatMap.1 ((entries_perm hn hs hes hl).mem_iff.1 hx)
    obtain ⟨r, -, rfl⟩ := List.mem_map.1 hx
    cases r <;> rfl
  refine (sortedBy_perm _ _).trans ?_
  rw [hfilter]
  have hown := (own_perm hn hs hes hl .admin).map fun x => PrivilegedGroup.mk x.group.key x.environment x.roles
  rwa [List.map_map] at hown

/-- They are in the order of their keys. -/
theorem map_key_privilegedGroups :
    summary.privilegedGroups.map (·.key) = sortedBy id (b.environments.map fun e => b.personaKey e .admin) := by
  have hp := (privilegedGroups_perm hn hes hl h).map PrivilegedGroup.key
  rw [List.map_map] at hp
  obtain ⟨typeRoles, sections, -, hs, rfl⟩ := exists_sections h
  simp only [ofSections, privilegedView] at hp ⊢
  rw [map_key_sortedBy] at hp ⊢
  exact sortedBy_eq_of_perm ((sortedBy_perm id _).symm.trans hp)

end Views

end AccessPlan.PolicySummary
