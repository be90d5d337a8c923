import AccessPlan.Proofs.Policy.Acceptance
import AccessPlan.Proofs.Policy.Records
import AccessPlan.Proofs.Policy.Sections

/-!
# The summary agrees with the records

A summary is made from the hierarchy on a way of its own, and the assignments are made from the list of the persona
groups. Both come to the names of the blueprint, so what the summary shows can be compared with the records of the
policy: a view is right if it shows the keys of groups that are there and the roles that these are assigned
(`PolicyConfig.SummaryAgrees`).

* `filter_groups`: the groups of a policy with a property, from those that the blueprint makes.
* `rolesAt_perm`: the roles that a persona group is assigned at one place are the roles that are looked up for it. The
  place of an assignment is told by its tier and what its key has in front (`place_eq_of_isAt`).
* `summary_agrees`: the summary of every policy is right.
-/

namespace AccessPlan

/-! ## What a right summary shows -/

/-- The assignment is one at a place: it is of its tier, and its key begins with what the keys of the place have in
front. -/
def Assignment.IsAt (place : Place) (a : Assignment) : Prop :=
  a.tier = place.tier ∧ place.keyPrefix.toList <+: a.key.toList

instance {place : Place} : DecidablePred (Assignment.IsAt place) := fun _ => inferInstanceAs (Decidable (_ ∧ _))

namespace ResolvedPolicy

variable (p : ResolvedPolicy)

/-- The keys of the groups of an environment itself. -/
def environmentKeys (e : String) : List String :=
  (p.groups.filter fun g => g.level = .environment ∧ g.environment = some e).map Group.key

/-- The keys of the groups of a persona in an environment. -/
def personaKeys (e : String) (r : Persona) : List String :=
  (p.groups.filter fun g => g.level = .persona ∧ g.environment = some e ∧ g.persona = some r).map Group.key

/-- The keys of the groups of a persona in all environments. -/
def keysOfPersona (r : Persona) : List String :=
  (p.groups.filter fun g => g.level = .persona ∧ g.persona = some r).map Group.key

/-- What the group of a key is assigned at a place. -/
def assignmentsAt (place : Place) (key : String) : List Assignment :=
  p.assignments.filter fun a => a.principalKind = .group ∧ a.principalKey = key ∧ a.IsAt place

/-- What the summary shows of a persona in an environment. -/
def shown? (e : String) (r : Persona) : Option PersonaGroupSummary :=
  (p.summary.byEnvironment.get? e).bind fun s => s.personas.get? r.name

end ResolvedPolicy

section Shows

variable (config : PolicyConfig) (c : Context) (p : ResolvedPolicy)

/-- What is shown of a persona in an environment is right: its group, the groups of projects below this group, and the
roles that the group is assigned, at every place. -/
structure PersonaGroupSummary.Agrees (e : String) (r : Persona) (x : PersonaGroupSummary) : Prop where
  groupKey : p.personaKeys e r = [x.groupKey]
  projects : ∀ q key, x.projects.get? q = some key ↔
    ∃ g ∈ p.groups, g.level = .project ∧ g.parentKey = some x.groupKey ∧ g.project = some q ∧ g.key = key
  projects_eq_empty : r = .admin ∨ config.projectGroups = false → x.projects = .empty
  roles : ∀ place ∈ config.tierPlan.places, ((p.assignmentsAt place x.groupKey).map Assignment.role).Perm x.roles
  nodup_roles : x.roles.Nodup
  scope : ∀ place ∈ config.tierPlan.places, ∀ a ∈ p.assignmentsAt place x.groupKey,
    a.scope = config.tierPlan.scopeAt c place

/-- What is shown of an environment is right: its group and the four personas. -/
structure EnvironmentSummary.Agrees (e : String) (s : EnvironmentSummary) : Prop where
  groupKey : p.environmentKeys e = [s.groupKey]
  personas : ∀ name, name ∈ s.personas.names ↔ ∃ r : Persona, r.name = name
  entries : ∀ r x, s.personas.get? r.name = some x → x.Agrees config c p e r

/-- What is shown of a persona is right: the keys of all its groups in ascending order, and in every environment the
roles that are shown there. -/
structure PersonaSummary.Agrees (r : Persona) (s : PersonaSummary) : Prop where
  groups : s.groups = sortedBy id (p.keysOfPersona r)
  environments : ∀ e, e ∈ s.environmentRoles.names ↔ e ∈ config.environments
  roles : ∀ e roles, s.environmentRoles.get? e = some roles ↔ ∃ x, p.shown? e r = some x ∧ x.roles = roles

/-- The views of the summary are right. The privileged groups are those of the administrators, in the order of their
keys and with the roles that are shown for them, and no other group has one of these keys. -/
structure PolicyConfig.SummaryAgrees : Prop where
  environments : ∀ e, e ∈ p.summary.byEnvironment.names ↔ e ∈ config.environments
  byEnvironment : ∀ e s, p.summary.byEnvironment.get? e = some s → s.Agrees config c p e
  personas : ∀ name, name ∈ p.summary.byPersona.names ↔ ∃ r : Persona, r.name = name
  byPersona : ∀ r s, p.summary.byPersona.get? r.name = some s → s.Agrees config p r
  privilegedKeys : p.summary.privilegedGroups.map (·.key) = sortedBy id (p.keysOfPersona .admin)
  privilegedGroups : ∀ g ∈ p.summary.privilegedGroups, ∃ x, p.shown? g.environment .admin = some x ∧
    x.groupKey = g.key ∧ x.roles = g.roles
  privileged_only : ∀ g ∈ p.groups, g.key ∈ p.summary.privilegedGroups.map (·.key) →
    g.level = .persona ∧ g.persona = some .admin

end Shows

namespace PolicyConfig

variable {config : PolicyConfig} {context c : Context} {p : ResolvedPolicy} {records : List PrincipalRecords}

theorem IsBuildable.nodup_environments (hb : config.IsBuildable) : config.blueprint.environments.Nodup :=
  (sortedBy_perm _ _).nodup_iff.2 hb.environments.nodup

/-! ## Groups -/

namespace HasRecords

variable (hr : config.HasRecords c p records)
include hr

/-- The groups with a property are a list of groups, if they are the same ones. -/
theorem filter_groups {P : Group → Prop} [DecidablePred P] {gs : List Group} (hgs : gs.Nodup)
    (h : ∀ g, config.blueprint.Makes g ∧ P g ↔ g ∈ gs) : (p.groups.filter fun g => P g).Perm gs := by
  have hgroups : p.groups.Nodup := by
    rw [hr.groups]
    exact (sortedBy_perm _ _).nodup_iff.2 (List.Nodup.of_map Group.key hr.buildable.keys)
  apply (List.perm_ext_iff_of_nodup (hgroups.filter _) hgs).2
  intro g
  rw [List.mem_filter, decide_eq_true_eq, hr.mem_groups, h]

theorem environmentKeys_eq {e : String} (he : e ∈ config.environments) :
    p.environmentKeys e = [config.blueprint.environmentKey e] := by
  have hp := hr.filter_groups (P := fun g => g.level = .environment ∧ g.environment = some e)
    (List.nodup_singleton (config.blueprint.environmentGroup e)) fun g => by
      rw [List.mem_singleton]
      constructor
      · rintro ⟨hg, hl, hge⟩
        cases hg with
        | environment _ => rw [Option.some.inj hge]
        | _ => cases hl
      · rintro rfl
        exact ⟨.environment (mem_environments_blueprint.2 he), rfl, rfl⟩
  rw [ResolvedPolicy.environmentKeys, List.perm_singleton.1 hp]
  rfl

theorem personaKeys_eq {e : String} (he : e ∈ config.environments) (r : Persona) :
    p.personaKeys e r = [config.blueprint.personaKey e r] := by
  have hp := hr.filter_groups (P := fun g => g.level = .persona ∧ g.environment = some e ∧ g.persona = some r)
    (List.nodup_singleton (config.blueprint.personaGroup e r)) fun g => by
      rw [List.mem_singleton]
      constructor
      · rintro ⟨hg, hl, hge, hgr⟩
        cases hg with
        | persona _ _ => rw [Option.some.inj hge, Option.some.inj hgr]
        | _ => cases hl
      · rintro rfl
        exact ⟨.persona (mem_environments_blueprint.2 he) r, rfl, rfl, rfl⟩
  rw [ResolvedPolicy.personaKeys, List.perm_singleton.1 hp]
  rfl

theorem keysOfPersona_perm (r : Persona) : (p.keysOfPersona r).Perm
    (config.blueprint.environments.map fun e => config.blueprint.personaKey e r) := by
  have hgs : (config.blueprint.environments.map fun e => config.blueprint.personaGroup e r).Nodup :=
    hr.buildable.nodup_environments.map fun _ _ h => Option.some.inj (congrArg Group.environment h)
  have hp := hr.filter_groups (P := fun g => g.level = .persona ∧ g.persona = some r) hgs fun g => by
      rw [List.mem_map]
      constructor
      · rintro ⟨hg, hl, hgr⟩
        cases hg with
        | persona he _ => exact ⟨_, he, by rw [Option.some.inj hgr]⟩
        | _ => cases hl
      · rintro ⟨e, he, rfl⟩
        exact ⟨.persona he r, rfl, rfl⟩
  have hkeys := hp.map Group.key
  rwa [List.map_map] at hkeys

/-- The groups of projects below the group of a persona. -/
theorem projects_iff {e q key : String} {r : Persona} (he : e ∈ config.environments) :
    (∃ g ∈ p.groups, g.level = .project ∧ g.parentKey = some (config.blueprint.personaKey e r) ∧ g.project = some q ∧
      g.key = key) ↔ q ∈ config.blueprint.projectsOf r ∧ config.blueprint.projectKey e r q = key := by
  have he' := mem_environments_blueprint.2 he
  constructor
  · rintro ⟨g, hg, -, hparent, hq, hkey⟩
    obtain ⟨q', hq', rfl⟩ :=
      Blueprint.project_of_parent hr.buildable.keys he' (hr.mem_groups.1 hg) hparent
    obtain rfl : q' = q := Option.some.inj hq
    exact ⟨hq', hkey⟩
  · rintro ⟨hq, rfl⟩
    exact ⟨_, hr.mem_groups.2 (.project he' hq), rfl, rfl, rfl, rfl⟩

end HasRecords

/-! ## Assignments -/

/-- Only the assignments of a place are at it. -/
theorem place_eq_of_isAt (hv : config.IsValid) {place place' : Place} (hp : place ∈ config.tierPlan.places)
    (hp' : place' ∈ config.tierPlan.places) {key role : String} {scopeAt : Place → Scope}
    (h : ((Source.group place' key role).assignment scopeAt).IsAt place) : place' = place := by
  obtain ⟨htier, rest, hrest⟩ := h
  have htier : place'.tier = place.tier := htier
  cases place with
  | resourceGroup name =>
    cases place' with
    | resourceGroup name' =>
      -- the slash behind the name of a resource group ends it
      have hkey : name' ++ "/" ++ (key ++ "-" ++ role) = name ++ "/" ++ String.ofList rest := by
        have hkeys : (Source.group (.resourceGroup name') key role).key =
            (Place.resourceGroup name).keyPrefix ++ String.ofList rest := by
          rw [← String.toList_inj, String.toList_append, String.toList_ofList]
          exact hrest.symm
        simp only [Source.key, Place.keyPrefix, String.append_assoc, String.append_right_inj] at hkeys
        simp only [String.append_assoc, hkeys]
      have hslash : ∀ {name : String}, Place.resourceGroup name ∈ config.tierPlan.places → '/' ∉ name.toList :=
        fun {name} hm => (isSeparable_of_mem_places hv hm : (Source.group (.resourceGroup name) key role).IsSeparable)
      rw [((append_slash_inj (hslash hp') (hslash hp)).1 hkey).1]
    | _ => cases htier
  | _ => cases place' <;> first | rfl | cases htier

theorem isAt_assignment {place : Place} {key role : String} {scopeAt : Place → Scope} :
    ((Source.group place key role).assignment scopeAt).IsAt place := by
  refine ⟨rfl, (key ++ "-" ++ role).toList, ?_⟩
  rw [← String.toList_append, ← Source.key_group]
  rfl

section Assigned

variable (hr : config.HasRecords c p records) (hv : config.IsValid)
include hr hv

/-- What a persona group is assigned at a place. -/
theorem mem_assignmentsAt {place : Place} (hp : place ∈ config.tierPlan.places) {e : String}
    (he : e ∈ config.environments) {r : Persona} {a : Assignment} :
    a ∈ p.assignmentsAt place (config.blueprint.personaKey e r) ↔ ∃ role ∈ config.roleBook.rolesIn e r,
      a = (Source.group place (config.blueprint.personaKey e r) role).assignment (config.tierPlan.scopeAt c) := by
  rw [ResolvedPolicy.assignmentsAt, List.mem_filter, decide_eq_true_eq]
  constructor
  · rintro ⟨ha, hkind, hkey, hat⟩
    have hgrants : p.GrantsTo a e r := {
      mem := ha
      kind := hkind
      group := ⟨config.blueprint.personaGroup e r,
        hr.mem_groups.2 (.persona (mem_environments_blueprint.2 he) r), rfl, rfl, rfl, hkey.symm⟩ }
    obtain ⟨-, place', hp', role, hrole, rfl⟩ := (hr.grantsTo_iff hv.owners).1 hgrants
    obtain rfl := place_eq_of_isAt hv hp hp' hat
    exact ⟨role, hrole, rfl⟩
  · rintro ⟨role, hrole, rfl⟩
    have hgrants := (hr.grantsTo_iff hv.owners).2 ⟨he, place, hp, role, hrole, rfl⟩
    exact ⟨hgrants.mem, rfl, rfl, isAt_assignment⟩

/-- The roles that a persona group is assigned at a place are those that are looked up for it, each once. -/
theorem rolesAt_perm {place : Place} (hp : place ∈ config.tierPlan.places) {e : String}
    (he : e ∈ config.environments) (r : Persona) :
    ((p.assignmentsAt place (config.blueprint.personaKey e r)).map Assignment.role).Perm
      (config.roleBook.rolesIn e r) := by
  have hmem := fun a => mem_assignmentsAt hr hv hp he (r := r) (a := a)
  have hassignments : (p.assignmentsAt place (config.blueprint.personaKey e r)).Nodup :=
    (List.Nodup.of_map Assignment.key hr.nodup_assignmentKeys).filter _
  have hroles : ((p.assignmentsAt place (config.blueprint.personaKey e r)).map Assignment.role).Nodup := by
    apply hassignments.map_on
    intro a ha a' ha' heq
    obtain ⟨role, -, rfl⟩ := (hmem a).1 ha
    obtain ⟨role', -, rfl⟩ := (hmem a').1 ha'
    rw [show role = role' from heq]
  apply (List.perm_ext_iff_of_nodup hroles RoleBook.nodup_rolesIn).2
  intro role
  rw [List.mem_map]
  constructor
  · rintro ⟨a, ha, rfl⟩
    obtain ⟨role, hrole, rfl⟩ := (hmem a).1 ha
    exact hrole
  · intro hrole
    exact ⟨_, (hmem _).2 ⟨role, hrole, rfl⟩, rfl⟩

end Assigned

/-! ## The views -/

theorem IsCovered.listed_blueprint (hc : config.IsCovered) :
    ∀ e ∈ config.blueprint.environments, ∀ r, (config.roleBook.listed? e r).isSome = true := by
  intro e he r
  exact hc.listed e (mem_environments_blueprint.1 he) r

/-- What is looked up and found for a persona in an environment is right. -/
theorem agrees_expectedEntry (hr : config.HasRecords c p records) (hv : config.IsValid) {e : String}
    (he : e ∈ config.environments) (r : Persona) :
    (PolicySummary.expectedEntry config.blueprint config.roleBook e r).shown.Agrees config c p e r where
  groupKey := hr.personaKeys_eq he r
  projects q key := PolicySummary.get?_expectedProjects.trans (hr.projects_iff he).symm
  projects_eq_empty := by
    intro h
    have hnone : config.blueprint.projectsOf r = [] := by
      rw [Blueprint.projectsOf, if_neg]
      rintro ⟨hon, hprojects⟩
      rcases h with rfl | hoff
      · cases hprojects
      · rw [show config.projectGroups = true from hon] at hoff
        cases hoff
    show PolicySummary.expectedProjects config.blueprint e r = .empty
    rw [PolicySummary.expectedProjects, hnone]
    rfl
  roles place hp := rolesAt_perm hr hv hp he r
  nodup_roles := RoleBook.nodup_rolesIn
  scope := by
    intro place hp a ha
    obtain ⟨role, -, rfl⟩ := (mem_assignmentsAt hr hv hp he).1 ha
    rfl

section Views

variable (hr : config.HasRecords c p records)
  (hs : PolicySummary.ofHierarchy config.blueprint.hierarchy config.roleBook = .ok p.summary)
include hr hs

/-- What is shown of a persona in an environment. -/
theorem shown?_eq_some_iff {e : String} {r : Persona} {x : PersonaGroupSummary} : p.shown? e r = some x ↔
    e ∈ config.environments ∧ (PolicySummary.expectedEntry config.blueprint config.roleBook e r).shown = x := by
  have hget := fun {e s} => PolicySummary.get?_byEnvironment hr.buildable.keys hr.buildable.nodup_environments
    hr.covered.listed_blueprint hs (e := e) (s := s)
  rw [ResolvedPolicy.shown?, Option.bind_eq_some_iff]
  constructor
  · rintro ⟨s, hes, hx⟩
    obtain ⟨he, -, hpersonas⟩ := hget hes
    obtain ⟨r', hname, rfl⟩ := (hpersonas _ _).1 hx
    rw [Persona.name_inj hname]
    exact ⟨mem_environments_blueprint.1 he, rfl⟩
  · rintro ⟨he, rfl⟩
    have hname : e ∈ p.summary.byEnvironment.names :=
      (PolicySummary.mem_names_byEnvironment hr.buildable.keys hr.buildable.nodup_environments hs).2
        (mem_environments_blueprint.2 he)
    obtain ⟨s, hes⟩ := Option.isSome_iff_exists.1 (NameMap.isSome_get?_iff.2 hname)
    exact ⟨s, hes, ((hget hes).2.2 _ _).2 ⟨r, rfl, rfl⟩⟩

theorem agrees_environment (hv : config.IsValid) {e : String} {s : EnvironmentSummary}
    (h : p.summary.byEnvironment.get? e = some s) : s.Agrees config c p e := by
  obtain ⟨he, hkey, hpersonas⟩ := PolicySummary.get?_byEnvironment hr.buildable.keys
    hr.buildable.nodup_environments hr.covered.listed_blueprint hs h
  have he := mem_environments_blueprint.1 he
  refine { groupKey := ?_, personas := ?_, entries := ?_ }
  · rw [hr.environmentKeys_eq he, hkey]
  · intro name
    rw [← NameMap.isSome_get?_iff, Option.isSome_iff_exists]
    simp only [hpersonas]
    constructor
    · rintro ⟨x, r, hname, -⟩
      exact ⟨r, hname⟩
    · rintro ⟨r, hname⟩
      exact ⟨_, r, hname, rfl⟩
  · intro r x hx
    obtain ⟨r', hname, rfl⟩ := (hpersonas _ _).1 hx
    rw [Persona.name_inj hname]
    exact agrees_expectedEntry hr hv he r

theorem agrees_persona {r : Persona} {s : PersonaSummary} (h : p.summary.byPersona.get? r.name = some s) :
    s.Agrees config p r := by
  obtain ⟨hgroups, hroles⟩ := PolicySummary.get?_byPersona hr.buildable.keys hr.buildable.nodup_environments
    hr.covered.listed_blueprint hs h
  refine { groups := ?_, environments := ?_, roles := ?_ }
  · rw [hgroups, sortedBy_eq_of_perm (hr.keysOfPersona_perm r)]
  · intro e
    rw [← NameMap.isSome_get?_iff, Option.isSome_iff_exists]
    simp only [hroles, exists_and_left, exists_eq', and_true, mem_environments_blueprint]
  · intro e roles
    rw [hroles, mem_environments_blueprint]
    simp only [shown?_eq_some_iff hr hs]
    constructor
    · rintro ⟨he, rfl⟩
      exact ⟨_, ⟨he, rfl⟩, rfl⟩
    · rintro ⟨x, ⟨he, rfl⟩, rfl⟩
      exact ⟨he, rfl⟩

theorem map_key_privileged :
    p.summary.privilegedGroups.map (·.key) = sortedBy id (p.keysOfPersona .admin) := by
  rw [PolicySummary.map_key_privilegedGroups hr.buildable.keys hr.buildable.nodup_environments
    hr.covered.listed_blueprint hs]
  exact (sortedBy_eq_of_perm (hr.keysOfPersona_perm .admin)).symm

/-- The key of a privileged group is that of no other group. -/
theorem privileged_of_key {g : Group} (hg : g ∈ p.groups) (hk : g.key ∈ p.summary.privilegedGroups.map (·.key)) :
    g.level = .persona ∧ g.persona = some .admin := by
  rw [map_key_privileged hr hs, mem_sortedBy, (hr.keysOfPersona_perm .admin).mem_iff] at hk
  obtain ⟨e, he, hkey⟩ := List.mem_map.1 hk
  obtain rfl := Blueprint.eq_of_key_eq hr.buildable.keys (.persona he .admin) (hr.mem_groups.1 hg) hkey
  exact ⟨rfl, rfl⟩

end Views

/-- The summary of a policy agrees with its records. -/
theorem summary_agrees {j : Json} (hj : PolicyConfig.ofJson j = .ok config) (h : resolve config context = .ok p) :
    config.SummaryAgrees (context.withTenant config.tenantId) p := by
  have hv := isValid_of_ofJson hj
  obtain ⟨records, hr⟩ := exists_records h
  have hs : PolicySummary.ofHierarchy config.blueprint.hierarchy config.roleBook = .ok p.summary := by
    obtain ⟨-, -, granted, principals, summary, -, -, -, hs, rfl⟩ := resolve_eq_ok_iff.1 h
    exact hs
  refine {
    environments := ?_
    byEnvironment := fun e s hes => agrees_environment hr hs hv hes
    personas := fun name => PolicySummary.mem_names_byPersona hs
    byPersona := fun r s hrs => agrees_persona hr hs hrs
    privilegedKeys := map_key_privileged hr hs
    privilegedGroups := ?_
    privileged_only := fun g hg hk => privileged_of_key hr hs hg hk }
  · intro e
    rw [PolicySummary.mem_names_byEnvironment hr.buildable.keys hr.buildable.nodup_environments hs,
      mem_environments_blueprint]
  · intro g hg
    have hp := PolicySummary.privilegedGroups_perm hr.buildable.keys hr.buildable.nodup_environments
      hr.covered.listed_blueprint hs
    obtain ⟨e, he, rfl⟩ := List.mem_map.1 (hp.mem_iff.1 hg)
    exact ⟨_, (shown?_eq_some_iff hr hs).2 ⟨mem_environments_blueprint.1 he, rfl⟩, rfl, rfl⟩

/-- The sample grants at one place of every tier. -/
theorem summary_agrees_sample : PolicyConfig.ofJson sampleJson = .ok sample ∧ sample.tierPlan.places.length = 4 ∧
    ∃ p, resolve sample sampleContext = .ok p ∧
      sample.SummaryAgrees (sampleContext.withTenant sample.tenantId) p := by
  obtain ⟨p, h⟩ := isAcceptable_sample.exists_policy (isValid_of_ofJson (j := sampleJson) rfl)
  exact ⟨rfl, by decide +kernel, p, h, summary_agrees (j := sampleJson) rfl h⟩

end PolicyConfig

end AccessPlan
