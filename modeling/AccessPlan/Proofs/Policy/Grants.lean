import AccessPlan.Proofs.Policy.Acceptance
import Mathlib.Data.List.Perm.Basic

/-!
# What a policy grants

A permission is what an assignment says about who may do what and where, without its key. The permissions of a
policy are exactly those that its configuration declares, each as often as it is declared
(`resolve_permissions`): the roles of every persona in every environment on the scope of every tier that is
switched on, and the grants of the service principals. They go to persona groups and to service principals
only.
-/

namespace AccessPlan

/-- What an assignment permits. -/
structure Permission where
  tier : Tier
  scope : String
  role : String
  principalKey : String
  principalKind : PrincipalKind
  deriving DecidableEq

def Assignment.permission (a : Assignment) : Permission :=
  ⟨a.tier, a.scope.path, a.role, a.principalKey, a.principalKind⟩

namespace PolicyConfig

section Declared

variable (config : PolicyConfig) (context : Context)

/-- The roles of every persona in every environment, on one scope. -/
def groupPermissions (tier : Tier) (scope : String) : List Permission :=
  config.environments.flatMap fun e => Persona.all.flatMap fun p => (config.roleBook.rolesIn e p).map fun role =>
    ⟨tier, scope, role, config.blueprint.personaKey e p, .group⟩

/-- The grants of the service principals, as they are written. -/
def principalPermissions : List Permission :=
  config.servicePrincipals.entries.flatMap fun d => d.2.roles.entries.map fun g =>
    ⟨.servicePrincipal, g.2.scope, g.2.role, "service-principal-" ++ d.1, .servicePrincipal⟩

/-- The management group of the context, or else the path of the one that is configured. -/
def managementGroupTarget : String :=
  if context.managementGroupId.getD "" ≠ "" then context.managementGroupId.getD ""
  else "/providers/Microsoft.Management/managementGroups/" ++ config.managementGroupName.getD ""

/-- The path of the root management group of the directory of the context, or else of the one that is configured. -/
def tenantTarget : String :=
  "/providers/Microsoft.Management/managementGroups/" ++ (context.tenantId.or config.tenantId).getD ""

/-- What a configuration declares. -/
def permissions : List Permission :=
  (if config.managementGroupAssignments then
    config.groupPermissions .managementGroup (config.managementGroupTarget context) else []) ++
  (if config.tenantAssignments then config.groupPermissions .tenant (config.tenantTarget context) else []) ++
  (if config.subscriptionAssignments then
    config.groupPermissions .subscription ("/subscriptions/" ++ context.subscriptionId.getD "") else []) ++
  (if config.resourceGroupAssignments then
    (config.resourceGroups.getD .empty).entries.flatMap fun r => config.groupPermissions .resourceGroup r.2.id
    else []) ++
  config.principalPermissions

end Declared

variable {config : PolicyConfig} {context c : Context} {p : ResolvedPolicy}

/-! ## Scopes -/

theorem tenantId_withTenant : ((context.withTenant config.tenantId).tenantId).getD "" =
    (context.tenantId.or config.tenantId).getD "" := by
  unfold Context.withTenant
  cases ht : context.tenantId with
  | some t => simp [ht]
  | none =>
    by_cases he : config.tenantId.getD "" = ""
    · simp [he, ht]
    · simp [he]

theorem subscriptionId_withTenant {t : Option String} :
    (context.withTenant t).subscriptionId = context.subscriptionId := by
  unfold Context.withTenant
  split <;> rfl

theorem managementGroupId_withTenant {t : Option String} :
    (context.withTenant t).managementGroupId = context.managementGroupId := by
  unfold Context.withTenant
  split <;> rfl

/-! ## Groups -/

/-- At one place every group is granted the roles of its persona in its environment. -/
theorem sourcesAt_perm {place : Place} {scopeAt : Place → Scope} :
    ((config.roleBook.sourcesAt (sortedBy Group.key (config.blueprint.hierarchy.layer .persona)) place).map fun x =>
      (x.assignment scopeAt).permission).Perm (config.groupPermissions place.tier (scopeAt place).path) := by
  let granted (g : Group) : List Permission := (config.roleBook.rolesOfGroup g).map fun role =>
    ⟨place.tier, (scopeAt place).path, role, g.key, .group⟩
  have hgroups : (sortedBy Group.key (config.blueprint.hierarchy.layer .persona)).Perm
      (config.blueprint.environments.flatMap fun e => Persona.all.map (config.blueprint.personaGroup e)) := by
    rw [← Blueprint.layer_persona]
    exact sortedBy_perm _ _
  calc (config.roleBook.sourcesAt (sortedBy Group.key (config.blueprint.hierarchy.layer .persona)) place).map
        (fun x => (x.assignment scopeAt).permission)
      = (sortedBy Group.key (config.blueprint.hierarchy.layer .persona)).flatMap granted := by
        rw [RoleBook.sourcesAt, List.map_flatMap]
        simp only [List.map_map]
        rfl
    List.Perm _ ((config.blueprint.environments.flatMap fun e =>
        Persona.all.map (config.blueprint.personaGroup e)).flatMap granted) := hgroups.flatMap_right granted
    _ = config.blueprint.environments.flatMap fun e => Persona.all.flatMap fun p =>
        granted (config.blueprint.personaGroup e p) := by
        simp only [List.flatMap_assoc, List.flatMap_map]
    List.Perm _ (config.groupPermissions place.tier (scopeAt place).path) :=
        (sortedBy_perm id config.environments).flatMap_right _

/-- At the resource groups the paths are their ids. -/
theorem flatMap_resourceGroups {permit : String → List Permission} :
    ((config.resourceGroups.getD .empty).names.map Place.resourceGroup).flatMap
        (fun place => permit (config.tierPlan.scopeAt c place).path) =
      (config.resourceGroups.getD .empty).entries.flatMap fun r => permit r.2.id := by
  rw [NameMap.names, List.map_map, List.flatMap_map]
  refine List.flatMap_congr fun r hr => ?_
  have hget : (config.resourceGroups.getD .empty).get? r.1 = some r.2 := NameMap.get?_eq_some_iff.2 hr
  simp only [Function.comp_apply, TierPlan.scopeAt, tierPlan, hget, Option.elim_some, Scope.path]

/-- The places are those of the tiers that are switched on. -/
theorem flatMap_places : (config.tierPlan.places.flatMap fun place =>
    config.groupPermissions place.tier (config.tierPlan.scopeAt (context.withTenant config.tenantId) place).path) ++
      config.principalPermissions = config.permissions context := by
  have hone : ∀ (on : Bool) (place : Place) (permit : Place → List Permission),
      (if on then [place] else []).flatMap permit = if on then permit place else [] := by
    intro on place permit
    cases on <;> simp
  have hmanagement : (config.tierPlan.scopeAt (context.withTenant config.tenantId) .managementGroup).path =
      config.managementGroupTarget context := by
    simp only [TierPlan.scopeAt, managementGroupScope, managementGroupId_withTenant, Scope.path, tierPlan]
    exact (ite_not _ _ _).symm
  have htenant : (config.tierPlan.scopeAt (context.withTenant config.tenantId) .tenant).path =
      config.tenantTarget context := by
    simp only [TierPlan.scopeAt, Scope.path, tenantId_withTenant]
    rfl
  have hsubscription : (config.tierPlan.scopeAt (context.withTenant config.tenantId) .subscription).path =
      "/subscriptions/" ++ context.subscriptionId.getD "" := by
    simp only [TierPlan.scopeAt, Scope.path, subscriptionId_withTenant]
  have hresource : (config.tierPlan.placesOn .resourceGroup).flatMap (fun place => config.groupPermissions place.tier
      (config.tierPlan.scopeAt (context.withTenant config.tenantId) place).path) =
        if config.resourceGroupAssignments then (config.resourceGroups.getD .empty).entries.flatMap fun r =>
          config.groupPermissions .resourceGroup r.2.id else [] := by
    rw [TierPlan.placesOn]
    show (if config.resourceGroupAssignments then _ else _ : List Place).flatMap _ = _
    cases config.resourceGroupAssignments with
    | false => rfl
    | true =>
      rw [if_pos rfl, if_pos rfl, ← flatMap_resourceGroups, List.flatMap_map, List.flatMap_map]
      rfl
  simp only [TierPlan.places, Tier.all, List.flatMap_cons, List.flatMap_nil, List.flatMap_append, hresource]
  simp only [TierPlan.placesOn, hone, Place.tier, hmanagement, htenant, hsubscription, List.flatMap_nil,
    List.append_nil, permissions, List.append_assoc]
  rfl

/-! ## The policy -/

/-- The grants of the service principals are permitted as they are written. -/
theorem principalSources_permissions {scopeAt : Place → Scope} :
    ((ResolvedPrincipals.sourcesOf config.servicePrincipals).map fun x => (x.assignment scopeAt).permission) =
      config.principalPermissions := by
  simp only [ResolvedPrincipals.sourcesOf, PrincipalDefinition.sources, List.map_flatMap, List.map_map]
  rfl

/-- The sources permit what the configuration declares. -/
theorem sources_permissions : (config.sources.map fun x => (x.assignment (config.tierPlan.scopeAt
    (context.withTenant config.tenantId))).permission).Perm (config.permissions context) := by
  rw [sources, groupSources, List.map_append, List.map_flatMap, principalSources_permissions, ← flatMap_places]
  exact (List.Perm.flatMap_left _ fun place _ => sourcesAt_perm).append_right _

/-- The key of a group is that of a persona group only if the group is one. -/
theorem level_eq_persona {g k : Group} (hk : (config.blueprint.groups.map Group.key).Nodup)
    (hg : g ∈ config.blueprint.groups) (hm : k ∈ config.blueprint.hierarchy.layer .persona) (he : g.key = k.key) :
    g.level = .persona := by
  obtain ⟨hkm, hl⟩ := List.mem_filter.1 hm
  rw [List.inj_on_of_nodup_map hk hg hkm he]
  exact of_decide_eq_true hl

/-- A policy grants exactly what its configuration declares. The roles are those that are looked up, the
groups that they are granted to are the groups of the policy, and no group but those of personas is granted
any. -/
theorem resolve_permissions {j : Json} (hj : PolicyConfig.ofJson j = .ok config)
    (h : resolve config context = .ok p) :
    (p.assignments.map Assignment.permission).Perm (config.permissions context) ∧
      (∀ e ∈ config.environments, ∀ q, config.roleBook.environmentRoles (some e) q =
        .ok (config.roleBook.rolesIn e q)) ∧
      (∀ e ∈ config.environments, ∀ q, ∃ g ∈ p.groups, g.level = .persona ∧ g.environment = some e ∧
        g.persona = some q ∧ g.key = config.blueprint.personaKey e q) ∧
      ∀ a ∈ p.assignments, a.principalKind = .group → ∀ g ∈ p.groups, g.key = a.principalKey → g.level = .persona := by
  have hv := isValid_of_ofJson hj
  obtain ⟨hc, hb, granted, principals, summary, hg, hp, -, -, rfl⟩ := resolve_eq_ok_iff.1 h
  have hsources := assignments_eq_sources hv.owners hg hp
  refine ⟨?_, fun e he q => ?_, fun e he q => ?_, fun a ha hkind g hm hkey => ?_⟩
  · refine ((sortedBy_perm Assignment.key _).map Assignment.permission).trans ?_
    rw [hsources, List.map_map]
    exact sources_permissions
  · exact RoleBook.environmentRoles_eq_ok_iff.2 ⟨hc.listed e he q, rfl⟩
  · have hmem : config.blueprint.personaGroup e q ∈ config.blueprint.groups :=
      Blueprint.mem_groups_iff.2 (.persona (mem_environments_blueprint.2 he) q)
    exact ⟨_, mem_sortedBy.2 hmem, rfl, rfl, rfl, rfl⟩
  · have hmem : a ∈ granted ++ principals.assignments := mem_sortedBy.1 ha
    rw [hsources] at hmem
    obtain ⟨x, hx, rfl⟩ := List.mem_map.1 hmem
    rcases List.mem_append.1 hx with hx | hx
    · obtain ⟨place, -, k, hk, role, -, rfl⟩ := mem_groupSources.1 hx
      exact level_eq_persona hb.keys (mem_sortedBy.1 hm) hk hkey
    · obtain ⟨d, -, l, -, rfl⟩ := mem_principalSources.1 hx
      cases hkind

/-- The paths of the management group that is configured and of the root management group are written out. -/
theorem resolve_permissions_sample : ∃ p, resolve sample sampleContext = .ok p ∧
    (p.assignments.map Assignment.permission).Perm (sample.permissions sampleContext) ∧
    ⟨.managementGroup, "/providers/Microsoft.Management/managementGroups/platform", "Owner", "acme-dev-admin",
      .group⟩ ∈ p.assignments.map Assignment.permission ∧
    ⟨.tenant, "/providers/Microsoft.Management/managementGroups/directory", "Owner", "acme-dev-admin",
      .group⟩ ∈ p.assignments.map Assignment.permission := by
  obtain ⟨p, h⟩ := isAcceptable_sample.exists_policy (isValid_of_ofJson (j := sampleJson) rfl)
  obtain ⟨hperm, -⟩ := resolve_permissions (j := sampleJson) rfl h
  exact ⟨p, h, hperm, hperm.mem_iff.2 (by decide +kernel), hperm.mem_iff.2 (by decide +kernel)⟩

end PolicyConfig

end AccessPlan
