import AccessPlan.Proofs.Policy.Grants

/-!
# What a policy grants more than once

An access is what a principal may do on a scope, whatever tier it is from. Keys tell assignments apart, but
nothing keeps two of them from giving the same access: the scopes of tiers, resource groups and grants are
rendered from texts that may coincide.

A policy gives every access once exactly if the targets of its persona groups are different, unless no persona
has a role, and no service principal has one grant under two labels (`nodup_access_iff`).
-/

namespace AccessPlan

/-- What a principal may do on a scope. -/
structure Access where
  scope : String
  role : String
  principalKey : String
  principalKind : PrincipalKind
  deriving DecidableEq

def Permission.access (p : Permission) : Access := ⟨p.scope, p.role, p.principalKey, p.principalKind⟩

def Assignment.access (a : Assignment) : Access := ⟨a.scope.path, a.role, a.principalKey, a.principalKind⟩

namespace PolicyConfig

section Declared

variable (config : PolicyConfig) (context : Context)

/-- The paths that the persona groups are granted their roles on: one for every tier that is switched on, or
for every resource group. -/
def targets : List String :=
  (if config.managementGroupAssignments then [config.managementGroupTarget context] else []) ++
  (if config.tenantAssignments then [config.tenantTarget context] else []) ++
  (if config.subscriptionAssignments then ["/subscriptions/" ++ context.subscriptionId.getD ""] else []) ++
  (if config.resourceGroupAssignments then (config.resourceGroups.getD .empty).entries.map (·.2.id) else [])

/-- What the persona groups may do on one scope. -/
def groupAccesses (scope : String) : List Access :=
  config.environments.flatMap fun e => Persona.all.flatMap fun p => (config.roleBook.rolesIn e p).map fun role =>
    ⟨scope, role, config.blueprint.personaKey e p, .group⟩

/-- What a service principal of a name may do. -/
def principalAccess (name : String) (g : Grant) : Access :=
  ⟨g.scope, g.role, "service-principal-" ++ name, .servicePrincipal⟩

/-- Every access that a configuration declares, as often as it does. -/
def accesses : List Access :=
  (config.targets context).flatMap config.groupAccesses ++
    config.servicePrincipals.entries.flatMap fun d => (d.2.roles.entries.map (·.2)).map (principalAccess d.1)

end Declared

variable {config : PolicyConfig} {context : Context} {p : ResolvedPolicy} {a : Access} {scope : String}

/-! ## Persona groups -/

theorem mem_groupAccesses : a ∈ config.groupAccesses scope ↔ ∃ e ∈ config.environments, ∃ q,
    ∃ role ∈ config.roleBook.rolesIn e q, a = ⟨scope, role, config.blueprint.personaKey e q, .group⟩ := by
  simp only [groupAccesses, List.mem_flatMap, List.mem_map, Persona.mem_all, true_and, eq_comm]

/-- On one scope every access is given once. -/
theorem nodup_groupAccesses (hb : config.IsBuildable) : (config.groupAccesses scope).Nodup := by
  -- the keys of two persona groups tell their environments and personas apart
  have hkey : ∀ {e e' : String} {q q' : Persona} {roles roles' : List String}, e ∈ config.environments →
      e' ∈ config.environments → ¬ (e = e' ∧ q = q') →
      List.Disjoint (roles.map fun role => Access.mk scope role (config.blueprint.personaKey e q) .group)
        (roles'.map fun role => Access.mk scope role (config.blueprint.personaKey e' q') .group) := by
    intro e e' q q' roles roles' he he' hne x hx hy
    obtain ⟨a, -, rfl⟩ := List.mem_map.1 hx
    obtain ⟨b, -, h⟩ := List.mem_map.1 hy
    exact hne (Blueprint.personaKey_inj hb.keys (mem_environments_blueprint.2 he) (mem_environments_blueprint.2 he')
      (Access.mk.inj h).2.2.1.symm)
  refine List.nodup_flatMap.2 ⟨fun e he => List.nodup_flatMap.2 ⟨fun q _ => ?_, ?_⟩, ?_⟩
  · exact RoleBook.nodup_rolesIn.map fun a b h => (Access.mk.inj h).2.1
  · exact (by decide : Persona.all.Nodup).imp fun hne => hkey he he fun h => hne h.2
  · refine hb.environments.nodup.imp_of_mem fun he he' hne x hx hy => ?_
    obtain ⟨q, -, hx⟩ := List.mem_flatMap.1 hx
    obtain ⟨q', -, hy⟩ := List.mem_flatMap.1 hy
    exact hkey he he' (fun h => hne h.1) hx hy

/-- On several scopes every access is given once exactly if they are different, or no persona has a role. -/
theorem nodup_flatMap_groupAccesses_iff (hb : config.IsBuildable) {targets : List String} :
    (targets.flatMap config.groupAccesses).Nodup ↔
      ((∃ e ∈ config.environments, ∃ q, config.roleBook.rolesIn e q ≠ []) → targets.Nodup) := by
  rw [List.nodup_flatMap]
  constructor
  · rintro ⟨-, hd⟩ ⟨e, he, q, hne⟩
    obtain ⟨role, hr⟩ := List.exists_mem_of_ne_nil _ hne
    refine hd.imp fun {t t'} hdisjoint ht => ?_
    subst ht
    have hm : _ ∈ config.groupAccesses t := mem_groupAccesses.2 ⟨e, he, q, role, hr, rfl⟩
    exact hdisjoint hm hm
  · intro h
    refine ⟨fun t _ => nodup_groupAccesses hb, ?_⟩
    by_cases hroles : ∃ e ∈ config.environments, ∃ q, config.roleBook.rolesIn e q ≠ []
    · refine (h hroles).imp fun hne a ha ha' => hne ?_
      obtain ⟨_, -, _, _, -, rfl⟩ := mem_groupAccesses.1 ha
      obtain ⟨_, -, _, _, -, he⟩ := mem_groupAccesses.1 ha'
      exact (Access.mk.inj he).1
    · refine List.pairwise_of_forall fun t t' a ha => ?_
      obtain ⟨e, he, q, role, hr, -⟩ := mem_groupAccesses.1 ha
      exact absurd ⟨e, he, q, List.ne_nil_of_mem hr⟩ hroles

/-! ## Service principals -/

theorem principalAccess_injective (name : String) : Function.Injective (principalAccess name) := by
  intro g g' h
  obtain ⟨hscope, hrole, -⟩ := Access.mk.inj h
  cases g
  cases g'
  exact congrArg₂ Grant.mk hscope hrole

/-- What the service principals may do is given once exactly if no label of one repeats a grant. -/
theorem nodup_principalAccesses_iff : (config.servicePrincipals.entries.flatMap fun d =>
    (d.2.roles.entries.map (·.2)).map (principalAccess d.1)).Nodup ↔
      ∀ d ∈ config.servicePrincipals.entries, (d.2.roles.entries.map (·.2)).Nodup := by
  have hnames := List.pairwise_map.1 (NameMap.nodup_names config.servicePrincipals)
  rw [List.nodup_flatMap, and_iff_left]
  · exact forall₂_congr fun d _ => List.nodup_map_iff (principalAccess_injective d.1)
  · refine hnames.imp fun hne x hx hy => hne ?_
    obtain ⟨g, -, rfl⟩ := List.mem_map.1 hx
    obtain ⟨g', -, h⟩ := List.mem_map.1 hy
    exact (String.append_right_inj _).1 (Access.mk.inj h).2.2.1.symm

/-! ## The policy -/

theorem map_access_permissions : (config.permissions context).map Permission.access = config.accesses context := by
  have hgroups : ∀ tier scope, (config.groupPermissions tier scope).map Permission.access =
      config.groupAccesses scope := by
    intro tier scope
    simp only [groupPermissions, groupAccesses, List.map_flatMap, List.map_map]
    rfl
  have hprincipals : config.principalPermissions.map Permission.access =
      config.servicePrincipals.entries.flatMap fun d => (d.2.roles.entries.map (·.2)).map (principalAccess d.1) := by
    simp only [principalPermissions, List.map_flatMap, List.map_map]
    rfl
  have hone : ∀ (on : Bool) (tier : Tier) (scope : String),
      (if on then config.groupPermissions tier scope else []).map Permission.access =
        (if on then [scope] else []).flatMap config.groupAccesses := by
    intro on tier scope
    cases on with
    | false => rfl
    | true => simp [hgroups]
  have hresource : (if config.resourceGroupAssignments then
      (config.resourceGroups.getD .empty).entries.flatMap fun r => config.groupPermissions .resourceGroup r.2.id
      else []).map Permission.access = (if config.resourceGroupAssignments then
        (config.resourceGroups.getD .empty).entries.map (·.2.id) else []).flatMap config.groupAccesses := by
    cases config.resourceGroupAssignments with
    | false => rfl
    | true => simp only [if_true, List.map_flatMap, List.flatMap_map, hgroups]
  simp only [permissions, accesses, targets, List.map_append, List.flatMap_append, hone, hresource, hprincipals]

/-- The assignments give what the configuration declares. -/
theorem map_access_perm (ho : config.owners ≠ []) (h : resolve config context = .ok p) :
    (p.assignments.map Assignment.access).Perm (config.accesses context) := by
  obtain ⟨-, -, granted, principals, -, hg, hp, -, -, rfl⟩ := resolve_eq_ok_iff.1 h
  have hsorted : (sortedBy Assignment.key (granted ++ principals.assignments)).Perm
      (config.sources.map (·.assignment (config.tierPlan.scopeAt (context.withTenant config.tenantId)))) := by
    rw [← assignments_eq_sources ho hg hp]
    exact sortedBy_perm _ _
  refine (hsorted.map Assignment.access).trans ?_
  rw [← map_access_permissions, List.map_map]
  have hpermissions := (@sources_permissions config context).map Permission.access
  rw [List.map_map] at hpermissions
  exact hpermissions

/-- When no two assignments of a policy give the same access. -/
theorem nodup_access_iff {j : Json} (hj : PolicyConfig.ofJson j = .ok config) (h : resolve config context = .ok p) :
    (p.assignments.map Assignment.access).Nodup ↔
      ((∃ e ∈ config.environments, ∃ q, config.roleBook.rolesIn e q ≠ []) → (config.targets context).Nodup) ∧
        ∀ d ∈ config.servicePrincipals.entries, (d.2.roles.entries.map (·.2)).Nodup := by
  have hb := (resolve_eq_ok_iff.1 h).2.1
  rw [(map_access_perm (isValid_of_ofJson hj).owners h).nodup_iff, accesses, List.nodup_append,
    nodup_flatMap_groupAccesses_iff hb, nodup_principalAccesses_iff, ← and_assoc, and_iff_left]
  -- a group and a service principal never have the same access
  intro a ha b hm he
  obtain ⟨t, -, ht⟩ := List.mem_flatMap.1 ha
  obtain ⟨_, -, _, _, -, rfl⟩ := mem_groupAccesses.1 ht
  obtain ⟨d, -, hd⟩ := List.mem_flatMap.1 hm
  obtain ⟨g, -, rfl⟩ := List.mem_map.1 hd
  exact absurd (congrArg Access.principalKind he) (by simp [principalAccess])

theorem nodup_access_sample : ∃ p, resolve sample sampleContext = .ok p ∧
    (p.assignments.map Assignment.access).Nodup := by
  obtain ⟨p, h⟩ := isAcceptable_sample.exists_policy (isValid_of_ofJson (j := sampleJson) rfl)
  refine ⟨p, h, (nodup_access_iff (j := sampleJson) rfl h).2 ⟨fun _ => ?_, ?_⟩⟩ <;> decide +kernel

/-! ## Two tiers with one scope -/

/-- A directory that is named as the management group is. -/
def platformContext : Context := { sampleContext with tenantId := some "platform" }

theorem isAcceptable_platform : sample.IsAcceptable (platformContext.withTenant sample.tenantId) :=
  { isAcceptable_sample with
    ready := by decide +kernel
    rotation := by decide +kernel
    credentials := by decide +kernel }

theorem not_nodup_access_platform : PolicyConfig.ofJson sampleJson = .ok sample ∧
    ∃ p, resolve sample platformContext = .ok p ∧ ¬ (p.assignments.map Assignment.access).Nodup := by
  have hv := isValid_of_ofJson (j := sampleJson) rfl
  obtain ⟨p, h⟩ := isAcceptable_platform.exists_policy hv
  refine ⟨rfl, p, h, fun hn => ?_⟩
  have hm : ¬ (sample.accesses platformContext).Nodup := by decide +kernel
  exact hm ((map_access_perm hv.owners h).nodup_iff.1 hn)

end PolicyConfig

end AccessPlan
