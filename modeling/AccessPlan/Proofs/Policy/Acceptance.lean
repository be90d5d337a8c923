import AccessPlan.Proofs.Policy.Sources

/-!
# Which configurations are accepted

A resolution gives a policy exactly if the configuration `IsAcceptable` for the context (`exists_policy_iff`).
The conditions are those of all stages together, and each is about the configuration and the context alone.
-/

namespace AccessPlan

namespace PolicyConfig

/-- What a valid configuration has to fulfil for a context. -/
structure IsAcceptable (config : PolicyConfig) (c : Context) : Prop where
  /-- Every persona has roles in every environment, and the resource groups refer to what there is. -/
  covered : config.IsCovered
  /-- The names of the environments are names, and different. -/
  environments : AreNames config.environments
  /-- The names of the projects are names, and different, even if projects have no groups. -/
  projects : AreNames config.projects
  /-- No two groups have the same key. -/
  keys : (config.blueprint.groups.map Group.key).Nodup
  /-- Every tier that is switched on has what its scopes are made of. -/
  ready : ∀ t, config.tierPlan.isOn t = true → config.tierPlan.IsReady c t
  /-- If anything is granted to groups, all roles of the configured environments can be granted. -/
  roles : config.tierPlan.Emits → ∀ e ∈ config.environments, ∀ p, ∀ role ∈ config.roleBook.rolesIn e p,
    IsGrantable role
  /-- The days of every service principal are in their range. -/
  rotation : ∀ d ∈ config.servicePrincipals.entries, d.2.HasRotation c
  /-- The credential of every service principal ends inside of the calendar and has an id. -/
  credentials : ∀ d ∈ config.servicePrincipals.entries,
    CanIssue c.now (PrincipalRecords.rotationDaysOf d.2 c) d.1
  /-- Every service principal is granted single roles. -/
  grants : ∀ d ∈ config.servicePrincipals.entries, ∀ g ∈ d.2.roles.entries, Assignment.isSingleRole g.2.role = true
  /-- If anything is granted to groups, no roles overlap. -/
  overlap : config.tierPlan.Emits → ¬ config.HasOverlap

variable {config : PolicyConfig} {c context : Context} {p : ResolvedPolicy}

/-- The persona groups are served if they have roles and all of them can be granted. -/
theorem IsCovered.serves_iff (hc : config.IsCovered) :
    (∀ g ∈ config.blueprint.hierarchy.layer .persona, config.roleBook.Serves g) ↔
      ∀ e ∈ config.environments, ∀ p, ∀ role ∈ config.roleBook.rolesIn e p, IsGrantable role := by
  constructor
  · intro hs e he p
    exact (hs _ (mem_layer_persona.2 ⟨e, he, p, rfl⟩)).2
  · intro hr g hg
    refine ⟨hc.lists g hg, ?_⟩
    obtain ⟨e, he, p, rfl⟩ := mem_layer_persona.1 hg
    exact hr e he p

/-- A definition in a valid configuration is accepted if its roles are single ones. -/
theorem IsValid.isAccepted_iff (hv : config.IsValid) {d : String × PrincipalDefinition}
    (hd : d ∈ config.servicePrincipals.entries) : d.2.IsAccepted c d.1 ↔ d.2.HasRotation c ∧
      CanIssue c.now (PrincipalRecords.rotationDaysOf d.2 c) d.1 ∧
      ∀ g ∈ d.2.roles.entries, Assignment.isSingleRole g.2.role = true :=
  ⟨fun h => ⟨h.rotation, h.issue, fun g hg => (h.grants g hg).isSingle⟩,
    fun h => ⟨h.1, h.2.1, fun g hg => ⟨hv.grants d hd g hg, h.2.2 g hg⟩⟩⟩

/-- What is granted has different keys exactly if no roles overlap where anything is granted to groups. -/
theorem IsValid.nodup_iff {granted : List Assignment} {principals : ResolvedPrincipals} (hv : config.IsValid)
    (hk : (config.blueprint.groups.map Group.key).Nodup)
    (hg : expand config.blueprint.hierarchy config.roleBook c config.tierPlan = .ok granted)
    (hp : ResolvedPrincipals.ofDefinitions config.servicePrincipals c (.ofTexts config.owners) = .ok principals) :
    ((granted ++ principals.assignments).map Assignment.key).Nodup ↔
      ¬ (config.tierPlan.Emits ∧ config.HasOverlap) := by
  rw [← nodup_keys_iff hv hk, assignments_eq_sources hv.owners hg hp, List.map_map]
  simp only [Function.comp_def, Source.key_assignment]

/-- A configuration that has a policy is acceptable. -/
theorem IsValid.isAcceptable (hv : config.IsValid) (h : resolve config context = .ok p) :
    config.IsAcceptable (context.withTenant config.tenantId) := by
  obtain ⟨hc, hb, granted, principals, -, hg, hp, hu, -, -⟩ := resolve_eq_ok_iff.1 h
  obtain ⟨hready, hserves, -⟩ := Expansion.expand_eq_ok_iff.1 hg
  have hd := fun d hm => (hv.isAccepted_iff hm).1 ((ResolvedPrincipals.exists_ofDefinitions_iff hv.owners).1
    ⟨principals, hp⟩ d hm)
  exact {
    covered := hc
    environments := hb.environments
    projects := hb.projects
    keys := hb.keys
    ready := hready
    roles := fun he => hc.serves_iff.1 (hserves he)
    rotation := fun d hm => (hd d hm).1
    credentials := fun d hm => (hd d hm).2.1
    grants := fun d hm => (hd d hm).2.2
    overlap := fun he ho => (hv.nodup_iff hb.keys hg hp).1 hu ⟨he, ho⟩ }

theorem IsAcceptable.isBuildable (hv : config.IsValid) (ha : config.IsAcceptable c) : config.IsBuildable :=
  ⟨hv.orgPrefix, hv.environments, ha.environments, ha.projects, ha.keys⟩

/-- A configuration that is acceptable has a policy. -/
theorem IsAcceptable.exists_policy (hv : config.IsValid)
    (ha : config.IsAcceptable (context.withTenant config.tenantId)) : ∃ p, resolve config context = .ok p := by
  have hb := ha.isBuildable hv
  have hg := Expansion.expand_eq_ok_iff.2 ⟨ha.ready, fun he => ha.covered.serves_iff.2 (ha.roles he), rfl⟩
  obtain ⟨principals, hp⟩ := (ResolvedPrincipals.exists_ofDefinitions_iff hv.owners).2 fun d hd =>
    (hv.isAccepted_iff hd).2 ⟨ha.rotation d hd, ha.credentials d hd, ha.grants d hd⟩
  obtain ⟨summary, hs⟩ := exists_summary ha.covered hb
  have hu := (hv.nodup_iff hb.keys hg hp).2 fun ⟨he, ho⟩ => ha.overlap he ho
  exact ⟨_, resolve_eq_ok_iff.2 ⟨ha.covered, hb, _, principals, summary, hg, hp, hu, hs, rfl⟩⟩

/-- A configuration that passed the check has a policy for a context exactly if it is acceptable. -/
theorem exists_policy_iff {j : Json} (hj : PolicyConfig.ofJson j = .ok config) :
    (∃ p, resolve config context = .ok p) ↔ config.IsAcceptable (context.withTenant config.tenantId) := by
  have hv := isValid_of_ofJson hj
  exact ⟨fun ⟨p, h⟩ => hv.isAcceptable h, fun ha => ha.exists_policy hv⟩

/-! ## An acceptable configuration -/

/-- The fields of a configuration that has every tier switched on. -/
def sampleFields : List (String × Json) := [
  ("org_prefix", .str "acme"),
  ("environments", .ofTexts ["dev", "prod"]),
  ("projects", .ofTexts ["web"]),
  ("enable_project_groups", .bool true),
  ("owners", .ofTexts ["owner"]),
  ("resource_groups", .obj [("core", .obj [
    ("id", .str "/subscriptions/s/resourceGroups/core"), ("name", .str "core"), ("environment", .str "dev"),
    ("resource_types", .ofTexts ["storage"])])]),
  ("service_principals", .obj [("deployer", .obj [
    ("display_name", .str "Deployer"),
    ("roles", .obj [("main", .obj [("scope", .str "/subscriptions/s"), ("role", .str "Contributor")])])])]),
  ("enable_management_group_assignments", .bool true),
  ("enable_tenant_assignments", .bool true),
  ("enable_subscription_assignments", .bool true),
  ("enable_resource_group_assignments", .bool true),
  ("management_group_name", .str "platform"),
  ("tenant_id", .str "directory")]

/-- The configuration of these fields, as it is written. -/
def sampleJson : Json := .obj sampleFields

/-- The same configuration as it is read. -/
def sample : PolicyConfig where
  orgPrefix := "acme"
  environments := ["dev", "prod"]
  projects := ["web"]
  projectGroups := true
  owners := ["owner"]
  resourceGroups := some (.ofList [("core", ⟨"/subscriptions/s/resourceGroups/core", "core", "dev", ["storage"],
    .medium⟩)])
  servicePrincipals := .ofList [("deployer", ⟨"Deployer", "", [],
    .ofList [("main", ⟨"/subscriptions/s", "Contributor"⟩)], [], none⟩)]
  managementGroupAssignments := true
  tenantAssignments := true
  subscriptionAssignments := true
  resourceGroupAssignments := true
  managementGroupName := some "platform"
  tenantId := some "directory"
  environmentTables := none
  resourceTypeTables := none
  environmentOverrides := none
  resourceTypeOverrides := none
  customRoles := .empty

/-- A context that leaves the directory to the configuration. -/
def sampleContext : Context := ⟨none, some "s", none, .earliest, 90, 30⟩

theorem blueprint_sample : sample.blueprint = ⟨"acme", ["dev", "prod"], ["web"], true, ["owner"]⟩ := by
  rw [blueprint, Blueprint.ofTexts, sortedBy_of_pairwise (by decide), sortedBy_of_pairwise (by decide)]
  rfl

theorem isAcceptable_sample : sample.IsAcceptable (sampleContext.withTenant sample.tenantId) where
  covered := {
    listed := by decide +kernel
    environment := by decide +kernel
    types := by decide +kernel }
  environments := ⟨by decide +kernel, by decide +kernel⟩
  projects := ⟨by decide +kernel, by decide +kernel⟩
  keys := by
    rw [blueprint_sample]
    decide +kernel
  ready := by decide +kernel
  roles := fun _ => by decide +kernel
  rotation := by decide +kernel
  credentials := by decide +kernel
  grants := by decide +kernel
  overlap := fun _ => not_hasOverlap (by decide +kernel)

theorem exists_policy_sample : PolicyConfig.ofJson sampleJson = .ok sample ∧
    ∃ p, resolve sample sampleContext = .ok p :=
  ⟨rfl, (exists_policy_iff (j := sampleJson) rfl).2 isAcceptable_sample⟩

end PolicyConfig

end AccessPlan
