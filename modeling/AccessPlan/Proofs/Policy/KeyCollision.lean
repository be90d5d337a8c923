import AccessPlan.Proofs.Policy.Acceptance

/-!
# When keys of assignments collide

Keys are texts joined by hyphens, and names of environments as well as roles may have hyphens of their own.
The check of the keys fails exactly if the roles of two persona groups overlap where anything is granted to
groups (`duplicateKey_iff`); no other two assignments can have the same key.
-/

namespace AccessPlan

namespace PolicyConfig

variable {config : PolicyConfig} {context c : Context} {h : Hierarchy} {granted : List Assignment}
  {principals : ResolvedPrincipals}

/-- Two sources with the same key are roles of different groups at one place. -/
theorem pairwise_sources (hv : config.IsValid) (hk : (config.blueprint.groups.map Group.key).Nodup) :
    config.sources.Pairwise fun x y => x.key = y.key →
      ∃ place g k a b, x = .group place g a ∧ y = .group place k b ∧ g ≠ k := by
  refine (nodup_sources hk).imp_of_mem fun {x y} hx hy hne he => ?_
  rcases eq_or_joined_of_key_eq hv hx hy he with rfl | ⟨place, -, g, -, k, -, a, -, b, -, rfl, rfl, hj⟩
  · exact absurd rfl hne
  · refine ⟨place, g.key, k.key, a, b, rfl, rfl, fun hgk => hne ?_⟩
    rw [hgk] at hj
    rw [hgk, (String.append_right_inj _).1 hj]

/-- Once all stages before the check of the keys have passed, only that check can fail. -/
theorem exists_resolve_duplicateKey_iff (hc : config.IsCovered) (hb : config.IsBuildable)
    (hg : expand config.blueprint.hierarchy config.roleBook (context.withTenant config.tenantId) config.tierPlan =
      .ok granted)
    (hp : ResolvedPrincipals.ofDefinitions config.servicePrincipals (context.withTenant config.tenantId)
      (.ofTexts config.owners) = .ok principals) :
    (∃ key, resolve config context = .error (.reference (.duplicateKey "assignment" key))) ↔
      ∃ key, checkUnique "assignment" ((sortedBy Assignment.key (granted ++ principals.assignments)).map
        Assignment.key) = .error (.duplicateKey "assignment" key) := by
  obtain ⟨summary, hs⟩ := exists_summary hc hb
  rw [resolve_of_isBuildable hc hb, hg]
  simp only [bind, Except.bind, hp, hs]
  cases checkUnique "assignment" ((sortedBy Assignment.key (granted ++ principals.assignments)).map
    Assignment.key) with
  | error cause => simp [Failure.reference]
  | ok _ => exact ⟨nofun, nofun⟩

/-- Once the hierarchy is built and the tiers and the service principals are expanded, the check of the keys
fails exactly if something is granted to groups and the roles of two persona groups overlap. The assignments
are those of the sources, and only sources of different groups at one place can have the same key. -/
theorem duplicateKey_iff {j : Json} (hj : PolicyConfig.ofJson j = .ok config)
    (hh : Hierarchy.build (.str config.orgPrefix) (.ofTexts config.environments) (.ofTexts config.projects)
      config.projectGroups (.ofTexts config.owners) = .ok h)
    (hg : expand h config.roleBook (context.withTenant config.tenantId) config.tierPlan = .ok granted)
    (hp : ResolvedPrincipals.ofDefinitions config.servicePrincipals (context.withTenant config.tenantId)
      (.ofTexts config.owners) = .ok principals) :
    ((∃ key, checkUnique "assignment" ((sortedBy Assignment.key (granted ++ principals.assignments)).map
        Assignment.key) = .error (.duplicateKey "assignment" key)) ↔
      config.tierPlan.Emits ∧ ∃ g ∈ h.layer .persona, ∃ k ∈ h.layer .persona, ∃ s a b : String,
        a ∈ config.roleBook.rolesOfGroup g ∧ b ∈ config.roleBook.rolesOfGroup k ∧
          k.key = g.key ++ "-" ++ s ∧ a = s ++ "-" ++ b) ∧
      (config.IsCovered →
        ((∃ key, resolve config context = .error (.reference (.duplicateKey "assignment" key))) ↔
          config.tierPlan.Emits ∧ config.HasOverlap)) ∧
      granted ++ principals.assignments = config.sources.map (·.assignment (config.tierPlan.scopeAt
        (context.withTenant config.tenantId))) ∧
      config.sources.Pairwise fun x y => x.key = y.key →
        ∃ place g k a b, x = .group place g a ∧ y = .group place k b ∧ g ≠ k := by
  have hv := isValid_of_ofJson hj
  obtain ⟨hb, rfl⟩ := build_eq_ok_iff.1 hh
  have hcheck : (∃ key, checkUnique "assignment" ((sortedBy Assignment.key (granted ++ principals.assignments)).map
      Assignment.key) = .error (.duplicateKey "assignment" key)) ↔ config.tierPlan.Emits ∧ config.HasOverlap := by
    rw [exists_duplicateKey_iff, nodup_sortedBy_iff, hv.nodup_iff hb.keys hg hp, not_not]
  refine ⟨hcheck, fun hc => ?_, assignments_eq_sources hv.owners hg hp, pairwise_sources hv hb.keys⟩
  rw [exists_resolve_duplicateKey_iff hc hb hg hp, hcheck]

/-! ## A configuration whose keys collide -/

/-- An environment that is named after the administrators of another one, and a role that continues
their key. -/
def collidingJson : Json := .obj [
  ("org_prefix", .str "acme"),
  ("environments", .ofTexts ["dev", "dev-admin-x"]),
  ("owners", .ofTexts ["owner"]),
  ("enable_subscription_assignments", .bool true),
  ("environment_role_overrides", .obj [
    ("dev", .obj [("admin", .ofTexts ["x-admin-Reader"])]),
    ("dev-admin-x", .obj [("non_technical", .ofTexts []), ("technical", .ofTexts []), ("solo_project", .ofTexts []),
      ("admin", .ofTexts ["Reader"])])])]

def colliding : PolicyConfig where
  orgPrefix := "acme"
  environments := ["dev", "dev-admin-x"]
  projects := []
  projectGroups := false
  owners := ["owner"]
  resourceGroups := none
  servicePrincipals := .empty
  managementGroupAssignments := false
  tenantAssignments := false
  subscriptionAssignments := true
  resourceGroupAssignments := false
  managementGroupName := none
  tenantId := none
  environmentTables := none
  resourceTypeTables := none
  environmentOverrides := some (.ofList [("dev", { admin := some ["x-admin-Reader"] }),
    ("dev-admin-x", ⟨some [], some [], some [], some ["Reader"]⟩)])
  resourceTypeOverrides := none
  customRoles := .empty

theorem isBuildable_colliding : colliding.IsBuildable where
  orgPrefix := by decide +kernel
  environments_ne := by decide
  environments := ⟨by decide +kernel, by decide +kernel⟩
  projects := ⟨by decide +kernel, by decide +kernel⟩
  keys := by
    rw [blueprint, Blueprint.ofTexts, sortedBy_of_pairwise (by decide), sortedBy_of_pairwise (by decide)]
    decide +kernel

theorem serves_colliding : ∀ g ∈ colliding.blueprint.hierarchy.layer .persona, colliding.roleBook.Serves g := by
  have hc : ∀ e ∈ colliding.environments, ∀ p, (colliding.roleBook.listed? e p).isSome = true ∧
      ∀ role ∈ colliding.roleBook.rolesIn e p, IsGrantable role := by decide +kernel
  intro g hg
  obtain ⟨e, he, p, rfl⟩ := mem_layer_persona.1 hg
  exact ⟨⟨e, p, rfl, rfl, (hc e he p).1⟩, (hc e he p).2⟩

theorem duplicateKey_colliding : ∃ h granted principals,
    Hierarchy.build (.str colliding.orgPrefix) (.ofTexts colliding.environments) (.ofTexts colliding.projects)
      colliding.projectGroups (.ofTexts colliding.owners) = .ok h ∧
    expand h colliding.roleBook (sampleContext.withTenant colliding.tenantId) colliding.tierPlan = .ok granted ∧
    ResolvedPrincipals.ofDefinitions colliding.servicePrincipals (sampleContext.withTenant colliding.tenantId)
      (.ofTexts colliding.owners) = .ok principals ∧
    ∃ key, checkUnique "assignment" ((sortedBy Assignment.key (granted ++ principals.assignments)).map
      Assignment.key) = .error (.duplicateKey "assignment" key) := by
  have hh := build_eq_ok_iff.2 ⟨isBuildable_colliding, rfl⟩
  have hready : ∀ t ∈ Tier.all, colliding.tierPlan.isOn t = true →
      colliding.tierPlan.IsReady (sampleContext.withTenant colliding.tenantId) t := by decide +kernel
  have hg := Expansion.expand_eq_ok_iff.2 ⟨fun t => hready t t.mem_all, fun _ => serves_colliding, rfl⟩
  have hp : ResolvedPrincipals.ofDefinitions colliding.servicePrincipals (sampleContext.withTenant colliding.tenantId)
      (.ofTexts colliding.owners) = .ok (.ofRecords []) := rfl
  refine ⟨_, _, _, hh, hg, hp, (duplicateKey_iff (j := collidingJson) rfl hh hg hp).1.2 ⟨?_, ?_⟩⟩
  · exact Or.inr (Or.inr (Or.inl rfl))
  · exact ⟨_, mem_layer_persona.2 ⟨"dev", by decide, .admin, rfl⟩, _,
      mem_layer_persona.2 ⟨"dev-admin-x", by decide, .admin, rfl⟩, "x-admin", "x-admin-Reader", "Reader",
      by decide +kernel, by decide +kernel, by decide +kernel, by decide⟩

end PolicyConfig

end AccessPlan
