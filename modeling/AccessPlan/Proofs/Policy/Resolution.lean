import AccessPlan.Proofs.Assignment.Tiers
import AccessPlan.Proofs.Hierarchy.Building
import AccessPlan.Proofs.Policy.Summary
import AccessPlan.Proofs.Policy.Validity
import AccessPlan.Proofs.Principal.Issuing

/-!
# The stages of a resolution

A resolution succeeds exactly when the tables cover the configuration, its hierarchy can be built, the tiers
and the service principals can be expanded, and no key of an assignment occurs twice (`resolve_eq_ok_iff`).
The checks of the topology and the summary never fail then.

Only the two expansions can escape (`escapes_resolve_iff`).
-/

namespace AccessPlan

section Unique

variable {kind : String} {keys keys' : List String}

/-- The check of keys passes exactly when they are different. -/
theorem checkUnique_eq_ok_iff : checkUnique kind keys = .ok () ↔ keys.Nodup := by
  rw [← firstRepeated_eq_none, checkUnique]
  cases firstRepeated keys with
  | none => exact ⟨fun _ => rfl, fun _ => rfl⟩
  | some key => exact ⟨nofun, nofun⟩

/-- If the keys are not different, one of them is named. -/
theorem exists_duplicateKey_iff : (∃ key, checkUnique kind keys = .error (.duplicateKey kind key)) ↔ ¬ keys.Nodup := by
  rw [← checkUnique_eq_ok_iff, checkUnique]
  cases firstRepeated keys with
  | none => exact ⟨nofun, fun h => absurd rfl h⟩
  | some key => exact ⟨fun _ => nofun, fun _ => ⟨key, rfl⟩⟩

theorem nodup_sortedBy_iff {as : List Assignment} :
    ((sortedBy Assignment.key as).map Assignment.key).Nodup ↔ (as.map Assignment.key).Nodup :=
  ((sortedBy_perm Assignment.key as).map Assignment.key).nodup_iff

end Unique

namespace PolicyConfig

variable (config : PolicyConfig)

/-- The blueprint of the hierarchy. -/
def blueprint : Blueprint :=
  .ofTexts config.orgPrefix config.environments config.projects config.projectGroups config.owners

/-- The hierarchy can be built. -/
structure IsBuildable : Prop where
  orgPrefix : isPrefixText config.orgPrefix = true
  environments_ne : config.environments ≠ []
  environments : AreNames config.environments
  projects : AreNames config.projects
  keys : (config.blueprint.groups.map Group.key).Nodup

/-- The policy of what the stages give. -/
def assemble (c : Context) (granted : List Assignment) (principals : ResolvedPrincipals) (summary : PolicySummary) :
    ResolvedPolicy where
  groups := sortedBy Group.key config.blueprint.groups
  memberships := sortedBy Membership.key config.blueprint.hierarchy.memberships
  roleDefinitions := RoleDefinition.ofCustomRoles config.customRoles c
  assignments := sortedBy Assignment.key (granted ++ principals.assignments)
  applications := principals.applications
  servicePrincipals := principals.servicePrincipals
  ownerEdges := sortedBy OwnerEdge.key principals.ownerEdges
  credentials := principals.credentials
  summary := summary

variable {config} {context c : Context} {h : Hierarchy} {p : ResolvedPolicy}

theorem build_eq_ok_iff : Hierarchy.build (.str config.orgPrefix) (.ofTexts config.environments)
    (.ofTexts config.projects) config.projectGroups (.ofTexts config.owners) = .ok h ↔
      config.IsBuildable ∧ h = config.blueprint.hierarchy := by
  rw [build_texts_eq_ok_iff]
  constructor
  · rintro ⟨hp, he, hes, hps, hk, rfl⟩
    exact ⟨⟨hp, he, hes, hps, hk⟩, rfl⟩
  · rintro ⟨hb, rfl⟩
    exact ⟨hb.orgPrefix, hb.environments_ne, hb.environments, hb.projects, hb.keys, rfl⟩

theorem mem_environments_blueprint {e : String} : e ∈ config.blueprint.environments ↔ e ∈ config.environments :=
  mem_sortedBy

/-- The persona groups are those of the configured environments. -/
theorem mem_layer_persona {g : Group} : g ∈ config.blueprint.hierarchy.layer .persona ↔
    ∃ e ∈ config.environments, ∃ p, g = config.blueprint.personaGroup e p := by
  rw [Blueprint.layer_persona]
  simp only [List.mem_flatMap, List.mem_map, mem_environments_blueprint]
  constructor
  · rintro ⟨e, he, p, -, rfl⟩
    exact ⟨e, he, p, rfl⟩
  · rintro ⟨e, he, p, rfl⟩
    exact ⟨e, he, p, p.mem_all, rfl⟩

theorem IsCovered.lists (hc : config.IsCovered) :
    ∀ g ∈ config.blueprint.hierarchy.layer .persona, config.roleBook.Lists g := by
  intro g hg
  obtain ⟨e, he, p, rfl⟩ := mem_layer_persona.1 hg
  exact ⟨e, p, rfl, rfl, hc.listed e he p⟩

theorem exists_summary (hc : config.IsCovered) (hb : config.IsBuildable) :
    ∃ summary, PolicySummary.ofHierarchy config.blueprint.hierarchy config.roleBook = .ok summary :=
  PolicySummary.exists_ofHierarchy hb.keys fun e he p => hc.listed e (mem_environments_blueprint.1 he) p

end PolicyConfig

section Resolve

variable {config : PolicyConfig} {context : Context} {p : ResolvedPolicy}

/-- What is left to do once the tables cover the configuration and its hierarchy is built. -/
theorem resolve_of_isBuildable (hc : config.IsCovered) (hb : config.IsBuildable) : resolve config context = (do
    let granted ← expand config.blueprint.hierarchy config.roleBook (context.withTenant config.tenantId)
      config.tierPlan
    let principals ← ResolvedPrincipals.ofDefinitions config.servicePrincipals (context.withTenant config.tenantId)
      (.ofTexts config.owners)
    (checkUnique "assignment" ((sortedBy Assignment.key (granted ++ principals.assignments)).map
      Assignment.key)).mapError .reference
    let summary ← PolicySummary.ofHierarchy config.blueprint.hierarchy config.roleBook
    return config.assemble (context.withTenant config.tenantId) granted principals summary) := by
  have hcoverage := checkCoverage_eq_ok_iff.2 hc
  have hbuild := PolicyConfig.build_eq_ok_iff.2 ⟨hb, rfl⟩
  have htopology := Blueprint.checkTopology_groups hb.keys
  simp only [resolve, hcoverage, hbuild, bind, Except.bind, Blueprint.groups_hierarchy, htopology, mapError_ok]
  rfl

/-- When a resolution succeeds, and which policy it gives. -/
theorem resolve_eq_ok_iff : resolve config context = .ok p ↔ config.IsCovered ∧ config.IsBuildable ∧
    ∃ granted principals summary,
      expand config.blueprint.hierarchy config.roleBook (context.withTenant config.tenantId) config.tierPlan =
        .ok granted ∧
      ResolvedPrincipals.ofDefinitions config.servicePrincipals (context.withTenant config.tenantId)
        (.ofTexts config.owners) = .ok principals ∧
      ((granted ++ principals.assignments).map Assignment.key).Nodup ∧
      PolicySummary.ofHierarchy config.blueprint.hierarchy config.roleBook = .ok summary ∧
      p = config.assemble (context.withTenant config.tenantId) granted principals summary := by
  simp only [resolve, bind_eq_ok, mapError_eq_ok, PolicyConfig.build_eq_ok_iff]
  constructor
  · rintro ⟨⟨⟩, hc, h, ⟨hb, rfl⟩, -, -, granted, hg, principals, hp, ⟨⟩, hu, summary, hs, hr⟩
    rw [checkUnique_eq_ok_iff, nodup_sortedBy_iff] at hu
    exact ⟨checkCoverage_eq_ok_iff.1 hc, hb, granted, principals, summary, hg, hp, hu, hs, (Except.ok.inj hr).symm⟩
  · rintro ⟨hc, hb, granted, principals, summary, hg, hp, hu, hs, rfl⟩
    rw [← nodup_sortedBy_iff, ← checkUnique_eq_ok_iff] at hu
    exact ⟨(), checkCoverage_eq_ok_iff.2 hc, _, ⟨hb, rfl⟩, (), Blueprint.checkTopology_groups hb.keys, granted, hg,
      principals, hp, (), hu, summary, hs, rfl⟩

/-- Only the expansions of the tiers and of the service principals escape. -/
theorem escapes_resolve_iff : Escapes (resolve config context) ↔ config.IsCovered ∧ config.IsBuildable ∧
    (Escapes (expand config.blueprint.hierarchy config.roleBook (context.withTenant config.tenantId) config.tierPlan) ∨
      ∃ granted, expand config.blueprint.hierarchy config.roleBook (context.withTenant config.tenantId)
          config.tierPlan = .ok granted ∧
        Escapes (ResolvedPrincipals.ofDefinitions config.servicePrincipals (context.withTenant config.tenantId)
          (.ofTexts config.owners))) := by
  have hcause : ∀ {x : Except ReferenceCause Unit}, ¬ Escapes (x.mapError .reference) :=
    not_escapes_mapError fun _ => trivial
  have hpure : ∀ {x : ResolvedPolicy}, ¬ Escapes (pure x) := not_escapes_ok
  simp only [resolve, escapes_bind, not_escapes_checkCoverage, not_escapes_build, hcause, hpure, false_or,
    mapError_eq_ok, PolicyConfig.build_eq_ok_iff, and_false, exists_false, or_false]
  constructor
  · rintro ⟨⟨⟩, hc, h, ⟨hb, rfl⟩, -, -, he | ⟨granted, hg, he | ⟨principals, hp, -, -, hs⟩⟩⟩ <;>
      rw [checkCoverage_eq_ok_iff] at hc
    · exact ⟨hc, hb, Or.inl he⟩
    · exact ⟨hc, hb, Or.inr ⟨granted, hg, he⟩⟩
    · obtain ⟨summary, hok⟩ := PolicyConfig.exists_summary hc hb
      rw [hok] at hs
      exact absurd hs not_escapes_ok
  · rintro ⟨hc, hb, he⟩
    refine ⟨(), checkCoverage_eq_ok_iff.2 hc, _, ⟨hb, rfl⟩, (), Blueprint.checkTopology_groups hb.keys, ?_⟩
    rcases he with he | ⟨granted, hg, he⟩
    · exact Or.inl he
    · exact Or.inr ⟨granted, hg, Or.inl he⟩

end Resolve

end AccessPlan
