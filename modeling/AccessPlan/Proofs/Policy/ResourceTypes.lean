import AccessPlan.Proofs.Policy.Acceptance
import AccessPlan.Proofs.Policy.Sections
import AccessPlan.Proofs.Policy.SummaryNames

/-!
# The resource types of a policy

A persona is shown with the resource types of the tables and with its roles for each (`get?_of_resourceTypeRolesOf`).
The types that resource groups list are only looked up for non-technical members before there is a policy, so a type
that is overridden for these need not be in a table.

* `IsKnownType`: a type is in a table, and every persona has roles for it and is shown with them.
* `isKnownType_iff_inTables`: types are known exactly if they are in a table.
* `isKnownType_of_listed_iff`: the listed types are known exactly if those that are overridden for non-technical
  members are in a table. `not_inTables_vault`: they need not be.
-/

namespace AccessPlan

theorem NameMap.mem_names_overlay {α : Type} {a b : NameMap α} {name : String} :
    name ∈ (a.overlay b).names ↔ name ∈ a.names ∨ name ∈ b.names := by
  rw [← isSome_get?_iff, ← isSome_get?_iff, ← isSome_get?_iff, get?_overlay, Option.isSome_or, Bool.or_eq_true, or_comm]

/-! ## What personas are shown with -/

namespace PolicySummary

variable {b : Blueprint} {book : RoleBook String} {r : Persona}

/-- A persona is shown with its roles for the resource types of the tables. -/
theorem get?_of_resourceTypeRolesOf {m : NameMap (List String)} (h : resourceTypeRolesOf book r = .ok m) {t : String}
    {roles : List String} :
    m.get? t = some roles ↔ t ∈ book.resourceTypes.names ∧ book.resourceTypeRoles t r = .ok roles := by
  obtain ⟨listed, hlisted, h⟩ := bind_eq_ok.1 h
  -- what was listed while the tables were run through, before it is read as texts
  have hmem : ∀ t roles, (t, roles) ∈ listed ↔
      t ∈ book.resourceTypes.names ∧ book.resourceTypeRoles t r = .ok roles := by
    intro t roles
    rw [mem_of_mapM_eq_ok hlisted]
    constructor
    · rintro ⟨name, hname, hroles⟩
      obtain ⟨found, hfound, hroles⟩ := bind_eq_ok.1 hroles
      obtain ⟨rfl, rfl⟩ := Prod.mk.inj (Except.ok.inj hroles)
      exact ⟨hname, hfound⟩
    · rintro ⟨hname, hroles⟩
      exact ⟨t, hname, by rw [hroles]; rfl⟩
  simp only [roleTexts_texts, Schema.Checked.under_ok, Schema.Checked.map_ok, all_map_ok,
    Schema.Checked.toExcept_eq_ok] at h
  rw [← Schema.Checked.ok.inj h, List.map_id'' fun _ => rfl, NameMap.get?_ofList_eq_some_iff, hmem]
  intro t roles roles' hm hm'
  exact Except.ok.inj (((hmem t roles).1 hm).2.symm.trans ((hmem t roles').1 hm').2)

/-- Every persona is shown, and with the roles that are found for it. -/
theorem exists_get?_byPersona {summary : PolicySummary} (h : ofHierarchy b.hierarchy book = .ok summary) (r : Persona) :
    ∃ s, summary.byPersona.get? r.name = some s ∧ resourceTypeRolesOf book r = .ok s.resourceTypeRoles := by
  have hname := (mem_names_byPersona h).2 ⟨r, rfl⟩
  obtain ⟨s, hs⟩ := Option.isSome_iff_exists.1 (NameMap.isSome_get?_iff.2 hname)
  obtain ⟨typeRoles, ht, h⟩ := bind_eq_ok.1 h
  obtain ⟨sections, -, h⟩ := bind_eq_ok.1 h
  obtain rfl := Except.ok.inj h
  obtain ⟨⟨r', roles⟩, hd, he⟩ := List.mem_map.1 (NameMap.mem_ofList (NameMap.get?_eq_some_iff.1 hs))
  obtain ⟨hr, rfl⟩ := Prod.mk.inj he
  obtain rfl := Persona.name_inj hr
  obtain ⟨r', -, hd⟩ := (mem_of_mapM_eq_ok ht).1 hd
  obtain ⟨found, hfound, hd⟩ := bind_eq_ok.1 hd
  obtain ⟨rfl, rfl⟩ := Prod.mk.inj (Except.ok.inj hd)
  exact ⟨_, hs, hfound⟩

end PolicySummary

namespace PolicyConfig

/-! ## Known types -/

section Definitions

variable (config : PolicyConfig) (t : String)

/-- Some resource group lists the resource type. -/
def ListsType : Prop := ∃ entry ∈ (config.resourceGroups.getD .empty).entries, t ∈ entry.2.resourceTypes

/-- There is a table for the resource type, a built-in or a supplied one. -/
def InTables : Prop :=
  t ∈ (RoleTable.builtinResourceTypes : RoleTable String).names ∨ t ∈ (config.resourceTypeTables.getD .empty).names

/-- The roles of a persona for the resource type are overridden. -/
def OverridesType (r : Persona) : Prop :=
  (RoleBook.override? (config.resourceTypeOverrides.getD .empty) t r).isSome = true

/-- There is a table for the resource type, and every persona has roles for it, which the policy shows. -/
structure IsKnownType (p : ResolvedPolicy) : Prop where
  inTables : config.InTables t
  shown : ∀ r : Persona, ∃ roles, config.roleBook.resourceTypeRoles t r = .ok roles ∧
    ∃ s, p.summary.byPersona.get? r.name = some s ∧ s.resourceTypeRoles.get? t = some roles

end Definitions

variable {config : PolicyConfig} {context : Context} {p : ResolvedPolicy} {t : String} {r : Persona}

instance : Decidable (config.InTables t) := inferInstanceAs (Decidable (_ ∨ _))

instance : Decidable (config.OverridesType t r) := inferInstanceAs (Decidable (_ = true))

theorem inTables_iff : config.InTables t ↔ t ∈ config.roleBook.resourceTypes.names :=
  NameMap.mem_names_overlay.symm

/-- For which personas a resource type can be looked up. -/
theorem exists_roles_iff : (∃ roles, config.roleBook.resourceTypeRoles t r = .ok roles) ↔
    config.InTables t ∨ config.OverridesType t r := by
  rw [RoleBook.exists_resourceTypeRoles_iff, RoleBook.KnowsType, ← inTables_iff, or_comm]
  rfl

section Resolved

variable (h : resolve config context = .ok p)
include h

/-- The check looks a listed type up for non-technical members. -/
theorem inTables_or_overrides (ht : config.ListsType t) : config.InTables t ∨ config.OverridesType t .nonTechnical := by
  obtain ⟨hc, -⟩ := resolve_eq_ok_iff.1 h
  obtain ⟨entry, he, ht⟩ := ht
  exact exists_roles_iff.1 (RoleBook.exists_resourceTypeRoles_iff.2 (hc.types entry he t ht))

/-- Every persona is shown with the types of the tables, and with no others. -/
theorem exists_shown (r : Persona) : ∃ s, p.summary.byPersona.get? r.name = some s ∧ ∀ t roles,
    s.resourceTypeRoles.get? t = some roles ↔
      config.InTables t ∧ config.roleBook.resourceTypeRoles t r = .ok roles := by
  obtain ⟨-, -, _, _, summary, -, -, -, hs, rfl⟩ := resolve_eq_ok_iff.1 h
  obtain ⟨s, hget, hroles⟩ := PolicySummary.exists_get?_byPersona hs r
  refine ⟨s, hget, fun t roles => ?_⟩
  rw [PolicySummary.get?_of_resourceTypeRolesOf hroles, inTables_iff]

theorem isKnownType_iff_inTables : config.IsKnownType t p ↔ config.InTables t := by
  refine ⟨fun hk => hk.inTables, fun ht => ⟨ht, fun r => ?_⟩⟩
  obtain ⟨roles, hroles⟩ := exists_roles_iff.2 (Or.inl ht : config.InTables t ∨ config.OverridesType t r)
  obtain ⟨s, hs, hget⟩ := exists_shown h r
  exact ⟨roles, hroles, s, hs, (hget t roles).2 ⟨ht, hroles⟩⟩

end Resolved

/-! ## Listed types -/

/-- Once there is a policy, every listed type is in a table or overridden for non-technical members. It can be looked up
for a persona if it is in a table or overridden for this one, and only the types of the tables are shown. So all listed
types are known exactly if those that are overridden for non-technical members are in a table as well. -/
theorem isKnownType_of_listed_iff (h : resolve config context = .ok p) :
    (∀ t, config.ListsType t → config.InTables t ∨ config.OverridesType t .nonTechnical) ∧
      (∀ t r, (∃ roles, config.roleBook.resourceTypeRoles t r = .ok roles) ↔
        config.InTables t ∨ config.OverridesType t r) ∧
      (∀ r : Persona, ∃ s, p.summary.byPersona.get? r.name = some s ∧ ∀ t roles,
        s.resourceTypeRoles.get? t = some roles ↔
          config.InTables t ∧ config.roleBook.resourceTypeRoles t r = .ok roles) ∧
      ((∀ t, config.ListsType t → config.IsKnownType t p) ↔
        ∀ t, config.ListsType t → config.OverridesType t .nonTechnical → config.InTables t) := by
  refine ⟨fun t => inTables_or_overrides h, fun t r => exists_roles_iff, exists_shown h, ?_⟩
  simp only [isKnownType_iff_inTables h]
  constructor
  · exact fun hall t ht _ => hall t ht
  · exact fun hall t ht => (inTables_or_overrides h ht).elim id (hall t ht)

theorem isKnownType_sample : ∃ p, resolve sample sampleContext = .ok p ∧ sample.ListsType "storage" ∧
    sample.IsKnownType "storage" p := by
  obtain ⟨p, h⟩ := isAcceptable_sample.exists_policy (isValid_of_ofJson (j := sampleJson) rfl)
  have hlists : sample.ListsType "storage" := ⟨_, List.mem_cons_self, List.mem_cons_self⟩
  have hnone : ∀ t, sample.ListsType t → sample.OverridesType t .nonTechnical → sample.InTables t :=
    fun t _ ht => absurd ht (by simp [OverridesType, sample, RoleBook.override?])
  exact ⟨p, h, hlists, (isKnownType_of_listed_iff h).2.2.2.2 hnone "storage" hlists⟩

/-! ## A type without a table -/

/-- A resource group with a type that is only overridden, and only for non-technical members. -/
def vaultJson : Json := .obj [
  ("org_prefix", .str "acme"),
  ("environments", .ofTexts ["dev"]),
  ("owners", .ofTexts ["owner"]),
  ("resource_groups", .obj [("core", .obj [
    ("id", .str "/subscriptions/s/resourceGroups/core"), ("name", .str "core"), ("environment", .str "dev"),
    ("resource_types", .ofTexts ["vault"])])]),
  ("resource_type_role_overrides", .obj [("vault", .obj [("non_technical", .ofTexts ["Reader"])])])]

/-- The same configuration as it is read. -/
def vault : PolicyConfig where
  orgPrefix := "acme"
  environments := ["dev"]
  projects := []
  projectGroups := false
  owners := ["owner"]
  resourceGroups := some (.ofList [("core", ⟨"/subscriptions/s/resourceGroups/core", "core", "dev", ["vault"],
    .medium⟩)])
  servicePrincipals := .empty
  managementGroupAssignments := false
  tenantAssignments := false
  subscriptionAssignments := false
  resourceGroupAssignments := false
  managementGroupName := none
  tenantId := none
  environmentTables := none
  resourceTypeTables := none
  environmentOverrides := none
  resourceTypeOverrides := some (.ofList [("vault", { nonTechnical := some ["Reader"] })])
  customRoles := .empty

theorem isAcceptable_vault : vault.IsAcceptable (sampleContext.withTenant vault.tenantId) where
  covered := {
    listed := by decide +kernel
    environment := by decide +kernel
    types := by decide +kernel }
  environments := ⟨by decide +kernel, by decide +kernel⟩
  projects := ⟨by decide +kernel, by decide +kernel⟩
  keys := by
    rw [blueprint, Blueprint.ofTexts_of_pairwise (by decide) (by decide)]
    decide +kernel
  ready := by decide +kernel
  roles := fun _ => by decide +kernel
  rotation := by decide +kernel
  credentials := by decide +kernel
  grants := by decide +kernel
  overlap := fun _ => not_hasOverlap (by decide +kernel)

/-- A policy is made for a listed type without a table. Nobody but non-technical members has roles for it, and nobody is
shown with it. -/
theorem not_inTables_vault : PolicyConfig.ofJson vaultJson = .ok vault ∧
    ∃ p, resolve vault sampleContext = .ok p ∧ vault.ListsType "vault" ∧ ¬ vault.InTables "vault" ∧
      (∀ r ≠ .nonTechnical, ¬ ∃ roles, vault.roleBook.resourceTypeRoles "vault" r = .ok roles) ∧
      ∀ r : Persona, ∃ s, p.summary.byPersona.get? r.name = some s ∧ s.resourceTypeRoles.get? "vault" = none := by
  have hj : PolicyConfig.ofJson vaultJson = .ok vault := rfl
  obtain ⟨p, h⟩ := isAcceptable_vault.exists_policy (isValid_of_ofJson hj)
  have htables : ¬ vault.InTables "vault" := by decide +kernel
  refine ⟨hj, p, h, ⟨_, List.mem_cons_self, List.mem_cons_self⟩, htables, fun r hr => ?_, fun r => ?_⟩
  · rw [exists_roles_iff, or_iff_right htables]
    cases r <;> first | exact absurd rfl hr | decide +kernel
  · obtain ⟨s, hs, hget⟩ := exists_shown h r
    exact ⟨s, hs, Option.eq_none_iff_forall_ne_some.2 fun roles hroles => htables ((hget _ _).1 hroles).1⟩

end PolicyConfig

end AccessPlan
