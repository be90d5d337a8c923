import AccessPlan.Proofs.Ending
import AccessPlan.Proofs.Policy.Acceptance
import AccessPlan.Proofs.Policy.Records
import AccessPlan.Proofs.Schema.Agreement

/-!
# Rearranged configurations

Two configurations may be the same but for the order of environments and projects, and for the order and the repetitions
of owners, tags, permissions and resource types (`PolicyConfig.fieldRelation`). They are then read as configurations
that are the same but for that (`carries_read`), where the permissions are in order already.

* `sameEnd_resolve`: resolving them ends alike. The coverage and the names may be refused for another reason of the same
  kind; the hierarchy, the grants and the service principals are the same.
* `ends_of_rearranged`: so they have the same policy and the same documents, or are both refused.
-/

namespace AccessPlan

open Schema (Origin Checked Reader)
open Json (Reordered SameItems SameEntries SameFields)

/-! ## Configurations as they are written -/

/-- How the fields of two definitions of a service principal are related: owners and tags may be in another order. -/
def PrincipalDefinition.fieldRelation : String → Json → Json → Prop
  | "owners" => SameItems
  | "tags" => SameItems
  | _ => Eq

/-- How the fields of two custom roles are related: permissions may be in another order. -/
def CustomRole.fieldRelation : String → Json → Json → Prop
  | "actions" => SameItems
  | "not_actions" => SameItems
  | "data_actions" => SameItems
  | "not_data_actions" => SameItems
  | _ => Eq

def ResourceGroup.fieldRelation : String → Json → Json → Prop
  | "resource_types" => SameItems
  | _ => Eq

/-- How the fields of two configurations are related. -/
def PolicyConfig.fieldRelation : String → Json → Json → Prop
  | "environments" => Reordered
  | "projects" => Reordered
  | "owners" => SameItems
  | "service_principals" => SameEntries (SameFields PrincipalDefinition.fieldRelation)
  | "custom_roles" => SameEntries (SameFields CustomRole.fieldRelation)
  | "resource_groups" => SameEntries (SameFields ResourceGroup.fieldRelation)
  | _ => Eq

/-! ## Configurations as they are read -/

/-- Definitions that are the same but for the order and the repetitions of owners and tags. -/
structure PrincipalDefinition.Rearranged (d d' : PrincipalDefinition) : Prop where
  owners : SameMembers d.owners d'.owners
  tags : SameMembers d.tags d'.tags
  rest : d' = { d with owners := d'.owners, tags := d'.tags }

structure ResourceGroup.Rearranged (r r' : ResourceGroup) : Prop where
  resourceTypes : SameMembers r.resourceTypes r'.resourceTypes
  rest : r' = { r with resourceTypes := r'.resourceTypes }

/-- Configurations that are the same but for the order of names, owners, tags and resource types. -/
structure PolicyConfig.Rearranged (c c' : PolicyConfig) : Prop where
  environments : c.environments.Perm c'.environments
  projects : c.projects.Perm c'.projects
  owners : SameMembers c.owners c'.owners
  resourceGroups : Option.Rel (NameMap.Related ResourceGroup.Rearranged) c.resourceGroups c'.resourceGroups
  servicePrincipals : c.servicePrincipals.Related PrincipalDefinition.Rearranged c'.servicePrincipals
  rest : c' = { c with
    environments := c'.environments
    projects := c'.projects
    owners := c'.owners
    resourceGroups := c'.resourceGroups
    servicePrincipals := c'.servicePrincipals }

section Reading

variable {origin : Origin}

theorem PrincipalDefinition.carries_read :
    (PrincipalDefinition.read origin).Carries (SameFields fieldRelation) Rearranged := by
  refine Reader.Carries.record fun j j' hj => ?_
  refine .seq (Reader.carries_sameField "rotation_days" rfl j j' hj) ?_
  refine .seq (Reader.carries_texts_sameItems.withDefault (.refl []) j j' hj) ?_
  refine .seq (Reader.carries_sameField "roles" rfl j j' hj) ?_
  refine .seq (Reader.carries_texts_sameItems.withDefault (.refl []) j j' hj) ?_
  refine .seq (Reader.carries_sameField "description" rfl j j' hj) ?_
  refine .map ?_ (Reader.carries_sameRequired "display_name" rfl j j' hj)
  rintro _ name rfl _ description rfl _ _ howners _ _ rfl _ _ htags _ _ rfl
  exact ⟨howners, htags, rfl⟩

theorem PrincipalDefinition.sameFields_refl : ∀ j, SameFields fieldRelation j j := SameFields.refl fun name j => by
  unfold fieldRelation
  split
  · exact .refl j
  · exact .refl j
  · rfl

theorem ResourceGroup.carries_read :
    (ResourceGroup.read origin).Carries (SameFields fieldRelation) Rearranged := by
  refine Reader.Carries.record fun j j' hj => ?_
  refine .seq (Reader.carries_sameField "criticality_level" rfl j j' hj) ?_
  refine .seq (Reader.carries_texts_sameItems.withDefault (.refl []) j j' hj) ?_
  refine .seq (Reader.carries_sameRequired "environment" rfl j j' hj) ?_
  refine .seq (Reader.carries_sameRequired "name" rfl j j' hj) ?_
  refine .map ?_ (Reader.carries_sameRequired "id" rfl j j' hj)
  rintro _ id rfl _ name rfl _ environment rfl _ _ htypes _ _ rfl
  exact ⟨htypes, rfl⟩

theorem ResourceGroup.sameFields_refl : ∀ j, SameFields fieldRelation j j := SameFields.refl fun name j => by
  unfold fieldRelation
  split
  · exact .refl j
  · rfl

/-- Permissions are put in order when they are read. -/
theorem CustomRole.carries_permissions : permissions.Carries SameItems Eq := fun j j' hj =>
  .map (fun _ _ => sortedUnique_eq_of_mem_iff) (Reader.carries_texts_sameItems j j' hj)

theorem CustomRole.carries_read : (CustomRole.read origin).Carries (SameFields fieldRelation) Eq := by
  refine Reader.Carries.record fun j j' hj => ?_
  refine .seq (carries_permissions.withDefault rfl j j' hj) ?_
  refine .seq (carries_permissions.withDefault rfl j j' hj) ?_
  refine .seq (carries_permissions.withDefault rfl j j' hj) ?_
  refine .seq (carries_permissions.withDefault rfl j j' hj) ?_
  refine .map ?_ (Reader.carries_sameField "description" rfl j j' hj)
  rintro _ description rfl _ actions rfl _ notActions rfl _ dataActions rfl _ notDataActions rfl
  rfl

theorem CustomRole.sameFields_refl : ∀ j, SameFields fieldRelation j j := SameFields.refl fun name j => by
  unfold fieldRelation
  split
  · exact .refl j
  · exact .refl j
  · exact .refl j
  · exact .refl j
  · rfl

end Reading

namespace PolicyConfig

section Fields

variable {origin : Origin}

theorem carries_ownersField : ownersField.Carries SameItems SameMembers := by
  refine Reader.Carries.andThen (Reader.Carries.listOfLeast Reader.carries_texts_sameItems) fun owners owners' h => ?_
  split at h
  · cases h
  · exact (Checked.ok.inj h).symm

theorem carries_segmentMap {α : Type} {read : Reader α} {R : Json → Json → Prop} {S : α → α → Prop}
    (h : read.Carries R S) (hR : ∀ j, R j j) : (segmentMap read).Carries (SameEntries R) (NameMap.Related S) :=
  (h.mapOf hR).of_ok fun _ _ hm => (segmentMap_eq_ok.1 hm).1

theorem carries_resourceGroups : (Reader.nullable (segmentMap (ResourceGroup.read origin))).Carries
    (SameEntries (SameFields ResourceGroup.fieldRelation))
    (Option.Rel (NameMap.Related ResourceGroup.Rearranged)) :=
  (carries_segmentMap ResourceGroup.carries_read ResourceGroup.sameFields_refl).nullable

theorem carries_servicePrincipals : (segmentMap (PrincipalDefinition.read origin)).Carries
    (SameEntries (SameFields PrincipalDefinition.fieldRelation))
    (NameMap.Related PrincipalDefinition.Rearranged) :=
  carries_segmentMap PrincipalDefinition.carries_read PrincipalDefinition.sameFields_refl

theorem carries_customRoles : (Reader.mapOf (CustomRole.read origin)).Carries
    (SameEntries (SameFields CustomRole.fieldRelation)) Eq := by
  intro j j' hj m m' hm hm'
  exact (CustomRole.carries_read.mapOf CustomRole.sameFields_refl j j' hj m m' hm hm').eq

/-- Rearranged configurations are read as such. -/
theorem carries_read : (PolicyConfig.read origin).Carries (SameFields fieldRelation) Rearranged := by
  refine Reader.Carries.record fun j j' hj => ?_
  refine .seq (carries_customRoles.withDefault rfl j j' hj) ?_
  refine .seq (Reader.carries_sameField "resource_type_role_overrides" rfl j j' hj) ?_
  refine .seq (Reader.carries_sameField "environment_role_overrides" rfl j j' hj) ?_
  refine .seq (Reader.carries_sameField "resource_type_role_tables" rfl j j' hj) ?_
  refine .seq (Reader.carries_sameField "environment_role_tables" rfl j j' hj) ?_
  refine .seq (Reader.carries_sameField "tenant_id" rfl j j' hj) ?_
  refine .seq (Reader.carries_sameField "management_group_name" rfl j j' hj) ?_
  refine .seq (Reader.carries_sameField "enable_resource_group_assignments" rfl j j' hj) ?_
  refine .seq (Reader.carries_sameField "enable_subscription_assignments" rfl j j' hj) ?_
  refine .seq (Reader.carries_sameField "enable_tenant_assignments" rfl j j' hj) ?_
  refine .seq (Reader.carries_sameField "enable_management_group_assignments" rfl j j' hj) ?_
  refine .seq (carries_servicePrincipals.withDefault .nil j j' hj) ?_
  refine .seq (carries_resourceGroups.withDefault .none j j' hj) ?_
  refine .seq (carries_ownersField.required j j' hj) ?_
  refine .seq (Reader.carries_sameField "enable_project_groups" rfl j j' hj) ?_
  refine .seq (Reader.carries_texts_reordered.withDefault .nil j j' hj) ?_
  refine .seq ((Reader.Carries.listOfLeast Reader.carries_texts_reordered).required j j' hj) ?_
  refine .map ?_ (Reader.carries_sameRequired "org_prefix" rfl j j' hj)
  rintro _ _ rfl _ _ henvironments _ _ hprojects _ _ rfl _ _ howners _ _ hgroups _ _ hprincipals
  rintro _ _ rfl _ _ rfl _ _ rfl _ _ rfl _ _ rfl _ _ rfl _ _ rfl _ _ rfl _ _ rfl _ _ rfl _ _ rfl
  exact ⟨henvironments, hprojects, howners, hgroups, hprincipals, rfl⟩

end Fields

end PolicyConfig

/-! ## What a resolution makes of them -/

section Stages

variable {book : RoleBook String} {c : Context} {h : Hierarchy}

theorem areNames_iff_of_perm {names names' : List String} (hn : names.Perm names') : AreNames names ↔ AreNames names' :=
  ⟨fun h => ⟨fun n hm => h.isName n (hn.mem_iff.2 hm), hn.nodup_iff.1 h.nodup⟩,
    fun h => ⟨fun n hm => h.isName n (hn.mem_iff.1 hm), hn.nodup_iff.2 h.nodup⟩⟩

/-- A resource group whose types are in another order is checked alike. -/
theorem ResourceGroup.Rearranged.sameEnd_check {r r' : ResourceGroup} {name : String} {environments : List String}
    {environments' : List String} (hr : r.Rearranged r') (he : environments.Perm environments') :
    SameEnd (checkResourceGroup book environments name r) (checkResourceGroup book environments' name r') := by
  have henvironment : r'.environment = r.environment := by rw [hr.rest]
  unfold checkResourceGroup
  rw [henvironment]
  by_cases hm : r.environment ∈ environments
  · have hm' : r.environment ∈ environments' := he.mem_iff.1 hm
    simp only [hm, hm', not_true_eq_false, if_false]
    refine sameEnd_forM_of_mem_iff hr.resourceTypes fun t _ u _ f f' hf hf' => ?_
    have hlookup : ∀ {t : String} {f : Failure}, (do let _ ← book.resourceTypeRoles t .nonTechnical) = .error f →
        ∃ cause, f = .roleLookup cause := by
      intro t f hf
      rcases bind_eq_error.1 hf with hf | ⟨-, -, hf⟩
      · exact RoleBook.exists_cause_of_rolesOf hf
      · cases hf
    obtain ⟨cause, rfl⟩ := hlookup hf
    obtain ⟨cause', rfl⟩ := hlookup hf'
    exact Failure.sameClass_roleLookup cause cause'
  · have hm' : r.environment ∉ environments' := fun hm' => hm (he.mem_iff.2 hm')
    simp only [hm, hm', not_false_eq_true, if_true]
    exact .refl _

/-- A definition whose owners and tags are in another order is expanded to the same records. -/
theorem PrincipalDefinition.Rearranged.ofDefinition_eq {d d' : PrincipalDefinition} {owners owners' : List String}
    {name : String} (hd : d.Rearranged d') (ho : SameMembers owners owners') :
    PrincipalRecords.ofDefinition c (.ofTexts owners) name d =
      PrincipalRecords.ofDefinition c (.ofTexts owners') name d' := by
  have howners : d.ownersOr owners = d'.ownersOr owners' := by
    have hempty : d.owners.isEmpty = d'.owners.isEmpty := by
      rw [Bool.eq_iff_iff, List.isEmpty_iff, List.isEmpty_iff, List.eq_nil_iff_forall_not_mem,
        List.eq_nil_iff_forall_not_mem]
      exact forall_congr' fun o => not_congr (hd.owners o)
    rw [ownersOr, ownersOr, ← hempty]
    refine sortedUnique_eq_of_mem_iff ?_
    split
    · exact ho
    · exact hd.owners
  have htags : sortedUnique d'.tags = sortedUnique d.tags := sortedUnique_eq_of_mem_iff fun t => (hd.tags t).symm
  have hdays : PrincipalRecords.rotationDaysOf d' c = PrincipalRecords.rotationDaysOf d c := by
    rw [hd.rest]
    rfl
  have hname : d'.displayName = d.displayName := by rw [hd.rest]
  have hdescription : d'.description = d.description := by rw [hd.rest]
  have hroles : d'.roles = d.roles := by rw [hd.rest]
  simp only [PrincipalRecords.ofDefinition, PrincipalRecords.effectiveOwners_texts, howners, htags, hdays, hname,
    hdescription, hroles]

theorem ofDefinitions_eq {definitions definitions' : NameMap PrincipalDefinition} {owners owners' : List String}
    (hd : definitions.Related PrincipalDefinition.Rearranged definitions') (ho : SameMembers owners owners') :
    ResolvedPrincipals.ofDefinitions definitions c (.ofTexts owners) =
      ResolvedPrincipals.ofDefinitions definitions' c (.ofTexts owners') := by
  unfold ResolvedPrincipals.ofDefinitions
  rw [mapM_eq_of_forall₂ hd]
  rintro ⟨name, d⟩ ⟨_, d'⟩ ⟨rfl, hrel⟩
  exact hrel.ofDefinition_eq ho

/-- The types of resource groups do not matter for what is granted on them. -/
theorem grantsOnResourceGroups_eq {groups : List Group} {named named' : Option (NameMap ResourceGroup)}
    (hn : Option.Rel (NameMap.Related ResourceGroup.Rearranged) named named') :
    Expansion.grantsOnResourceGroups book groups named = Expansion.grantsOnResourceGroups book groups named' := by
  cases hn with
  | none => rfl
  | some hm =>
    unfold Expansion.grantsOnResourceGroups
    simp only
    rw [mapM_eq_of_forall₂ hm]
    rintro ⟨name, r⟩ ⟨_, r'⟩ ⟨rfl, hrel⟩
    change r.Rearranged r' at hrel
    have hid : r'.id = r.id := by rw [hrel.rest]
    simp only [hid]

end Stages

namespace PolicyConfig

variable {config config' : PolicyConfig}

namespace Rearranged

variable (h : config.Rearranged config')
include h

theorem blueprint_eq : config.blueprint = config'.blueprint := by
  have horg : config'.orgPrefix = config.orgPrefix := by rw [h.rest]
  have hgroups : config'.projectGroups = config.projectGroups := by rw [h.rest]
  rw [blueprint, blueprint, Blueprint.ofTexts, Blueprint.ofTexts, sortedBy_eq_of_perm h.environments,
    sortedBy_eq_of_perm h.projects, sortedUnique_eq_of_mem_iff h.owners, horg, hgroups]

theorem isBuildable_iff : config.IsBuildable ↔ config'.IsBuildable := by
  have horg : config'.orgPrefix = config.orgPrefix := by rw [h.rest]
  have hne : config.environments ≠ [] ↔ config'.environments ≠ [] := by
    rw [ne_eq, ne_eq, List.eq_nil_iff_forall_not_mem, List.eq_nil_iff_forall_not_mem]
    exact not_congr (forall_congr' fun e => not_congr h.environments.mem_iff)
  constructor
  · rintro ⟨hp, he, hes, hps, hk⟩
    exact ⟨horg ▸ hp, hne.1 he, (areNames_iff_of_perm h.environments).1 hes, (areNames_iff_of_perm h.projects).1 hps,
      h.blueprint_eq ▸ hk⟩
  · rintro ⟨hp, he, hes, hps, hk⟩
    exact ⟨horg ▸ hp, hne.2 he, (areNames_iff_of_perm h.environments).2 hes, (areNames_iff_of_perm h.projects).2 hps,
      h.blueprint_eq ▸ hk⟩

/-- The order of environments and types does not matter for the coverage. -/
theorem sameEnd_checkCoverage (book : RoleBook String) :
    SameEnd (checkCoverage config book) (checkCoverage config' book) := by
  unfold checkCoverage
  refine .bind ?_ fun _ _ => ?_
  · rw [checkEnvironmentCoverage, checkEnvironmentCoverage, sortedBy_eq_of_perm h.environments]
    exact .refl _
  · have hentries : List.Forall₂ (SameName ResourceGroup.Rearranged) (config.resourceGroups.getD .empty).entries
        (config'.resourceGroups.getD .empty).entries := by
      have hgroups := h.resourceGroups
      generalize config.resourceGroups = groups at hgroups
      generalize config'.resourceGroups = groups' at hgroups
      cases hgroups with
      | none => exact .nil
      | some hm => exact hm
    refine .forM hentries ?_
    rintro ⟨name, r⟩ ⟨_, r'⟩ ⟨rfl, hr⟩
    exact hr.sameEnd_check h.environments

/-- The order of names and owners does not matter for the hierarchy. Which of several names is refused does. -/
theorem sameEnd_build : SameEnd
    (Hierarchy.build (.str config.orgPrefix) (.ofTexts config.environments) (.ofTexts config.projects)
      config.projectGroups (.ofTexts config.owners))
    (Hierarchy.build (.str config'.orgPrefix) (.ofTexts config'.environments) (.ofTexts config'.projects)
      config'.projectGroups (.ofTexts config'.owners)) := by
  refine sameEnd_of_ok_iff (fun g => ?_) fun f f' hf hf' => ?_
  · rw [build_eq_ok_iff, build_eq_ok_iff, h.isBuildable_iff, h.blueprint_eq]
  · rw [build_texts] at hf hf'
    obtain ⟨cause, -, rfl⟩ := mapError_eq_error.1 hf
    obtain ⟨cause', -, rfl⟩ := mapError_eq_error.1 hf'
    exact Failure.sameClass_config cause cause'

/-- Resolutions of rearranged configurations end alike. -/
theorem sameEnd_resolve (context : Context) : SameEnd (resolve config context) (resolve config' context) := by
  have htenant : config'.tenantId = config.tenantId := by rw [h.rest]
  have hbook : config'.roleBook = config.roleBook := by
    rw [h.rest]
    rfl
  have hroles : config'.customRoles = config.customRoles := by rw [h.rest]
  have hplan : config'.tierPlan = { config.tierPlan with resourceGroups := config'.resourceGroups } := by
    rw [h.rest]
    rfl
  have hexpand : ∀ (g : Hierarchy) (c : Context), expand g config.roleBook c config'.tierPlan =
      expand g config.roleBook c config.tierPlan := by
    intro g c
    rw [hplan]
    unfold expand
    simp only
    rw [← grantsOnResourceGroups_eq h.resourceGroups]
    rfl
  unfold resolve
  rw [htenant, hbook]
  refine .bind (h.sameEnd_checkCoverage _) fun _ _ => .bind h.sameEnd_build fun g _ => ?_
  rw [hroles, ← ofDefinitions_eq h.servicePrincipals h.owners, hexpand]
  exact .refl _

end Rearranged

/-- A policy of a value is that of the configuration that it is read as, for some context. -/
theorem exists_context_of_resolveJson {j : Json} {context : Option Context} {settings : Settings} {p : ResolvedPolicy}
    (hj : PolicyConfig.ofJson j = .ok config) (h : resolveJson j context settings = .ok p) :
    ∃ c : Context, resolve config c = .ok p := by
  obtain ⟨config', hc, h⟩ := bind_eq_ok.1 h
  obtain rfl := Except.ok.inj (hj.symm.trans hc)
  cases context with
  | some c => exact ⟨c, h⟩
  | none =>
    obtain ⟨c, -, hc⟩ := bind_eq_ok.1 h
    exact ⟨c, hc⟩

/-- Two configurations that passed the check and are the same but for the order of names, and for the order and the
repetitions of owners, tags, permissions and resource types, have the same policy and so the same documents, or are
both refused with errors of one class. The context may be one that was given or that of the settings. -/
theorem ends_of_rearranged {j j' : Json} (hj : PolicyConfig.ofJson j = .ok config)
    (hj' : PolicyConfig.ofJson j' = .ok config') (h : SameFields fieldRelation j j') (context : Option Context)
    (settings : Settings) :
    (∃ p, resolveJson j context settings = .ok p ∧ resolveJson j' context settings = .ok p ∧
      ∀ maskSecrets, ∃ document, p.document maskSecrets = .ok document) ∨
    ∃ f f', resolveJson j context settings = .error f ∧ resolveJson j' context settings = .error f' ∧
      f.SameClass f' := by
  have hr : config.Rearranged config' :=
    carries_read j j' h config config' (Checked.toExcept_eq_ok.1 hj) (Checked.toExcept_eq_ok.1 hj')
  have htenant : config'.tenantId = config.tenantId := by rw [hr.rest]
  have hend : SameEnd (resolveJson j context settings) (resolveJson j' context settings) := by
    unfold resolveJson
    rw [hj, hj']
    cases context with
    | some c => exact hr.sameEnd_resolve c
    | none =>
      show SameEnd (_ >>= resolve config) (_ >>= resolve config')
      rw [htenant]
      exact .bind (.refl _) fun c _ => hr.sameEnd_resolve c
  rcases hend with ⟨p, hp, hp'⟩ | hfail
  · refine Or.inl ⟨p, hp, hp', fun maskSecrets => ?_⟩
    obtain ⟨c, hc⟩ := exists_context_of_resolveJson hj hp
    obtain ⟨records, hrecords⟩ := exists_records hc
    exact ⟨_, hrecords.document_eq (isValid_of_ofJson hj).owners maskSecrets⟩
  · exact Or.inr hfail

/-- The sample, its names in another order and its owners and types repeated. -/
def shuffledJson : Json := .obj [
  ("org_prefix", .str "acme"),
  ("environments", .ofTexts ["prod", "dev"]),
  ("projects", .ofTexts ["web"]),
  ("enable_project_groups", .bool true),
  ("owners", .ofTexts ["owner", "owner"]),
  ("resource_groups", .obj [("core", .obj [
    ("id", .str "/subscriptions/s/resourceGroups/core"), ("name", .str "core"), ("environment", .str "dev"),
    ("resource_types", .ofTexts ["storage", "storage"])])]),
  ("service_principals", .obj [("deployer", .obj [
    ("display_name", .str "Deployer"),
    ("roles", .obj [("main", .obj [("scope", .str "/subscriptions/s"), ("role", .str "Contributor")])])])]),
  ("enable_management_group_assignments", .bool true),
  ("enable_tenant_assignments", .bool true),
  ("enable_subscription_assignments", .bool true),
  ("enable_resource_group_assignments", .bool true),
  ("management_group_name", .str "platform"),
  ("tenant_id", .str "directory")]

theorem sameFields_shuffled : SameFields fieldRelation sampleJson shuffledJson := by
  have htwice : ∀ s : String, SameItems (.ofTexts [s]) (.ofTexts [s, s]) := fun s => .arr (by simp)
  have hgroup : SameFields ResourceGroup.fieldRelation
      (.obj [("id", .str "/subscriptions/s/resourceGroups/core"), ("name", .str "core"), ("environment", .str "dev"),
        ("resource_types", .ofTexts ["storage"])])
      (.obj [("id", .str "/subscriptions/s/resourceGroups/core"), ("name", .str "core"), ("environment", .str "dev"),
        ("resource_types", .ofTexts ["storage", "storage"])]) :=
    Json.sameFields_obj (.cons ⟨rfl, rfl⟩ (.cons ⟨rfl, rfl⟩ (.cons ⟨rfl, rfl⟩ (.cons ⟨rfl, htwice _⟩ .nil))))
  refine Json.sameFields_obj (.cons ⟨rfl, rfl⟩ (.cons ⟨rfl, .arr (List.Perm.swap _ _ _)⟩ (.cons ⟨rfl, .refl _⟩ ?_)))
  refine .cons ⟨rfl, rfl⟩ (.cons ⟨rfl, htwice _⟩ (.cons ⟨rfl, .obj (.cons ⟨rfl, hgroup⟩ .nil)⟩ ?_))
  refine .cons ⟨rfl, .refl _⟩ (.cons ⟨rfl, rfl⟩ (.cons ⟨rfl, rfl⟩ (.cons ⟨rfl, rfl⟩ (.cons ⟨rfl, rfl⟩ ?_))))
  exact .cons ⟨rfl, rfl⟩ (.cons ⟨rfl, rfl⟩ .nil)

/-- The shuffled sample has the policy of the sample. -/
theorem ends_shuffled : PolicyConfig.ofJson sampleJson = .ok sample ∧
    (∃ config', PolicyConfig.ofJson shuffledJson = .ok config') ∧ SameFields fieldRelation sampleJson shuffledJson ∧
    ∀ settings, ∃ p, resolveJson sampleJson (some sampleContext) settings = .ok p ∧
      resolveJson shuffledJson (some sampleContext) settings = .ok p := by
  have hj : PolicyConfig.ofJson sampleJson = .ok sample := rfl
  obtain ⟨p, hp⟩ := isAcceptable_sample.exists_policy (isValid_of_ofJson hj)
  have hj' : PolicyConfig.ofJson shuffledJson = .ok _ := rfl
  refine ⟨hj, ⟨_, hj'⟩, sameFields_shuffled, fun settings => ?_⟩
  have hresolved : resolveJson sampleJson (some sampleContext) settings = .ok p := by
    unfold resolveJson
    rw [hj]
    exact hp
  rcases ends_of_rearranged hj hj' sameFields_shuffled (some sampleContext) settings with hsame | ⟨f, f', hf, -⟩
  · obtain ⟨q, hq, hq', -⟩ := hsame
    exact ⟨q, hq, hq'⟩
  · rw [hresolved] at hf
    cases hf

end PolicyConfig

end AccessPlan
