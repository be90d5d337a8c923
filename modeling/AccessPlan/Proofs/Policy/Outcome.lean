import AccessPlan.Proofs.Policy.Acceptance
import AccessPlan.Proofs.Policy.Refusal

/-!
# How resolutions end

A resolution of any value ends with a policy or with an error of a policy, unless its configuration cannot be
refused properly or `BreaksOff` (`resolveJson_ends_iff`). It breaks off where a record is made of something
that nothing before has checked: an assignment of a role (`HasUnusableRole`), or a credential of a service
principal (`HasUnissuableCredential`).
-/

namespace AccessPlan

open Assignment (isSingleRole)

namespace PolicyConfig

variable (config : PolicyConfig) (c : Context)

/-- Roles are granted at some place, and of all roles to grant, the first one that cannot be granted is a
single one. So it is the record of the assignment that refuses it. -/
def HasUnusableRole : Prop :=
  (∃ place places, config.tierPlan.places = place :: places ∧ config.tierPlan.IsReady c place.tier) ∧
    ∃ role, config.roleBook.refused? (sortedBy Group.key (config.blueprint.hierarchy.layer .persona)) = some role ∧
      isSingleRole role = true

/-- The tiers can be expanded, and of all service principals, the first one that is not accepted has days in
their range. So it is its credential that cannot be issued. -/
def HasUnissuableCredential : Prop :=
  ((∀ t, config.tierPlan.isOn t = true → config.tierPlan.IsReady c t) ∧
    (config.tierPlan.Emits → ∀ e ∈ config.environments, ∀ p, ∀ role ∈ config.roleBook.rolesIn e p, IsGrantable role)) ∧
    ∃ d, (config.servicePrincipals.entries.find? fun d => !decide (d.2.IsAccepted c d.1)) = some d ∧
      d.2.HasRotation c ∧ ¬ CanIssue c.now (PrincipalRecords.rotationDaysOf d.2 c) d.1

/-- The configuration is covered, its hierarchy can be built, and then a record cannot be made. -/
structure BreaksOff : Prop where
  covered : config.IsCovered
  buildable : config.IsBuildable
  cause : config.HasUnusableRole c ∨ config.HasUnissuableCredential c

variable {config} {c context : Context} {p : ResolvedPolicy}

theorem IsCovered.escapes_expand_iff (hc : config.IsCovered) :
    Escapes (expand config.blueprint.hierarchy config.roleBook c config.tierPlan) ↔ config.HasUnusableRole c :=
  Expansion.escapes_expand_iff hc.lists

theorem IsCovered.exists_expand_iff (hc : config.IsCovered) :
    (∃ granted, expand config.blueprint.hierarchy config.roleBook c config.tierPlan = .ok granted) ↔
      (∀ t, config.tierPlan.isOn t = true → config.tierPlan.IsReady c t) ∧
        (config.tierPlan.Emits → ∀ e ∈ config.environments, ∀ p, ∀ role ∈ config.roleBook.rolesIn e p,
          IsGrantable role) := by
  simp only [Expansion.expand_eq_ok_iff, hc.serves_iff, exists_and_left, exists_eq, and_true]

/-- A valid configuration escapes its resolution exactly if it breaks off. -/
theorem IsValid.escapes_resolve_iff (hv : config.IsValid) :
    Escapes (resolve config context) ↔ config.BreaksOff (context.withTenant config.tenantId) := by
  have hparts : ∀ {c : Context}, config.IsCovered →
      ((Escapes (expand config.blueprint.hierarchy config.roleBook c config.tierPlan) ∨
        ∃ granted, expand config.blueprint.hierarchy config.roleBook c config.tierPlan = .ok granted ∧
          Escapes (ResolvedPrincipals.ofDefinitions config.servicePrincipals c (.ofTexts config.owners))) ↔
        config.HasUnusableRole c ∨ config.HasUnissuableCredential c) := fun hc => by
    rw [exists_and_right, hc.escapes_expand_iff, hc.exists_expand_iff,
      ResolvedPrincipals.escapes_ofDefinitions_iff hv.owners hv.grants, HasUnissuableCredential]
  rw [AccessPlan.escapes_resolve_iff]
  constructor
  · rintro ⟨hc, hb, he⟩
    exact ⟨hc, hb, (hparts hc).1 he⟩
  · rintro ⟨hc, hb, he⟩
    exact ⟨hc, hb, (hparts hc).2 he⟩

/-- A resolution of a value ends with a policy or with an error of a policy exactly if no name in it is
refused for a reason that cannot be handed out, and the configuration it stands for does not break off. -/
theorem resolveJson_ends_iff {j : Json} {settings : Settings} :
    ((∃ p, resolveJson j (some context) settings = .ok p) ∨
      ∃ e, resolveJson j (some context) settings = .error (.policy e)) ↔
      ¬ HasBrokenNames j ∧ ∀ config, PolicyConfig.ofJson j = .ok config →
        ¬ config.BreaksOff (context.withTenant config.tenantId) := by
  rw [← not_escapes_iff, resolveJson, escapes_bind, escapes_ofJson_iff, not_or, not_exists]
  refine and_congr_right fun _ => forall_congr' fun config => ?_
  rw [not_and]
  exact forall_congr' fun hj => not_congr (isValid_of_ofJson hj).escapes_resolve_iff

theorem BreaksOff.not_ends {j : Json} {settings : Settings}
    (hb : config.BreaksOff (context.withTenant config.tenantId)) (hj : PolicyConfig.ofJson j = .ok config) :
    ¬ ((∃ p, resolveJson j (some context) settings = .ok p) ∨
      ∃ e, resolveJson j (some context) settings = .error (.policy e)) := by
  rw [← not_escapes_iff, not_not, resolveJson, hj]
  exact (isValid_of_ofJson hj).escapes_resolve_iff.2 hb

/-! ## Configurations that break off -/

/-- A configuration that overrides the roles of a persona with an empty text, as it is written. -/
def namelessJson : Json := .obj (sampleFields ++ [
  ("environment_role_overrides", .obj [("dev", .obj [("technical", .ofTexts [""])])])])

def nameless : PolicyConfig :=
  { sample with environmentOverrides := some (.ofList [("dev", { technical := some [""] })]) }

theorem buildable_sample : sample.IsBuildable :=
  isAcceptable_sample.isBuildable (isValid_of_ofJson (j := sampleJson) rfl)

theorem isCovered_nameless : nameless.IsCovered where
  listed := by decide +kernel
  environment := isAcceptable_sample.covered.environment
  types := by decide +kernel

/-- The empty text is a single role, and the only role that cannot be granted. -/
theorem refused?_nameless :
    nameless.roleBook.refused? (sortedBy Group.key (nameless.blueprint.hierarchy.layer .persona)) = some "" := by
  have hroles : ∀ e ∈ nameless.environments, ∀ p, ∀ role ∈ nameless.roleBook.rolesIn e p,
      IsGrantable role ∨ role = "" := by decide +kernel
  cases hr : nameless.roleBook.refused? (sortedBy Group.key (nameless.blueprint.hierarchy.layer .persona)) with
  | none =>
    have hs := (RoleBook.refused?_eq_none_iff fun g hg => isCovered_nameless.lists g (mem_sortedBy.1 hg)).1 hr
    have hg := isCovered_nameless.serves_iff.1 fun g hg => hs g (mem_sortedBy.2 hg)
    exact absurd rfl (hg "dev" (by decide) .technical "" (by decide +kernel)).ne_empty
  | some role =>
    have hn : ¬ IsGrantable role := by simpa using List.find?_some hr
    obtain ⟨g, hg, hm⟩ := List.mem_flatMap.1 (List.mem_of_find?_eq_some hr)
    obtain ⟨e, he, p, rfl⟩ := mem_layer_persona.1 (mem_sortedBy.1 hg)
    rw [(hroles e he p role hm).resolve_left hn]

theorem breaksOff_nameless : nameless.BreaksOff (sampleContext.withTenant nameless.tenantId) where
  covered := isCovered_nameless
  buildable := ⟨buildable_sample.orgPrefix, buildable_sample.environments_ne, buildable_sample.environments,
    buildable_sample.projects, buildable_sample.keys⟩
  cause := Or.inl ⟨⟨_, _, rfl, by decide +kernel⟩, "", refused?_nameless, by decide⟩

/-- No assignment of an empty role can be made, and nothing refuses the configuration before. -/
theorem not_ends_nameless : ¬ ((∃ p, resolveJson namelessJson (some sampleContext) { clock := .earliest } = .ok p) ∨
    ∃ e, resolveJson namelessJson (some sampleContext) { clock := .earliest } = .error (.policy e)) :=
  breaksOff_nameless.not_ends rfl

/-- The context at the end of the calendar. -/
def lastContext : Context := { sampleContext with
  now := { Calendar.Timestamp.earliest with clock := Calendar.clockLimit - 1, clock_lt := by decide } }

theorem breaksOff_sample : sample.BreaksOff (lastContext.withTenant sample.tenantId) where
  covered := isAcceptable_sample.covered
  buildable := buildable_sample
  cause := Or.inr ⟨⟨by decide +kernel, isAcceptable_sample.roles⟩, _, rfl, by decide +kernel,
    by decide +kernel⟩

/-- What is acceptable at one time can break off at another. -/
theorem not_ends_sample : ¬ ((∃ p, resolveJson sampleJson (some lastContext) { clock := .earliest } = .ok p) ∨
    ∃ e, resolveJson sampleJson (some lastContext) { clock := .earliest } = .error (.policy e)) :=
  breaksOff_sample.not_ends rfl

end PolicyConfig

end AccessPlan
