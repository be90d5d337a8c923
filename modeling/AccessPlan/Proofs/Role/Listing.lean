import AccessPlan.Policy.Resolution
import AccessPlan.Proofs.Collection.Order
import AccessPlan.Proofs.Escape

/-!
# What a book of roles lists

The look-ups of a book fail only where nothing is listed, so whether they succeed is a condition on its
tables.

* `RoleBook.listed?` is the list of a persona in an environment, and `environmentRoles_eq_ok_iff` says that
  the roles are found exactly when there is one; they are then `RoleBook.rolesIn`, each once.
* `checkCoverage_eq_ok_iff`: the tables cover a configuration exactly when it is `PolicyConfig.IsCovered`.
* `not_escapes_checkCoverage`: a configuration that is not covered is refused with an error of a policy.
-/

namespace AccessPlan

namespace RoleBook

section Environments

variable {ρ : Type} {b : RoleBook ρ} {e : String} {p : Persona}

/-- The list of a persona in an environment: the one that overrides it, or else the entry of the table. -/
def listed? (b : RoleBook ρ) (environment : String) (p : Persona) : Option (List ρ) :=
  (override? b.environmentOverrides environment p).or ((b.environments.get? environment).bind fun row => row.get? p)

theorem environmentList_eq_ok_iff {roles : List ρ} :
    b.environmentList (some e) p = .ok roles ↔ b.listed? e p = some roles := by
  unfold environmentList listed?
  cases ho : override? b.environmentOverrides e p with
  | some roles => simp [ho]
  | none =>
    cases he : b.environments.get? e with
    | none => simp [ho, he]
    | some row => cases hr : row.get? p <;> simp [ho, he, hr]

end Environments

variable {b : RoleBook String} {e t : String} {p : Persona} {roles : List String}

/-- The roles of a persona in an environment, each once; none if nothing is listed. -/
def rolesIn (b : RoleBook String) (environment : String) (p : Persona) : List String :=
  ((b.listed? environment p).getD []).eraseDups

theorem nodup_rolesIn : (b.rolesIn e p).Nodup := nodup_eraseDups _

/-- Lists of texts are given with each text once. -/
theorem rolesOf_eq_ok_iff {listed : Except LookupCause (List String)} :
    rolesOf listed = .ok roles ↔ ∃ l, listed = .ok l ∧ roles = l.eraseDups := by
  cases listed with
  | error cause => exact ⟨nofun, nofun⟩
  | ok l =>
    show Except.ok l.eraseDups = Except.ok roles ↔ _
    simp [eq_comm]

/-- Looking up the roles of a list fails only because there is no list. -/
theorem exists_cause_of_rolesOf {listed : Except LookupCause (List String)} {f : Failure}
    (hf : rolesOf listed = .error f) : ∃ cause, f = .roleLookup cause := by
  cases listed with
  | ok l => cases hf
  | error cause => exact ⟨cause, (Except.error.inj hf).symm⟩

theorem not_escapes_rolesOf {listed : Except LookupCause (List String)} : ¬ Escapes (rolesOf listed) := by
  cases listed with
  | error cause => exact fun h => escapes_error.1 h trivial
  | ok l => exact not_escapes_ok

/-- The roles of a persona are found exactly when they are listed. -/
theorem environmentRoles_eq_ok_iff :
    b.environmentRoles (some e) p = .ok roles ↔ (b.listed? e p).isSome = true ∧ roles = b.rolesIn e p := by
  simp only [environmentRoles, rolesOf_eq_ok_iff, environmentList_eq_ok_iff, rolesIn]
  cases b.listed? e p <;> simp

theorem exists_environmentRoles_iff :
    (∃ roles, b.environmentRoles (some e) p = .ok roles) ↔ (b.listed? e p).isSome = true := by
  simp only [environmentRoles_eq_ok_iff, exists_and_left, exists_eq, and_true]

/-! ## Resource types -/

/-- A resource type can be looked up for a persona: its list is overridden, or there is a table for it. -/
def KnowsType (b : RoleBook String) (resourceType : String) (p : Persona) : Prop :=
  (override? b.resourceTypeOverrides resourceType p).isSome = true ∨ resourceType ∈ b.resourceTypes.names

instance : Decidable (b.KnowsType t p) := inferInstanceAs (Decidable (_ ∨ _))

theorem exists_resourceTypeRoles_iff :
    (∃ roles, b.resourceTypeRoles t p = .ok roles) ↔ b.KnowsType t p := by
  simp only [resourceTypeRoles, rolesOf_eq_ok_iff, resourceTypeList, KnowsType, ← NameMap.isSome_get?_iff]
  cases override? b.resourceTypeOverrides t p with
  | some roles => simp
  | none => cases b.resourceTypes.get? t <;> simp

end RoleBook

/-! ## Coverage -/

/-- The tables of a configuration list what it needs, whether its tiers are switched on or not. -/
structure PolicyConfig.IsCovered (c : PolicyConfig) : Prop where
  /-- Every persona has roles in every environment. -/
  listed : ∀ e ∈ c.environments, ∀ p, (c.roleBook.listed? e p).isSome = true
  /-- Every resource group is in a configured environment. -/
  environment : ∀ entry ∈ (c.resourceGroups.getD .empty).entries, entry.2.environment ∈ c.environments
  /-- The types of every resource group can be looked up. -/
  types : ∀ entry ∈ (c.resourceGroups.getD .empty).entries, ∀ t ∈ entry.2.resourceTypes,
    c.roleBook.KnowsType t .nonTechnical

section Coverage

variable {c : PolicyConfig} {book : RoleBook String} {environments : List String} {name : String} {r : ResourceGroup}

/-- A check that only wants a result passes exactly when there is one. -/
theorem bind_unit_eq_ok {ε α : Type} {x : Except ε α} : (x >>= fun _ => pure ()) = .ok () ↔ ∃ a, x = .ok a := by
  rw [bind_eq_ok]
  exact exists_congr fun a => and_iff_left rfl

theorem checkEnvironmentCoverage_eq_ok_iff : checkEnvironmentCoverage book environments = .ok () ↔
    ∀ e ∈ environments, ∀ p, (book.listed? e p).isSome = true := by
  simp only [checkEnvironmentCoverage, forM_eq_ok, bind_unit_eq_ok, mem_sortedBy,
    RoleBook.exists_environmentRoles_iff]
  exact forall₂_congr fun e _ => ⟨fun h p => h p p.mem_all, fun h p _ => h p⟩

theorem checkResourceGroup_eq_ok_iff : checkResourceGroup book environments name r = .ok () ↔
    r.environment ∈ environments ∧ ∀ t ∈ r.resourceTypes, book.KnowsType t .nonTechnical := by
  unfold checkResourceGroup
  by_cases h : r.environment ∈ environments
  · simp only [h, not_true_eq_false, if_false, true_and]
    show List.forM _ _ = _ ↔ _
    simp only [forM_eq_ok, bind_unit_eq_ok, RoleBook.exists_resourceTypeRoles_iff]
  · simp only [h, not_false_eq_true, if_true, false_and, iff_false]
    nofun

/-- The tables cover a configuration exactly when they list what it needs. -/
theorem checkCoverage_eq_ok_iff : checkCoverage c c.roleBook = .ok () ↔ c.IsCovered := by
  unfold checkCoverage
  simp only [bind_eq_ok, forM_eq_ok, checkResourceGroup_eq_ok_iff]
  constructor
  · rintro ⟨⟨⟩, h, hr⟩
    exact ⟨checkEnvironmentCoverage_eq_ok_iff.1 h, fun entry he => (hr entry he).1, fun entry he => (hr entry he).2⟩
  · rintro ⟨h, he, ht⟩
    exact ⟨(), checkEnvironmentCoverage_eq_ok_iff.2 h, fun entry hm => ⟨he entry hm, ht entry hm⟩⟩

theorem not_escapes_bind_unit {α : Type} {x : Except Failure α} (h : ¬ Escapes x) :
    ¬ Escapes (x >>= fun _ => pure ()) := by
  rw [escapes_bind]
  rintro (hx | ⟨-, -, hp⟩)
  · exact h hx
  · exact not_escapes_ok hp

theorem not_escapes_checkResourceGroup : ¬ Escapes (checkResourceGroup book environments name r) := by
  by_cases h : r.environment ∈ environments
  · simp only [checkResourceGroup, h, not_true_eq_false, if_false]
    exact not_escapes_forM fun t _ => not_escapes_bind_unit RoleBook.not_escapes_rolesOf
  · simp only [checkResourceGroup, h, not_false_eq_true, if_true]
    exact fun he => escapes_error.1 he trivial

/-- A configuration that is not covered is refused with an error of a policy. -/
theorem not_escapes_checkCoverage : ¬ Escapes (checkCoverage c book) := by
  rw [checkCoverage, escapes_bind]
  rintro (h | ⟨-, -, h⟩)
  · refine not_escapes_forM (fun e _ => ?_) h
    exact not_escapes_forM fun p _ => not_escapes_bind_unit RoleBook.not_escapes_rolesOf
  · refine not_escapes_forM (fun entry _ => ?_) h
    exact not_escapes_checkResourceGroup

end Coverage

end AccessPlan
