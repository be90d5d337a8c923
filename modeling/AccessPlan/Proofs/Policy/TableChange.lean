import AccessPlan.Proofs.Policy.KeyCollision
import AccessPlan.Proofs.Policy.Records
import AccessPlan.Proofs.Role.Agreement

/-!
# Changing role tables

Two configurations differ in their role tables and overrides only. A persona in an environment is edited if its
roles are not the same in both (`IsEdited`). Then only assignments differ, and only those for groups of edited
personas (`diffOf_tables`).

Such an assignment is added or removed, unless its key is in both policies. The key is then one for two groups
of edited personas whose keys and roles overlap, and it counts as changed (`mem_changed_handover`).
-/

namespace AccessPlan

/-- The key of the group of the second assignment continues that of the first one, by a text that the role of
the first one begins with. -/
def Assignment.Overlaps (a b : Assignment) : Prop :=
  ∃ s, b.principalKey = a.principalKey ++ "-" ++ s ∧ a.role = s ++ "-" ++ b.role

theorem Assignment.Overlaps.principalKey_ne {a b : Assignment} (h : a.Overlaps b) :
    a.principalKey ≠ b.principalKey := by
  obtain ⟨s, hk, -⟩ := h
  exact fun he => ne_append_hyphen (he.trans hk)

namespace PolicyConfig

/-- A configuration without its role tables and overrides. Two that are the same without them differ in nothing
else. -/
def withoutTables (config : PolicyConfig) : PolicyConfig :=
  { config with
    environmentTables := none, resourceTypeTables := none, environmentOverrides := none, resourceTypeOverrides := none }

/-- The roles of a persona in a configured environment are not the same in two configurations. -/
structure IsEdited (config config' : PolicyConfig) (e : String) (r : Persona) : Prop where
  configured : e ∈ config.environments
  differ : ∃ roles roles', config.roleBook.environmentRoles (some e) r = .ok roles ∧
    config'.roleBook.environmentRoles (some e) r = .ok roles' ∧ ¬ SameMembers roles roles'

variable {config config' : PolicyConfig} {context c : Context} {p q : ResolvedPolicy}
  {records : List PrincipalRecords} {a a' : Assignment} {e e' : String} {r r' : Persona} {k : String}

theorem isValid_of_withoutTables (hx : config.withoutTables = config'.withoutTables) (hv : config.IsValid) :
    config'.IsValid := by
  have hv' : config.withoutTables.IsValid := { hv with }
  rw [hx] at hv'
  exact { hv' with }

theorem IsEdited.symm (hx : config.withoutTables = config'.withoutTables) (h : config'.IsEdited config e r) :
    config.IsEdited config' e r := by
  have he : config.environments = config'.environments := eq_of_without withoutTables (fun _ => rfl) hx
  obtain ⟨roles, roles', hroles, hroles', hn⟩ := h.differ
  exact ⟨he ▸ h.configured, roles', roles, hroles', hroles, fun hs => hn fun role => (hs role).symm⟩

theorem IsEdited.not_sameMembers (h : config.IsEdited config' e r) :
    ¬ SameMembers (config.roleBook.rolesIn e r) (config'.roleBook.rolesIn e r) := by
  obtain ⟨roles, roles', hroles, hroles', hn⟩ := h.differ
  obtain ⟨-, rfl⟩ := RoleBook.environmentRoles_eq_ok_iff.1 hroles
  obtain ⟨-, rfl⟩ := RoleBook.environmentRoles_eq_ok_iff.1 hroles'
  exact hn

/-- Tables and overrides that list the same roles edit no persona. -/
theorem not_isEdited_of_sameRoles
    (ht : RoleTable.SameRoles (config.environmentTables.getD .empty) (config'.environmentTables.getD .empty))
    (ho : RoleTable.SameRoles (config.environmentOverrides.getD .empty) (config'.environmentOverrides.getD .empty)) :
    ¬ config.IsEdited config' e r :=
  fun h => h.not_sameMembers (RoleBook.sameMembers_rolesIn (ht.overlay _) ho e r)

/-! ## Assignments of one policy only -/

section Records

variable (hx : config.withoutTables = config'.withoutTables) (hr : config.HasRecords c p records)
  (hr' : config'.HasRecords c q records)
include hx hr hr'

theorem isEdited_of_not_sameMembers (he : e ∈ config.environments)
    (hn : ¬ SameMembers (config.roleBook.rolesIn e r) (config'.roleBook.rolesIn e r)) : config.IsEdited config' e r := by
  have henvironments : config.environments = config'.environments := eq_of_without withoutTables (fun _ => rfl) hx
  have hl := hr.covered.listed e he r
  have hl' := hr'.covered.listed e (henvironments ▸ he) r
  exact ⟨he, _, _, RoleBook.environmentRoles_eq_ok_iff.2 ⟨hl, rfl⟩, RoleBook.environmentRoles_eq_ok_iff.2 ⟨hl', rfl⟩,
    hn⟩

omit hr in
/-- The assignments for groups of the second policy, by what the first configuration says but for its tables. -/
theorem grantsTo_iff_of_withoutTables (ho : config.owners ≠ []) : q.GrantsTo a e r ↔ e ∈ config.environments ∧
    ∃ place ∈ config.tierPlan.places, ∃ role ∈ config'.roleBook.rolesIn e r, a =
      (Source.group place (config.blueprint.personaKey e r) role).assignment (config.tierPlan.scopeAt c) := by
  have henvironments : config.environments = config'.environments := eq_of_without withoutTables (fun _ => rfl) hx
  have howners : config.owners = config'.owners := eq_of_without withoutTables (fun _ => rfl) hx
  have hplan : config.tierPlan = config'.tierPlan := eq_of_without withoutTables (fun _ => rfl) hx
  have hblueprint : config.blueprint = config'.blueprint := eq_of_without withoutTables (fun _ => rfl) hx
  rw [henvironments, hplan, hblueprint]
  exact hr'.grantsTo_iff (howners ▸ ho)

/-- An assignment that only the second policy has is for an edited persona. -/
theorem exists_isEdited_of_mem (ho : config.owners ≠ []) (ha : a ∈ q.assignments) (hn : a ∉ p.assignments) :
    ∃ e r, config.IsEdited config' e r ∧ q.GrantsTo a e r := by
  have howners : config.owners = config'.owners := eq_of_without withoutTables (fun _ => rfl) hx
  rcases (hr'.mem_assignments_iff_grantsTo (howners ▸ ho)).1 ha with ⟨e, r, h⟩ | h
  · obtain ⟨he, place, hplace, role, hrole, rfl⟩ := (grantsTo_iff_of_withoutTables hx hr' ho).1 h
    refine ⟨e, r, isEdited_of_not_sameMembers hx hr hr' he fun hs => hn ?_, h⟩
    exact ((hr.grantsTo_iff ho).2 ⟨he, place, hplace, role, (hs role).2 hrole, rfl⟩).mem
  · exact absurd ((hr.mem_assignments_iff_grantsTo ho).2 (Or.inr h)) hn

/-- In both policies a persona has the same group. -/
theorem principalKey_of_grantsTo (ho : config.owners ≠ []) (ha : p.GrantsTo a e r) (ha' : q.GrantsTo a' e r) :
    a.principalKey = a'.principalKey := by
  obtain ⟨-, _, -, _, -, rfl⟩ := (hr.grantsTo_iff ho).1 ha
  obtain ⟨-, _, -, _, -, rfl⟩ := (grantsTo_iff_of_withoutTables hx hr' ho).1 ha'
  rfl

/-- Two assignments with one key that are not the same are for groups whose keys and roles overlap. -/
theorem overlaps_of_key_eq (hv : config.IsValid) (ha : p.GrantsTo a e r) (ha' : q.GrantsTo a' e' r')
    (hk : a.key = a'.key) (hne : a ≠ a') : a.Overlaps a' ∨ a'.Overlaps a := by
  obtain ⟨he, place, hplace, role, hrole, rfl⟩ := (hr.grantsTo_iff hv.owners).1 ha
  obtain ⟨he', place', hplace', role', hrole', rfl⟩ := (grantsTo_iff_of_withoutTables hx hr' hv.owners).1 ha'
  rw [Source.key_assignment, Source.key_assignment] at hk
  obtain ⟨rfl, hjoin⟩ := (Source.key_group_eq_iff (isSeparable_of_mem_places hv hplace)
    (isSeparable_of_mem_places hv hplace')).1 hk
  rcases hyphen_join_eq_iff.1 hjoin with ⟨hgroup, rfl⟩ | ⟨s, hgroup, hrole⟩ | ⟨s, hgroup, hrole⟩
  · exact absurd (by rw [hgroup]) hne
  · exact Or.inl ⟨s, hgroup, hrole⟩
  · exact Or.inr ⟨s, hgroup, hrole⟩

/-! ## Differences -/

/-- Only assignments for edited personas are added. -/
theorem exists_isEdited_of_added (hv : config.IsValid) (h : k ∈ (diffOf p q .assignments).added) :
    ∃ a e r, config.IsEdited config' e r ∧ q.GrantsTo a e r ∧ a.key = k := by
  obtain ⟨hm, hn⟩ := mem_added_diffOf.1 h
  obtain ⟨a, ha, rfl⟩ := List.mem_map.1 hm
  obtain ⟨e, r, he, hg⟩ := exists_isEdited_of_mem hx hr hr' hv.owners ha fun hp => hn (List.mem_map_of_mem hp)
  exact ⟨a, e, r, he, hg, rfl⟩

/-- Only assignments for edited personas are removed. -/
theorem exists_isEdited_of_removed (hv : config.IsValid) (h : k ∈ (diffOf p q .assignments).removed) :
    ∃ a e r, config.IsEdited config' e r ∧ p.GrantsTo a e r ∧ a.key = k := by
  have hadded : k ∈ (diffOf q p .assignments).added := mem_added_diffOf.2 (mem_removed_diffOf.1 h)
  obtain ⟨a, e, r, he, hg, hk⟩ := exists_isEdited_of_added hx.symm hr' hr (isValid_of_withoutTables hx hv) hadded
  exact ⟨a, e, r, he.symm hx, hg, hk⟩

/-- A key is changed if it passes from the group of one edited persona to that of another one. -/
theorem mem_changed_iff (hv : config.IsValid) : k ∈ (diffOf p q .assignments).changed ↔
    ∃ a e r a' e' r', config.IsEdited config' e r ∧ config.IsEdited config' e' r' ∧ (e, r) ≠ (e', r') ∧
      p.GrantsTo a e r ∧ q.GrantsTo a' e' r' ∧ a.key = k ∧ a'.key = k ∧ (a.Overlaps a' ∨ a'.Overlaps a) := by
  have hv' := isValid_of_withoutTables hx hv
  have hp := tellsRecords_of_nodup (hr.nodup_keys hv .assignments)
  have hq := tellsRecords_of_nodup (hr'.nodup_keys hv' .assignments)
  constructor
  · intro h
    obtain ⟨a, a', ⟨ha, hk⟩, ⟨ha', hk'⟩, hs⟩ := EntityDiff.exists_of_mem_changed h
    -- each is in one policy only, as there the other one has its key
    have hne : a' ≠ a := ne_of_beq_false hs
    have hnew : a' ∉ p.assignments := fun hm => hne (hp a' hm a ha (hk'.trans hk.symm))
    have hold : a ∉ q.assignments := fun hm => hne (hq a' ha' a hm (hk'.trans hk.symm))
    obtain ⟨e', r', he', hg'⟩ := exists_isEdited_of_mem hx hr hr' hv.owners ha' hnew
    obtain ⟨e, r, he, hg⟩ := exists_isEdited_of_mem hx.symm hr' hr hv'.owners ha hold
    have hover := overlaps_of_key_eq hx hr hr' hv hg hg' (hk.trans hk'.symm) hne.symm
    refine ⟨a, e, r, a', e', r', he.symm hx, he', fun heq => ?_, hg, hg', hk, hk', hover⟩
    obtain ⟨rfl, rfl⟩ := Prod.mk.inj heq
    have hkey := principalKey_of_grantsTo hx hr hr' hv.owners hg hg'
    exact hover.elim (fun ho => ho.principalKey_ne hkey) fun ho => ho.principalKey_ne hkey.symm
  · rintro ⟨a, e, r, a', e', r', -, -, -, hg, hg', hk, rfl, hover⟩
    refine EntityDiff.mem_changed hp hq hg.mem hg'.mem hk (beq_false_of_ne fun heq => ?_)
    rw [heq] at hover
    exact hover.elim (fun ho => ho.principalKey_ne rfl) fun ho => ho.principalKey_ne rfl

end Records

/-- If only role tables and overrides are changed, only assignments for edited personas differ: those that are
added or removed are for their groups, and a key is changed exactly if it passes between two such groups whose
keys and roles overlap. If no persona is edited, nothing differs, whatever happens to the order and repetition of
roles and to the resource types. -/
theorem diffOf_tables {j : Json} (hj : PolicyConfig.ofJson j = .ok config)
    (hx : config.withoutTables = config'.withoutTables) (h : resolve config context = .ok p)
    (h' : resolve config' context = .ok q) :
    (∀ kind, kind ≠ .assignments → (diffOf p q kind).isEmpty = true) ∧
      (∀ k ∈ (diffOf p q .assignments).added, ∃ a e r,
        config.IsEdited config' e r ∧ q.GrantsTo a e r ∧ a.key = k) ∧
      (∀ k ∈ (diffOf p q .assignments).removed, ∃ a e r,
        config.IsEdited config' e r ∧ p.GrantsTo a e r ∧ a.key = k) ∧
      (∀ k, k ∈ (diffOf p q .assignments).changed ↔ ∃ a e r a' e' r',
        config.IsEdited config' e r ∧ config.IsEdited config' e' r' ∧ (e, r) ≠ (e', r') ∧
          p.GrantsTo a e r ∧ q.GrantsTo a' e' r' ∧ a.key = k ∧ a'.key = k ∧ (a.Overlaps a' ∨ a'.Overlaps a)) ∧
      ((∀ e r, ¬ config.IsEdited config' e r) → (PolicyDiff.between p q).isEmpty = true) ∧
      (RoleTable.SameRoles (config.environmentTables.getD .empty) (config'.environmentTables.getD .empty) →
        RoleTable.SameRoles (config.environmentOverrides.getD .empty) (config'.environmentOverrides.getD .empty) →
          (PolicyDiff.between p q).isEmpty = true) := by
  have hv := isValid_of_ofJson hj
  have htenant : config.tenantId = config'.tenantId := eq_of_without withoutTables (fun _ => rfl) hx
  have hprincipals : config.servicePrincipals = config'.servicePrincipals :=
    eq_of_without withoutTables (fun _ => rfl) hx
  have howners : config.owners = config'.owners := eq_of_without withoutTables (fun _ => rfl) hx
  have hblueprint : config.blueprint = config'.blueprint := eq_of_without withoutTables (fun _ => rfl) hx
  have hcustom : config.customRoles = config'.customRoles := eq_of_without withoutTables (fun _ => rfl) hx
  obtain ⟨records, hr⟩ := exists_records h
  obtain ⟨records', hr'⟩ := exists_records h'
  rw [← htenant] at hr'
  obtain rfl := hr.eq_records hr' hprincipals howners
  have hothers : ∀ kind, kind ≠ .assignments → (diffOf p q kind).isEmpty = true := by
    intro kind hk
    refine ResolvedPolicy.Agrees.isEmpty (hr.same_self hv.owners) ?_
    cases kind with
    | groups => exact (hr.agrees_of_blueprint hr' hblueprint).1
    | memberships => exact (hr.agrees_of_blueprint hr' hblueprint).2
    | roleDefinitions => exact hr.agrees_of_customRoles hr' hcustom
    | assignments => exact absurd rfl hk
    | _ => exact hr.agrees_of_records hr' (by decide)
  have hadded := fun k => exists_isEdited_of_added (k := k) hx hr hr' hv
  have hremoved := fun k => exists_isEdited_of_removed (k := k) hx hr hr' hv
  have hchanged := fun k => mem_changed_iff (k := k) hx hr hr' hv
  have hempty : (∀ e r, ¬ config.IsEdited config' e r) → (PolicyDiff.between p q).isEmpty = true := by
    intro hn
    refine PolicyDiff.isEmpty_iff.2 fun kind => ?_
    by_cases hk : kind = .assignments
    · subst hk
      refine EntityDiff.isEmpty_iff.2 fun k hl => ?_
      rcases hl with hl | hl | hl
      · obtain ⟨a, e, r, he, -⟩ := hadded k hl
        exact hn e r he
      · obtain ⟨a, e, r, he, -⟩ := hremoved k hl
        exact hn e r he
      · obtain ⟨a, e, r, -, -, -, he, -⟩ := (hchanged k).1 hl
        exact hn e r he
    · exact hothers kind hk
  exact ⟨hothers, hadded, hremoved, hchanged, hempty, fun ht ho => hempty fun e r =>
    not_isEdited_of_sameRoles ht ho⟩

/-! ## A key that passes from one group to another -/

/-- The colliding configuration with other roles for the administrators of either environment. -/
def handover (admins next : List String) : PolicyConfig :=
  { colliding with environmentOverrides := some (.ofList [("dev", { admin := some admins }),
      ("dev-admin-x", ⟨some [], some [], some [], some next⟩)]) }

/-- The same configuration as it is written. -/
def handoverJson (admins next : List String) : Json := .obj [
  ("org_prefix", .str "acme"),
  ("environments", .ofTexts ["dev", "dev-admin-x"]),
  ("owners", .ofTexts ["owner"]),
  ("enable_subscription_assignments", .bool true),
  ("environment_role_overrides", .obj [
    ("dev", .obj [("admin", .ofTexts admins)]),
    ("dev-admin-x", .obj [("non_technical", .ofTexts []), ("technical", .ofTexts []), ("solo_project", .ofTexts []),
      ("admin", .ofTexts next)])])]

/-- The roles before and after. -/
def handovers : List (List String × List String) := [(["x-admin-Reader"], []), ([], ["Reader"])]

theorem isAcceptable_handover : ∀ o ∈ handovers,
    (handover o.1 o.2).IsAcceptable (sampleContext.withTenant (handover o.1 o.2).tenantId) := by
  have hroles : ∀ o ∈ handovers, ∀ e ∈ (handover o.1 o.2).environments, ∀ p,
      ((handover o.1 o.2).roleBook.listed? e p).isSome = true ∧
        ∀ role ∈ (handover o.1 o.2).roleBook.rolesIn e p, IsGrantable role := by decide +kernel
  have hjoins : ∀ o ∈ handovers, ∀ e ∈ (handover o.1 o.2).environments, ∀ r,
      ∀ e' ∈ (handover o.1 o.2).environments, ∀ r',
      ∀ a ∈ (handover o.1 o.2).roleBook.rolesIn e r, ∀ b ∈ (handover o.1 o.2).roleBook.rolesIn e' r',
        (handover o.1 o.2).blueprint.personaKey e r ++ "-" ++ a =
          (handover o.1 o.2).blueprint.personaKey e' r' ++ "-" ++ b →
        (handover o.1 o.2).blueprint.personaKey e r = (handover o.1 o.2).blueprint.personaKey e' r' := by
    decide +kernel
  have hready : ∀ t, colliding.tierPlan.isOn t = true →
      colliding.tierPlan.IsReady (sampleContext.withTenant colliding.tenantId) t := by decide +kernel
  intro o ho
  exact {
    covered := {
      listed := fun e he r => (hroles o ho e he r).1
      environment := by
        intro entry he
        cases he
      types := by
        intro entry he
        cases he }
    environments := isBuildable_colliding.environments
    projects := isBuildable_colliding.projects
    keys := isBuildable_colliding.keys
    ready := hready
    roles := fun _ e he r => (hroles o ho e he r).2
    rotation := by
      intro d hd
      cases hd
    credentials := by
      intro d hd
      cases hd
    grants := by
      intro d hd
      cases hd
    overlap := fun _ => not_hasOverlap_of_joins (hjoins o ho) }

theorem diffOf_tables_handover : ∃ p q, resolve (handover ["x-admin-Reader"] []) sampleContext = .ok p ∧
    resolve (handover [] ["Reader"]) sampleContext = .ok q ∧
    ∀ kind, kind ≠ .assignments → (diffOf p q kind).isEmpty = true := by
  have hj : PolicyConfig.ofJson (handoverJson ["x-admin-Reader"] []) = .ok (handover ["x-admin-Reader"] []) := rfl
  have hj' : PolicyConfig.ofJson (handoverJson [] ["Reader"]) = .ok (handover [] ["Reader"]) := rfl
  obtain ⟨p, h⟩ := (isAcceptable_handover (["x-admin-Reader"], []) (by decide)).exists_policy (isValid_of_ofJson hj)
  obtain ⟨q, h'⟩ := (isAcceptable_handover ([], ["Reader"]) (by decide)).exists_policy (isValid_of_ofJson hj')
  have hx : (handover ["x-admin-Reader"] []).withoutTables = (handover [] ["Reader"]).withoutTables := rfl
  exact ⟨p, q, h, h', (diffOf_tables hj hx h h').1⟩

/-- A role is taken from the administrators of one environment and given to those of another one, and the key
that both have counts as changed. -/
theorem mem_changed_handover :
    PolicyConfig.ofJson (handoverJson ["x-admin-Reader"] []) = .ok (handover ["x-admin-Reader"] []) ∧
    PolicyConfig.ofJson (handoverJson [] ["Reader"]) = .ok (handover [] ["Reader"]) ∧
    (handover ["x-admin-Reader"] []).withoutTables = (handover [] ["Reader"]).withoutTables ∧
    ∃ p q, resolve (handover ["x-admin-Reader"] []) sampleContext = .ok p ∧
      resolve (handover [] ["Reader"]) sampleContext = .ok q ∧
      "subscription-acme-dev-admin-x-admin-Reader" ∈ (diffOf p q .assignments).changed := by
  have hv := isValid_of_ofJson (j := handoverJson ["x-admin-Reader"] []) (c := handover ["x-admin-Reader"] []) rfl
  have hv' := isValid_of_ofJson (j := handoverJson [] ["Reader"]) (c := handover [] ["Reader"]) rfl
  obtain ⟨p, h⟩ := (isAcceptable_handover (["x-admin-Reader"], []) (by decide)).exists_policy hv
  obtain ⟨q, h'⟩ := (isAcceptable_handover ([], ["Reader"]) (by decide)).exists_policy hv'
  obtain ⟨records, hr⟩ := exists_records h
  obtain ⟨records', hr'⟩ := exists_records h'
  have hplace : Place.subscription ∈ colliding.tierPlan.places := by decide +kernel
  have hrole : "x-admin-Reader" ∈ (handover ["x-admin-Reader"] []).roleBook.rolesIn "dev" .admin := by
    decide +kernel
  have hrole' : "Reader" ∈ (handover [] ["Reader"]).roleBook.rolesIn "dev-admin-x" .admin := by decide +kernel
  have hold := (hr.grantsTo_iff hv.owners).2 ⟨List.mem_cons_self, _, hplace, _, hrole, rfl⟩
  have hnew := (hr'.grantsTo_iff hv'.owners).2 ⟨List.mem_cons_of_mem _ List.mem_cons_self, _, hplace, _, hrole', rfl⟩
  refine ⟨rfl, rfl, rfl, p, q, h, h', ?_⟩
  exact EntityDiff.mem_changed (tellsRecords_of_nodup (hr.nodup_keys hv .assignments))
    (tellsRecords_of_nodup (hr'.nodup_keys hv' .assignments)) hold.mem hnew.mem (by decide +kernel)
    (by decide +kernel)

end PolicyConfig

end AccessPlan
