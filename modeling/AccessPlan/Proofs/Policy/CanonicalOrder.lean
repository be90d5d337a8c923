import AccessPlan.Proofs.Policy.Acceptance
import AccessPlan.Proofs.Policy.Records

/-!
# The order of a policy

The records of every kind of a policy are in strictly ascending order of their keys (`ascending_keys`). Four kinds are
sorted by their keys, and these are different (`HasRecords.nodup_keys`). The others have one record for every name of a
map, and putting the same text before all names keeps their order (`ascending_prefixed`).

So the records by their keys are all records, in their order (`canonical_of_resolve`).
-/

namespace AccessPlan

section Texts

variable {pre s t : String} {xs : List String}

theorem append_lt_append (h : s < t) : pre ++ s < pre ++ t := by
  show (pre ++ s).toList < (pre ++ t).toList
  rw [String.toList_append, String.toList_append]
  exact List.append_left_lt h

/-- The same text before all texts keeps their order. -/
theorem ascending_prefixed (h : xs.Pairwise (· < ·)) : (xs.map (pre ++ ·)).Pairwise (· < ·) :=
  List.pairwise_map.2 (h.imp append_lt_append)

theorem NameMap.ascending_names {α : Type} (m : NameMap α) : m.names.Pairwise (· < ·) :=
  List.pairwise_map.2 m.ascending

end Texts

/-! ## Records by their keys -/

/-- The records by their keys are all of them, in the order in which they are listed. -/
def EntityDiff.KeepsAll {α : Type} (key : α → String) (records : List α) : Prop :=
  (EntityDiff.index key records).entries = records.map fun r => (key r, r)

theorem EntityDiff.keepsAll_of_ascending {α : Type} {key : α → String} {records : List α}
    (h : (records.map key).Pairwise (· < ·)) : KeepsAll key records :=
  NameMap.entries_ofList (List.pairwise_map.2 (List.pairwise_map.1 h))

/-- The records of a kind by their keys are all of them. -/
def ResolvedPolicy.KeepsAll (p : ResolvedPolicy) : EntityKind → Prop
  | .groups => EntityDiff.KeepsAll Group.key p.groups
  | .memberships => EntityDiff.KeepsAll Membership.key p.memberships
  | .roleDefinitions => EntityDiff.KeepsAll RoleDefinition.key p.roleDefinitions
  | .assignments => EntityDiff.KeepsAll Assignment.key p.assignments
  | .applications => EntityDiff.KeepsAll Application.key p.applications
  | .servicePrincipals => EntityDiff.KeepsAll ServicePrincipal.key p.servicePrincipals
  | .ownerEdges => EntityDiff.KeepsAll OwnerEdge.key p.ownerEdges
  | .credentials => EntityDiff.KeepsAll Credential.key p.credentials

theorem ResolvedPolicy.keepsAll_of_ascending {p : ResolvedPolicy} {kind : EntityKind}
    (h : (p.keys kind).Pairwise (· < ·)) : p.KeepsAll kind := by
  cases kind <;> exact EntityDiff.keepsAll_of_ascending h

namespace PolicyConfig

variable {config : PolicyConfig} {context c : Context} {p : ResolvedPolicy} {records : List PrincipalRecords}

section Kinds

variable (hr : config.HasRecords c p records) (hv : config.IsValid)
include hr hv

/-- Where every service principal has one record of a kind, these are in the order of the names. -/
theorem HasRecords.ascending_records {f : PrincipalRecords → String} {pre : String}
    (hf : ∀ d name owners cr as, cr.key = "credential-" ++ name → f (.ofParts d name owners cr as) = pre ++ name) :
    (records.map f).Pairwise (· < ·) := by
  have hone : ∀ (e : String × PrincipalDefinition) r,
      PrincipalRecords.ofDefinition c (.ofTexts config.owners) e.1 e.2 = .ok r → f r = pre ++ e.1 := by
    intro e r he
    obtain ⟨cr, hk, -, rfl⟩ := PrincipalRecords.exists_parts hv.owners he
    exact hf e.2 e.1 _ cr _ hk
  have hnames : records.map f = config.servicePrincipals.names.map (pre ++ ·) := by
    rw [NameMap.names, List.map_map]
    exact map_of_mapM_eq_ok hone hr.principals
  rw [hnames]
  exact ascending_prefixed config.servicePrincipals.ascending_names

/-- The keys of every kind are in strictly ascending order. -/
theorem HasRecords.ascending_keys (kind : EntityKind) : (p.keys kind).Pairwise (· < ·) := by
  have hnodup := hr.nodup_keys hv kind
  cases kind with
  | groups =>
    simp only [ResolvedPolicy.keys, hr.groups] at hnodup ⊢
    exact ascending_keys_sortedBy hnodup
  | memberships =>
    simp only [ResolvedPolicy.keys, hr.memberships] at hnodup ⊢
    exact ascending_keys_sortedBy hnodup
  | roleDefinitions =>
    have hkeys : p.keys .roleDefinitions = config.customRoles.names.map ("role-definition-" ++ ·) := by
      rw [ResolvedPolicy.keys, hr.roleDefinitions, RoleDefinition.ofCustomRoles, NameMap.names, List.map_map,
        List.map_map]
      rfl
    rw [hkeys]
    exact ascending_prefixed config.customRoles.ascending_names
  | assignments =>
    simp only [ResolvedPolicy.keys, hr.assignments] at hnodup ⊢
    exact ascending_keys_sortedBy hnodup
  | applications =>
    rw [ResolvedPolicy.keys, hr.applications, List.map_map]
    exact hr.ascending_records hv fun _ _ _ _ _ _ => rfl
  | servicePrincipals =>
    rw [ResolvedPolicy.keys, hr.servicePrincipals, List.map_map]
    exact hr.ascending_records hv fun _ _ _ _ _ _ => rfl
  | ownerEdges =>
    simp only [ResolvedPolicy.keys, hr.ownerEdges] at hnodup ⊢
    exact ascending_keys_sortedBy hnodup
  | credentials =>
    rw [ResolvedPolicy.keys, hr.credentials, List.map_map]
    exact hr.ascending_records hv fun _ _ _ _ _ hk => hk

end Kinds

/-- The policy of a configuration that passed the check has the records of every kind in strictly ascending order of
their keys, so no two have the same key, and the records by their keys are all of them. -/
theorem canonical_of_resolve {j : Json} (hj : PolicyConfig.ofJson j = .ok config)
    (h : resolve config context = .ok p) (kind : EntityKind) :
    (p.keys kind).Pairwise (· < ·) ∧ (p.keys kind).Nodup ∧ p.KeepsAll kind := by
  obtain ⟨records, hr⟩ := exists_records h
  have ha := hr.ascending_keys (isValid_of_ofJson hj) kind
  exact ⟨ha, ha.imp String.ne_of_lt, ResolvedPolicy.keepsAll_of_ascending ha⟩

/-- A configuration with every tier switched on has a policy in this order. -/
theorem canonical_sample : PolicyConfig.ofJson sampleJson = .ok sample ∧
    ∃ p, resolve sample sampleContext = .ok p ∧
      ∀ kind, (p.keys kind).Pairwise (· < ·) ∧ (p.keys kind).Nodup ∧ p.KeepsAll kind := by
  have hj : PolicyConfig.ofJson sampleJson = .ok sample := rfl
  obtain ⟨p, hp⟩ := isAcceptable_sample.exists_policy (isValid_of_ofJson hj)
  exact ⟨hj, p, hp, canonical_of_resolve hj hp⟩

end PolicyConfig

end AccessPlan
