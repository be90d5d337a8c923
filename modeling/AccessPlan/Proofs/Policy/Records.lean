import AccessPlan.Proofs.Hierarchy.Keys
import AccessPlan.Proofs.Policy.Difference
import AccessPlan.Proofs.Policy.Sources
import AccessPlan.Proofs.Principal.Keys

/-!
# The records of a policy

A policy holds the groups and memberships of a blueprint, the definitions of the custom roles, and the records
of the service principals, which are made one by one (`HasRecords`, `exists_records`).

So the keys of every kind are those that the organization gives together with those of the service principals
(`HasRecords.keys_perm`), and no two records of one kind have the same key (`HasRecords.nodup_keys`).
-/

namespace AccessPlan

/-- An assignment of a policy is for the group of a persona in an environment. -/
structure ResolvedPolicy.GrantsTo (p : ResolvedPolicy) (a : Assignment) (e : String) (r : Persona) : Prop where
  mem : a ∈ p.assignments
  kind : a.principalKind = .group
  group : ∃ g ∈ p.groups, g.level = .persona ∧ g.environment = some e ∧ g.persona = some r ∧ g.key = a.principalKey

/-- Without secrets a document shows the policy itself. -/
theorem ResolvedPolicy.document_of_secrets {p : ResolvedPolicy} (h : ∀ cr ∈ p.credentials, cr.secret = none)
    (maskSecrets : Bool) : p.document maskSecrets =
      .ok (.obj (p.fields ++ [("apply_stages", .arr (p.stages.map Stage.toJson))])) := by
  have hshown : p.credentials.mapM Credential.documented = .ok p.credentials := by
    refine (mapM_eq_ok_iff (P := fun _ => True) (g := id) fun cr hcr shown => ?_).2 ⟨fun _ _ => trivial, by simp⟩
    simp only [Credential.documented, h cr hcr, Except.ok.injEq, true_and, id_eq, eq_comm]
  have hmasked : p.credentials.map Credential.masked = p.credentials := by
    refine (List.map_congr_left fun cr hcr => ?_).trans (List.map_id _)
    simp only [Credential.masked, h cr hcr, Option.map_none, id_eq]
    rw [← h cr hcr]
  unfold document
  rw [hshown]
  cases maskSecrets with
  | false => rfl
  | true =>
    show Except.ok (Json.obj ({ p with credentials := p.credentials.map Credential.masked }.fields ++ _)) = _
    rw [hmasked]

namespace PolicyConfig

section Definitions

variable (config : PolicyConfig)

/-- The keys of the records that are not made for a service principal. -/
def organizationKeys : EntityKind → List String
  | .groups => config.blueprint.groups.map Group.key
  | .memberships => config.blueprint.hierarchy.memberships.map Membership.key
  | .roleDefinitions => config.customRoles.names.map fun name => "role-definition-" ++ name
  | .assignments => config.groupSources.map Source.key
  | _ => []

/-- The keys of the records that are made for service principals. -/
def principalKeys (kind : EntityKind) : List String :=
  config.servicePrincipals.entries.flatMap fun e => e.2.keys config.owners e.1 kind

/-- A policy that a configuration resolves to, and where its records are from; `records` are those of the
service principals. -/
structure HasRecords (c : Context) (p : ResolvedPolicy) (records : List PrincipalRecords) : Prop where
  covered : config.IsCovered
  buildable : config.IsBuildable
  principals : (config.servicePrincipals.entries.mapM fun e =>
    PrincipalRecords.ofDefinition c (.ofTexts config.owners) e.1 e.2) = .ok records
  groups : p.groups = sortedBy Group.key config.blueprint.groups
  memberships : p.memberships = sortedBy Membership.key config.blueprint.hierarchy.memberships
  roleDefinitions : p.roleDefinitions = RoleDefinition.ofCustomRoles config.customRoles c
  assignments : p.assignments = sortedBy Assignment.key
    (config.groupSources.map (·.assignment (config.tierPlan.scopeAt c)) ++ records.flatMap (·.assignments))
  applications : p.applications = records.map (·.application)
  servicePrincipals : p.servicePrincipals = records.map (·.principal)
  ownerEdges : p.ownerEdges = sortedBy OwnerEdge.key (records.flatMap (·.ownerEdges))
  credentials : p.credentials = records.map (·.credential)
  /-- The check of the keys of assignments. -/
  nodup_assignmentKeys : (p.assignments.map Assignment.key).Nodup

end Definitions

variable {config : PolicyConfig} {context c : Context} {p : ResolvedPolicy} {records : List PrincipalRecords}

/-- The records that a resolution gives. -/
theorem exists_records (h : resolve config context = .ok p) :
    ∃ records, config.HasRecords (context.withTenant config.tenantId) p records := by
  obtain ⟨hc, hb, granted, principals, summary, hg, hp, hu, -, rfl⟩ := resolve_eq_ok_iff.1 h
  obtain ⟨-, -, rfl⟩ := Expansion.expand_eq_ok_iff.1 hg
  obtain ⟨records, hr, hp⟩ := bind_eq_ok.1 hp
  obtain rfl := Except.ok.inj hp
  exact ⟨records, {
    covered := hc
    buildable := hb
    principals := hr
    groups := rfl
    memberships := rfl
    roleDefinitions := rfl
    assignments := rfl
    applications := rfl
    servicePrincipals := rfl
    ownerEdges := rfl
    credentials := rfl
    nodup_assignmentKeys := nodup_sortedBy_iff.2 hu }⟩

/-- No slash stands in the key of a group. -/
theorem IsBuildable.slash_not_mem_key (hb : config.IsBuildable) {g : Group} (hg : config.blueprint.Makes g) :
    '/' ∉ g.key.toList := by
  have hc : ∀ c, isNameChar c = true → c ≠ '/' := by
    rintro c h rfl
    exact absurd h (by decide)
  have hname : ∀ {names : List String}, AreNames names → ∀ n ∈ sortedBy id names, ∀ c ∈ n.toList, c ≠ '/' := by
    rintro names hn n hm _ hc rfl
    exact slash_not_mem_of_isName (hn.isName n (mem_sortedBy.1 hm)) hc
  have ho : ∀ c ∈ config.orgPrefix.toList, c ≠ '/' := by
    rintro _ hm rfl
    exact slash_not_mem_of_isPrefixText hb.orgPrefix hm
  exact fun hm => hg.forall_mem_key hc ho (hname hb.environments) (fun _ => hname hb.projects) _ hm rfl

/-- No slash stands in the name of a service principal. -/
theorem IsValid.slash_not_mem_name (hv : config.IsValid) {n : String} {d : PrincipalDefinition}
    (hd : config.servicePrincipals.get? n = some d) : '/' ∉ n.toList :=
  (isKeySegment_eq_true.1 (hv.principals n (NameMap.mem_names.2 ⟨d, NameMap.get?_eq_some_iff.1 hd⟩))).2

namespace HasRecords

variable (hr : config.HasRecords c p records)
include hr

/-- The records of service principals are those of the definitions. -/
theorem mem_records {r : PrincipalRecords} : r ∈ records ↔ ∃ e ∈ config.servicePrincipals.entries,
    PrincipalRecords.ofDefinition c (.ofTexts config.owners) e.1 e.2 = .ok r :=
  mem_of_mapM_eq_ok hr.principals

theorem flatMap_keys (ho : config.owners ≠ []) (kind : EntityKind) :
    records.flatMap (·.keys kind) = config.principalKeys kind := by
  have hm : records.map (·.keys kind) =
      config.servicePrincipals.entries.map fun e => e.2.keys config.owners e.1 kind :=
    map_of_mapM_eq_ok (fun e r he => PrincipalRecords.keys_ofDefinition ho he kind) hr.principals
  rw [principalKeys, List.flatMap_def, hm, ← List.flatMap_def]

/-- The keys of a kind are those of the organization and those of the service principals. -/
theorem keys_perm (ho : config.owners ≠ []) (kind : EntityKind) :
    (p.keys kind).Perm (config.organizationKeys kind ++ config.principalKeys kind) := by
  have hnone : ∀ kind ∈ [EntityKind.groups, .memberships, .roleDefinitions], config.principalKeys kind = [] := by
    intro kind hk
    refine List.flatMap_eq_nil_iff.2 fun e _ => ?_
    simp only [List.mem_cons, List.not_mem_nil, or_false] at hk
    rcases hk with rfl | rfl | rfl <;> rfl
  have hone : ∀ {α : Type} {f : PrincipalRecords → α} {key : α → String},
      (records.map f).map key = records.flatMap fun r => [key (f r)] := by
    intro α f key
    rw [List.map_map, List.map_eq_flatMap]
    rfl
  cases kind with
  | groups =>
    rw [hnone _ (by decide), List.append_nil, ResolvedPolicy.keys, hr.groups]
    exact (sortedBy_perm _ _).map _
  | memberships =>
    rw [hnone _ (by decide), List.append_nil, ResolvedPolicy.keys, hr.memberships]
    exact (sortedBy_perm _ _).map _
  | roleDefinitions =>
    rw [hnone _ (by decide), List.append_nil, ResolvedPolicy.keys, hr.roleDefinitions, RoleDefinition.ofCustomRoles,
      organizationKeys, NameMap.names, List.map_map, List.map_map]
    rfl
  | assignments =>
    rw [← hr.flatMap_keys ho, ResolvedPolicy.keys, hr.assignments]
    refine ((sortedBy_perm _ _).map _).trans (List.Perm.of_eq ?_)
    simp only [List.map_append, List.map_map, List.map_flatMap, organizationKeys, Function.comp_def,
      Source.key_assignment]
    rfl
  | applications =>
    rw [← hr.flatMap_keys ho, ResolvedPolicy.keys, hr.applications, hone]
    rfl
  | servicePrincipals =>
    rw [← hr.flatMap_keys ho, ResolvedPolicy.keys, hr.servicePrincipals, hone]
    rfl
  | ownerEdges =>
    rw [← hr.flatMap_keys ho, ResolvedPolicy.keys, hr.ownerEdges]
    refine ((sortedBy_perm _ _).map _).trans (List.Perm.of_eq ?_)
    rw [List.map_flatMap]
    rfl
  | credentials =>
    rw [← hr.flatMap_keys ho, ResolvedPolicy.keys, hr.credentials, hone]
    rfl

theorem mem_keys (ho : config.owners ≠ []) {kind : EntityKind} {k : String} :
    k ∈ p.keys kind ↔ k ∈ config.organizationKeys kind ∨ k ∈ config.principalKeys kind := by
  rw [(hr.keys_perm ho kind).mem_iff, List.mem_append]

/-! ## Keys -/

omit hr in
/-- The keys of the organization are not made of names of service principals. -/
theorem not_isKeyOf {name : String} {kind : EntityKind} {k : String} (h : k ∈ config.organizationKeys kind) :
    ¬ IsKeyOf name kind k := by
  intro hk
  cases kind with
  | assignments =>
    obtain ⟨x, hx, rfl⟩ := List.mem_map.1 h
    obtain ⟨place, -, g, -, role, -, rfl⟩ := mem_groupSources.1 hx
    obtain ⟨label, hkey⟩ := hk
    have hprincipal : (Source.group place g.key role).key = (Source.principal name label ⟨"", ""⟩).key := hkey
    exact Source.key_group_ne_principal hprincipal
  | groups => cases hk
  | memberships => cases hk
  | roleDefinitions => cases hk
  | _ => cases h

omit hr in
theorem nodup_principalKeys (hv : config.IsValid) (kind : EntityKind) : (config.principalKeys kind).Nodup := by
  have hnames := List.pairwise_map.1 (NameMap.nodup_names config.servicePrincipals)
  refine List.nodup_flatMap.2 ⟨fun e _ => PrincipalDefinition.nodup_keys, hnames.imp_of_mem ?_⟩
  intro e e' he he' hne k hk hk'
  have hslash : ∀ e ∈ config.servicePrincipals.entries, '/' ∉ e.1.toList := fun e he =>
    hv.slash_not_mem_name (NameMap.get?_eq_some_iff.2 he)
  exact hne (PrincipalDefinition.name_eq_of_isKeyOf (hslash e he) (hslash e' he')
    (PrincipalDefinition.isKeyOf_of_mem_keys hk) (PrincipalDefinition.isKeyOf_of_mem_keys hk'))

/-- A policy has the records of every definition. -/
theorem mem_keys_of_get? (ho : config.owners ≠ []) {kind : EntityKind} {n k : String} {d : PrincipalDefinition}
    (hd : config.servicePrincipals.get? n = some d) (hk : k ∈ d.keys config.owners n kind) : k ∈ p.keys kind :=
  (hr.mem_keys ho).2 (Or.inr (List.mem_flatMap.2 ⟨(n, d), NameMap.get?_eq_some_iff.1 hd, hk⟩))

/-- A policy has no record of a name that is not bound. -/
theorem not_mem_keys_of_isKeyOf (hv : config.IsValid) {kind : EntityKind} {n k : String} (hn : '/' ∉ n.toList)
    (hnone : config.servicePrincipals.get? n = none) (hk : IsKeyOf n kind k) : k ∉ p.keys kind := by
  intro hp
  rcases (hr.mem_keys hv.owners).1 hp with ho | hprincipal
  · exact not_isKeyOf ho hk
  · obtain ⟨e, he, hke⟩ := List.mem_flatMap.1 hprincipal
    have hd := NameMap.get?_eq_some_iff.2 he
    obtain rfl := PrincipalDefinition.name_eq_of_isKeyOf (hv.slash_not_mem_name hd) hn
      (PrincipalDefinition.isKeyOf_of_mem_keys hke) hk
    rw [hd] at hnone
    cases hnone

/-- No two records of a kind have the same key. -/
theorem nodup_keys (hv : config.IsValid) (kind : EntityKind) : (p.keys kind).Nodup := by
  have horganization : kind ≠ .assignments → (config.organizationKeys kind).Nodup := by
    intro hk
    cases kind with
    | groups => exact hr.buildable.keys
    | memberships =>
      exact Blueprint.nodup_membershipKeys hr.buildable.keys fun g hg => hr.buildable.slash_not_mem_key hg
    | roleDefinitions => exact (NameMap.nodup_names _).map fun _ _ he => (String.append_right_inj _).1 he
    | assignments => exact absurd rfl hk
    | _ => exact .nil
  by_cases hk : kind = .assignments
  · subst hk
    exact hr.nodup_assignmentKeys
  · rw [(hr.keys_perm hv.owners kind).nodup_iff]
    refine List.nodup_append.2 ⟨horganization hk, nodup_principalKeys hv kind, ?_⟩
    rintro k ho _ hp rfl
    obtain ⟨e, -, he⟩ := List.mem_flatMap.1 hp
    exact not_isKeyOf ho (PrincipalDefinition.isKeyOf_of_mem_keys he)

/-! ## Records -/

theorem mem_groups {g : Group} : g ∈ p.groups ↔ config.blueprint.Makes g := by
  rw [hr.groups, mem_sortedBy, Blueprint.mem_groups_iff]

theorem mem_memberships {m : Membership} : m ∈ p.memberships ↔
    ∃ g, config.blueprint.Makes g ∧ g.parentKey = some m.parentKey ∧ g.key = m.childKey := by
  rw [hr.memberships, mem_sortedBy, Blueprint.mem_memberships]

theorem mem_assignments {a : Assignment} : a ∈ p.assignments ↔
    (∃ x ∈ config.groupSources, a = x.assignment (config.tierPlan.scopeAt c)) ∨
      ∃ r ∈ records, a ∈ r.assignments := by
  simp only [hr.assignments, mem_sortedBy, List.mem_append, List.mem_map, List.mem_flatMap, eq_comm]

/-- The assignments of service principals are not for groups. -/
theorem not_grantsTo_of_mem (ho : config.owners ≠ []) {s : PrincipalRecords} (hm : s ∈ records) {a : Assignment}
    (ha : a ∈ s.assignments) {e : String} {r : Persona} : ¬ p.GrantsTo a e r := by
  intro h
  obtain ⟨d, -, hd⟩ := hr.mem_records.1 hm
  obtain ⟨credential, -, -, rfl⟩ := PrincipalRecords.exists_parts ho hd
  obtain ⟨x, hx, rfl⟩ := List.mem_map.1 ha
  obtain ⟨g, -, rfl⟩ := List.mem_map.1 hx
  exact absurd h.kind (by simp [Source.assignment])

/-- Who the assignments for groups are for, and what they are made of. -/
theorem grantsTo_iff (ho : config.owners ≠ []) {a : Assignment} {e : String} {r : Persona} : p.GrantsTo a e r ↔
    e ∈ config.environments ∧ ∃ place ∈ config.tierPlan.places,
      ∃ role ∈ config.roleBook.rolesIn e r, a =
        (Source.group place (config.blueprint.personaKey e r) role).assignment (config.tierPlan.scopeAt c) := by
  constructor
  · intro h
    obtain ⟨g, hg, -, he, hp, hk⟩ := h.group
    rcases hr.mem_assignments.1 h.mem with ⟨x, hx, rfl⟩ | ⟨s, hs, ha⟩
    · obtain ⟨place, hplace, g', hg', role, hrole, rfl⟩ := mem_groupSources.1 hx
      obtain ⟨e', he', r', rfl⟩ := mem_layer_persona.1 hg'
      have hm : config.blueprint.Makes (config.blueprint.personaGroup e' r') :=
        .persona (mem_environments_blueprint.2 he') r'
      obtain rfl := Blueprint.eq_of_key_eq hr.buildable.keys (hr.mem_groups.1 hg) hm hk
      obtain rfl := Option.some.inj he
      obtain rfl := Option.some.inj hp
      exact ⟨he', place, hplace, role, hrole, rfl⟩
    · exact absurd h (hr.not_grantsTo_of_mem ho hs ha)
  · rintro ⟨he, place, hplace, role, hrole, rfl⟩
    have hm : config.blueprint.Makes (config.blueprint.personaGroup e r) :=
      .persona (mem_environments_blueprint.2 he) r
    exact {
      mem := hr.mem_assignments.2 (Or.inl ⟨_, mem_groupSources.2 ⟨place, hplace, _, mem_layer_persona.2 ⟨e, he, r, rfl⟩,
        role, hrole, rfl⟩, rfl⟩)
      kind := rfl
      group := ⟨_, hr.mem_groups.2 hm, rfl, rfl, rfl, rfl⟩ }

/-- An assignment is for one group only. -/
theorem grantsTo_unique (ho : config.owners ≠ []) {a : Assignment} {e e' : String} {r r' : Persona}
    (h : p.GrantsTo a e r) (h' : p.GrantsTo a e' r') : e = e' ∧ r = r' := by
  obtain ⟨he, place, -, role, -, rfl⟩ := (hr.grantsTo_iff ho).1 h
  obtain ⟨he', place', -, role', -, ha⟩ := (hr.grantsTo_iff ho).1 h'
  exact Blueprint.personaKey_inj hr.buildable.keys (mem_environments_blueprint.2 he) (mem_environments_blueprint.2 he')
    (congrArg Assignment.principalKey ha)

/-- An assignment is for a persona group or of a service principal. -/
theorem mem_assignments_iff_grantsTo (ho : config.owners ≠ []) {a : Assignment} :
    a ∈ p.assignments ↔ (∃ e r, p.GrantsTo a e r) ∨ ∃ s ∈ records, a ∈ s.assignments := by
  rw [hr.mem_assignments]
  refine or_congr_left ⟨?_, ?_⟩
  · rintro ⟨x, hx, rfl⟩
    obtain ⟨place, hplace, g, hg, role, hrole, rfl⟩ := mem_groupSources.1 hx
    obtain ⟨e, he, r, rfl⟩ := mem_layer_persona.1 hg
    exact ⟨e, r, (hr.grantsTo_iff ho).2 ⟨he, place, hplace, role, hrole, rfl⟩⟩
  · rintro ⟨e, r, h⟩
    obtain ⟨he, place, hplace, role, hrole, rfl⟩ := (hr.grantsTo_iff ho).1 h
    exact ⟨_, mem_groupSources.2 ⟨place, hplace, _, mem_layer_persona.2 ⟨e, he, r, rfl⟩, role, hrole, rfl⟩, rfl⟩

/-- No credential of a policy has a secret yet. -/
theorem secret_eq_none (ho : config.owners ≠ []) : ∀ cr ∈ p.credentials, cr.secret = none := by
  intro cr hcr
  rw [hr.credentials] at hcr
  obtain ⟨r, hm, rfl⟩ := List.mem_map.1 hcr
  obtain ⟨e, -, he⟩ := hr.mem_records.1 hm
  obtain ⟨credential, -, hs, rfl⟩ := PrincipalRecords.exists_parts ho he
  exact hs

/-- So each is the same as itself. -/
theorem same_self (ho : config.owners ≠ []) : ∀ cr ∈ p.credentials, cr.same cr = true := by
  intro cr hcr
  have hn : ((none : Option Json) == none) = true := rfl
  simp [Credential.same, Calendar.Timestamp.sameInstant, hr.secret_eq_none ho cr hcr, hn]

/-- The document of a policy, with nothing to mask in it. -/
theorem document_eq (ho : config.owners ≠ []) (maskSecrets : Bool) : p.document maskSecrets =
    .ok (.obj (p.fields ++ [("apply_stages", .arr (p.stages.map Stage.toJson))])) :=
  ResolvedPolicy.document_of_secrets (hr.secret_eq_none ho) maskSecrets

end HasRecords

/-! ## Two policies -/

section Agreement

variable {config' : PolicyConfig} {q : ResolvedPolicy} {records' : List PrincipalRecords} {kind : EntityKind}

/-- What does not read a part of a configuration is the same in configurations that are the same without it. -/
theorem eq_of_without {α : Type} {f : PolicyConfig → α} (without : PolicyConfig → PolicyConfig)
    (hf : ∀ config, f (without config) = f config) (hx : without config = without config') : f config = f config' := by
  rw [← hf config, hx, hf config']

/-- Of one blueprint there are the same groups and memberships. -/
theorem HasRecords.agrees_of_blueprint (hr : config.HasRecords c p records) (hr' : config'.HasRecords c q records')
    (hb : config.blueprint = config'.blueprint) : p.Agrees q .groups ∧ p.Agrees q .memberships := by
  constructor
  · rw [ResolvedPolicy.Agrees, hr.groups, hr'.groups, hb]
  · rw [ResolvedPolicy.Agrees, hr.memberships, hr'.memberships, hb]

/-- Of the same custom roles there are the same definitions. -/
theorem HasRecords.agrees_of_customRoles (hr : config.HasRecords c p records) (hr' : config'.HasRecords c q records')
    (hc : config.customRoles = config'.customRoles) : p.Agrees q .roleDefinitions := by
  rw [ResolvedPolicy.Agrees, hr.roleDefinitions, hr'.roleDefinitions, hc]

/-- Of the same service principals and owners there are the same records. -/
theorem HasRecords.eq_records (hr : config.HasRecords c p records) (hr' : config'.HasRecords c q records')
    (hs : config.servicePrincipals = config'.servicePrincipals) (ho : config.owners = config'.owners) :
    records = records' := by
  have h := hr.principals
  rw [hs, ho] at h
  exact Except.ok.inj (h.symm.trans hr'.principals)

theorem HasRecords.agrees_of_records (hr : config.HasRecords c p records) (hr' : config'.HasRecords c q records)
    (hk : kind ∈ [EntityKind.applications, .servicePrincipals, .ownerEdges, .credentials]) : p.Agrees q kind := by
  simp only [List.mem_cons, List.not_mem_nil, or_false] at hk
  rcases hk with rfl | rfl | rfl | rfl
  · rw [ResolvedPolicy.Agrees, hr.applications, hr'.applications]
  · rw [ResolvedPolicy.Agrees, hr.servicePrincipals, hr'.servicePrincipals]
  · rw [ResolvedPolicy.Agrees, hr.ownerEdges, hr'.ownerEdges]
  · rw [ResolvedPolicy.Agrees, hr.credentials, hr'.credentials]

end Agreement

end PolicyConfig

end AccessPlan
