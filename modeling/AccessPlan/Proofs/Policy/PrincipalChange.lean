import AccessPlan.Proofs.Policy.Acceptance
import AccessPlan.Proofs.Policy.Records

/-!
# Changing service principals

Two configurations differ in their service principals only. A name is bound to a definition in both, or it is
rebound: only one of them binds it, or they bind it to different definitions. Whatever differs between the
policies has a key that is made of a rebound name, and all records of a name that only one of them binds are
added or removed (`diffOf_principals`).
-/

namespace AccessPlan.PolicyConfig

/-- A configuration without its service principals. Two that are the same without them differ in nothing else. -/
def withoutPrincipals (config : PolicyConfig) : PolicyConfig := { config with servicePrincipals := .empty }

variable {config config' : PolicyConfig} {context c : Context} {p q : ResolvedPolicy}
  {records records' : List PrincipalRecords} {kind : EntityKind} {n k : String} {d : PrincipalDefinition}

/-- If two lists are made of the records of service principals and otherwise the same, a key that differs is
of records that only one side has. -/
theorem exists_record_of_between {α : Type} {key : α → String} {same : α → α → Bool} {xs ys : List α}
    {f : PrincipalRecords → List α} {P : α → Prop} (hxs : ∀ x, x ∈ xs ↔ P x ∨ ∃ r ∈ records, x ∈ f r)
    (hys : ∀ x, x ∈ ys ↔ P x ∨ ∃ r ∈ records', x ∈ f r) (ht : (ys.map key).Nodup) (hs : ∀ x ∈ ys, same x x = true)
    (h : (EntityDiff.between key same xs ys).Lists k) :
    ∃ r, k ∈ (f r).map key ∧ (r ∈ records' ∧ r ∉ records ∨ r ∈ records ∧ r ∉ records') := by
  obtain ⟨x, rfl, hx⟩ := EntityDiff.exists_of_lists (tellsRecords_of_nodup ht) hs h
  rw [hxs, hys] at hx
  rcases hx with ⟨hp | ⟨r, hm, hf⟩, hn⟩ | ⟨hp | ⟨r, hm, hf⟩, hn⟩
  · exact absurd (Or.inl hp) hn
  · exact ⟨r, List.mem_map_of_mem hf, Or.inl ⟨hm, fun hm' => hn (Or.inr ⟨r, hm', hf⟩)⟩⟩
  · exact absurd (Or.inl hp) hn
  · exact ⟨r, List.mem_map_of_mem hf, Or.inr ⟨hm, fun hm' => hn (Or.inr ⟨r, hm', hf⟩)⟩⟩

section Records

variable (hx : config.withoutPrincipals = config'.withoutPrincipals) (hr : config.HasRecords c p records)
  (hr' : config'.HasRecords c q records')
include hx hr hr'

/-- Groups, memberships and role definitions do not depend on the service principals. -/
theorem isEmpty_diffOf_organization (ho : config.owners ≠ [])
    (hk : kind ∈ [EntityKind.groups, .memberships, .roleDefinitions]) : (diffOf p q kind).isEmpty = true := by
  have hblueprint : config.blueprint = config'.blueprint := eq_of_without withoutPrincipals (fun _ => rfl) hx
  have hcustom : config.customRoles = config'.customRoles := eq_of_without withoutPrincipals (fun _ => rfl) hx
  refine ResolvedPolicy.Agrees.isEmpty (hr.same_self ho) ?_
  simp only [List.mem_cons, List.not_mem_nil, or_false] at hk
  rcases hk with rfl | rfl | rfl
  · exact (hr.agrees_of_blueprint hr' hblueprint).1
  · exact (hr.agrees_of_blueprint hr' hblueprint).2
  · exact hr.agrees_of_customRoles hr' hcustom

/-- A key is listed only for records of a service principal that one policy does not have. -/
theorem exists_record_of_lists (hv : config.IsValid) (hv' : config'.IsValid) (h : (diffOf p q kind).Lists k) :
    ∃ r, k ∈ r.keys kind ∧ (r ∈ records' ∧ r ∉ records ∨ r ∈ records ∧ r ∉ records') := by
  have hsame : kind ∉ [EntityKind.groups, .memberships, .roleDefinitions] := fun hk =>
    EntityDiff.isEmpty_iff.1 (isEmpty_diffOf_organization hx hr hr' hv.owners hk) k h
  have htells := hr'.nodup_keys hv' kind
  have hone : ∀ {α : Type} {f : PrincipalRecords → α} {rs : List PrincipalRecords} (x : α),
      x ∈ rs.map f ↔ False ∨ ∃ r ∈ rs, x ∈ [f r] := by
    intro α f rs x
    simp only [List.mem_map, List.mem_singleton, eq_comm, false_or]
  cases kind with
  | groups => exact absurd (by decide) hsame
  | memberships => exact absurd (by decide) hsame
  | roleDefinitions => exact absurd (by decide) hsame
  | assignments =>
    have hsources : config.groupSources = config'.groupSources := eq_of_without withoutPrincipals (fun _ => rfl) hx
    have hplan : config.tierPlan = config'.tierPlan := eq_of_without withoutPrincipals (fun _ => rfl) hx
    refine exists_record_of_between (fun a => hr.mem_assignments) (fun a => ?_) htells beq_self_of_mem h
    rw [hsources, hplan]
    exact hr'.mem_assignments
  | applications =>
    exact exists_record_of_between (hr.applications ▸ hone) (hr'.applications ▸ hone) htells beq_self_of_mem h
  | servicePrincipals =>
    exact exists_record_of_between (hr.servicePrincipals ▸ hone) (hr'.servicePrincipals ▸ hone) htells beq_self_of_mem h
  | ownerEdges =>
    refine exists_record_of_between (P := fun _ => False) (fun x => ?_) (fun x => ?_) htells beq_self_of_mem h
    · rw [hr.ownerEdges, mem_sortedBy, List.mem_flatMap, false_or]
    · rw [hr'.ownerEdges, mem_sortedBy, List.mem_flatMap, false_or]
  | credentials =>
    exact exists_record_of_between (hr.credentials ▸ hone) (hr'.credentials ▸ hone) htells
      (hr'.same_self hv'.owners) h

/-- A record that only the second policy has is of a name that its configuration binds otherwise. -/
theorem exists_rebound_of_record (ho : config.owners ≠ []) {r : PrincipalRecords} (hm : r ∈ records')
    (hn : r ∉ records) (hk : k ∈ r.keys kind) :
    ∃ n, config.servicePrincipals.get? n ≠ config'.servicePrincipals.get? n ∧ IsKeyOf n kind k := by
  have howners : config.owners = config'.owners := eq_of_without withoutPrincipals (fun _ => rfl) hx
  obtain ⟨e, he, hd⟩ := hr'.mem_records.1 hm
  refine ⟨e.1, fun heq => hn (hr.mem_records.2 ⟨e, ?_, howners ▸ hd⟩), ?_⟩
  · exact NameMap.get?_eq_some_iff.1 (heq.trans (NameMap.get?_eq_some_iff.2 he))
  · rw [PrincipalRecords.keys_ofDefinition (howners ▸ ho) hd] at hk
    exact PrincipalDefinition.isKeyOf_of_mem_keys hk

/-- A key is listed only for a name that is rebound. -/
theorem exists_rebound_of_lists (hv : config.IsValid) (hv' : config'.IsValid) (h : (diffOf p q kind).Lists k) :
    ∃ n, config.servicePrincipals.get? n ≠ config'.servicePrincipals.get? n ∧ IsKeyOf n kind k := by
  obtain ⟨r, hk, ⟨hm, hn⟩ | ⟨hm, hn⟩⟩ := exists_record_of_lists hx hr hr' hv hv' h
  · exact exists_rebound_of_record hx hr hr' hv.owners hm hn hk
  · obtain ⟨n, hne, hkey⟩ := exists_rebound_of_record hx.symm hr' hr hv'.owners hm hn hk
    exact ⟨n, hne.symm, hkey⟩

end Records

/-- If only service principals are changed, a key that the difference lists is made of a name that is rebound.
All records of a name that only the second configuration binds are added, and all records of a name that only
the first one binds are removed. -/
theorem diffOf_principals {j j' : Json} (hj : PolicyConfig.ofJson j = .ok config)
    (hj' : PolicyConfig.ofJson j' = .ok config') (hx : config.withoutPrincipals = config'.withoutPrincipals)
    (h : resolve config context = .ok p) (h' : resolve config' context = .ok q) :
    (∀ kind ∈ [EntityKind.groups, .memberships, .roleDefinitions], (diffOf p q kind).isEmpty = true) ∧
      (∀ kind k, (diffOf p q kind).Lists k →
        ∃ n, config.servicePrincipals.get? n ≠ config'.servicePrincipals.get? n ∧ IsKeyOf n kind k) ∧
      (∀ n d, config.servicePrincipals.get? n = none → config'.servicePrincipals.get? n = some d → ∀ kind,
        (∀ k ∈ d.keys config.owners n kind, k ∈ (diffOf p q kind).added) ∧
          ∀ k ∈ q.keys kind, IsKeyOf n kind k → k ∈ (diffOf p q kind).added) ∧
      (∀ n d, config.servicePrincipals.get? n = some d → config'.servicePrincipals.get? n = none → ∀ kind,
        (∀ k ∈ d.keys config.owners n kind, k ∈ (diffOf p q kind).removed) ∧
          ∀ k ∈ p.keys kind, IsKeyOf n kind k → k ∈ (diffOf p q kind).removed) := by
  have hv := isValid_of_ofJson hj
  have hv' := isValid_of_ofJson hj'
  have howners : config.owners = config'.owners := eq_of_without withoutPrincipals (fun _ => rfl) hx
  have htenant : config.tenantId = config'.tenantId := eq_of_without withoutPrincipals (fun _ => rfl) hx
  obtain ⟨records, hr⟩ := exists_records h
  obtain ⟨records', hr'⟩ := exists_records h'
  rw [← htenant] at hr'
  refine ⟨fun kind hk => isEmpty_diffOf_organization hx hr hr' hv.owners hk,
    fun kind k hl => exists_rebound_of_lists hx hr hr' hv hv' hl, fun n d hnone hsome kind => ?_,
    fun n d hsome hnone kind => ?_⟩
  · have hnew : ∀ k, IsKeyOf n kind k → k ∉ p.keys kind := fun k =>
      hr.not_mem_keys_of_isKeyOf hv (hv'.slash_not_mem_name hsome) hnone
    refine ⟨fun k hk => mem_added_diffOf.2 ⟨?_, hnew k (PrincipalDefinition.isKeyOf_of_mem_keys hk)⟩,
      fun k hk hkey => mem_added_diffOf.2 ⟨hk, hnew k hkey⟩⟩
    rw [howners] at hk
    exact hr'.mem_keys_of_get? hv'.owners hsome hk
  · have hgone : ∀ k, IsKeyOf n kind k → k ∉ q.keys kind := fun k =>
      hr'.not_mem_keys_of_isKeyOf hv' (hv.slash_not_mem_name hsome) hnone
    exact ⟨fun k hk => mem_removed_diffOf.2 ⟨hr.mem_keys_of_get? hv.owners hsome hk,
      hgone k (PrincipalDefinition.isKeyOf_of_mem_keys hk)⟩, fun k hk hkey => mem_removed_diffOf.2 ⟨hk, hgone k hkey⟩⟩

/-! ## A service principal that comes new -/

/-- The fields of the sample but for its service principals. -/
def unstaffedFields : List (String × Json) := sampleFields.filter fun f => f.1 != "service_principals"

theorem isAcceptable_unstaffed :
    sample.withoutPrincipals.IsAcceptable (sampleContext.withTenant sample.withoutPrincipals.tenantId) :=
  { isAcceptable_sample with
    covered := { isAcceptable_sample.covered with }
    rotation := by
      intro d hd
      cases hd
    credentials := by
      intro d hd
      cases hd
    grants := by
      intro d hd
      cases hd }

theorem diffOf_principals_sample : ∃ p q, resolve sample.withoutPrincipals sampleContext = .ok p ∧
    resolve sample sampleContext = .ok q ∧ "credential-deployer" ∈ (diffOf p q .credentials).added := by
  have hj : PolicyConfig.ofJson (.obj unstaffedFields) = .ok sample.withoutPrincipals := rfl
  have hj' : PolicyConfig.ofJson sampleJson = .ok sample := rfl
  have hx : sample.withoutPrincipals.withoutPrincipals = sample.withoutPrincipals := rfl
  obtain ⟨p, h⟩ := isAcceptable_unstaffed.exists_policy (isValid_of_ofJson hj)
  obtain ⟨q, h'⟩ := isAcceptable_sample.exists_policy (isValid_of_ofJson hj')
  obtain ⟨-, -, hadded, -⟩ := diffOf_principals hj hj' hx h h'
  exact ⟨p, q, h, h', (hadded "deployer" _ rfl rfl .credentials).1 _ List.mem_cons_self⟩

end AccessPlan.PolicyConfig
