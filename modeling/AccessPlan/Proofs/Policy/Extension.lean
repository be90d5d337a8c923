import AccessPlan.Proofs.Policy.Acceptance
import AccessPlan.Proofs.Policy.Records

/-!
# Adding environments and projects

A configuration is given further environments and projects. The groups of the new policy that are within these
are exactly those that the old one does not have (`makes_iff`), and all other records are in both policies. So
the new policy only adds records, and the difference lists those of the new environments and projects
(`diffOf_withNames`).
-/

namespace AccessPlan

/-- A group is within one of the environments or one of the projects. -/
def Group.IsWithin (g : Group) (environments projects : List String) : Prop :=
  (∃ e ∈ environments, g.environment = some e) ∨ ∃ q ∈ projects, g.project = some q

namespace PolicyConfig

/-- The configuration with other environments and projects. -/
def withNames (config : PolicyConfig) (environments projects : List String) : PolicyConfig :=
  { config with environments, projects }

variable {config : PolicyConfig} {context c : Context} {p q : ResolvedPolicy} {records : List PrincipalRecords}
  {environments projects es ps : List String} {g : Group} {m : Membership} {a : Assignment} {kind : EntityKind}
  {e k : String}

section Records

variable (hes : environments.Perm (config.environments ++ es)) (hps : projects.Perm (config.projects ++ ps))
include hes hps

omit hps in
theorem mem_environments_withNames : e ∈ (config.withNames environments projects).blueprint.environments ↔
    e ∈ config.blueprint.environments ∨ e ∈ es := by
  rw [mem_environments_blueprint, mem_environments_blueprint, ← List.mem_append]
  exact hes.mem_iff

omit hes in
theorem mem_projects_withNames : k ∈ (config.withNames environments projects).blueprint.projects ↔
    k ∈ config.blueprint.projects ∨ k ∈ ps := by
  show k ∈ sortedBy id projects ↔ k ∈ sortedBy id config.projects ∨ k ∈ ps
  rw [mem_sortedBy, mem_sortedBy, ← List.mem_append]
  exact hps.mem_iff

/-- The groups there were before are still made. -/
theorem makes_withNames (h : config.blueprint.Makes g) :
    (config.withNames environments projects).blueprint.Makes g := by
  have hold : ∀ {e}, e ∈ config.blueprint.environments →
      e ∈ (config.withNames environments projects).blueprint.environments := fun he =>
    (mem_environments_withNames hes).2 (Or.inl he)
  cases h with
  | root => exact .root
  | environment he => exact .environment (hold he)
  | persona he r => exact .persona (hold he) r
  | project he hq =>
    obtain ⟨hon, hq⟩ := Blueprint.mem_projectsOf.1 hq
    exact .project (hold he) (Blueprint.mem_projectsOf.2 ⟨hon, (mem_projects_withNames hps).2 (Or.inl hq)⟩)

/-- No name is both an old and a new one, so no group that there was before is within the new names. -/
theorem not_isWithin_of_makes (hb : (config.withNames environments projects).IsBuildable)
    (h : config.blueprint.Makes g) : ¬ g.IsWithin es ps := by
  rintro (⟨e, he, hg⟩ | ⟨q, hq, hg⟩)
  · have hold := mem_environments_blueprint.1 (h.mem_environments hg)
    exact List.disjoint_of_nodup_append (hes.nodup_iff.1 hb.environments.nodup) hold he
  · have hold : q ∈ config.projects := mem_sortedBy.1 (h.mem_projects hg).2
    exact List.disjoint_of_nodup_append (hps.nodup_iff.1 hb.projects.nodup) hold hq

/-- A group that is not within the new names was made before. -/
theorem makes_of_not_isWithin (h : (config.withNames environments projects).blueprint.Makes g)
    (hn : ¬ g.IsWithin es ps) : config.blueprint.Makes g := by
  have hold : ∀ {e}, e ∈ (config.withNames environments projects).blueprint.environments →
      g.environment = some e → e ∈ config.blueprint.environments := fun he hg =>
    ((mem_environments_withNames hes).1 he).resolve_right fun hnew => hn (Or.inl ⟨_, hnew, hg⟩)
  cases h with
  | root => exact .root
  | environment he => exact .environment (hold he rfl)
  | persona he r => exact .persona (hold he rfl) r
  | project he hq =>
    obtain ⟨hon, hq⟩ := Blueprint.mem_projectsOf.1 hq
    have hq := ((mem_projects_withNames hps).1 hq).resolve_right fun hnew => hn (Or.inr ⟨_, hnew, rfl⟩)
    exact .project (hold he rfl) (Blueprint.mem_projectsOf.2 ⟨hon, hq⟩)

/-- The groups that are not within the new names are those there were before. -/
theorem makes_iff (hb : (config.withNames environments projects).IsBuildable) : config.blueprint.Makes g ↔
    (config.withNames environments projects).blueprint.Makes g ∧ ¬ g.IsWithin es ps :=
  ⟨fun h => ⟨makes_withNames hes hps h, not_isWithin_of_makes hes hps hb h⟩,
    fun h => makes_of_not_isWithin hes hps h.1 h.2⟩

variable (hr : config.HasRecords c p records) (hr' : (config.withNames environments projects).HasRecords c q records)
include hr hr'

theorem mem_groups_withNames : g ∈ p.groups ↔ g ∈ q.groups ∧ ¬ g.IsWithin es ps := by
  rw [hr.mem_groups, hr'.mem_groups, makes_iff hes hps hr'.buildable]

/-- A membership is new if the group that is a member is. -/
theorem mem_memberships_withNames : m ∈ p.memberships ↔
    m ∈ q.memberships ∧ ¬ ∃ g ∈ q.groups, g.IsWithin es ps ∧ g.key = m.childKey := by
  simp only [hr.mem_memberships, hr'.mem_memberships, makes_iff hes hps hr'.buildable, hr'.mem_groups]
  constructor
  · rintro ⟨g, ⟨hg, hn⟩, hp, hk⟩
    refine ⟨⟨g, hg, hp, hk⟩, ?_⟩
    rintro ⟨g', hg', hw, hk'⟩
    obtain rfl := Blueprint.eq_of_key_eq hr'.buildable.keys hg hg' (hk.trans hk'.symm)
    exact hn hw
  · rintro ⟨⟨g, hg, hp, hk⟩, hn⟩
    exact ⟨g, ⟨hg, fun hw => hn ⟨g, hg, hw, hk⟩⟩, hp, hk⟩

omit hps in
/-- An assignment is new if it is for a persona in a new environment. -/
theorem mem_assignments_withNames (ho : config.owners ≠ []) : a ∈ p.assignments ↔
    a ∈ q.assignments ∧ ¬ ∃ e ∈ es, ∃ r, q.GrantsTo a e r := by
  have hgrants : ∀ e r, p.GrantsTo a e r ↔ q.GrantsTo a e r ∧ e ∉ es := by
    intro e r
    have hmem : e ∈ config.environments ↔ e ∈ environments ∧ e ∉ es := by
      rw [hes.mem_iff, List.mem_append]
      have hd := List.disjoint_of_nodup_append (hes.nodup_iff.1 hr'.buildable.environments.nodup)
      exact ⟨fun h => ⟨Or.inl h, hd h⟩, fun h => h.1.resolve_right h.2⟩
    rw [hr.grantsTo_iff ho, hr'.grantsTo_iff ho, hmem]
    exact and_right_comm
  rw [hr.mem_assignments_iff_grantsTo ho, hr'.mem_assignments_iff_grantsTo ho]
  constructor
  · rintro (⟨e, r, h⟩ | ⟨s, hs, ha⟩)
    · obtain ⟨h, he⟩ := (hgrants e r).1 h
      refine ⟨Or.inl ⟨e, r, h⟩, ?_⟩
      rintro ⟨e', he', r', h'⟩
      exact he ((hr'.grantsTo_unique ho h h').1 ▸ he')
    · refine ⟨Or.inr ⟨s, hs, ha⟩, ?_⟩
      rintro ⟨e', -, r', h'⟩
      exact hr'.not_grantsTo_of_mem ho hs ha h'
  · rintro ⟨⟨e, r, h⟩ | h, hn⟩
    · exact Or.inl ⟨e, r, (hgrants e r).2 ⟨h, fun he => hn ⟨e, he, r, h⟩⟩⟩
    · exact Or.inr h

end Records

/-- If projects have no groups, no group is within one. -/
theorem not_isWithin_of_off (hr : (config.withNames environments projects).HasRecords c q records)
    (hoff : config.projectGroups = false) (hg : g ∈ q.groups) : ¬ g.IsWithin [] ps := by
  rintro (⟨e, he, -⟩ | ⟨pr, -, hpr⟩)
  · cases he
  · have hon := ((hr.mem_groups.1 hg).mem_projects hpr).1
    exact absurd (hoff.symm.trans hon) (by decide)

/-- With further environments and projects a policy has the records of these in addition, and otherwise the same
ones. Only groups, memberships and assignments are added. -/
theorem diffOf_withNames {j : Json} (hj : PolicyConfig.ofJson j = .ok config)
    (hes : environments.Perm (config.environments ++ es)) (hps : projects.Perm (config.projects ++ ps))
    (h : resolve config context = .ok p) (h' : resolve (config.withNames environments projects) context = .ok q) :
    (∀ kind, (diffOf p q kind).removed = [] ∧ (diffOf p q kind).changed = []) ∧
      (∀ k, k ∈ (diffOf p q .groups).added ↔ ∃ g ∈ q.groups, g.IsWithin es ps ∧ g.key = k) ∧
      (∀ k, k ∈ (diffOf p q .memberships).added ↔
        ∃ m ∈ q.memberships, (∃ g ∈ q.groups, g.IsWithin es ps ∧ g.key = m.childKey) ∧ m.key = k) ∧
      (∀ k, k ∈ (diffOf p q .assignments).added ↔
        ∃ a ∈ q.assignments, (∃ e ∈ es, ∃ r, q.GrantsTo a e r) ∧ a.key = k) ∧
      (∀ kind ∈ [EntityKind.roleDefinitions, .applications, .servicePrincipals, .ownerEdges, .credentials],
        (diffOf p q kind).isEmpty = true) ∧
      (config.projectGroups = false → es = [] → (PolicyDiff.between p q).isEmpty = true) := by
  have hv := isValid_of_ofJson hj
  obtain ⟨records, hr⟩ := exists_records h
  obtain ⟨records', hr'⟩ := exists_records h'
  have hv' : (config.withNames environments projects).IsValid :=
    { hv with environments := hr'.buildable.environments_ne }
  obtain rfl := hr.eq_records hr' rfl rfl
  have htells : ∀ kind, (q.keys kind).Nodup := hr'.nodup_keys hv'
  obtain ⟨hgr, hgc, hga⟩ := EntityDiff.between_of_mem_iff (fun g => mem_groups_withNames hes hps hr hr')
    (tellsRecords_of_nodup (htells .groups)) beq_self_of_mem
  obtain ⟨hmr, hmc, hma⟩ := EntityDiff.between_of_mem_iff (fun m => mem_memberships_withNames hes hps hr hr')
    (tellsRecords_of_nodup (htells .memberships)) beq_self_of_mem
  obtain ⟨har, hac, haa⟩ := EntityDiff.between_of_mem_iff
    (fun a => mem_assignments_withNames hes hr hr' hv.owners)
    (tellsRecords_of_nodup (htells .assignments)) beq_self_of_mem
  have hsame : ∀ kind ∈ [EntityKind.roleDefinitions, .applications, .servicePrincipals, .ownerEdges, .credentials],
      (diffOf p q kind).isEmpty = true := by
    intro kind hk
    refine ResolvedPolicy.Agrees.isEmpty (hr.same_self hv.owners) ?_
    rcases List.mem_cons.1 hk with rfl | hk
    · exact hr.agrees_of_customRoles hr' rfl
    · exact hr.agrees_of_records hr' hk
  have honly : ∀ kind, (diffOf p q kind).removed = [] ∧ (diffOf p q kind).changed = [] := by
    intro kind
    cases kind with
    | groups => exact ⟨hgr, hgc⟩
    | memberships => exact ⟨hmr, hmc⟩
    | assignments => exact ⟨har, hac⟩
    | _ => exact (EntityDiff.isEmpty_iff_eq_nil.1 (hsame _ (by decide))).2
  refine ⟨honly, hga, hma, haa, hsame, ?_⟩
  rintro hoff rfl
  have hempty : ∀ kind, (∀ k, k ∉ (diffOf p q kind).added) → (diffOf p q kind).isEmpty = true := fun kind hadd =>
    EntityDiff.isEmpty_iff_eq_nil.2 ⟨List.eq_nil_iff_forall_not_mem.2 hadd, honly kind⟩
  refine PolicyDiff.isEmpty_iff.2 fun kind => ?_
  cases kind with
  | groups =>
    refine hempty _ fun k hk => ?_
    obtain ⟨g, hg, hw, -⟩ := (hga k).1 hk
    exact not_isWithin_of_off hr' hoff hg hw
  | memberships =>
    refine hempty _ fun k hk => ?_
    obtain ⟨m, -, ⟨g, hg, hw, -⟩, -⟩ := (hma k).1 hk
    exact not_isWithin_of_off hr' hoff hg hw
  | assignments =>
    refine hempty _ fun k hk => ?_
    obtain ⟨a, -, ⟨e, he, -⟩, -⟩ := (haa k).1 hk
    cases he
  | _ => exact hsame _ (by decide)

/-- The sample with one more environment and one more project. -/
def widened : PolicyConfig := sample.withNames ["dev", "prod", "test"] ["api", "web"]

theorem isAcceptable_widened : widened.IsAcceptable (sampleContext.withTenant widened.tenantId) where
  covered := {
    listed := by decide +kernel
    environment := by decide +kernel
    types := by decide +kernel }
  environments := ⟨by decide +kernel, by decide +kernel⟩
  projects := ⟨by decide +kernel, by decide +kernel⟩
  keys := by
    rw [blueprint, Blueprint.ofTexts, sortedBy_of_pairwise (by decide), sortedBy_of_pairwise (by decide)]
    decide +kernel
  ready := by decide +kernel
  roles := fun _ => by decide +kernel
  rotation := isAcceptable_sample.rotation
  credentials := isAcceptable_sample.credentials
  grants := isAcceptable_sample.grants
  overlap := fun _ => not_hasOverlap (by decide +kernel)

theorem diffOf_withNames_sample : ∃ p q, resolve sample sampleContext = .ok p ∧
    resolve (sample.withNames ["dev", "prod", "test"] ["api", "web"]) sampleContext = .ok q ∧
    (∀ kind, (diffOf p q kind).removed = [] ∧ (diffOf p q kind).changed = []) ∧
    "acme-test" ∈ (diffOf p q .groups).added := by
  have hj : PolicyConfig.ofJson sampleJson = .ok sample := rfl
  have hv := isValid_of_ofJson hj
  have hv' : widened.IsValid := { hv with environments := by decide }
  obtain ⟨p, h⟩ := isAcceptable_sample.exists_policy hv
  obtain ⟨q, h'⟩ := isAcceptable_widened.exists_policy hv'
  have hes : ["dev", "prod", "test"].Perm (sample.environments ++ ["test"]) := by decide
  have hps : ["api", "web"].Perm (sample.projects ++ ["api"]) := by decide
  obtain ⟨hsame, hadded, -⟩ := diffOf_withNames hj hes hps h h'
  obtain ⟨records, hr⟩ := exists_records h'
  have hg : widened.blueprint.environmentGroup "test" ∈ q.groups :=
    hr.mem_groups.2 (.environment (mem_environments_blueprint.2 (by decide)))
  exact ⟨p, q, h, h', hsame, (hadded _).2 ⟨_, hg, Or.inl ⟨"test", by decide, rfl⟩, by decide⟩⟩

end PolicyConfig

end AccessPlan
