import AccessPlan.Proofs.Policy.Acceptance
import AccessPlan.Proofs.Policy.Rendering
import AccessPlan.Proofs.Policy.SummaryNames
import AccessPlan.Proofs.Service.Answers

/-!
# Documents of policies

The records of a policy that was resolved can all be read back (`isReadable_of_resolve`), so its document is read as the
policy that it shows (`isShownBy_of_resolve`). That is the policy itself, unless a resource type has a name with half of
a surrogate pair. Two documents can be sent as the body of a request, and the answer is the difference of their
policies (`shows_of_resolve`).
-/

namespace AccessPlan

open Schema (Reader Origin)

theorem Calendar.Timestamp.asUtc_asUtc (t : Timestamp) : t.asUtc.asUtc = t.asUtc := rfl

namespace PolicyConfig

variable {config : PolicyConfig} {context c : Context} {p : ResolvedPolicy} {records : List PrincipalRecords}

/-- A tier grants only roles that can be read back. -/
theorem isRoleText_of_mem_expand {granted : List Assignment}
    (h : expand config.blueprint.hierarchy config.roleBook c config.tierPlan = .ok granted) :
    ∀ a ∈ granted, IsRoleText a.role := by
  obtain ⟨-, hserves, rfl⟩ := Expansion.expand_eq_ok_iff.1 h
  intro a ha
  obtain ⟨x, hx, rfl⟩ := List.mem_map.1 ha
  obtain ⟨place, hplace, g, hg, role, hrole, rfl⟩ := mem_groupSources.1 hx
  have hemits : config.tierPlan.Emits := TierPlan.places_ne_nil_iff.1 (List.ne_nil_of_mem hplace)
  exact ((hserves hemits g hg).2 role hrole).toIsRoleText

namespace HasRecords

variable (hr : config.HasRecords c p records)
include hr

/-- Every credential of a policy ends at a time of a known offset. -/
theorem asUtc_endDate (ho : config.owners ≠ []) : ∀ cr ∈ p.credentials, cr.endDate.asUtc = cr.endDate := by
  intro cr hcr
  rw [hr.credentials] at hcr
  obtain ⟨r, hm, rfl⟩ := List.mem_map.1 hcr
  obtain ⟨e, -, he⟩ := hr.mem_records.1 hm
  obtain ⟨credential, hissue, rfl⟩ := PrincipalRecords.exists_issued ho he
  obtain ⟨endDate, keyId, -, -, rfl⟩ := issue_eq_ok_iff.1 hissue
  exact endDate.asUtc_asUtc

/-- The roles of the assignments of service principals are those of their definitions. -/
theorem isRoleText_of_mem_assignments (hv : config.IsValid) {r : PrincipalRecords} (hm : r ∈ records) :
    ∀ a ∈ r.assignments, IsRoleText a.role := by
  intro a ha
  obtain ⟨e, he, hd⟩ := hr.mem_records.1 hm
  obtain ⟨credential, -, -, rfl⟩ := PrincipalRecords.exists_parts hv.owners hd
  obtain ⟨x, hx, rfl⟩ := List.mem_map.1 ha
  obtain ⟨g, hg, rfl⟩ := List.mem_map.1 hx
  exact hv.grants e he g hg

end HasRecords

/-- All records of a policy that was resolved can be read back. -/
theorem isReadable_of_resolve {j : Json} (hj : PolicyConfig.ofJson j = .ok config)
    (h : resolve config context = .ok p) : p.IsReadable := by
  have hv := isValid_of_ofJson hj
  obtain ⟨records, hr⟩ := exists_records h
  obtain ⟨-, hb, granted, principals, summary, hg, -, -, hs, hp⟩ := resolve_eq_ok_iff.1 h
  have henvironments : ∀ e ∈ config.blueprint.environments, IsName e := fun e he =>
    hb.environments.isName e (mem_sortedBy.1 he)
  have hprojects : ∀ q ∈ config.blueprint.projects, IsName q := fun q hq =>
    hb.projects.isName q (mem_sortedBy.1 hq)
  refine ⟨fun a ha => ?_, hr.secret_eq_none hv.owners, hr.asUtc_endDate hv.owners, ?_⟩
  · rcases hr.mem_assignments.1 ha with ⟨x, hx, rfl⟩ | ⟨r, hm, ha⟩
    · obtain ⟨-, -, hgranted⟩ := Expansion.expand_eq_ok_iff.1 hg
      exact isRoleText_of_mem_expand hg _ (hgranted ▸ List.mem_map_of_mem hx)
    · exact hr.isRoleText_of_mem_assignments hv hm a ha
  · rw [hp]
    exact PolicySummary.hasWholeNames_of_ofHierarchy hs henvironments hprojects

/-- A document shows a policy as it is exactly if no name of a resource type has a half of a surrogate pair. -/
theorem shown_eq_self_iff_of_resolve (h : resolve config context = .ok p) :
    p.shown = p ↔ ∀ t ∈ config.roleBook.resourceTypes.names, Text.isWhole t = true := by
  obtain ⟨-, -, granted, principals, summary, -, -, -, hs, rfl⟩ := resolve_eq_ok_iff.1 h
  rw [← PolicySummary.shown_eq_self_iff_of_ofHierarchy hs]
  constructor
  · exact fun he => congrArg ResolvedPolicy.summary he
  · intro he
    simp only [ResolvedPolicy.shown, assemble, he]

end PolicyConfig

/-! ## Documents -/

/-- The records that a policy is shown with are its own. -/
theorem PolicyDiff.between_shown (p q : ResolvedPolicy) : between p.shown q.shown = between p q := by
  refine congrArg PolicyDiff.mk (funext fun kind => ?_)
  cases kind <;> rfl

/-- A document shows a policy: it is rendered of the policy and read as `q`, which has the same records and a summary
with the names of resource types as they are shown. Of `q` the same document is rendered, and `q` is the policy itself
exactly if the names of resource types, which are `types`, have no halves. -/
structure ResolvedPolicy.IsShownBy (p : ResolvedPolicy) (types : List String) (doc : Json) (q : ResolvedPolicy) :
    Prop where
  rendered : p.document true = .ok doc
  read : ResolvedPolicy.ofDocument doc = .ok q
  records : ∀ kind, q.Agrees p kind
  summary : q.summary = p.summary.shown
  again : ∃ doc', q.document true = .ok doc' ∧ doc'.same doc = true
  itself : q = p ↔ ∀ t ∈ types, Text.isWhole t = true

namespace PolicyConfig

variable {config config' : PolicyConfig} {context context' : Context} {p p' : ResolvedPolicy}

theorem isShownBy_of_resolve {j : Json} (hj : PolicyConfig.ofJson j = .ok config)
    (h : resolve config context = .ok p) :
    ∃ doc, p.IsShownBy config.roleBook.resourceTypes.names doc p.shown ∧ doc.IsSimple 963 ∧
      ∀ origin, ResolvedPolicy.read origin doc = .ok p.shown := by
  have hreadable := isReadable_of_resolve hj h
  have hdocument := ResolvedPolicy.document_of_secrets hreadable.secrets true
  have hagain := ResolvedPolicy.document_of_secrets (p := p.shown) hreadable.secrets true
  have hsimple := ResolvedPolicy.isSimple_document (n := 956) hreadable.secrets hdocument
  refine ⟨_, ⟨hdocument, ?_, fun kind => by cases kind <;> rfl, rfl, ⟨_, hagain, ?_⟩, ?_⟩, hsimple, fun origin => ?_⟩
  · exact Schema.Checked.toExcept_eq_ok.2 (ResolvedPolicy.read_fields .document hreadable _)
  · exact ResolvedPolicy.same_document_shown hreadable.secrets hdocument hagain
  · exact shown_eq_self_iff_of_resolve h
  · exact ResolvedPolicy.read_fields origin hreadable _

/-- Documents of policies that were resolved are read back. Two of them can be sent as the body of a request, if every
character in it stands for itself, and a request with such a body is answered with the difference of the policies. -/
theorem shows_of_resolve {j j' : Json} (hj : PolicyConfig.ofJson j = .ok config)
    (h : resolve config context = .ok p) (hj' : PolicyConfig.ofJson j' = .ok config')
    (h' : resolve config' context' = .ok p') : ∃ doc q doc' q',
      p.IsShownBy config.roleBook.resourceTypes.names doc q ∧
      p'.IsShownBy config'.roleBook.resourceTypes.names doc' q' ∧
      ((∀ c ∈ (Service.documents doc doc').chars, c ≠ Text.mark) →
        Service.HoldsDocuments (Service.documents doc doc').text doc doc') ∧
      ∀ settings tally body, Service.HoldsDocuments body doc doc' →
        ((PolicyDiff.between p p').IsWhole →
          (Service.handle settings tally ⟨"POST", "/policy/diff", body⟩).1 =
            .ok ⟨200, .obj [("changes", (PolicyDiff.between p p').changesJson)]⟩) ∧
        (¬ (PolicyDiff.between p p').IsWhole →
          ∃ halves, (Service.handle settings tally ⟨"POST", "/policy/diff", body⟩).1 =
            .error (.unwritable halves)) := by
  obtain ⟨doc, hdoc, hsimple, hread⟩ := isShownBy_of_resolve hj h
  obtain ⟨doc', hdoc', hsimple', hread'⟩ := isShownBy_of_resolve hj' h'
  refine ⟨doc, _, doc', _, hdoc, hdoc', Service.holdsDocuments_text hsimple hsimple',
    fun settings tally body hb => ?_⟩
  have hbody := Service.readBody_diff hb (hread .request) (hread' .request)
  rw [Service.handle_diff hbody, ← PolicyDiff.between_shown]
  exact Service.sent_diffed ⟨p.shown, p'.shown⟩

/-- The documents of a policy are read back, and comparing two of them finds no difference. -/
theorem shows_sample : PolicyConfig.ofJson sampleJson = .ok sample ∧ ∃ p doc, resolve sample sampleContext = .ok p ∧
    p.document true = .ok doc ∧ ResolvedPolicy.ofDocument doc = .ok p ∧
    ∀ settings tally body, Service.HoldsDocuments body doc doc →
      (Service.handle settings tally ⟨"POST", "/policy/diff", body⟩).1 =
        .ok ⟨200, .obj [("changes", (PolicyDiff.between p p).changesJson)]⟩ := by
  have hj : PolicyConfig.ofJson sampleJson = .ok sample := rfl
  obtain ⟨p, hp⟩ := isAcceptable_sample.exists_policy (isValid_of_ofJson hj)
  have htypes : ∀ t ∈ sample.roleBook.resourceTypes.names, Text.isWhole t = true := by decide +kernel
  obtain ⟨doc, q, doc', q', hdoc, hdoc', -, hanswer⟩ := shows_of_resolve hj hp hj hp
  obtain rfl := hdoc.itself.2 htypes
  obtain rfl := Except.ok.inj (hdoc.rendered.symm.trans hdoc'.rendered)
  obtain ⟨records, hr⟩ := exists_records hp
  have hempty : (PolicyDiff.between q q).isEmpty = true := PolicyDiff.isEmpty_iff.2 fun kind =>
    ResolvedPolicy.Agrees.isEmpty (hr.same_self (isValid_of_ofJson hj).owners) (by cases kind <;> rfl)
  have hwhole : (PolicyDiff.between q q).IsWhole := fun kind k hk =>
    absurd hk (EntityDiff.isEmpty_iff.1 (PolicyDiff.isEmpty_iff.1 hempty kind) k)
  exact ⟨hj, q, doc, hp, hdoc.rendered, hdoc.read, fun settings tally body hb =>
    (hanswer settings tally body hb).1 hwhole⟩

/-- A configuration with a table for a resource type whose name is half of a surrogate pair. -/
def halfNamedJson : Json := .obj [
  ("org_prefix", .str "acme"),
  ("environments", .ofTexts ["dev"]),
  ("owners", .ofTexts ["owner"]),
  ("resource_type_role_tables", .obj [(Text.ofSigns [.half 0xD800], .obj [])])]

/-- The same configuration as it is read. -/
def halfNamed : PolicyConfig where
  orgPrefix := "acme"
  environments := ["dev"]
  projects := []
  projectGroups := false
  owners := ["owner"]
  resourceGroups := none
  servicePrincipals := .empty
  managementGroupAssignments := false
  tenantAssignments := false
  subscriptionAssignments := false
  resourceGroupAssignments := false
  managementGroupName := none
  tenantId := none
  environmentTables := none
  resourceTypeTables := some (.ofList [(Text.ofSigns [.half 0xD800], {})])
  environmentOverrides := none
  resourceTypeOverrides := none
  customRoles := .empty

theorem not_emits_halfNamed : ¬ halfNamed.tierPlan.Emits := by
  simp [TierPlan.Emits, tierPlan, halfNamed]

theorem isAcceptable_halfNamed : halfNamed.IsAcceptable (sampleContext.withTenant halfNamed.tenantId) where
  covered := {
    listed := by decide +kernel
    environment := by decide +kernel
    types := by decide +kernel }
  environments := ⟨by decide +kernel, by decide +kernel⟩
  projects := ⟨by decide +kernel, by decide +kernel⟩
  keys := by
    have hb : halfNamed.blueprint = ⟨"acme", ["dev"], [], false, ["owner"]⟩ := by
      rw [blueprint, Blueprint.ofTexts, sortedBy_of_pairwise (by decide), sortedBy_of_pairwise (by decide)]
      rfl
    rw [hb]
    decide +kernel
  ready := by decide +kernel
  roles := fun h => absurd h not_emits_halfNamed
  rotation := nofun
  credentials := nofun
  grants := nofun
  overlap := fun h => absurd h not_emits_halfNamed

/-- The document of its policy is read as another policy. -/
theorem not_shows_halfNamed : PolicyConfig.ofJson halfNamedJson = .ok halfNamed ∧
    ∃ p doc q, resolve halfNamed sampleContext = .ok p ∧ p.document true = .ok doc ∧
      ResolvedPolicy.ofDocument doc = .ok q ∧ p.same q = false := by
  have hj : PolicyConfig.ofJson halfNamedJson = .ok halfNamed := rfl
  obtain ⟨p, hp⟩ := isAcceptable_halfNamed.exists_policy (isValid_of_ofJson hj)
  obtain ⟨doc, hdoc, -, -⟩ := isShownBy_of_resolve hj hp
  refine ⟨hj, p, doc, p.shown, hp, hdoc.rendered, hdoc.read, ?_⟩
  have htypes : ¬ ∀ t ∈ halfNamed.roleBook.resourceTypes.names, Text.isWhole t = true := by decide +kernel
  rw [← Bool.not_eq_true]
  intro hsame
  have hsummary : p.summary = p.summary.shown := by
    simp only [ResolvedPolicy.same, Bool.and_eq_true, beq_iff_eq] at hsame
    exact hsame.2
  refine htypes (hdoc.itself.1 ?_)
  rw [ResolvedPolicy.shown, ← hsummary]

end PolicyConfig

end AccessPlan
