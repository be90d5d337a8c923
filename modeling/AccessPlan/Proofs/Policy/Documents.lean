import AccessPlan.Policy.Document
import AccessPlan.Proofs.Assignment.Granting
import AccessPlan.Proofs.Schema.ReadingBack

/-!
# Documents are read back

Every record of a policy is read back from its document, and so is the summary, except that the names of resource types
are as they were shown (`PolicySummary.shown`). The stages and the paths of scopes are not read, so a document is read
as the policy that it shows (`ResolvedPolicy.read_fields`).
-/

namespace AccessPlan

open Schema (Reader Origin)

/-! ## Records -/

theorem RoleDefinition.read_toJson (origin : Origin) (r : RoleDefinition) : read origin r.toJson = .ok r := by
  change RoleDefinition.mk <$> Reader.required "key" .text r.toJson <*> _ <*> _ <*> _ <*> _ <*> _ <*> _ <*> _ = _
  rw [Reader.required_ok (a := r.key) rfl rfl, Reader.required_ok (a := r.name) rfl rfl,
    Reader.required_ok (a := r.description) rfl rfl, Reader.withDefault_ok (a := r.actions) rfl (readTexts_ofTexts _),
    Reader.withDefault_ok (a := r.notActions) rfl (readTexts_ofTexts _),
    Reader.withDefault_ok (a := r.dataActions) rfl (readTexts_ofTexts _),
    Reader.withDefault_ok (a := r.notDataActions) rfl (readTexts_ofTexts _),
    Reader.withDefault_ok (a := r.assignableScopes) rfl (readTexts_ofTexts _)]
  rfl

/-- A credential without a secret is read back; an end date without an offset is one of Coordinated Universal Time. -/
theorem Credential.read_toJson (origin : Origin) {c : Credential} (hs : c.secret = none) :
    read origin c.toJson = .ok { c with endDate := c.endDate.asUtc } := by
  have hsecret : Reader.optional "secret_value" .text c.toJson = .ok none := by
    refine Reader.withDefault_ok (v := c.secret.getD .null) rfl ?_
    rw [hs]
    rfl
  change Credential.mk <$> Reader.required "key" .text c.toJson <*> _ <*> _ <*> _ <*>
    (_ <$> Reader.optional "secret_value" .text c.toJson) <*> _ = _
  rw [Reader.required_ok (a := c.key) rfl rfl, Reader.required_ok (a := c.applicationId) rfl rfl,
    Reader.required_ok (a := c.keyId) rfl rfl,
    Reader.required_ok (a := c.endDate.asUtc) rfl (Reader.timestampUtc_text c.endDate), hsecret,
    Reader.withDefault_ok (a := c.sensitive) rfl rfl]
  rw [hs]
  rfl

theorem PrivilegedGroup.read_toJson (origin : Origin) (g : PrivilegedGroup) : read origin g.toJson = .ok g := by
  change PrivilegedGroup.mk <$> Reader.required "key" .text g.toJson <*> _ <*> _ = _
  rw [Reader.required_ok (a := g.key) rfl rfl, Reader.required_ok (a := g.environment) rfl rfl,
    Reader.withDefault_ok (a := g.roles) rfl (readTexts_ofTexts _)]
  rfl

/-! ## The summary -/

/-- The names of a map are whole. -/
def NameMap.IsWhole {α : Type} (m : NameMap α) : Prop := ∀ e ∈ m.entries, Text.isWhole e.1 = true

theorem NameMap.isWhole_iff {α : Type} {m : NameMap α} : m.IsWhole ↔ ∀ name ∈ m.names, Text.isWhole name = true := by
  rw [names, List.forall_mem_map, IsWhole]

theorem PersonaGroupSummary.read_toJson (origin : Origin) {s : PersonaGroupSummary} (h : s.projects.IsWhole) :
    read origin s.toJson = .ok s := by
  have hprojects : Reader.mapOf .text (.ofMap .str s.projects) = .ok s.projects :=
    Reader.mapOf_ofMap_of_isWhole (fun _ _ => rfl) h
  change PersonaGroupSummary.mk <$> Reader.required "group_key" .text s.toJson <*> _ <*> _ = _
  rw [Reader.required_ok (a := s.groupKey) rfl rfl, Reader.withDefault_ok (a := s.roles) rfl (readTexts_ofTexts _),
    Reader.withDefault_ok (a := s.projects) rfl hprojects]
  rfl

/-- Arranged entries of whole names are read back as the map. -/
theorem mapOf_arrange {α : Type} {read : Reader α} {write : α → Json} {m : NameMap α} (f : α → α)
    (h : ∀ e ∈ m.entries, read (write e.2) = .ok (f e.2)) (hw : m.IsWhole) :
    Reader.mapOf read (.ofEntries ((Persona.arrange m.entries).map fun e => (e.1, write e.2))) =
      .ok (m.mapEntries fun _ v => f v) := by
  rw [Reader.mapOf_ofEntries (f := f) fun e he => h e (Persona.mem_arrange.1 he)]
  refine congrArg _ (NameMap.ofList_eq_of_mem_iff fun e => ?_)
  simp only [NameMap.mapEntries, List.mem_map, Persona.mem_arrange]
  refine exists_congr fun d => and_congr_right fun hd => ?_
  rw [Text.withoutHalves_of_isWhole (hw d hd)]

/-- What an environment is shown with has names that are shown as they are. -/
structure EnvironmentSummary.HasWholeNames (s : EnvironmentSummary) : Prop where
  personas : s.personas.IsWhole
  projects : ∀ e ∈ s.personas.entries, e.2.projects.IsWhole

theorem EnvironmentSummary.read_toJson (origin : Origin) {s : EnvironmentSummary} (h : s.HasWholeNames) :
    read origin s.toJson = .ok s := by
  have hpersonas : Reader.mapOf (PersonaGroupSummary.read origin)
      (.ofEntries ((Persona.arrange s.personas.entries).map fun e => (e.1, e.2.toJson))) = .ok s.personas := by
    rw [mapOf_arrange id (fun e he => PersonaGroupSummary.read_toJson origin (h.projects e he)) h.personas]
    simp only [NameMap.mapEntries, id_eq, List.map_id']
  change EnvironmentSummary.mk <$> Reader.required "group_key" .text s.toJson <*> _ = _
  rw [Reader.required_ok (a := s.groupKey) rfl rfl, Reader.withDefault_ok (a := s.personas) rfl hpersonas]
  rfl

/-- The summary as it is shown: the names of the resource types without halves. -/
def PersonaSummary.shown (s : PersonaSummary) : PersonaSummary :=
  { s with resourceTypeRoles := s.resourceTypeRoles.shown }

theorem PersonaSummary.read_toJson (origin : Origin) {s : PersonaSummary} (h : s.environmentRoles.IsWhole) :
    read origin s.toJson = .ok s.shown := by
  have henvironments : Reader.mapOf .texts (.ofMap .ofTexts s.environmentRoles) = .ok s.environmentRoles :=
    Reader.mapOf_ofMap_of_isWhole (fun _ _ => readTexts_ofTexts _) h
  have htypes : Reader.mapOf .texts (.ofMap .ofTexts s.resourceTypeRoles) = .ok s.resourceTypeRoles.shown :=
    Reader.mapOf_ofMap fun _ _ => readTexts_ofTexts _
  change PersonaSummary.mk <$> Reader.withDefault "groups" .texts [] s.toJson <*> _ <*> _ = _
  rw [Reader.withDefault_ok (a := s.groups) rfl (readTexts_ofTexts _),
    Reader.withDefault_ok (a := s.environmentRoles) rfl henvironments,
    Reader.withDefault_ok (a := s.resourceTypeRoles.shown) rfl htypes]
  rfl

namespace PolicySummary

/-- The names of environments, personas and projects are shown as they are. -/
structure HasWholeNames (s : PolicySummary) : Prop where
  environments : s.byEnvironment.IsWhole
  inEnvironments : ∀ e ∈ s.byEnvironment.entries, e.2.HasWholeNames
  personas : s.byPersona.IsWhole
  inPersonas : ∀ e ∈ s.byPersona.entries, e.2.environmentRoles.IsWhole

/-- The summary as it is shown: the names of the resource types without halves. -/
def shown (s : PolicySummary) : PolicySummary := { s with byPersona := s.byPersona.mapEntries fun _ v => v.shown }

/-- The summary is shown as it is exactly if the names of all resource types are whole. -/
theorem shown_eq_self_iff {s : PolicySummary} :
    s.shown = s ↔ ∀ e ∈ s.byPersona.entries, e.2.resourceTypeRoles.IsWhole := by
  have hpersona : ∀ v : PersonaSummary, v.shown = v ↔ v.resourceTypeRoles.IsWhole := fun v => by
    rw [NameMap.IsWhole, ← NameMap.shown_eq_self_iff]
    exact ⟨fun h => congrArg PersonaSummary.resourceTypeRoles h, fun h => by rw [PersonaSummary.shown, h]⟩
  constructor
  · intro h e he
    have hentries : s.byPersona.entries.map (fun e => (e.1, e.2.shown)) = s.byPersona.entries.map id := by
      rw [List.map_id]
      exact congrArg (fun s : PolicySummary => s.byPersona.entries) h
    exact (hpersona e.2).1 (congrArg Prod.snd (List.map_inj_left.1 hentries e he))
  · intro h
    have hentries : s.byPersona.entries.map (fun e => (e.1, e.2.shown)) = s.byPersona.entries := by
      refine (List.map_congr_left fun e he => ?_).trans (List.map_id _)
      rw [(hpersona e.2).2 (h e he)]
      rfl
    simp only [shown, NameMap.mapEntries, hentries]

/-- A summary is read back as it is shown. -/
theorem read_toJson (origin : Origin) {s : PolicySummary} (h : s.HasWholeNames) :
    read origin s.toJson = .ok s.shown := by
  have henvironments : Reader.mapOf (EnvironmentSummary.read origin)
      (.ofMap EnvironmentSummary.toJson s.byEnvironment) = .ok s.byEnvironment :=
    Reader.mapOf_ofMap_of_isWhole (fun e he => EnvironmentSummary.read_toJson origin (h.inEnvironments e he))
      h.environments
  have hpersonas : Reader.mapOf (PersonaSummary.read origin)
      (.ofEntries ((Persona.arrange s.byPersona.entries).map fun e => (e.1, e.2.toJson))) =
        .ok s.shown.byPersona :=
    mapOf_arrange PersonaSummary.shown (fun e he => PersonaSummary.read_toJson origin (h.inPersonas e he)) h.personas
  have hprivileged := Reader.listOf_ok (PrivilegedGroup.read_toJson origin) s.privilegedGroups
  change PolicySummary.mk <$> Reader.withDefault "by_environment" _ _ s.toJson <*> _ <*> _ = _
  rw [Reader.withDefault_ok (a := s.byEnvironment) rfl henvironments, Reader.withDefault_ok rfl hpersonas,
    Reader.withDefault_ok (a := s.privilegedGroups) rfl hprivileged]
  rfl

end PolicySummary

/-! ## Policies -/

namespace ResolvedPolicy

/-- The policy as its document shows it: the names of the resource types in the summary without halves. -/
def shown (p : ResolvedPolicy) : ResolvedPolicy := { p with summary := p.summary.shown }

/-- What the records of a policy have to be to be read back. -/
structure IsReadable (p : ResolvedPolicy) : Prop where
  roles : ∀ a ∈ p.assignments, IsRoleText a.role
  secrets : ∀ c ∈ p.credentials, c.secret = none
  endDates : ∀ c ∈ p.credentials, c.endDate.asUtc = c.endDate
  names : p.summary.HasWholeNames

variable {p : ResolvedPolicy}

/-- The fields of a policy are read back as the policy that they show, whatever fields follow. -/
theorem read_fields (origin : Origin) (h : p.IsReadable) (rest : List (String × Json)) :
    read origin (.obj (p.fields ++ rest)) = .ok p.shown := by
  have hassignments : Reader.listOf (Assignment.read origin) (.arr (p.assignments.map Assignment.toJson)) =
      .ok p.assignments :=
    Reader.listOf_ok_of_mem fun a ha => Assignment.read_toJson origin (h.roles a ha).1 (h.roles a ha).2
  have hcredentials : Reader.listOf (Credential.read origin) (.arr (p.credentials.map Credential.toJson)) =
      .ok p.credentials := by
    refine Reader.listOf_ok_of_mem fun c hc => ?_
    rw [Credential.read_toJson origin (h.secrets c hc), h.endDates c hc]
  change ResolvedPolicy.mk <$> Reader.withDefault "groups" _ _ (.obj (p.fields ++ rest)) <*> _ <*> _ <*> _ <*> _ <*>
    _ <*> _ <*> _ <*> _ = _
  rw [Reader.withDefault_ok rfl (Reader.listOf_ok (Group.read_toJson origin) p.groups),
    Reader.withDefault_ok rfl (Reader.listOf_ok (Membership.read_toJson origin) p.memberships),
    Reader.withDefault_ok rfl (Reader.listOf_ok (RoleDefinition.read_toJson origin) p.roleDefinitions),
    Reader.withDefault_ok rfl hassignments,
    Reader.withDefault_ok rfl (Reader.listOf_ok (Application.read_toJson origin) p.applications),
    Reader.withDefault_ok rfl (Reader.listOf_ok (ServicePrincipal.read_toJson origin) p.servicePrincipals),
    Reader.withDefault_ok rfl (Reader.listOf_ok (OwnerEdge.read_toJson origin) p.ownerEdges),
    Reader.withDefault_ok rfl hcredentials, Reader.withDefault_ok rfl (PolicySummary.read_toJson origin h.names)]
  rfl

end ResolvedPolicy

end AccessPlan
