import AccessPlan.Proofs.Json.Sameness
import AccessPlan.Proofs.Policy.Documents
import AccessPlan.Proofs.Policy.Records

/-!
# A document that was read is rendered again

Records are simple values, and so are the documents of policies (`ResolvedPolicy.isSimple_document`). The names of
resource types may come in another order once they were read, but the objects that hold them are the same all the same,
and so are the documents (`ResolvedPolicy.same_document_shown`).
-/

namespace AccessPlan

/-! ## Records are simple values -/

section Simple

variable {n : Nat}

theorem Group.isSimple_toJson (g : Group) : g.toJson.IsSimple (n + 2) := by simp [toJson]

theorem Membership.isSimple_toJson (m : Membership) : m.toJson.IsSimple (n + 1) := by simp [toJson]

theorem RoleDefinition.isSimple_toJson (r : RoleDefinition) : r.toJson.IsSimple (n + 2) := by simp [toJson]

theorem Scope.isSimple_toJson (s : Scope) : s.toJson.IsSimple (n + 1) := by cases s <;> simp [toJson]

theorem Assignment.isSimple_toJson (a : Assignment) : a.toJson.IsSimple (n + 2) := by
  simp [toJson, Scope.isSimple_toJson]

theorem Application.isSimple_toJson (a : Application) : a.toJson.IsSimple (n + 2) := by simp [toJson]

theorem ServicePrincipal.isSimple_toJson (s : ServicePrincipal) : s.toJson.IsSimple (n + 2) := by simp [toJson]

theorem OwnerEdge.isSimple_toJson (o : OwnerEdge) : o.toJson.IsSimple (n + 1) := by simp [toJson]

theorem Credential.isSimple_toJson {c : Credential} (h : c.secret = none) : c.toJson.IsSimple (n + 1) := by
  simp [toJson, h]

theorem Stage.isSimple_toJson (s : Stage) : s.toJson.IsSimple (n + 2) := by simp [toJson]

theorem PrivilegedGroup.isSimple_toJson (g : PrivilegedGroup) : g.toJson.IsSimple (n + 2) := by simp [toJson]

theorem PersonaGroupSummary.isSimple_toJson (s : PersonaGroupSummary) : s.toJson.IsSimple (n + 2) := by
  have hprojects : (Json.ofMap Json.str s.projects).IsSimple (n + 1) := Json.isSimple_ofEntries fun e _ => .str e.2
  simp [toJson, hprojects]

theorem EnvironmentSummary.isSimple_toJson (s : EnvironmentSummary) : s.toJson.IsSimple (n + 4) := by
  have hpersonas :
      (Json.ofEntries ((Persona.arrange s.personas.entries).map fun e => (e.1, e.2.toJson))).IsSimple (n + 3) :=
    Json.isSimple_ofEntries fun e _ => e.2.isSimple_toJson
  simp [toJson, hpersonas]

theorem PersonaSummary.isSimple_toJson (s : PersonaSummary) : s.toJson.IsSimple (n + 3) := by
  have hmap : ∀ m : NameMap (List String), (Json.ofMap Json.ofTexts m).IsSimple (n + 2) := fun m =>
    Json.isSimple_ofEntries fun e _ => Json.isSimple_ofTexts e.2
  simp [toJson, hmap]

theorem PolicySummary.isSimple_toJson (s : PolicySummary) : s.toJson.IsSimple (n + 6) := by
  have henvironments : (Json.ofMap EnvironmentSummary.toJson s.byEnvironment).IsSimple (n + 5) :=
    Json.isSimple_ofEntries fun e _ => e.2.isSimple_toJson
  have hpersonas :
      (Json.ofEntries ((Persona.arrange s.byPersona.entries).map fun e => (e.1, e.2.toJson))).IsSimple (n + 5) :=
    Json.isSimple_ofEntries fun e _ => e.2.isSimple_toJson
  have hprivileged : (Json.arr (s.privilegedGroups.map PrivilegedGroup.toJson)).IsSimple (n + 5) :=
    Json.isSimple_arr_map fun g _ => g.isSimple_toJson
  simp [toJson, henvironments, hpersonas, hprivileged]

/-- The document of a policy without secrets is a simple value. -/
theorem ResolvedPolicy.isSimple_document {p : ResolvedPolicy} (h : ∀ c ∈ p.credentials, c.secret = none) {doc : Json}
    (hd : p.document true = .ok doc) : doc.IsSimple (n + 7) := by
  rw [document_of_secrets h] at hd
  obtain rfl := Except.ok.inj hd
  have hrecords : ∀ {α : Type} {write : α → Json} {records : List α},
      (∀ a ∈ records, (write a).IsSimple (n + 5)) → (Json.arr (records.map write)).IsSimple (n + 6) :=
    Json.isSimple_arr_map
  refine .obj (by simp [fields]) ?_
  simp only [fields, List.cons_append, List.nil_append, List.forall_mem_cons, List.not_mem_nil, false_implies,
    implies_true, and_true]
  exact ⟨hrecords fun g _ => g.isSimple_toJson, hrecords fun m _ => m.isSimple_toJson,
    hrecords fun r _ => r.isSimple_toJson, hrecords fun a _ => a.isSimple_toJson,
    hrecords fun a _ => a.isSimple_toJson, hrecords fun s _ => s.isSimple_toJson,
    hrecords fun o _ => o.isSimple_toJson, hrecords fun c hc => Credential.isSimple_toJson (h c hc),
    p.summary.isSimple_toJson, hrecords fun s _ => s.isSimple_toJson⟩

end Simple

/-! ## What is shown is the same -/

theorem Persona.arrange_map {α β : Type} (f : α → β) (es : List (String × α)) :
    arrange (es.map fun e => (e.1, f e.2)) = (arrange es).map fun e => (e.1, f e.2) := by
  simp only [arrange, List.filter_map, List.map_append, List.map_flatMap, Function.comp_def]

/-- A shown map is written as the same object. -/
theorem NameMap.same_shown {α : Type} {write : α → Json} {m : NameMap α} {n : Nat}
    (h : ∀ e ∈ m.entries, (write e.2).IsSimple n) : (Json.ofMap write m.shown).same (.ofMap write m) = true := by
  have hdistinct : (m.shown.entries.map fun e => (e.1, write e.2)).Pairwise fun a b => a.1 ≠ b.1 :=
    List.pairwise_map.2 (m.shown.ascending.imp String.ne_of_lt)
  have hshown : Json.ofMap write m.shown = .obj (m.shown.entries.map fun e => (e.1, write e.2)) := by
    refine Json.ofEntries_of_isWhole (fun e he => ?_) hdistinct
    obtain ⟨d, hd, rfl⟩ := List.mem_map.1 he
    exact isWhole_of_mem_shown (e := d) hd
  have hsimple : (Json.ofMap write m).IsSimple (n + 1) := Json.isSimple_ofEntries h
  rw [Json.ofMap, Json.ofEntries_eq, Json.map_written] at hsimple
  rw [hshown, Json.ofMap, Json.ofEntries_eq, Json.map_written]
  exact Json.same_obj_of_perm ((Json.entries_shown_perm m).map _) hsimple

theorem PersonaSummary.same_shown (s : PersonaSummary) : s.shown.toJson.same s.toJson = true := by
  have htypes : (Json.ofMap Json.ofTexts s.resourceTypeRoles.shown).same (.ofMap .ofTexts s.resourceTypeRoles) = true :=
    NameMap.same_shown (n := 1) fun e _ => Json.isSimple_ofTexts e.2
  exact Json.same_obj_of_field [_, _] (s.isSimple_toJson (n := 0)) htypes

theorem PolicySummary.same_shown (s : PolicySummary) : s.shown.toJson.same s.toJson = true := by
  have hpersonas :
      (Json.ofEntries ((Persona.arrange s.shown.byPersona.entries).map fun e => (e.1, e.2.toJson))).same
        (.ofEntries ((Persona.arrange s.byPersona.entries).map fun e => (e.1, e.2.toJson))) = true := by
    -- the personas are the same on both sides, and each is shown as the same value
    have harrange : Persona.arrange s.shown.byPersona.entries =
        (Persona.arrange s.byPersona.entries).map fun e => (e.1, e.2.shown) := Persona.arrange_map _ _
    rw [harrange, List.map_map, Json.ofEntries_eq, Json.ofEntries_eq]
    simp only [Function.comp_def]
    rw [Json.map_written fun v : PersonaSummary => v.shown.toJson, Json.map_written PersonaSummary.toJson]
    refine Json.same_obj_of_forall₂ ?_ ?_
    · rw [List.forall₂_map_left_iff, List.forall₂_map_right_iff, List.forall₂_same]
      exact fun e _ => ⟨rfl, e.2.same_shown⟩
    · rw [List.map_map]
      exact Json.nodup_written _
  exact Json.same_obj_of_field [_] (s.isSimple_toJson (n := 0)) hpersonas

/-- The document of the policy that a document shows is the same document. -/
theorem ResolvedPolicy.same_document_shown {p : ResolvedPolicy} (h : ∀ c ∈ p.credentials, c.secret = none)
    {doc again : Json} (hd : p.document true = .ok doc) (ha : p.shown.document true = .ok again) :
    again.same doc = true := by
  have hsimple : doc.IsSimple 7 := isSimple_document (n := 0) h hd
  rw [document_of_secrets h] at hd
  rw [document_of_secrets (p := p.shown) h] at ha
  obtain rfl := Except.ok.inj hd
  obtain rfl := Except.ok.inj ha
  exact Json.same_obj_of_field (p.fields.take 8) hsimple p.summary.same_shown

end AccessPlan
