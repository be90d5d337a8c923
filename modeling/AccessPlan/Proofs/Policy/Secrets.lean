import AccessPlan.Policy.Document
import AccessPlan.Proofs.Principal.Secrets
import AccessPlan.Proofs.Schema.Reading

/-!
# Secrets do not leave a policy

A masked document is made in two steps: every secret is turned into what a document shows of it, and then it is masked
(`document_true`). For a text the two steps come to masking it.

* `hidesSecrets_of_document`: a masked document shows no secret, of whatever kind the secrets are.
* `document_congr`: policies that differ in the texts of secrets have the same masked document.
* `exists_document`: a policy whose secrets are texts has a masked document, and every policy that was read has only
  such secrets (`hasTextSecrets_of_ofDocument`).
* `secrets_do_not_leave` puts this together with what holds of rotations.
-/

namespace AccessPlan

namespace Credential

/-- The secret is a text, if there is one. -/
def HasTextSecret (c : Credential) : Prop := c.secret = none ∨ ∃ s, c.secret = some (.str s)

variable {c d : Credential}

theorem documented_of_text (h : c.HasTextSecret) : c.documented = .ok c := by
  unfold documented
  rcases h with h | ⟨s, h⟩ <;> rw [h]

/-- Credentials that differ in the texts of secrets are shown masked in the same way. -/
theorem SameButSecretText.map_documented (h : SameButSecretText c d) :
    c.documented.map masked = d.documented.map masked := by
  rcases h.secret with hs | ⟨s, t, hs, ht⟩
  · have hcd : c = d := by
      obtain ⟨k, a, i, e, s, b⟩ := c
      obtain ⟨k', a', i', e', s', b'⟩ := d
      simpa [withoutSecret, show s = s' from hs] using h.withoutSecret_eq
    rw [hcd]
  · rw [documented_of_text (.inr ⟨s, hs⟩), documented_of_text (.inr ⟨t, ht⟩)]
    exact congrArg Except.ok h.masked_eq

/-- A credential that is read has a text for a secret, or none. -/
theorem gives_read (origin : Schema.Origin) : (read origin).Gives HasTextSecret := by
  apply Schema.Reader.Gives.record
  intro j
  refine .seq_any (.seq (P := fun secret => secret = none ∨ ∃ s, secret = some (.str s)) ?_ ?_)
  · apply Schema.Checked.Yields.map
    intro secret _
    cases secret with
    | none => exact .inl rfl
    | some s => exact .inr ⟨s, rfl⟩
  · refine .seq_any (.seq_any (.seq_any (.map fun key _ => ?_)))
    intro applicationId keyId endDate secret hsecret sensitive
    exact hsecret

end Credential

/-! ## Documents -/

/-- A field that is shown of a secret: none, or the mask. -/
def IsHiddenSecret (shown : Json) : Prop := shown = .null ∨ shown = .str Credential.secretMask

/-- The document has a list of credentials, and no secret is shown in it. -/
def Json.HidesSecrets (document : Json) : Prop :=
  ∃ credentials, document.field? "credentials" = some (.arr credentials) ∧
    ∀ c ∈ credentials, ∃ shown, c.field? "secret_value" = some shown ∧ IsHiddenSecret shown

namespace ResolvedPolicy

/-- All secrets are texts. -/
def HasTextSecrets (p : ResolvedPolicy) : Prop := ∀ c ∈ p.credentials, c.HasTextSecret

/-- Two policies that differ at most in the texts of secrets that both have. -/
structure SameButSecretTexts (p q : ResolvedPolicy) : Prop where
  withoutCredentials_eq : { p with credentials := [] } = { q with credentials := [] }
  credentials : List.Forall₂ Credential.SameButSecretText p.credentials q.credentials

variable {p q : ResolvedPolicy} {document : Json}

/-- The masked document shows the credentials as any document shows them, and then masked. -/
theorem document_true (p : ResolvedPolicy) : p.document true =
    (p.credentials.mapM fun c : Credential => c.documented.map Credential.masked).map fun shown =>
      .obj ({ p with credentials := shown }.fields ++ [("apply_stages", .arr (p.stages.map Stage.toJson))]) := by
  rw [← map_mapM, ResolvedPolicy.document]
  cases p.credentials.mapM Credential.documented <;> rfl

theorem field_secret_toJson {c : Credential} (h : c.HidesSecret) :
    ∃ shown, c.toJson.field? "secret_value" = some shown ∧ IsHiddenSecret shown := by
  refine ⟨c.secret.getD .null, rfl, ?_⟩
  rcases h with h | h
  · exact .inl (by rw [h]; rfl)
  · exact .inr (by rw [h]; rfl)

/-- A masked document shows no secret. -/
theorem hidesSecrets_of_document (h : p.document true = .ok document) : document.HidesSecrets := by
  rw [document_true] at h
  obtain ⟨shown, hshown, rfl⟩ := except_map_eq_ok.1 h
  refine ⟨shown.map Credential.toJson, rfl, ?_⟩
  intro j hj
  obtain ⟨c, hc, rfl⟩ := List.mem_map.1 hj
  obtain ⟨d, -, hd⟩ := (mem_of_mapM_eq_ok hshown).1 hc
  obtain ⟨e, -, rfl⟩ := except_map_eq_ok.1 hd
  exact field_secret_toJson e.hidesSecret_masked

/-- Policies that differ in the texts of secrets have the same masked document. -/
theorem document_congr (h : p.SameButSecretTexts q) : p.document true = q.document true := by
  obtain ⟨hp, hc⟩ := h
  have hkeys : p.credentials.map Credential.key = q.credentials.map Credential.key :=
    map_eq_of_forall₂ hc fun _ _ hcd => (congrArg Credential.key hcd.withoutSecret_eq :)
  have hshown := mapM_eq_of_forall₂ hc fun c d hcd => hcd.map_documented
  obtain ⟨⟩ := p
  obtain ⟨⟩ := q
  simp only [mk.injEq, true_and] at hp
  obtain ⟨rfl, rfl, rfl, rfl, rfl, rfl, rfl, rfl⟩ := hp
  simp only [document_true, stages, keys, layerKeys, hkeys, hshown]

/-- A policy whose secrets are texts has a masked document. -/
theorem exists_document (h : p.HasTextSecrets) : ∃ document, p.document true = .ok document := by
  obtain ⟨shown, hshown⟩ := exists_mapM_eq_ok_iff.2 fun c (hc : c ∈ p.credentials) =>
    ⟨c.masked, congrArg (Except.map Credential.masked) (Credential.documented_of_text (h c hc))⟩
  rw [document_true, hshown]
  exact ⟨_, rfl⟩

/-- The secrets of a policy that was read are texts. -/
theorem hasTextSecrets_of_ofDocument (h : ofDocument document = .ok p) : p.HasTextSecrets := by
  have hgives : (read .document).Gives HasTextSecrets := by
    apply Schema.Reader.Gives.record
    intro j
    refine .seq_any (.seq (P := fun credentials => ∀ c ∈ credentials, c.HasTextSecret) ?_ ?_)
    · exact ((Credential.gives_read _).listOf.withDefault (List.forall_mem_nil _)) j
    · refine .seq_any (.seq_any (.seq_any (.seq_any (.seq_any (.seq_any (.map fun groups _ => ?_))))))
      intro memberships roleDefinitions assignments applications servicePrincipals ownerEdges credentials hc summary
      exact hc
  exact hgives document p (Schema.Checked.toExcept_eq_ok.1 h)

/-- What a policy keeps of its secrets from masked documents. -/
structure KeepsSecrets (p : ResolvedPolicy) : Prop where
  hides : ∀ document, p.document true = .ok document → document.HidesSecrets
  exists_document : p.HasTextSecrets → ∃ document, p.document true = .ok document
  document_eq : ∀ q, p.SameButSecretTexts q → p.document true = q.document true

end ResolvedPolicy

/-- What credentials keep of their secrets from a rotation: none is shown, the texts do not matter, and for a
credential that was renewed it does not matter whether there was a secret. -/
structure RotationKeepsSecrets (credentials : List Credential) (c : Context)
    (rotationDays renewWithinDays : Option Json) : Prop where
  hides : ∀ r, rotate credentials c rotationDays renewWithinDays = .ok r → ∀ d ∈ r.credentials, d.HidesSecret
  rotate_eq : ∀ others, List.Forall₂ Credential.SameButSecretText credentials others →
    rotate credentials c rotationDays renewWithinDays = rotate others c rotationDays renewWithinDays
  withoutSecrets_eq : ∀ others, credentials.map Credential.withoutSecret = others.map Credential.withoutSecret →
    (rotate credentials c rotationDays renewWithinDays).map Rotation.withoutSecrets =
      (rotate others c rotationDays renewWithinDays).map Rotation.withoutSecrets
  renewed_eq : ∀ others r s period windowEnd,
    credentials.map Credential.withoutSecret = others.map Credential.withoutSecret →
    rotationPlan c rotationDays renewWithinDays = .ok (period, windowEnd) →
    rotate credentials c rotationDays renewWithinDays = .ok r → rotate others c rotationDays renewWithinDays = .ok s →
      r.rotated = (credentials.filter fun c => decide (c.IsDue windowEnd.instant)).map (·.key) ∧
      ∀ (i : Nat) (before : Credential), credentials[i]? = some before → before.IsDue windowEnd.instant →
        ∃ after, r.credentials[i]? = some after ∧ s.credentials[i]? = some after

/-- Secrets do not leave a policy, be it in masked documents or in rotations. -/
theorem secrets_do_not_leave : (∀ p : ResolvedPolicy, p.KeepsSecrets) ∧
    (∀ document p, ResolvedPolicy.ofDocument document = .ok p → p.HasTextSecrets) ∧
    ∀ credentials c rotationDays renewWithinDays,
      RotationKeepsSecrets credentials c rotationDays renewWithinDays := by
  refine ⟨fun p => ?_, fun document p h => ResolvedPolicy.hasTextSecrets_of_ofDocument h,
    fun credentials c rotationDays renewWithinDays => ?_⟩
  · exact {
      hides := fun document h => ResolvedPolicy.hidesSecrets_of_document h
      exists_document := ResolvedPolicy.exists_document
      document_eq := fun q h => ResolvedPolicy.document_congr h }
  · exact {
      hides := fun r h d hd => hidesSecret_of_mem h hd
      rotate_eq := fun others h => rotate_congr h
      withoutSecrets_eq := fun others h => rotate_congr_withoutSecret h
      renewed_eq := fun others r s period windowEnd h hplan hr hs =>
        ⟨rotated_of_plan hplan hr, fun i before hi hdue => getElem?_of_due h hplan hr hs hi hdue⟩ }

/-- Two credentials with the same secret. -/
def secretiveCredentials (secret : String) : List Credential :=
  [credentialUntil "web" 10 (by decide), credentialUntil "api" 100 (by decide)].map fun c =>
    { c with secret := some (.str secret) }

theorem secrets_do_not_leave_sample :
    let c : Context := ⟨none, none, none, .earliest, 90, 30⟩
    rotate (secretiveCredentials "first") c none none = rotate (secretiveCredentials "second") c none none ∧
      (rotate (secretiveCredentials "first") c none none).toOption.map
        (·.credentials.map fun d => (d.secret.getD .null).truthy) = some [false, true] := by
  refine ⟨(secrets_do_not_leave.2.2 _ _ none none).rotate_eq _ ?_, by decide +kernel⟩
  exact .cons ⟨rfl, .inr ⟨_, _, rfl, rfl⟩⟩ (.cons ⟨rfl, .inr ⟨_, _, rfl, rfl⟩⟩ .nil)

end AccessPlan
