import AccessPlan.Proofs.Principal.Rotation

/-!
# Secrets in rotations

A rotation looks at a secret for one thing only, whether there is one, and for this only where the credential is kept.
So it commutes with two changes of all credentials before it.

* `rotate_masked`: masking them first changes nothing. Hence lists that differ in the texts of secrets have the same
  rotation or the same error (`rotate_congr`).
* `rotate_withoutSecret`: taking the secrets away first is taking them away from the result. Hence lists that differ in
  their secrets in any way have the same rotation but for secrets (`rotate_congr_withoutSecret`).
* `forall₂_secrets`: what becomes of the secrets. A credential that was due has none, any other has none or the mask.
-/

namespace AccessPlan

open Calendar (Timestamp)

/-! ## Credentials that differ in their secrets -/

namespace Credential

/-- The credential without its secret. -/
def withoutSecret (c : Credential) : Credential := { c with secret := none }

/-- Two credentials that differ at most in the text of a secret that both have. -/
structure SameButSecretText (c d : Credential) : Prop where
  withoutSecret_eq : c.withoutSecret = d.withoutSecret
  secret : c.secret = d.secret ∨ ∃ s t, c.secret = some (.str s) ∧ d.secret = some (.str t)

/-- A credential that shows no secret: it has none, or the mask stands in its place. -/
def HidesSecret (c : Credential) : Prop := c.secret = none ∨ c.secret = some (.str secretMask)

variable {c d : Credential}

theorem masked_eq_iff : c.masked = d.masked ↔
    c.withoutSecret = d.withoutSecret ∧ c.secret.isSome = d.secret.isSome := by
  obtain ⟨k, a, i, e, s, b⟩ := c
  obtain ⟨k', a', i', e', s', b'⟩ := d
  simp only [masked, withoutSecret, mk.injEq, true_and]
  cases s <;> cases s' <;> simp

theorem withoutSecret_of_none (h : c.secret = none) : c.withoutSecret = c := by
  rw [withoutSecret, ← h]

theorem SameButSecretText.masked_eq (h : SameButSecretText c d) : c.masked = d.masked := by
  apply masked_eq_iff.2
  refine ⟨h.withoutSecret_eq, ?_⟩
  rcases h.secret with hs | ⟨s, t, hs, ht⟩
  · rw [hs]
  · rw [hs, ht]
    rfl

theorem hidesSecret_masked (c : Credential) : c.masked.HidesSecret := by
  unfold HidesSecret masked
  cases c.secret with
  | none => exact .inl rfl
  | some s => exact .inr rfl

end Credential

/-- A rotation without its secrets. -/
def Rotation.withoutSecrets (r : Rotation) : Rotation :=
  { r with credentials := r.credentials.map Credential.withoutSecret }

/-! ## Steps -/

section Steps

variable {now windowEnd : Timestamp} {period : Int} {c d : Credential} {renewed : Bool}

/-- A step on a masked credential is that on the credential itself. -/
theorem step_masked (c : Credential) :
    Rotation.step now windowEnd period c.masked = Rotation.step now windowEnd period c := by
  unfold Rotation.step
  rw [Credential.masked_masked]
  rfl

theorem renew_withoutSecret (c : Credential) :
    Rotation.renew now period c.withoutSecret = Rotation.renew now period c := rfl

/-- A renewed credential has no secret. -/
theorem secret_of_renew (h : Rotation.renew now period c = .ok d) : d.secret = none := by
  obtain ⟨endDate, -, h⟩ := bind_eq_ok.1 h
  obtain ⟨keyId, -, h⟩ := bind_eq_ok.1 h
  obtain rfl := Except.ok.inj h
  rfl

theorem step_withoutSecret (c : Credential) : Rotation.step now windowEnd period c.withoutSecret =
    (Rotation.step now windowEnd period c).map fun s => (s.1.withoutSecret, s.2) := by
  by_cases hdue : c.IsDue windowEnd.instant
  · rw [step_of_due hdue, step_of_due (c := c.withoutSecret) hdue, renew_withoutSecret]
    cases hr : Rotation.renew now period c with
    | error f => rfl
    | ok d =>
      simp only [Except.map, Credential.withoutSecret_of_none (secret_of_renew hr)]
  · rw [step_of_not_due hdue, step_of_not_due (c := c.withoutSecret) hdue]
    rfl

/-- What becomes of a secret in a step. -/
theorem secret_of_step (h : Rotation.step now windowEnd period c = .ok (d, renewed)) :
    d.HidesSecret ∧ (c.IsDue windowEnd.instant → d.secret = none) := by
  by_cases hdue : c.IsDue windowEnd.instant
  · have hs := secret_of_renew (renew_of_step hdue h).1
    exact ⟨.inl hs, fun _ => hs⟩
  · obtain ⟨rfl, -⟩ := masked_of_step hdue h
    exact ⟨c.hidesSecret_masked, fun hd => absurd hd hdue⟩

end Steps

/-! ## Rotations -/

section Rotations

variable {c : Context} {rotationDays renewWithinDays : Option Json} {credentials others : List Credential}
  {r s : Rotation} {period : Int} {windowEnd : Timestamp}

theorem rotate_masked : rotate (credentials.map Credential.masked) c rotationDays renewWithinDays =
    rotate credentials c rotationDays renewWithinDays := by
  simp only [rotate_eq, List.mapM_map, Function.comp_def, step_masked]

theorem withoutSecrets_ofSteps (steps : List (Credential × Bool)) : (Rotation.ofSteps steps).withoutSecrets =
    Rotation.ofSteps (steps.map fun s => (s.1.withoutSecret, s.2)) := by
  simp only [Rotation.withoutSecrets, Rotation.ofSteps, List.map_map, List.filter_map, Function.comp_def]
  rfl

theorem rotate_withoutSecret : rotate (credentials.map Credential.withoutSecret) c rotationDays renewWithinDays =
    (rotate credentials c rotationDays renewWithinDays).map Rotation.withoutSecrets := by
  rw [rotate_eq, rotate_eq]
  cases rotationPlan c rotationDays renewWithinDays with
  | error f => rfl
  | ok plan =>
    have hrun : (credentials.map Credential.withoutSecret).mapM (Rotation.step c.now plan.2 plan.1) =
        (credentials.mapM (Rotation.step c.now plan.2 plan.1)).map
          (List.map fun s => (s.1.withoutSecret, s.2)) := by
      rw [map_mapM]
      simp only [List.mapM_map, Function.comp_def, step_withoutSecret]
    show (credentials.map Credential.withoutSecret).mapM _ >>= _ = Except.map _ (credentials.mapM _ >>= _)
    rw [hrun]
    cases credentials.mapM (Rotation.step c.now plan.2 plan.1) with
    | error f => rfl
    | ok steps => exact congrArg Except.ok (withoutSecrets_ofSteps steps).symm

/-- Lists that differ in the texts of secrets have the same rotation or the same error. -/
theorem rotate_congr (h : List.Forall₂ Credential.SameButSecretText credentials others) :
    rotate credentials c rotationDays renewWithinDays = rotate others c rotationDays renewWithinDays := by
  have hmasked : credentials.map Credential.masked = others.map Credential.masked :=
    map_eq_of_forall₂ h fun _ _ hc => hc.masked_eq
  rw [← rotate_masked, hmasked, rotate_masked]

/-- Lists that differ in secrets have the same rotation but for secrets, or the same error. -/
theorem rotate_congr_withoutSecret
    (h : credentials.map Credential.withoutSecret = others.map Credential.withoutSecret) :
    (rotate credentials c rotationDays renewWithinDays).map Rotation.withoutSecrets =
      (rotate others c rotationDays renewWithinDays).map Rotation.withoutSecrets := by
  rw [← rotate_withoutSecret, h, rotate_withoutSecret]

/-- What becomes of the secrets of a list. -/
theorem forall₂_secrets (hplan : rotationPlan c rotationDays renewWithinDays = .ok (period, windowEnd))
    (h : rotate credentials c rotationDays renewWithinDays = .ok r) :
    List.Forall₂ (fun before after => after.HidesSecret ∧ (before.IsDue windowEnd.instant → after.secret = none))
      credentials r.credentials := by
  obtain ⟨steps, hsteps, rfl⟩ := exists_steps hplan h
  apply List.forall₂_map_right_iff.2
  exact (mapM_eq_ok_iff_forall₂.1 hsteps).imp fun before step hs => secret_of_step hs

theorem hidesSecret_of_mem (h : rotate credentials c rotationDays renewWithinDays = .ok r) {d : Credential}
    (hd : d ∈ r.credentials) : d.HidesSecret := by
  obtain ⟨period, windowEnd, hplan, -⟩ := rotate_eq_ok_iff.1 h
  obtain ⟨i, hi, rfl⟩ := List.mem_iff_getElem.1 hd
  have hs := forall₂_secrets hplan h
  exact (hs.get (hs.length_eq ▸ hi) hi).1

/-- A credential that was due is renewed in the same way with a secret, with another one and without one. -/
theorem getElem?_of_due (h : credentials.map Credential.withoutSecret = others.map Credential.withoutSecret)
    (hplan : rotationPlan c rotationDays renewWithinDays = .ok (period, windowEnd))
    (hr : rotate credentials c rotationDays renewWithinDays = .ok r)
    (hs : rotate others c rotationDays renewWithinDays = .ok s) {i : Nat} {before : Credential}
    (hi : credentials[i]? = some before) (hdue : before.IsDue windowEnd.instant) :
    ∃ after, r.credentials[i]? = some after ∧ s.credentials[i]? = some after := by
  have hsame : r.credentials.map Credential.withoutSecret = s.credentials.map Credential.withoutSecret := by
    have hrs : (rotate credentials c rotationDays renewWithinDays).map Rotation.withoutSecrets =
        (rotate others c rotationDays renewWithinDays).map Rotation.withoutSecrets := rotate_congr_withoutSecret h
    rw [hr, hs] at hrs
    exact congrArg Rotation.credentials (Except.ok.inj hrs)
  obtain ⟨other, ho, hother⟩ := exists_getElem?_of_map_eq h hi
  have hend : before.endDate = other.endDate := (congrArg Credential.endDate hother :)
  have hdue' : other.IsDue windowEnd.instant := by
    unfold Credential.IsDue at hdue ⊢
    rwa [← hend]
  obtain ⟨after, ha, -, hnone⟩ := exists_getElem?_of_forall₂ (forall₂_secrets hplan hr) hi
  obtain ⟨after', ha', -, hnone'⟩ := exists_getElem?_of_forall₂ (forall₂_secrets hplan hs) ho
  obtain ⟨after'', ha'', heq⟩ := exists_getElem?_of_map_eq hsame ha
  obtain rfl := Option.some.inj (ha'.symm.trans ha'')
  refine ⟨after, ha, ha'.trans (congrArg some ?_)⟩
  rw [← Credential.withoutSecret_of_none (hnone hdue), ← Credential.withoutSecret_of_none (hnone' hdue'), heq]

end Rotations

end AccessPlan
