import AccessPlan.Proofs.Policy.Clock
import AccessPlan.Proofs.Principal.Expanding
import AccessPlan.Proofs.Principal.RepeatedRotation

/-!
# Rotations right after a resolution

The credential of a service principal is issued for the days of its definition, counted in hours, and a window is
counted in days, from the same time. So at this time a credential is due exactly if its days are no more than those of
the window (`isDue_iff`), whatever the period of the rotation is: a window has to be shorter than that period, but it
may be longer than the days of a definition.

`rotate_of_resolve` says what such a rotation makes of the credentials of a policy, in terms of the configuration.
-/

namespace AccessPlan

open Calendar (Timestamp Amount dayLength)
open PrincipalRecords (rotationDaysOf)

/-- A credential that is not due is kept, its secret masked. -/
theorem getElem?_of_not_due {c : Context} {rotationDays renewWithinDays : Option Json} {credentials : List Credential}
    {r : Rotation} {period : Int} {windowEnd : Timestamp}
    (hplan : rotationPlan c rotationDays renewWithinDays = .ok (period, windowEnd))
    (h : rotate credentials c rotationDays renewWithinDays = .ok r) {i : Nat} {before : Credential}
    (hi : credentials[i]? = some before) (hdue : ¬ before.IsDue windowEnd.instant) :
    r.credentials[i]? = some before.masked := by
  obtain ⟨steps, hsteps, rfl⟩ := exists_steps hplan h
  obtain ⟨⟨after, renewed⟩, hstep, hs⟩ := exists_getElem?_of_forall₂ (mapM_eq_ok_iff_forall₂.1 hsteps) hi
  rw [Rotation.ofSteps, List.getElem?_map, hstep, Option.map_some, (masked_of_step hdue hs).1]

/-- A call for integers that succeeds has these days, or those of the context. -/
theorem RotationCall.hasDays_of_integers {c : Context} {rotationDays renewWithinDays : Option Int}
    {credentials : List Credential} {r : Rotation}
    (h : rotate credentials c (rotationDays.map .int) (renewWithinDays.map .int) = .ok r) :
    HasDays ⟨c, rotationDays.map .int, renewWithinDays.map .int⟩ (rotationDays.getD c.rotationDays)
      (renewWithinDays.getD c.renewWithinDays) := by
  obtain ⟨period, windowEnd, hplan, -⟩ := rotate_eq_ok_iff.1 h
  have hcheck := check_of_plan hplan
  rw [Option.getD_map Json.int] at hcheck
  have hrange := (PrincipalRecords.checkRotationDays_int.1 hcheck).1
  constructor
  · rw [Option.getD_map Json.int]
    exact PrincipalRecords.checkRotationDays_int.2 ⟨hrange, rfl⟩
  · rw [Option.getD_map Json.int]
    rfl

/-- What a credential is renewed to that ends so many days after a time. Nothing but its end and its id is changed. -/
structure Credential.IsRenewedTo (now : Timestamp) (period : Int) (before after : Credential) : Prop where
  endDate : now.add? (period * dayLength) = some after.endDate
  keyId : idOf before.applicationId after.endDate = .ok after.keyId
  rest : after = { before with endDate := after.endDate, keyId := after.keyId }

namespace PolicyConfig

/-- The credential of a service principal before and after a rotation right after the resolution. -/
structure IsRotatedAtOnce (c : Context) (period window : Int) (e : String × PrincipalDefinition)
    (before after : Credential) : Prop where
  key : before.key = "credential-" ++ e.1
  renewed : rotationDaysOf e.2 c ≤ window → before.IsRenewedTo c.now period after
  kept : window < rotationDaysOf e.2 c → after = before

/-- A rotation of the credentials of a policy, right after the resolution. -/
structure IsRotationOf (config : PolicyConfig) (c : Context) (period window : Int) (p : ResolvedPolicy)
    (r : Rotation) : Prop where
  rotated : r.rotated = (config.servicePrincipals.entries.filter fun e => decide (rotationDaysOf e.2 c ≤ window)).map
    fun e => "credential-" ++ e.1
  lengths : p.credentials.length = config.servicePrincipals.entries.length ∧
    r.credentials.length = config.servicePrincipals.entries.length
  credentials : ∀ (i : Nat) e, config.servicePrincipals.entries[i]? = some e →
    ∃ before after, p.credentials[i]? = some before ∧ r.credentials[i]? = some after ∧
      IsRotatedAtOnce c period window e before after
  /-- With a window shorter than all days nothing is renewed. -/
  unchanged : (∀ e ∈ config.servicePrincipals.entries, window < rotationDaysOf e.2 c) → r = ⟨p.credentials, []⟩

variable {config : PolicyConfig} {c : Context} {p : ResolvedPolicy} {e : String × PrincipalDefinition} {cr : Credential}

/-! ## The credentials of a policy and its time -/

/-- The credentials of a policy are issued to its service principals, in the order of the names and for their days. -/
theorem forall₂_issueTo (h : resolve config c = .ok p) :
    List.Forall₂ (fun e cr => e.2.HasRotation c ∧ issueTo c e = .ok cr) config.servicePrincipals.entries
      p.credentials := by
  obtain ⟨records, hr⟩ := exists_records h
  rw [hr.credentials]
  refine List.forall₂_map_right_iff.2 ((mapM_eq_ok_iff_forall₂.1 hr.principals).imp fun e r he => ?_)
  obtain ⟨hexpandable, credential, hissue, rfl⟩ := PrincipalRecords.ofDefinition_eq_ok_iff.1 he
  have hrotation := hexpandable.rotation
  rw [PrincipalDefinition.HasRotation, rotationDaysOf, Context.rotationDays_withTenant] at hrotation
  rw [rotationDaysOf, Context.now_withTenant, Context.rotationDays_withTenant] at hissue
  exact ⟨hrotation, hissue⟩

/-- A credential ends as many days after the time of the context as its definition says. -/
theorem instant_of_issueTo (hd : e.2.HasRotation c) (h : issueTo c e = .ok cr) :
    cr.endDate.instant = c.now.instant + rotationDaysOf e.2 c * dayLength := by
  obtain ⟨endDate, keyId, he, -, rfl⟩ := issue_eq_ok_iff.1 h
  rw [endAfter_whole hd] at he
  rw [Timestamp.instant_asUtc, Timestamp.instant_later he]

/-- A credential is due at once exactly if its days are no more than those of the window. -/
theorem isDue_iff {window : Int} (hd : e.2.HasRotation c) (h : issueTo c e = .ok cr) :
    cr.IsDue (c.now.instant + window * dayLength) ↔ rotationDaysOf e.2 c ≤ window := by
  rw [Credential.IsDue, instant_of_issueTo hd h, dayLength]
  omega

theorem hidesSecret_of_issueTo (h : issueTo c e = .ok cr) : cr.HidesSecret := by
  obtain ⟨endDate, keyId, -, -, rfl⟩ := issue_eq_ok_iff.1 h
  exact .inl rfl

/-! ## The rotation -/

section Rotated

variable {call : RotationCall} {r : Rotation} {period window : Int}

/-- What the rotation makes of the credential of a service principal. -/
theorem exists_rotatedAtOnce (hcall : call.context = c) (hdays : call.HasDays period window)
    (h : call.run p.credentials = .ok r) {i : Nat} (hi : p.credentials[i]? = some cr) (hd : e.2.HasRotation c)
    (hissue : issueTo c e = .ok cr) :
    ∃ after, r.credentials[i]? = some after ∧ IsRotatedAtOnce c period window e cr after := by
  subst hcall
  obtain ⟨windowEnd, hplan, hlimit⟩ := RotationCall.exists_plan hdays h
  have hdue : cr.IsDue windowEnd.instant ↔ rotationDaysOf e.2 call.context ≤ window := by
    rw [hlimit]
    exact isDue_iff hd hissue
  have hkey := key_of_issueTo hissue
  by_cases hle : rotationDaysOf e.2 call.context ≤ window
  · obtain ⟨after, hget, hrenew⟩ := exists_renewed hplan h hi (hdue.2 hle)
    have hperiod := (window_of_plan hdays.window hplan).1
    obtain ⟨endDate, keyId, hl, hid, rfl⟩ := (renew_eq_ok_iff hperiod).1 hrenew
    obtain ⟨endDate', keyId', -, -, rfl⟩ := issue_eq_ok_iff.1 hissue
    exact ⟨_, hget, hkey, fun _ => ⟨Timestamp.later_eq_ok_iff.1 hl, hid, rfl⟩, fun hlt => absurd hle (Int.not_le.2 hlt)⟩
  · have hget := getElem?_of_not_due hplan h hi (hdue.not.2 hle)
    rw [Credential.masked_of_hidesSecret (hidesSecret_of_issueTo hissue)] at hget
    exact ⟨cr, hget, hkey, fun hn => absurd hn hle, fun _ => rfl⟩

/-- The keys that are reported are those of the service principals whose days are no more than those of the window. -/
theorem rotated_of_issued (hcall : call.context = c) (hdays : call.HasDays period window)
    (h : call.run p.credentials = .ok r) (hp : resolve config c = .ok p) :
    r.rotated = (config.servicePrincipals.entries.filter fun e => decide (rotationDaysOf e.2 c ≤ window)).map
      fun e => "credential-" ++ e.1 := by
  subst hcall
  rw [(RotationCall.isOf_of_run hdays h).rotated]
  refine (map_filter_eq_of_forall₂ (forall₂_issueTo hp) ?_ ?_).symm
  · rintro e cr ⟨hd, hissue⟩
    exact decide_eq_decide.2 (isDue_iff hd hissue).symm
  · rintro e cr ⟨-, hissue⟩
    exact (key_of_issueTo hissue).symm

/-- Credentials whose days are all more than those of the window are kept as they are. -/
theorem eq_of_window_lt (hcall : call.context = c) (hdays : call.HasDays period window)
    (h : call.run p.credentials = .ok r) (hp : resolve config c = .ok p)
    (hlt : ∀ e ∈ config.servicePrincipals.entries, window < rotationDaysOf e.2 c) : r = ⟨p.credentials, []⟩ := by
  subst hcall
  obtain ⟨windowEnd, hplan, hlimit⟩ := RotationCall.exists_plan hdays h
  refine Except.ok.inj (h.symm.trans (rotate_of_settled hplan fun cr hm => ?_))
  obtain ⟨i, hi⟩ := List.mem_iff_getElem?.1 hm
  obtain ⟨e, he, hd, hissue⟩ := exists_getElem?_of_forall₂ (forall₂_issueTo hp).flip hi
  rw [hlimit]
  exact ⟨(isDue_iff hd hissue).not.2 (Int.not_le.2 (hlt e (List.mem_of_getElem? he))), hidesSecret_of_issueTo hissue⟩

end Rotated

/-- A rotation of the credentials of a policy, at the time of the resolution, renews those of the service principals
whose days are no more than those of the window, and no others. -/
theorem rotate_of_resolve (rotationDays renewWithinDays : Option Int) {r : Rotation} (hp : resolve config c = .ok p)
    (h : rotate p.credentials c (rotationDays.map .int) (renewWithinDays.map .int) = .ok r) :
    config.IsRotationOf c (rotationDays.getD c.rotationDays) (renewWithinDays.getD c.renewWithinDays) p r := by
  have hdays := RotationCall.hasDays_of_integers h
  have hissued := forall₂_issueTo hp
  refine ⟨rotated_of_issued rfl hdays h hp, ?_, fun i e he => ?_, eq_of_window_lt rfl hdays h hp⟩
  · have hlength := (RotationCall.isOf_of_run hdays h).credentials.length_eq
    exact ⟨hissued.length_eq.symm, hlength.symm.trans hissued.length_eq.symm⟩
  · obtain ⟨cr, hi, hd, hissue⟩ := exists_getElem?_of_forall₂ hissued he
    obtain ⟨after, hget, hafter⟩ := exists_rotatedAtOnce rfl hdays h hi hd hissue
    exact ⟨cr, after, hi, hget, hafter⟩

/-! ## Two validities -/

/-- The sample with one more service principal, whose credential is valid for less than a month. -/
def staffed : PolicyConfig :=
  { sample with
    servicePrincipals := .ofList [("backup", ⟨"Backup", "", [], .empty, [], some 20⟩),
      ("deployer", ⟨"Deployer", "", [], .ofList [("main", ⟨"/subscriptions/s", "Contributor"⟩)], [], none⟩)] }

theorem isAcceptable_staffed : staffed.IsAcceptable (sampleContext.withTenant staffed.tenantId) :=
  { isAcceptable_sample with
    covered := { isAcceptable_sample.covered with }
    rotation := by decide +kernel
    credentials := by decide +kernel
    grants := by decide +kernel }

theorem rotate_of_resolve_staffed : ∃ p r, resolve staffed sampleContext = .ok p ∧
    rotate p.credentials sampleContext (some (.int 200)) (some (.int 30)) = .ok r ∧
    r.rotated = ["credential-backup"] ∧ staffed.IsRotationOf sampleContext 200 30 p r := by
  have hv : staffed.IsValid :=
    { isValid_of_ofJson (j := sampleJson) rfl with
      principals := by decide +kernel
      grants := by decide +kernel }
  obtain ⟨p, hp⟩ := isAcceptable_staffed.exists_policy hv
  have hissued : staffed.servicePrincipals.entries.mapM (issueTo sampleContext) = .ok p.credentials :=
    mapM_eq_ok_iff_forall₂.2 ((forall₂_issueTo hp).imp fun _ _ h => h.2)
  have hrun : ((staffed.servicePrincipals.entries.mapM (issueTo sampleContext)).bind fun credentials =>
      rotate credentials sampleContext (some (.int 200)) (some (.int 30))).toOption.map (·.rotated) =
        some ["credential-backup"] := by
    decide +kernel
  rw [hissued] at hrun
  cases h : rotate p.credentials sampleContext (some (.int 200)) (some (.int 30)) with
  | error f =>
    simp only [Except.bind, h] at hrun
    cases hrun
  | ok r =>
    simp only [Except.bind, h] at hrun
    exact ⟨p, r, hp, h, Option.some.inj hrun, rotate_of_resolve (some 200) (some 30) hp h⟩

end PolicyConfig

end AccessPlan
