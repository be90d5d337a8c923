import AccessPlan.Proofs.Principal.Secrets

/-!
# Rotations that are repeated

After a rotation no credential is due, and none shows a secret. A rotation of such credentials keeps them as they are
(`rotate_of_settled`), so a rotation that is called for once more has nothing to do.

What is renewed grows with the end of the window, as a credential that is due stays due at every later limit
(`renews_iff`), and how it is renewed depends on the time and the period alone (`exists_renewed`). Both laws are put
together in `rotation_settles`.
-/

namespace AccessPlan

open Calendar (Timestamp Amount dayLength)

theorem Credential.masked_of_hidesSecret {c : Credential} (h : c.HidesSecret) : c.masked = c := by
  obtain ⟨key, applicationId, keyId, endDate, secret, sensitive⟩ := c
  rcases h with rfl | rfl <;> rfl

/-- A call for a rotation. -/
structure RotationCall where
  context : Context
  rotationDays : Option Json
  renewWithinDays : Option Json

namespace RotationCall

/-- What a call makes of credentials. -/
def run (call : RotationCall) (credentials : List Credential) : Except Failure Rotation :=
  rotate credentials call.context call.rotationDays call.renewWithinDays

/-- The period of a call and its window, in whole days. The context stands in for what is not given. -/
structure HasDays (call : RotationCall) (period window : Int) : Prop where
  period : checkRotationDays "rotation_days" (call.rotationDays.getD (.int call.context.rotationDays)) = .ok period
  window : Amount.ofJson? (call.renewWithinDays.getD (.int call.context.renewWithinDays)) = some (.whole window)

/-- The instant at which a window of days ends. -/
def limit (call : RotationCall) (window : Int) : Int := call.context.now.instant + window * dayLength

end RotationCall

namespace Rotation

/-- The credential at a position was renewed: it ends later than before. -/
def Renews (before : List Credential) (r : Rotation) (i : Nat) : Prop :=
  ∃ c d, before[i]? = some c ∧ r.credentials[i]? = some d ∧ c.endDate.instant < d.endDate.instant

/-- The keys of the credentials that were renewed, in their order. -/
def renewedKeys (before : List Credential) (r : Rotation) : List String :=
  ((before.zip r.credentials).filter fun p => decide (p.1.endDate.instant < p.2.endDate.instant)).map (·.1.key)

end Rotation

section Settled

variable {c : Context} {rotationDays renewWithinDays : Option Json} {credentials : List Credential} {r : Rotation}
  {period : Int} {windowEnd : Timestamp}

theorem ofSteps_kept (credentials : List Credential) :
    Rotation.ofSteps (credentials.map fun c => (c, false)) = ⟨credentials, []⟩ := by
  have hnone : (credentials.map fun c => (c, false)).filter (·.2) = [] := by
    rw [List.filter_map, List.map_eq_nil_iff]
    exact List.filter_eq_nil_iff.2 fun _ _ => Bool.false_ne_true
  rw [Rotation.ofSteps, hnone, List.map_map]
  exact congrArg (Rotation.mk · []) (List.map_id _)

/-- Credentials of which none is due and none shows a secret are kept as they are. -/
theorem rotate_of_settled (hplan : rotationPlan c rotationDays renewWithinDays = .ok (period, windowEnd))
    (hs : ∀ d ∈ credentials, ¬ d.IsDue windowEnd.instant ∧ d.HidesSecret) :
    rotate credentials c rotationDays renewWithinDays = .ok ⟨credentials, []⟩ := by
  refine rotate_eq_ok_iff.2 ⟨period, windowEnd, hplan, credentials.map fun d => (d, false), ?_, ofSteps_kept _⟩
  refine mapM_eq_ok_iff_forall₂.2 (List.forall₂_map_right_iff.2 (List.forall₂_same.2 fun d hd => ?_))
  rw [step_of_not_due (hs d hd).1, Credential.masked_of_hidesSecret (hs d hd).2]

/-- A credential that is due becomes the one that it is renewed to. -/
theorem exists_renewed (hplan : rotationPlan c rotationDays renewWithinDays = .ok (period, windowEnd))
    (h : rotate credentials c rotationDays renewWithinDays = .ok r) {i : Nat} {before : Credential}
    (hi : credentials[i]? = some before) (hdue : before.IsDue windowEnd.instant) :
    ∃ after, r.credentials[i]? = some after ∧ Rotation.renew c.now period before = .ok after := by
  obtain ⟨steps, hsteps, rfl⟩ := exists_steps hplan h
  obtain ⟨⟨after, renewed⟩, hstep, hs⟩ := exists_getElem?_of_forall₂ (mapM_eq_ok_iff_forall₂.1 hsteps) hi
  refine ⟨after, ?_, (renew_of_step hdue hs).1⟩
  rw [Rotation.ofSteps, List.getElem?_map, hstep, Option.map_some]

end Settled

section Rotated

variable {limit : Int} {before : List Credential} {r : Rotation} {i : Nat}

/-- A rotation renews at the positions of the credentials that are due. -/
theorem renews_iff (hr : r.IsOf limit before) :
    r.Renews before i ↔ ∃ c, before[i]? = some c ∧ c.IsDue limit := by
  constructor
  · rintro ⟨c, d, hc, hd, hlater⟩
    obtain ⟨d', hd', hcd⟩ := exists_getElem?_of_forall₂ hr.credentials hc
    obtain rfl := Option.some.inj (hd.symm.trans hd')
    exact ⟨c, hc, hcd.later_iff.1 hlater⟩
  · rintro ⟨c, hc, hdue⟩
    obtain ⟨d, hd, hcd⟩ := exists_getElem?_of_forall₂ hr.credentials hc
    exact ⟨c, d, hc, hd, hcd.later_iff.2 hdue⟩

/-- The keys that are reported are those of the credentials that were renewed. -/
theorem rotated_eq_renewedKeys (hr : r.IsOf limit before) : r.rotated = r.renewedKeys before := by
  rw [hr.rotated, Rotation.renewedKeys]
  have hafter := hr.credentials
  clear hr
  generalize r.credentials = after at hafter ⊢
  induction hafter with
  | nil => rfl
  | @cons c d before after hcd _ ih =>
    have hdecide : decide (c.endDate.instant < d.endDate.instant) = decide (c.IsDue limit) :=
      decide_eq_decide.2 hcd.later_iff
    rw [List.zip_cons_cons, List.filter_cons, List.filter_cons, hdecide]
    split
    · rw [List.map_cons, List.map_cons, ih]
    · exact ih

end Rotated

namespace RotationCall

variable {call call' : RotationCall} {credentials : List Credential} {r r' : Rotation} {period window window' : Int}

/-- A call that succeeds has a plan with its period, and a window that ends at its limit. -/
theorem exists_plan (hd : call.HasDays period window) (h : call.run credentials = .ok r) :
    ∃ windowEnd, rotationPlan call.context call.rotationDays call.renewWithinDays = .ok (period, windowEnd) ∧
      windowEnd.instant = call.limit window := by
  obtain ⟨period', windowEnd, hplan, -⟩ := rotate_eq_ok_iff.1 h
  obtain rfl := Except.ok.inj (hd.period.symm.trans (check_of_plan hplan))
  exact ⟨windowEnd, hplan, (window_of_plan hd.window hplan).2.2⟩

theorem isOf_of_run (hd : call.HasDays period window) (h : call.run credentials = .ok r) :
    r.IsOf (call.limit window) credentials := rotation_isOf hd.window h

/-- A call that is repeated keeps the result of the first one. -/
theorem run_again (hd : call.HasDays period window) (h : call.run credentials = .ok r) :
    call.run r.credentials = .ok ⟨r.credentials, []⟩ := by
  obtain ⟨windowEnd, hplan, hlimit⟩ := exists_plan hd h
  refine rotate_of_settled hplan fun d hm => ⟨?_, hidesSecret_of_mem h hm⟩
  obtain ⟨i, hi, rfl⟩ := List.mem_iff_getElem.1 hm
  have hr := (isOf_of_run hd h).credentials
  have houtlasts := (hr.get (hr.length_eq ▸ hi) hi).outlasts
  rw [Credential.IsDue, hlimit]
  exact Int.not_le.2 houtlasts

/-- At one time and with one period, a credential that is renewed by both of two calls is renewed in the same way. -/
theorem getElem?_of_renews (hd : call.HasDays period window) (hd' : call'.HasDays period window')
    (h : call.run credentials = .ok r) (h' : call'.run credentials = .ok r')
    (hnow : call.context.now = call'.context.now) {i : Nat} (hi : r.Renews credentials i)
    (hi' : r'.Renews credentials i) : r.credentials[i]? = r'.credentials[i]? := by
  obtain ⟨windowEnd, hplan, hlimit⟩ := exists_plan hd h
  obtain ⟨windowEnd', hplan', hlimit'⟩ := exists_plan hd' h'
  obtain ⟨c, hc, hdue⟩ := (renews_iff (isOf_of_run hd h)).1 hi
  obtain ⟨c', hc', hdue'⟩ := (renews_iff (isOf_of_run hd' h')).1 hi'
  obtain rfl := Option.some.inj (hc.symm.trans hc')
  obtain ⟨d, hget, hrenew⟩ := exists_renewed hplan h hc (hlimit ▸ hdue)
  obtain ⟨d', hget', hrenew'⟩ := exists_renewed hplan' h' hc (hlimit' ▸ hdue')
  rw [hnow] at hrenew
  rw [hget, hget', Except.ok.inj (hrenew.symm.trans hrenew')]

/-- A rotation that is called for once more renews nothing. With a window that does not end earlier, a rotation renews
at every position where another one does, and at the same time with the same period to the same credentials. -/
theorem rotation_settles (hd : call.HasDays period window) (h : call.run credentials = .ok r) :
    r.rotated = r.renewedKeys credentials ∧ call.run r.credentials = .ok ⟨r.credentials, []⟩ ∧
      ∀ (call' : RotationCall) (window' : Int) (r' : Rotation), call'.HasDays period window' →
        call'.run credentials = .ok r' → call.limit window ≤ call'.limit window' →
          ∀ i, r.Renews credentials i → r'.Renews credentials i ∧
            (call.context.now = call'.context.now → r.credentials[i]? = r'.credentials[i]?) := by
  refine ⟨rotated_eq_renewedKeys (isOf_of_run hd h), run_again hd h, ?_⟩
  intro call' window' r' hd' h' hlimit i hi
  obtain ⟨c, hc, hdue⟩ := (renews_iff (isOf_of_run hd h)).1 hi
  have hi' : r'.Renews credentials i :=
    (renews_iff (isOf_of_run hd' h')).2 ⟨c, hc, Int.le_trans hdue hlimit⟩
  exact ⟨hi', fun hnow => getElem?_of_renews hd hd' h h' hnow hi hi'⟩

/-- A call at the first instant with a window of so many days. -/
def earliestCall (window : Int) : RotationCall :=
  ⟨⟨none, none, none, .earliest, 90, 30⟩, none, some (.int window)⟩

theorem rotation_settles_earliest :
    let credentials := [credentialUntil "web" 10 (by decide), credentialUntil "api" 60 (by decide)]
    ∃ r r', (earliestCall 30).run credentials = .ok r ∧ (earliestCall 60).run credentials = .ok r' ∧
      r.rotated = ["credential-web"] ∧ r'.rotated = ["credential-web", "credential-api"] ∧
      (earliestCall 30).run r.credentials = .ok ⟨r.credentials, []⟩ ∧
      ∀ i, r.Renews credentials i → r'.Renews credentials i ∧ r.credentials[i]? = r'.credentials[i]? := by
  intro credentials
  have hdays : ∀ window, (earliestCall window).HasDays 90 window := fun _ => ⟨rfl, rfl⟩
  have hnarrow : ((earliestCall 30).run credentials).toOption.map (·.rotated) = some ["credential-web"] := by
    decide +kernel
  have hwide : ((earliestCall 60).run credentials).toOption.map (·.rotated) =
      some ["credential-web", "credential-api"] := by
    decide +kernel
  cases h : (earliestCall 30).run credentials with
  | error f =>
    rw [h] at hnarrow
    cases hnarrow
  | ok r =>
    cases h' : (earliestCall 60).run credentials with
    | error f =>
      rw [h'] at hwide
      cases hwide
    | ok r' =>
      rw [h] at hnarrow
      rw [h'] at hwide
      obtain ⟨-, hagain, hgrows⟩ := rotation_settles (hdays 30) h
      refine ⟨r, r', rfl, rfl, Option.some.inj hnarrow, Option.some.inj hwide, hagain, fun i hi => ?_⟩
      obtain ⟨hi', hsame⟩ := hgrows (earliestCall 60) 60 r' (hdays 60) h' (by decide) i hi
      exact ⟨hi', hsame rfl⟩

end RotationCall

end AccessPlan
