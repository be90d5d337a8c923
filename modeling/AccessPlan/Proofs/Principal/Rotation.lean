import AccessPlan.Principal.Rotation
import AccessPlan.Proofs.Principal.Issuing
import Mathlib.Data.List.Forall2

/-!
# Runs of rotations

A rotation first settles its period and the end of its window (`rotationPlan`) and then takes the credentials one
after another (`rotate_eq`). A credential is due if it ends at the end of the window or before.

* `isRotatedTo_of_step` is what one step makes of one credential: one that is due ends later, behind the window,
  under the id of its new end date, and any other is kept. That a renewed credential ends later rests on the window
  being shorter than the period.
* `rotated_of_steps`, `rotation_isOf` lift this to the list of credentials: the keys that are reported are those of the
  credentials that were due.
* `isRotatedInTurn` lifts it to runs: rotations one after another, with clocks that may go back and with requests
  that fail in between.
-/

namespace AccessPlan

open Calendar (Timestamp Amount dayLength)

/-! ## What becomes of a credential -/

namespace Credential

/-- The credential ends at a limit or before. -/
def IsDue (limit : Int) (c : Credential) : Prop := c.endDate.instant ≤ limit

instance {limit : Int} : DecidablePred (IsDue limit) := fun c => inferInstanceAs (Decidable (c.endDate.instant ≤ limit))

/-- The same credential at a later stage of a run. It does not end earlier. -/
structure Persists (c d : Credential) : Prop where
  key : d.key = c.key
  applicationId : d.applicationId = c.applicationId
  sensitive : d.sensitive = c.sensitive
  endDate : c.endDate.instant ≤ d.endDate.instant

/-- What a rotation whose window ends at a limit makes of a credential. -/
structure IsRotatedTo (limit : Int) (c d : Credential) : Prop extends Persists c d where
  outlasts : limit < d.endDate.instant
  later_iff : c.endDate.instant < d.endDate.instant ↔ c.IsDue limit
  kept : ¬ c.IsDue limit → d.endDate = c.endDate ∧ d.keyId = c.keyId
  renewed : c.IsDue limit → idOf d.applicationId d.endDate = .ok d.keyId

theorem Persists.refl (c : Credential) : Persists c c := ⟨rfl, rfl, rfl, Int.le_refl _⟩

theorem Persists.trans {c d e : Credential} (hcd : Persists c d) (hde : Persists d e) : Persists c e where
  key := hde.key.trans hcd.key
  applicationId := hde.applicationId.trans hcd.applicationId
  sensitive := hde.sensitive.trans hcd.sensitive
  endDate := Int.le_trans hcd.endDate hde.endDate

end Credential

/-- What a rotation whose window ends at a limit makes of the credentials before it. -/
structure Rotation.IsOf (limit : Int) (before : List Credential) (r : Rotation) : Prop where
  credentials : List.Forall₂ (Credential.IsRotatedTo limit) before r.credentials
  rotated : r.rotated = (before.filter fun c => decide (c.IsDue limit)).map (·.key)

/-! ## One rotation -/

section Plan

variable {c : Context} {rotationDays renewWithinDays : Option Json} {credentials : List Credential} {r : Rotation}
  {period : Int} {windowEnd : Timestamp}

/-- The period of a rotation and the end of its window. -/
def rotationPlan (c : Context) (rotationDays renewWithinDays : Option Json) : Except Failure (Int × Timestamp) := do
  let period ← (checkRotationDays "rotation_days" (rotationDays.getD (.int c.rotationDays))).mapError .config
  let window ← Rotation.checkWindow period (renewWithinDays.getD (.int c.renewWithinDays))
  let span ← (window.micros dayLength).mapError .outOfRange
  let windowEnd ← (c.now.later span).mapError .outOfRange
  return (period, windowEnd)

/-- A rotation is a run of steps over the credentials, once its plan is settled. -/
theorem rotate_eq : rotate credentials c rotationDays renewWithinDays = do
    let plan ← rotationPlan c rotationDays renewWithinDays
    return Rotation.ofSteps (← credentials.mapM (Rotation.step c.now plan.2 plan.1)) := by
  simp only [rotate, rotationPlan, bind_assoc, pure_bind]

theorem rotate_eq_ok_iff : rotate credentials c rotationDays renewWithinDays = .ok r ↔
    ∃ period windowEnd, rotationPlan c rotationDays renewWithinDays = .ok (period, windowEnd) ∧
      ∃ steps, credentials.mapM (Rotation.step c.now windowEnd period) = .ok steps ∧ Rotation.ofSteps steps = r := by
  rw [rotate_eq, bind_eq_ok]
  constructor
  · rintro ⟨⟨period, windowEnd⟩, hp, h⟩
    obtain ⟨steps, hs, hr⟩ := bind_eq_ok.1 h
    exact ⟨period, windowEnd, hp, steps, hs, Except.ok.inj hr⟩
  · rintro ⟨period, windowEnd, hp, steps, hs, hr⟩
    exact ⟨(period, windowEnd), hp, bind_eq_ok.2 ⟨steps, hs, congrArg Except.ok hr⟩⟩

theorem exists_steps (hplan : rotationPlan c rotationDays renewWithinDays = .ok (period, windowEnd))
    (h : rotate credentials c rotationDays renewWithinDays = .ok r) :
    ∃ steps, credentials.mapM (Rotation.step c.now windowEnd period) = .ok steps ∧ Rotation.ofSteps steps = r := by
  obtain ⟨period', windowEnd', hplan', hsteps⟩ := rotate_eq_ok_iff.1 h
  rw [hplan] at hplan'
  obtain ⟨rfl, rfl⟩ := Prod.mk.inj (Except.ok.inj hplan')
  exact hsteps

/-- The period that was checked is in its range. -/
theorem period_of_check {field : FieldName} {value : Json} (h : checkRotationDays field value = .ok period) :
    leastRotationDays ≤ period ∧ period ≤ greatestRotationDays := by
  unfold checkRotationDays at h
  dsimp only at h
  split at h
  · split at h
    · rename_i hr
      obtain rfl := Except.ok.inj h
      exact hr
    · cases h
  · cases h

/-- A window of whole days that was checked is shorter than the period. -/
theorem window_of_check {value : Json} {window : Int} (hv : Amount.ofJson? value = some (.whole window))
    {amount : Amount} (h : Rotation.checkWindow period value = .ok amount) :
    amount = .whole window ∧ 0 ≤ window ∧ window < period := by
  simp only [Rotation.checkWindow, hv, Amount.value?] at h
  split at h
  · rename_i hr
    exact ⟨(Except.ok.inj h).symm, Rat.intCast_nonneg.1 hr.1, Rat.intCast_lt_intCast.1 hr.2⟩
  · cases h

/-- The span of whole days, if it is not too long. -/
theorem micros_whole {days span : Int} (h : (Amount.whole days).micros dayLength = .ok span) :
    span = days * dayLength := by
  unfold Amount.micros at h
  rw [Amount.exactMicros?_whole] at h
  dsimp only at h
  split at h
  · exact (Except.ok.inj h).symm
  · cases h

/-- The period of a plan was checked. -/
theorem check_of_plan (h : rotationPlan c rotationDays renewWithinDays = .ok (period, windowEnd)) :
    checkRotationDays "rotation_days" (rotationDays.getD (.int c.rotationDays)) = .ok period := by
  obtain ⟨checked, hc, h⟩ := bind_eq_ok.1 h
  obtain ⟨amount, -, h⟩ := bind_eq_ok.1 h
  obtain ⟨span, -, h⟩ := bind_eq_ok.1 h
  obtain ⟨later, -, h⟩ := bind_eq_ok.1 h
  obtain ⟨rfl, -⟩ := Prod.mk.inj (Except.ok.inj h)
  exact mapError_eq_ok.1 hc

/-- The window of a plan whose window is a whole number of days. -/
theorem window_of_plan {window : Int}
    (hv : Amount.ofJson? (renewWithinDays.getD (.int c.renewWithinDays)) = some (.whole window))
    (h : rotationPlan c rotationDays renewWithinDays = .ok (period, windowEnd)) :
    (leastRotationDays ≤ period ∧ period ≤ greatestRotationDays) ∧ window < period ∧
      windowEnd.instant = c.now.instant + window * dayLength := by
  obtain ⟨period', hp, h⟩ := bind_eq_ok.1 h
  obtain ⟨amount, ha, h⟩ := bind_eq_ok.1 h
  obtain ⟨span, hs, h⟩ := bind_eq_ok.1 h
  obtain ⟨later, hl, h⟩ := bind_eq_ok.1 h
  obtain ⟨rfl, rfl⟩ := Prod.mk.inj (Except.ok.inj h)
  obtain ⟨rfl, -, hw⟩ := window_of_check hv ha
  obtain rfl := micros_whole (mapError_eq_ok.1 hs)
  exact ⟨period_of_check (mapError_eq_ok.1 hp), hw, Timestamp.instant_later (mapError_eq_ok.1 hl)⟩

/-- A plan was made for a number of days. -/
theorem exists_amount_of_plan (h : rotationPlan c rotationDays renewWithinDays = .ok (period, windowEnd)) :
    ∃ amount, Amount.ofJson? (renewWithinDays.getD (.int c.renewWithinDays)) = some amount := by
  obtain ⟨period', -, h⟩ := bind_eq_ok.1 h
  obtain ⟨amount, ha, -⟩ := bind_eq_ok.1 h
  unfold Rotation.checkWindow at ha
  split at ha
  · cases ha
  · rename_i a hv
    exact ⟨a, hv⟩

end Plan

section Step

variable {now windowEnd : Timestamp} {period : Int} {c d : Credential} {renewed : Bool}

theorem renew_eq_ok_iff (h : leastRotationDays ≤ period ∧ period ≤ greatestRotationDays) :
    Rotation.renew now period c = .ok d ↔ ∃ endDate keyId, now.later (period * dayLength) = .ok endDate ∧
      Credential.idOf c.applicationId endDate = .ok keyId ∧ { c with endDate, keyId, secret := none } = d := by
  rw [Rotation.renew, endAfter_whole h, bind_eq_ok]
  simp only [mapError_eq_ok, bind_eq_ok, pure, Except.pure, Except.ok.injEq, exists_and_left]

theorem step_of_due (h : c.IsDue windowEnd.instant) :
    Rotation.step now windowEnd period c = (Rotation.renew now period c).map fun d => (d, true) := by
  rw [Rotation.step, if_neg (Int.not_lt.2 h)]
  cases Rotation.renew now period c <;> rfl

theorem step_of_not_due (h : ¬ c.IsDue windowEnd.instant) :
    Rotation.step now windowEnd period c = .ok (c.masked, false) := by
  rw [Rotation.step, if_pos (Int.not_le.1 h)]
  rfl

/-- What a step gives for a credential that is due is the renewed credential. -/
theorem renew_of_step (hdue : c.IsDue windowEnd.instant)
    (h : Rotation.step now windowEnd period c = .ok (d, renewed)) :
    Rotation.renew now period c = .ok d ∧ renewed = true := by
  rw [step_of_due hdue] at h
  obtain ⟨e, he, hd⟩ := except_map_eq_ok.1 h
  obtain ⟨rfl, rfl⟩ := Prod.mk.inj hd
  exact ⟨he, rfl⟩

theorem masked_of_step (hdue : ¬ c.IsDue windowEnd.instant)
    (h : Rotation.step now windowEnd period c = .ok (d, renewed)) : d = c.masked ∧ renewed = false := by
  rw [step_of_not_due hdue] at h
  obtain ⟨rfl, rfl⟩ := Prod.mk.inj (Except.ok.inj h)
  exact ⟨rfl, rfl⟩

/-- A step keeps the key, and it says whether the credential was due. -/
theorem key_of_step (h : Rotation.step now windowEnd period c = .ok (d, renewed)) :
    d.key = c.key ∧ renewed = decide (c.IsDue windowEnd.instant) := by
  by_cases hdue : c.IsDue windowEnd.instant
  · obtain ⟨hd, rfl⟩ := renew_of_step hdue h
    obtain ⟨endDate, -, hd⟩ := bind_eq_ok.1 hd
    obtain ⟨keyId, -, hd⟩ := bind_eq_ok.1 hd
    obtain rfl := Except.ok.inj hd
    exact ⟨rfl, (decide_eq_true hdue).symm⟩
  · obtain ⟨rfl, rfl⟩ := masked_of_step hdue h
    exact ⟨rfl, (decide_eq_false hdue).symm⟩

/-- The keys that steps report are those of the credentials that were due. -/
theorem rotated_of_steps {credentials : List Credential} {steps : List (Credential × Bool)}
    (h : credentials.mapM (Rotation.step now windowEnd period) = .ok steps) :
    (Rotation.ofSteps steps).rotated =
      (credentials.filter fun c => decide (c.IsDue windowEnd.instant)).map (·.key) := by
  refine (map_filter_eq_of_forall₂ (mapM_eq_ok_iff_forall₂.1 h) (fun c s hs => ?_) fun c s hs => ?_).symm
  · exact (key_of_step hs).2.symm
  · exact (key_of_step hs).1.symm

/-- What one step makes of one credential. -/
theorem isRotatedTo_of_step {window : Int} (hp : leastRotationDays ≤ period ∧ period ≤ greatestRotationDays)
    (hw : window < period) (he : windowEnd.instant = now.instant + window * dayLength)
    (h : Rotation.step now windowEnd period c = .ok (d, renewed)) : c.IsRotatedTo windowEnd.instant d := by
  by_cases hdue : c.IsDue windowEnd.instant
  · obtain ⟨endDate, keyId, hl, hid, rfl⟩ := (renew_eq_ok_iff hp).1 (renew_of_step hdue h).1
    have hend : endDate.instant = now.instant + period * dayLength := Timestamp.instant_later hl
    -- the new end lies behind the window, as the window is shorter than the period
    have hlater : windowEnd.instant < endDate.instant := by
      rw [he, hend, dayLength]
      omega
    have hlate : c.endDate.instant < endDate.instant := Int.lt_of_le_of_lt hdue hlater
    exact {
      key := rfl
      applicationId := rfl
      sensitive := rfl
      endDate := Int.le_of_lt hlate
      outlasts := hlater
      later_iff := iff_of_true hlate hdue
      kept := fun hn => absurd hdue hn
      renewed := fun _ => hid }
  · obtain ⟨rfl, -⟩ := masked_of_step hdue h
    exact {
      key := rfl
      applicationId := rfl
      sensitive := rfl
      endDate := Int.le_refl _
      outlasts := Int.not_le.1 hdue
      later_iff := iff_of_false (Int.lt_irrefl _) hdue
      kept := fun _ => ⟨rfl, rfl⟩
      renewed := fun hd => absurd hd hdue }

end Step

/-- A rotation reports the keys of the credentials that were due. -/
theorem rotated_of_plan {c : Context} {rotationDays renewWithinDays : Option Json} {credentials : List Credential}
    {r : Rotation} {period : Int} {windowEnd : Timestamp}
    (hplan : rotationPlan c rotationDays renewWithinDays = .ok (period, windowEnd))
    (h : rotate credentials c rotationDays renewWithinDays = .ok r) :
    r.rotated = (credentials.filter fun c => decide (c.IsDue windowEnd.instant)).map (·.key) := by
  obtain ⟨steps, hsteps, rfl⟩ := exists_steps hplan h
  exact rotated_of_steps hsteps

/-- What a rotation makes of credentials, if its window is a whole number of days. -/
theorem rotation_isOf {c : Context} {rotationDays renewWithinDays : Option Json} {credentials : List Credential}
    {r : Rotation} {window : Int}
    (hv : Amount.ofJson? (renewWithinDays.getD (.int c.renewWithinDays)) = some (.whole window))
    (h : rotate credentials c rotationDays renewWithinDays = .ok r) :
    r.IsOf (c.now.instant + window * dayLength) credentials := by
  obtain ⟨period, windowEnd, hplan, steps, hsteps, rfl⟩ := rotate_eq_ok_iff.1 h
  obtain ⟨hp, hw, he⟩ := window_of_plan hv hplan
  rw [← he]
  refine ⟨?_, rotated_of_steps hsteps⟩
  apply List.forall₂_map_right_iff.2
  exact (mapM_eq_ok_iff_forall₂.1 hsteps).imp fun before step hs => isRotatedTo_of_step hp hw he hs

/-! ## Runs -/

section Runs

variable {clock : Timestamp}

/-- A window, if one is given, is no number with a fraction. -/
def RotationRequest.HasWholeWindow (r : RotationRequest) : Prop := ∀ x, r.renewWithinDays ≠ some (.float x)

/-- The credentials after answers in turn: those of the last rotation, or the first ones if there was none. -/
def credentialsAfter (initial : List Credential) : List (Except Failure Rotation) → List Credential
  | [] => initial
  | .ok rotation :: answers => credentialsAfter rotation.credentials answers
  | .error _ :: answers => credentialsAfter initial answers

/-- What an answer to a request says of the credentials before it and of the first ones of the run. -/
structure Rotation.IsAnswer (clock : Timestamp) (request : RotationRequest) (initial before : List Credential)
    (r : Rotation) : Prop where
  isOf : ∃ c window, Context.ofJson clock request.context = .ok c ∧
    Amount.ofJson? (request.renewWithinDays.getD (.int c.renewWithinDays)) = some (.whole window) ∧
    r.IsOf (c.now.instant + window * dayLength) before
  persists : List.Forall₂ Credential.Persists initial r.credentials

/-- The answers to requests in turn: there is one for each request, it is the one to the credentials that the answers
before it left, and if it is a rotation, it is one of these credentials. -/
structure IsRotatedInTurn (clock : Timestamp) (initial : List Credential) (requests : List RotationRequest)
    (answers : List (Except Failure Rotation)) : Prop where
  length_eq : answers.length = requests.length
  answer_eq : ∀ before request after, requests = before ++ request :: after →
    answers[before.length]? = some (request.answer clock (credentialsAfter initial (answers.take before.length)))
  isAnswer : ∀ before request after rotation, requests = before ++ request :: after →
    answers[before.length]? = some (.ok rotation) →
      rotation.IsAnswer clock request initial (credentialsAfter initial (answers.take before.length))

/-- A rotation that answers a request is one of the credentials that it was asked for. -/
theorem isOf_of_answer {request : RotationRequest} {credentials : List Credential} {r : Rotation}
    (hw : request.HasWholeWindow) (h : request.answer clock credentials = .ok r) :
    ∃ c window, Context.ofJson clock request.context = .ok c ∧
      Amount.ofJson? (request.renewWithinDays.getD (.int c.renewWithinDays)) = some (.whole window) ∧
      r.IsOf (c.now.instant + window * dayLength) credentials := by
  obtain ⟨c, hc, hr⟩ := bind_eq_ok.1 h
  obtain ⟨period, windowEnd, hplan, -⟩ := rotate_eq_ok_iff.1 hr
  obtain ⟨amount, hamount⟩ := exists_amount_of_plan hplan
  obtain ⟨window, hwindow⟩ : ∃ window, amount = .whole window := by
    cases hd : request.renewWithinDays with
    | none =>
      rw [hd] at hamount
      exact ⟨c.renewWithinDays, (Option.some.inj hamount).symm⟩
    | some days =>
      rw [hd, Option.getD_some] at hamount
      cases days with
      | float x => exact absurd hd (hw x)
      | bool b => exact ⟨_, (Option.some.inj hamount).symm⟩
      | int n => exact ⟨n, (Option.some.inj hamount).symm⟩
      | null | str s | arr js | obj fs => cases hamount
  subst hwindow
  exact ⟨c, window, hc, hamount, rotation_isOf hamount hr⟩

/-- The credentials persist through one rotation more. -/
theorem persists_of_isOf {limit : Int} {initial before : List Credential} {r : Rotation}
    (h : List.Forall₂ Credential.Persists initial before) (hr : r.IsOf limit before) :
    List.Forall₂ Credential.Persists initial r.credentials := by
  have hafter := hr.credentials
  clear hr
  generalize r.credentials = after at hafter ⊢
  induction h generalizing after with
  | nil =>
    rw [List.forall₂_nil_left_iff.1 hafter]
    exact .nil
  | cons hc _ ih =>
    obtain ⟨d, rest, hd, hrest, rfl⟩ := List.forall₂_cons_left_iff.1 hafter
    exact .cons (hc.trans hd.toPersists) (ih rest hrest)

theorem length_rotateInTurn (initial : List Credential) (requests : List RotationRequest) :
    (rotateInTurn clock initial requests).length = requests.length := by
  induction requests generalizing initial with
  | nil => rfl
  | cons request requests ih =>
    rw [rotateInTurn]
    cases request.answer clock initial with
    | ok rotation => exact congrArg (· + 1) (ih rotation.credentials)
    | error f => exact congrArg (· + 1) (ih initial)

/-- Requests that come later are answered for the credentials that the answers before them left. -/
theorem rotateInTurn_append (initial : List Credential) (before after : List RotationRequest) :
    rotateInTurn clock initial (before ++ after) = rotateInTurn clock initial before ++
      rotateInTurn clock (credentialsAfter initial (rotateInTurn clock initial before)) after := by
  induction before generalizing initial with
  | nil => rfl
  | cons request before ih =>
    rw [List.cons_append, rotateInTurn, rotateInTurn]
    cases request.answer clock initial with
    | ok rotation => exact congrArg (Except.ok rotation :: ·) (ih rotation.credentials)
    | error f => exact congrArg (Except.error f :: ·) (ih initial)

/-- The credentials persist through a run. -/
theorem persists_rotateInTurn (initial : List Credential) (requests : List RotationRequest)
    (hw : ∀ r ∈ requests, r.HasWholeWindow) :
    List.Forall₂ Credential.Persists initial (credentialsAfter initial (rotateInTurn clock initial requests)) := by
  -- the first credentials stay fixed while those of the last rotation move on
  suffices h : ∀ current, List.Forall₂ Credential.Persists initial current →
      List.Forall₂ Credential.Persists initial (credentialsAfter current (rotateInTurn clock current requests)) from
    h initial (List.forall₂_same.2 fun c _ => .refl c)
  induction requests with
  | nil =>
    intro current h
    exact h
  | cons request requests ih =>
    intro current h
    obtain ⟨hrequest, hrequests⟩ := List.forall_mem_cons.1 hw
    rw [rotateInTurn]
    cases ha : request.answer clock current with
    | error f => exact ih hrequests current h
    | ok rotation =>
      obtain ⟨c, window, -, -, hr⟩ := isOf_of_answer hrequest ha
      exact ih hrequests rotation.credentials (persists_of_isOf h hr)

/-- The answer at a position is that to the request there. -/
theorem rotateInTurn_getElem? (initial : List Credential) (before : List RotationRequest) (request : RotationRequest)
    (after : List RotationRequest) :
    (rotateInTurn clock initial (before ++ request :: after))[before.length]? =
      some (request.answer clock (credentialsAfter initial (rotateInTurn clock initial before))) := by
  rw [rotateInTurn_append, List.getElem?_append_right (Nat.le_of_eq (length_rotateInTurn initial before)),
    length_rotateInTurn, Nat.sub_self, rotateInTurn]
  cases request.answer clock (credentialsAfter initial (rotateInTurn clock initial before)) <;> rfl

theorem take_rotateInTurn (initial : List Credential) (before after : List RotationRequest) :
    (rotateInTurn clock initial (before ++ after)).take before.length = rotateInTurn clock initial before := by
  have hlength : (rotateInTurn clock initial before).length = before.length := length_rotateInTurn initial before
  rw [rotateInTurn_append, ← hlength, List.take_left]

/-- Rotations in turn keep every credential, end it later exactly where it was due, and report just these. -/
theorem isRotatedInTurn (clock : Timestamp) (initial : List Credential) (requests : List RotationRequest)
    (hw : ∀ r ∈ requests, r.HasWholeWindow) :
    IsRotatedInTurn clock initial requests (rotateInTurn clock initial requests) where
  length_eq := length_rotateInTurn initial requests
  answer_eq := by
    rintro before request after rfl
    rw [take_rotateInTurn, rotateInTurn_getElem?]
  isAnswer := by
    rintro before request after rotation rfl ha
    rw [rotateInTurn_getElem?] at ha
    rw [take_rotateInTurn]
    obtain ⟨hbefore, hrest⟩ := List.forall_mem_append.1 hw
    obtain ⟨hrequest, -⟩ := List.forall_mem_cons.1 hrest
    obtain ⟨c, window, hc, hwindow, hr⟩ := isOf_of_answer hrequest (Option.some.inj ha)
    exact ⟨⟨c, window, hc, hwindow, hr⟩, persists_of_isOf (persists_rotateInTurn initial before hbefore) hr⟩

theorem clock_lt_of_day_lt {day : Nat} (h : day < 365) : day * dayLength < Calendar.clockLimit := by
  simp only [Calendar.clockLimit, Calendar.dayLimit, dayLength]
  omega

/-- A credential that ends so many days after the first instant. -/
def credentialUntil (name : String) (day : Nat) (h : day < 365) : Credential where
  key := "credential-" ++ name
  applicationId := "application-" ++ name
  keyId := ""
  endDate := ⟨day * dayLength, some 0, clock_lt_of_day_lt h, Timestamp.earliest.offset_lt⟩
  secret := some (.str "hidden")
  sensitive := true

/-- Requests of which the second one fails and the last one has the clock of the first one again. -/
def renewalRequests : List RotationRequest := [
  ⟨.obj [("now", .str "0001-01-01T00:00:00Z")], none, none⟩,
  ⟨.obj [("now", .str "0001-01-15T00:00:00Z")], none, some (.int 90)⟩,
  ⟨.obj [("now", .str "0001-02-01T05:30:00+05:30")], none, some (.int 60)⟩,
  ⟨.obj [("now", .str "0001-01-01T00:00:00")], some (.int 2), some (.int 1)⟩]

theorem isRotatedInTurn_renewalRequests :
    let initial := [credentialUntil "web" 10 (by decide), credentialUntil "api" 100 (by decide)]
    let answers := rotateInTurn .earliest initial renewalRequests
    (∀ r ∈ renewalRequests, r.HasWholeWindow) ∧ IsRotatedInTurn .earliest initial renewalRequests answers ∧
      answers.map (fun a => a.toOption.map (·.rotated)) =
        [some ["credential-web"], none, some ["credential-web"], some []] := by
  have hwhole : ∀ r ∈ renewalRequests, r.HasWholeWindow := by
    simp [renewalRequests, RotationRequest.HasWholeWindow]
  exact ⟨hwhole, isRotatedInTurn .earliest _ _ hwhole, by decide +kernel⟩

end Runs

end AccessPlan
