import AccessPlan.Principal.Expansion
import AccessPlan.Proofs.Assignment.Granting
import AccessPlan.Proofs.Text.Whole

/-!
# Issuing service principals

A service principal is expanded exactly if its credential may be valid for so many days, ends inside of the
calendar and has an id, and all its grants have a role that can be granted (`exists_ofDefinition_iff`). Its
assignments are those of its grants (`assignments_ofDefinition`).

If only the end of the credential or its id is missing, the expansion escapes (`escapes_ofDefinition_iff`).
-/

namespace AccessPlan

open Calendar (Timestamp dayLength clockLimit)

section Credentials

variable {now : Timestamp} {days : Int} {name : String}

/-- The credential of a principal of the name that is valid for so many days: it ends inside of the calendar,
and the name can be encoded for its id. -/
structure CanIssue (now : Timestamp) (days : Int) (name : String) : Prop where
  ends : now.clock + days * dayLength < clockLimit
  isWhole : Text.isWhole name = true

instance : Decidable (CanIssue now days name) :=
  decidable_of_iff (now.clock + days * dayLength < clockLimit ∧ Text.isWhole name = true)
    ⟨fun h => ⟨h.1, h.2⟩, fun h => ⟨h.1, h.2⟩⟩

/-- Days in the range of validities are no span that is too long. -/
theorem endAfter_whole (h : leastRotationDays ≤ days ∧ days ≤ greatestRotationDays) :
    Credential.endAfter now (.whole days) = now.later (days * dayLength) := by
  obtain ⟨hl, hg⟩ := h
  rw [leastRotationDays] at hl
  rw [greatestRotationDays] at hg
  have hs : days * (24 : Nat) * (Calendar.hourLength : Nat) = days * dayLength := by
    simp only [Calendar.hourLength, dayLength]
    omega
  have hd : (days * dayLength / (dayLength : Nat)).natAbs ≤ Calendar.Amount.greatestDays := by
    rw [Int.mul_ediv_cancel _ (by decide), Calendar.Amount.greatestDays]
    omega
  have hm : (Calendar.Amount.whole (days * (24 : Nat))).micros Calendar.hourLength = .ok (days * dayLength) := by
    simp only [Calendar.Amount.micros, Calendar.Amount.exactMicros?_whole, hs, if_pos hd]
  simp only [Credential.endAfter, Calendar.Amount.inUnits, hm]
  rfl

/-- No validity ends before the calendar begins. -/
theorem exists_later_days_iff (h : leastRotationDays ≤ days) :
    (∃ t, now.later (days * dayLength) = .ok t) ↔ now.clock + days * dayLength < clockLimit := by
  have hl : 0 ≤ now.clock + days * (dayLength : Nat) := by
    rw [leastRotationDays] at h
    simp only [dayLength]
    omega
  rw [Timestamp.exists_later_iff, and_iff_right hl]

/-- The id of a credential exists exactly if the application can be encoded. -/
theorem exists_idOf_iff {key : String} {endDate : Timestamp} :
    (∃ id, Credential.idOf key endDate = .ok id) ↔ Text.isWhole key = true := by
  have hascii : Text.IsAscii (":" ++ endDate.isoText).toList := by
    rw [String.toList_append]
    exact .append (by decide) (Text.isAscii_isoText endDate)
  have hw : Text.isWhole (Credential.idSource key endDate) = Text.isWhole key := by
    have hbetween := Text.isWhole_between (s := "") (t := key) (by decide) hascii
    rwa [String.empty_append, ← String.append_assoc] at hbetween
  rw [← hw, ← Text.isOk_encodeUtf8, Credential.idOf]
  cases Text.encodeUtf8 (Credential.idSource key endDate) <;> simp [Except.isOk, Except.toBool]

/-- The key of an application can be encoded if the name can. -/
theorem isWhole_applicationKey : Text.isWhole ("application-" ++ name) = Text.isWhole name := by
  have hbetween := Text.isWhole_between (s := "application-") (t := name) (u := "") (by decide) (by decide)
  rwa [String.append_empty] at hbetween

/-- Which credential is issued. -/
theorem issue_eq_ok_iff {key : String} {amount : Calendar.Amount} {cr : Credential} :
    Credential.issue key name now amount = .ok cr ↔ ∃ endDate keyId, Credential.endAfter now amount = .ok endDate ∧
      Credential.idOf key endDate = .ok keyId ∧
      cr = ⟨"credential-" ++ name, key, keyId, Timestamp.asUtc endDate, none, true⟩ := by
  simp only [Credential.issue, bind_eq_ok, mapError_eq_ok, pure, Except.pure, Except.ok.injEq, exists_and_left,
    eq_comm (b := cr)]

theorem exists_issue_iff (h : leastRotationDays ≤ days ∧ days ≤ greatestRotationDays) :
    (∃ cr, Credential.issue ("application-" ++ name) name now (.whole days) = .ok cr) ↔ CanIssue now days name := by
  simp only [issue_eq_ok_iff, endAfter_whole h]
  constructor
  · rintro ⟨cr, t, id, ht, hid, -⟩
    exact ⟨(exists_later_days_iff h.1).1 ⟨t, ht⟩, isWhole_applicationKey ▸ exists_idOf_iff.1 ⟨id, hid⟩⟩
  · rintro ⟨he, hw⟩
    obtain ⟨t, ht⟩ := (exists_later_days_iff h.1).2 he
    obtain ⟨id, hid⟩ := exists_idOf_iff.2 (isWhole_applicationKey.trans hw)
    exact ⟨_, t, id, ht, hid, rfl⟩

/-- A credential that cannot be issued is no error of a policy. -/
theorem escapes_issue_iff {key : String} {amount : Calendar.Amount} :
    Escapes (Credential.issue key name now amount) ↔ ¬ ∃ cr, Credential.issue key name now amount = .ok cr := by
  constructor
  · rintro ⟨f, hf, -⟩ ⟨cr, hcr⟩
    rw [hcr] at hf
    cases hf
  · intro h
    cases hi : Credential.issue key name now amount with
    | ok cr => exact absurd ⟨cr, hi⟩ h
    | error f =>
      rw [escapes_error]
      rw [Credential.issue] at hi
      rcases bind_eq_error.1 hi with hi | ⟨t, -, hi⟩
      · obtain ⟨d, -, rfl⟩ := mapError_eq_error.1 hi
        exact id
      · rcases bind_eq_error.1 hi with hi | ⟨keyId, -, hi⟩
        · unfold Credential.idOf at hi
          split at hi
          · cases hi
          · cases hi
            exact id
        · cases hi

end Credentials

/-! ## Definitions -/

namespace PrincipalDefinition

/-- The days that a credential is valid are in their range. -/
def HasRotation (d : PrincipalDefinition) (c : Context) : Prop :=
  leastRotationDays ≤ PrincipalRecords.rotationDaysOf d c ∧ PrincipalRecords.rotationDaysOf d c ≤ greatestRotationDays

/-- What it takes for a definition to be expanded. -/
structure IsAccepted (d : PrincipalDefinition) (c : Context) (name : String) : Prop where
  rotation : d.HasRotation c
  issue : CanIssue c.now (PrincipalRecords.rotationDaysOf d c) name
  grants : ∀ g ∈ d.roles.entries, IsGrantable g.2.role

variable {d : PrincipalDefinition} {c : Context} {name : String}

instance : Decidable (d.HasRotation c) := inferInstanceAs (Decidable (_ ∧ _))

instance : Decidable (d.IsAccepted c name) :=
  decidable_of_iff (d.HasRotation c ∧ CanIssue c.now (PrincipalRecords.rotationDaysOf d c) name ∧
      ∀ g ∈ d.roles.entries, IsGrantable g.2.role)
    ⟨fun h => ⟨h.1, h.2.1, h.2.2⟩, fun h => ⟨h.1, h.2, h.3⟩⟩

/-- The grants of a definition. -/
def sources (d : PrincipalDefinition) (name : String) : List Source :=
  d.roles.entries.map fun g => .principal name g.1 g.2

end PrincipalDefinition

namespace PrincipalRecords

variable {d : PrincipalDefinition} {c : Context} {name : String} {owners : List String} {r : PrincipalRecords}
  {s : Place → Scope}

theorem checkRotationDays_int {f : FieldName} {n m : Int} : checkRotationDays f (.int n) = .ok m ↔
    (leastRotationDays ≤ n ∧ n ≤ greatestRotationDays) ∧ m = n := by
  show (if leastRotationDays ≤ n ∧ n ≤ greatestRotationDays then Except.ok n else _) = _ ↔ _
  by_cases h : leastRotationDays ≤ n ∧ n ≤ greatestRotationDays
  · rw [if_pos h, Except.ok.injEq, eq_comm]
    exact ⟨fun hm => ⟨h, hm⟩, fun hm => hm.2⟩
  · rw [if_neg h]
    exact ⟨nofun, fun hm => absurd hm.1 h⟩

/-- Where there are default owners, there are owners. -/
theorem exists_effectiveOwners (ho : owners ≠ []) :
    ∃ os, effectiveOwners d (.ofTexts owners) = .ok os ∧ os.isEmpty = false := by
  have hne : ∀ xs : List String, xs ≠ [] → (sortedUnique xs).isEmpty = false := fun xs hxs => by
    rw [List.isEmpty_eq_false_iff]
    exact fun h => hxs (sortedUnique_eq_nil_iff.1 h)
  unfold effectiveOwners
  cases he : d.owners.isEmpty with
  | true => exact ⟨sortedUnique owners, ownersOf_texts _ _, hne owners ho⟩
  | false => exact ⟨sortedUnique d.owners, rfl, hne d.owners (List.isEmpty_eq_false_iff.1 he)⟩

/-- The assignments of the grants. -/
theorem grants_eq_ok_iff {as : List Assignment} :
    (d.roles.entries.mapM fun g => grantOf name ("service-principal-" ++ name) g.1 g.2) = .ok as ↔
      (∀ g ∈ d.roles.entries, IsGrantable g.2.role) ∧ as = (d.sources name).map (·.assignment s) := by
  rw [PrincipalDefinition.sources, List.map_map]
  exact mapM_eq_ok_iff fun g _ a => grant_eq_ok_iff

/-- The records of a definition with its owners, its credential and its assignments. -/
def ofParts (d : PrincipalDefinition) (name : String) (owners : List String) (credential : Credential)
    (assignments : List Assignment) : PrincipalRecords where
  application := ⟨"application-" ++ name, name, d.displayName, d.description, owners, sortedUnique d.tags⟩
  principal := ⟨"service-principal-" ++ name, "application-" ++ name, owners, sortedUnique d.tags⟩
  credential := credential
  ownerEdges := owners.map fun owner => ⟨"service-principal-" ++ name, owner⟩
  assignments := assignments

/-- What is left to do once the days and the owners are known. -/
theorem ofDefinition_of_rotation {os : List String} (hr : d.HasRotation c)
    (hos : effectiveOwners d (.ofTexts owners) = .ok os) (hne : os.isEmpty = false) :
    ofDefinition c (.ofTexts owners) name d = (do
      let credential ← Credential.issue ("application-" ++ name) name c.now (.whole (rotationDaysOf d c))
      let assignments ← d.roles.entries.mapM fun g => grantOf name ("service-principal-" ++ name) g.1 g.2
      return ofParts d name os credential assignments) := by
  have hd := fun field : FieldName => (checkRotationDays_int (f := field)).2 ⟨hr, rfl⟩
  simp only [ofDefinition, hd, hos, mapError_ok, bind, Except.bind, hne, Bool.false_eq_true, if_false]
  rfl

/-- Days out of their range are refused before anything else is looked at. -/
theorem ofDefinition_of_not_rotation {json : Json} (hr : ¬ d.HasRotation c) :
    ofDefinition c json name d = .error (.config (.rotationOutOfRange
      (.ofText ("service_principals." ++ name ++ ".rotation_days")) (.int (rotationDaysOf d c)))) := by
  have hd : ∀ field : FieldName, checkRotationDays field (.int (rotationDaysOf d c)) =
      .error (.rotationOutOfRange field (.int (rotationDaysOf d c))) := fun field => if_neg hr
  simp only [ofDefinition, hd]
  rfl

theorem error_of_not_rotation {json : Json} (hr : ¬ d.HasRotation c) :
    ∃ cause, ofDefinition c json name d = .error (.config cause) := ⟨_, ofDefinition_of_not_rotation hr⟩

/-- When a definition can be expanded. -/
theorem exists_ofDefinition_iff (ho : owners ≠ []) :
    (∃ r, ofDefinition c (.ofTexts owners) name d = .ok r) ↔ d.IsAccepted c name := by
  by_cases hr : d.HasRotation c
  · obtain ⟨os, hos, hne⟩ := exists_effectiveOwners (d := d) ho
    simp only [ofDefinition_of_rotation hr hos hne, bind_eq_ok]
    constructor
    · rintro ⟨r, cr, hcr, as, has, -⟩
      exact ⟨hr, (exists_issue_iff hr).1 ⟨cr, hcr⟩, (grants_eq_ok_iff (s := fun _ => .tenant "")).1 has |>.1⟩
    · rintro ⟨-, hi, hg⟩
      obtain ⟨cr, hcr⟩ := (exists_issue_iff hr).2 hi
      exact ⟨_, cr, hcr, _, (grants_eq_ok_iff (s := fun _ => .tenant "")).2 ⟨hg, rfl⟩, rfl⟩
  · obtain ⟨cause, hc⟩ := error_of_not_rotation hr
    rw [hc]
    exact ⟨nofun, fun h => absurd h.rotation hr⟩

/-- The assignments of a definition are those of its grants. -/
theorem assignments_ofDefinition (s : Place → Scope) (ho : owners ≠ [])
    (h : ofDefinition c (.ofTexts owners) name d = .ok r) :
    r.assignments = (d.sources name).map (·.assignment s) := by
  have hr := ((exists_ofDefinition_iff ho).1 ⟨r, h⟩).rotation
  obtain ⟨os, hos, hne⟩ := exists_effectiveOwners (d := d) ho
  simp only [ofDefinition_of_rotation hr hos hne, bind_eq_ok] at h
  obtain ⟨cr, -, as, has, hp⟩ := h
  rw [← Except.ok.inj hp]
  exact (grants_eq_ok_iff.1 has).2

/-- A definition escapes if its days are in their range, but its credential cannot be issued. -/
theorem escapes_ofDefinition_iff (ho : owners ≠ []) (hg : ∀ g ∈ d.roles.entries, IsRoleText g.2.role) :
    Escapes (ofDefinition c (.ofTexts owners) name d) ↔
      d.HasRotation c ∧ ¬ CanIssue c.now (rotationDaysOf d c) name := by
  by_cases hr : d.HasRotation c
  · obtain ⟨os, hos, hne⟩ := exists_effectiveOwners (d := d) ho
    rw [ofDefinition_of_rotation hr hos hne, escapes_bind, escapes_issue_iff, exists_issue_iff hr, and_iff_right hr,
      or_iff_left]
    rintro ⟨cr, -, he⟩
    rcases escapes_bind.1 he with he | ⟨as, -, he⟩
    · obtain ⟨before, g, after, hm, -, hs⟩ := escapes_mapM_iff.1 he
      refine (escapes_grant_iff.1 hs).2 (hg g ?_)
      rw [hm]
      exact List.mem_append_right _ List.mem_cons_self
    · exact not_escapes_ok he
  · obtain ⟨cause, hc⟩ := error_of_not_rotation hr
    rw [hc]
    exact ⟨fun h => absurd trivial (escapes_error.1 h), fun h => absurd h.1 hr⟩

end PrincipalRecords

namespace ResolvedPrincipals

variable {definitions : NameMap PrincipalDefinition} {c : Context} {owners : List String} {r : ResolvedPrincipals}

/-- The grants of all definitions. -/
def sourcesOf (definitions : NameMap PrincipalDefinition) : List Source :=
  definitions.entries.flatMap fun e => e.2.sources e.1

/-- All definitions are expanded if each of them is. -/
theorem exists_ofDefinitions_iff_forall {defaultOwners : Json} :
    (∃ r, ofDefinitions definitions c defaultOwners = .ok r) ↔
      ∀ e ∈ definitions.entries, ∃ r, PrincipalRecords.ofDefinition c defaultOwners e.1 e.2 = .ok r := by
  rw [← exists_mapM_eq_ok_iff, ofDefinitions]
  simp only [bind_eq_ok]
  constructor
  · rintro ⟨-, records, hr, -⟩
    exact ⟨records, hr⟩
  · rintro ⟨records, hr⟩
    exact ⟨_, records, hr, rfl⟩

/-- When all definitions can be expanded. -/
theorem exists_ofDefinitions_iff (ho : owners ≠ []) : (∃ r, ofDefinitions definitions c (.ofTexts owners) = .ok r) ↔
    ∀ e ∈ definitions.entries, e.2.IsAccepted c e.1 := by
  simp only [exists_ofDefinitions_iff_forall, PrincipalRecords.exists_ofDefinition_iff ho]

/-- The assignments of all definitions are those of their grants. -/
theorem assignments_ofDefinitions (s : Place → Scope) (ho : owners ≠ [])
    (h : ofDefinitions definitions c (.ofTexts owners) = .ok r) :
    r.assignments = (sourcesOf definitions).map (·.assignment s) := by
  obtain ⟨records, hr, hp⟩ := bind_eq_ok.1 h
  have ha : records.map (·.assignments) = definitions.entries.map fun e => (e.2.sources e.1).map (·.assignment s) :=
    map_of_mapM_eq_ok (fun e r he => PrincipalRecords.assignments_ofDefinition s ho he) hr
  rw [← Except.ok.inj hp, sourcesOf, List.map_flatMap, List.flatMap_def, ← ha, ← List.flatMap_def]
  rfl

/-- The definitions escape at the first one that is not accepted, if only its credential is to blame. -/
theorem escapes_ofDefinitions_iff (ho : owners ≠ [])
    (hg : ∀ d ∈ definitions.entries, ∀ g ∈ d.2.roles.entries, IsRoleText g.2.role) :
    Escapes (ofDefinitions definitions c (.ofTexts owners)) ↔
      ∃ e, (definitions.entries.find? fun e => !decide (e.2.IsAccepted c e.1)) = some e ∧ e.2.HasRotation c ∧
        ¬ CanIssue c.now (PrincipalRecords.rotationDaysOf e.2 c) e.1 := by
  rw [ofDefinitions, escapes_bind, escapes_mapM_find?_iff fun e _ => PrincipalRecords.exists_ofDefinition_iff ho]
  rw [or_iff_left fun ⟨records, _, he⟩ => not_escapes_ok he]
  refine exists_congr fun e => and_congr_right fun he => ?_
  exact PrincipalRecords.escapes_ofDefinition_iff ho (hg e (List.mem_of_find?_eq_some he))

end ResolvedPrincipals

end AccessPlan
