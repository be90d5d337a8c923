import AccessPlan.Proofs.Principal.Instant
import AccessPlan.Proofs.Principal.Keys
import AccessPlan.Proofs.Schema.Reading

/-!
# Expanding a map of definitions

The definitions of service principals are expanded in the order of their names. Either all of them have records, which
stand in this order and refer to each other (`IsExpansion`), or the first definition that has none decides how the
expansion fails.

A definition is refused for its days, for its owners, or for the first of its grants that cannot be made, in this order
(`PrincipalDefinition.IsRefused`). No other error of a policy is possible (`ofDefinition_eq_policy_iff`). But between
its owners and its grants a credential is issued, and a definition that fails there is not refused: so the rule of the
first error holds without exception (`expanded_or_refused`), while a faulty definition behind one whose credential ends
past the calendar goes unnoticed (`faulty_unnoticed`).
-/

namespace AccessPlan

open Calendar (Timestamp dayLength)
open Assignment (isSingleRole)

/-! ## Offsets -/

theorem Calendar.Timestamp.asUtc_eq_self_iff {t : Timestamp} : t.asUtc = t ↔ some (t.offset.getD 0) = t.offset :=
  ⟨congrArg Timestamp.offset, Timestamp.eq_of_instant (Timestamp.instant_asUtc t)⟩

/-- The time of a context comes with an offset. -/
def Context.StatesOffset (c : Context) : Prop := c.now.asUtc = c.now

/-- The contexts that are read state an offset, if the clock does. -/
theorem Context.statesOffset_of_ofJson {clock : Timestamp} {j : Json} {c : Context} (hclock : clock.asUtc = clock)
    (h : Context.ofJson clock j = .ok c) : c.StatesOffset := by
  have hutc : Schema.Reader.timestampUtc.Gives fun t : Timestamp => t.asUtc = t := fun j => .map fun t _ => rfl
  have hgives : (Context.read clock .document).Gives Context.StatesOffset := by
    apply Schema.Reader.Gives.record
    intro j
    refine .seq_any (.seq_any (.seq (hutc.withDefault hclock j) ?_))
    refine .seq_any (.seq_any (.map fun tenantId _ => ?_))
    intro subscriptionId managementGroupId now hnow rotationDays renewWithinDays
    exact hnow
  exact hgives _ c (Schema.Checked.toExcept_eq_ok.1 h)

/-- A credential is issued with the id of its end date, if the time states its offset. -/
theorem Credential.idOf_endDate {key name : String} {now : Timestamp} {amount : Calendar.Amount} {cr : Credential}
    (hnow : now.asUtc = now) (h : issue key name now amount = .ok cr) : idOf key cr.endDate = .ok cr.keyId := by
  obtain ⟨endDate, keyId, he, hid, rfl⟩ := issue_eq_ok_iff.1 h
  have hutc : endDate.asUtc = endDate := by
    rw [Timestamp.asUtc_eq_self_iff, offset_endAfter he]
    exact Timestamp.asUtc_eq_self_iff.1 hnow
  rwa [hutc]

/-! ## One definition -/

namespace PrincipalDefinition

/-- What it takes for a definition to be expanded. There may be no default owners. -/
structure IsExpandable (d : PrincipalDefinition) (c : Context) (owners : List String) (name : String) : Prop
    extends IsAccepted d c name where
  owners : d.ownersOr owners ≠ []

/-- The first grant that cannot be made. -/
def refused? (d : PrincipalDefinition) : Option (String × Grant) :=
  d.roles.entries.find? fun g => !decide (IsGrantable g.2.role)

/-- A definition is refused with an error. -/
inductive IsRefused (d : PrincipalDefinition) (c : Context) (owners : List String) (name : String) : PolicyError → Prop
  | days (hr : ¬ d.HasRotation c) : IsRefused d c owners name (.config (.rotationOutOfRange
      (.ofText ("service_principals." ++ name ++ ".rotation_days")) (.int (PrincipalRecords.rotationDaysOf d c))))
  | owners (hr : d.HasRotation c) (ho : d.ownersOr owners = []) : IsRefused d c owners name (.config (.noOwners name))
  | role {label : String} {g : Grant} (hr : d.HasRotation c) (ho : d.ownersOr owners ≠ [])
      (hi : CanIssue c.now (PrincipalRecords.rotationDaysOf d c) name) (hg : d.refused? = some (label, g))
      (hs : isSingleRole g.role = false) : IsRefused d c owners name
        (.cardinality (.str ("service_principal-" ++ name ++ "/" ++ label)) (.str g.role))

/-- Something is wrong with a definition, whether or not it is looked at. -/
def IsFaulty (d : PrincipalDefinition) (c : Context) (owners : List String) : Prop :=
  ¬ d.HasRotation c ∨ d.ownersOr owners = [] ∨ ∃ g ∈ d.roles.entries, isSingleRole g.2.role = false

variable {d : PrincipalDefinition} {c : Context} {owners : List String} {name : String}

instance : Decidable (d.IsExpandable c owners name) :=
  decidable_of_iff (d.IsAccepted c name ∧ d.ownersOr owners ≠ []) ⟨fun h => ⟨h.1, h.2⟩, fun h => ⟨h.1, h.2⟩⟩

/-- What is refused is faulty. -/
theorem IsRefused.isFaulty {e : PolicyError} (h : d.IsRefused c owners name e) : d.IsFaulty c owners := by
  cases h with
  | days hr => exact .inl hr
  | owners _ ho => exact .inr (.inl ho)
  | @role label g _ _ _ hg hs => exact .inr (.inr ⟨(label, g), List.mem_of_find?_eq_some hg, hs⟩)

theorem IsExpandable.not_isFaulty (h : d.IsExpandable c owners name) : ¬ d.IsFaulty c owners := by
  rintro (hr | ho | ⟨g, hg, hs⟩)
  · exact hr h.rotation
  · exact h.owners ho
  · exact Bool.false_ne_true (hs.symm.trans (h.grants g hg).isSingle)

/-- What is not expanded is refused, unless its credential cannot be issued or a role is no text that can stand for
one. -/
theorem exists_isRefused (hissue : d.HasRotation c → CanIssue c.now (PrincipalRecords.rotationDaysOf d c) name)
    (hroles : ∀ g ∈ d.roles.entries, IsRoleText g.2.role) (hn : ¬ d.IsExpandable c owners name) :
    ∃ e, d.IsRefused c owners name e := by
  by_cases hr : d.HasRotation c
  · by_cases ho : d.ownersOr owners = []
    · exact ⟨_, .owners hr ho⟩
    · cases hg : d.refused? with
      | none =>
        have hgrants : ∀ g ∈ d.roles.entries, IsGrantable g.2.role := by
          simpa [refused?, List.find?_eq_none] using hg
        exact absurd ⟨⟨hr, hissue hr, hgrants⟩, ho⟩ hn
      | some g =>
        have hrefused : ¬ IsGrantable g.2.role := by simpa using List.find?_some hg
        have hrole := hroles g (List.mem_of_find?_eq_some hg)
        have hs : isSingleRole g.2.role = false := Bool.eq_false_iff.2 fun hs => hrefused ⟨hrole, hs⟩
        exact ⟨_, .role hr ho (hissue hr) hg hs⟩
  · exact ⟨_, .days hr⟩

end PrincipalDefinition

namespace PrincipalRecords

variable {d : PrincipalDefinition} {c : Context} {owners : List String} {name : String} {r : PrincipalRecords}

/-- The days are looked at before the owners. -/
theorem ofDefinition_of_no_owners (hr : d.HasRotation c) (ho : d.ownersOr owners = []) :
    ofDefinition c (.ofTexts owners) name d = .error (.config (.noOwners name)) := by
  have hd := fun field : FieldName => (checkRotationDays_int (f := field)).2 ⟨hr, rfl⟩
  simp only [ofDefinition, hd, effectiveOwners_texts, ho, mapError_ok, bind, Except.bind, List.isEmpty_nil, if_true]
  rfl

theorem ofDefinition_of_owners (hr : d.HasRotation c) (ho : d.ownersOr owners ≠ []) :
    ofDefinition c (.ofTexts owners) name d = (do
      let credential ← Credential.issue ("application-" ++ name) name c.now (.whole (rotationDaysOf d c))
      let assignments ← d.roles.entries.mapM fun g => grantOf name ("service-principal-" ++ name) g.1 g.2
      return ofParts d name (d.ownersOr owners) credential assignments) :=
  ofDefinition_of_rotation hr effectiveOwners_texts (List.isEmpty_eq_false_iff.2 ho)

/-- What a definition is expanded to. -/
theorem ofDefinition_eq_ok_iff : ofDefinition c (.ofTexts owners) name d = .ok r ↔
    d.IsExpandable c owners name ∧ ∃ credential,
      Credential.issue ("application-" ++ name) name c.now (.whole (rotationDaysOf d c)) = .ok credential ∧
      r = ofParts d name (d.ownersOr owners) credential ((d.sources name).map (·.assignment fun _ => .tenant "")) := by
  by_cases hr : d.HasRotation c
  · by_cases ho : d.ownersOr owners = []
    · rw [ofDefinition_of_no_owners hr ho]
      exact ⟨nofun, fun h => absurd ho h.1.owners⟩
    · simp only [ofDefinition_of_owners hr ho, bind_eq_ok, grants_eq_ok_iff (s := fun _ => .tenant "")]
      constructor
      · rintro ⟨credential, hcr, as, ⟨hg, rfl⟩, hp⟩
        exact ⟨⟨⟨hr, (exists_issue_iff hr).1 ⟨credential, hcr⟩, hg⟩, ho⟩, credential, hcr, (Except.ok.inj hp).symm⟩
      · rintro ⟨h, credential, hcr, rfl⟩
        exact ⟨credential, hcr, _, ⟨h.grants, rfl⟩, rfl⟩
  · rw [ofDefinition_of_not_rotation hr]
    exact ⟨nofun, fun h => absurd h.1.rotation hr⟩

/-- When a definition is expanded. -/
theorem exists_expanded_iff :
    (∃ r, ofDefinition c (.ofTexts owners) name d = .ok r) ↔ d.IsExpandable c owners name := by
  simp only [ofDefinition_eq_ok_iff]
  constructor
  · rintro ⟨r, h, -⟩
    exact h
  · intro h
    obtain ⟨credential, hcr⟩ := (exists_issue_iff h.rotation).2 h.issue
    exact ⟨_, h, credential, hcr, rfl⟩

/-- A credential that cannot be issued is no error of a policy. -/
theorem issue_ne_policy {key : String} {now : Timestamp} {amount : Calendar.Amount} {e : PolicyError} :
    Credential.issue key name now amount ≠ .error (.policy e) := by
  intro h
  have hnone : ¬ ∃ credential, Credential.issue key name now amount = .ok credential := by
    rintro ⟨credential, hcr⟩
    cases h.symm.trans hcr
  obtain ⟨f, hf, hn⟩ := escapes_issue_iff.2 hnone
  cases h.symm.trans hf
  exact hn trivial

theorem ofDefinition_of_isRefused {e : PolicyError} (h : d.IsRefused c owners name e) :
    ofDefinition c (.ofTexts owners) name d = .error (.policy e) := by
  cases h with
  | days hr => exact ofDefinition_of_not_rotation hr
  | owners hr ho => exact ofDefinition_of_no_owners hr ho
  | @role label g hr ho hi hg hs =>
    obtain ⟨credential, hcr⟩ := (exists_issue_iff hr).2 hi
    rw [ofDefinition_of_owners hr ho]
    refine bind_eq_error.2 (.inr ⟨credential, hcr, bind_eq_error.2 (.inl ?_)⟩)
    refine (mapM_eq_error_find?_iff fun g _ => exists_grant_iff).2 ⟨(label, g), hg, ?_⟩
    exact grant_eq_policy_iff.2 ⟨hs, rfl⟩

theorem isRefused_of_ofDefinition {e : PolicyError}
    (h : ofDefinition c (.ofTexts owners) name d = .error (.policy e)) : d.IsRefused c owners name e := by
  by_cases hr : d.HasRotation c
  · by_cases ho : d.ownersOr owners = []
    · rw [ofDefinition_of_no_owners hr ho] at h
      cases h
      exact .owners hr ho
    · rw [ofDefinition_of_owners hr ho] at h
      obtain ⟨credential, hcr, h⟩ := (bind_eq_error.1 h).resolve_left issue_ne_policy
      have hi : CanIssue c.now (rotationDaysOf d c) name := (exists_issue_iff hr).1 ⟨credential, hcr⟩
      rcases bind_eq_error.1 h with h | ⟨_, -, h⟩
      · obtain ⟨g, hg, h⟩ := (mapM_eq_error_find?_iff fun g _ => exists_grant_iff).1 h
        obtain ⟨hs, rfl⟩ := grant_eq_policy_iff.1 h
        exact .role hr ho hi hg hs
      · cases h
  · rw [ofDefinition_of_not_rotation hr] at h
    cases h
    exact .days hr

/-- A definition fails with an error of a policy if it is refused with it. -/
theorem ofDefinition_eq_policy_iff {e : PolicyError} :
    ofDefinition c (.ofTexts owners) name d = .error (.policy e) ↔ d.IsRefused c owners name e :=
  ⟨isRefused_of_ofDefinition, ofDefinition_of_isRefused⟩

/-- The records of a definition of a name, and how they refer to each other. -/
structure IsExpandedTo (c : Context) (owners : List String) (e : String × PrincipalDefinition) (r : PrincipalRecords) :
    Prop where
  application : r.application = ⟨"application-" ++ e.1, e.1, e.2.displayName, e.2.description, e.2.ownersOr owners,
    sortedUnique e.2.tags⟩
  principal : r.principal = ⟨"service-principal-" ++ e.1, r.application.key, r.application.owners, r.application.tags⟩
  owners : r.application.owners ≠ []
  ownerEdges : r.ownerEdges = r.principal.owners.map fun owner => ⟨r.principal.key, owner⟩
  days : e.2.HasRotation c
  endDate : r.credential.endDate.instant = c.now.instant + rotationDaysOf e.2 c * dayLength
  applicationId : r.credential.applicationId = r.application.key
  keyId : Credential.idOf r.credential.applicationId r.credential.endDate = .ok r.credential.keyId
  secret : r.credential.secret = none
  assignments : r.assignments = e.2.roles.entries.map fun g => ⟨"service_principal-" ++ e.1 ++ "/" ++ g.1,
    .servicePrincipal, .custom g.2.scope, g.2.role, r.principal.key, .servicePrincipal⟩

theorem isExpandedTo_of_ofDefinition (hnow : c.StatesOffset) (h : ofDefinition c (.ofTexts owners) name d = .ok r) :
    IsExpandedTo c owners (name, d) r := by
  obtain ⟨hd, credential, hcr, rfl⟩ := ofDefinition_eq_ok_iff.1 h
  have hid := Credential.idOf_endDate hnow hcr
  obtain ⟨endDate, keyId, he, -, rfl⟩ := issue_eq_ok_iff.1 hcr
  rw [endAfter_whole hd.rotation] at he
  exact {
    application := rfl
    principal := rfl
    owners := hd.owners
    ownerEdges := rfl
    days := hd.rotation
    endDate := (Timestamp.instant_asUtc endDate).trans (Timestamp.instant_later he)
    applicationId := rfl
    keyId := hid
    secret := rfl
    assignments := by
      simp only [ofParts, PrincipalDefinition.sources, List.map_map]
      rfl }

end PrincipalRecords

/-! ## All definitions -/

namespace ResolvedPrincipals

/-- The records of a map of definitions: those of every name, in the order of the names. -/
structure IsExpansion (definitions : NameMap PrincipalDefinition) (c : Context) (owners : List String)
    (r : ResolvedPrincipals) : Prop where
  names : r.applications.map Application.name = definitions.names
  records : ∃ records, List.Forall₂ (PrincipalRecords.IsExpandedTo c owners) definitions.entries records ∧
    r = ofRecords records

/-- The first definition that has no records. -/
def refused? (definitions : NameMap PrincipalDefinition) (c : Context) (owners : List String) :
    Option (String × PrincipalDefinition) :=
  definitions.entries.find? fun e => !decide (e.2.IsExpandable c owners e.1)

variable {definitions : NameMap PrincipalDefinition} {c : Context} {owners : List String} {r : ResolvedPrincipals}

theorem isExpansion_of_ofDefinitions (hnow : c.StatesOffset)
    (h : ofDefinitions definitions c (.ofTexts owners) = .ok r) : IsExpansion definitions c owners r := by
  obtain ⟨records, hr, hp⟩ := bind_eq_ok.1 h
  obtain rfl := Except.ok.inj hp
  have hrecords : List.Forall₂ (PrincipalRecords.IsExpandedTo c owners) definitions.entries records :=
    (mapM_eq_ok_iff_forall₂.1 hr).imp fun e r he => PrincipalRecords.isExpandedTo_of_ofDefinition hnow he
  refine ⟨?_, records, hrecords, rfl⟩
  rw [ofRecords, List.map_map]
  exact (map_eq_of_forall₂ hrecords fun e r he => by rw [Function.comp_apply, he.application]).symm

theorem exists_expanded_iff : (∃ r, ofDefinitions definitions c (.ofTexts owners) = .ok r) ↔
    ∀ e ∈ definitions.entries, e.2.IsExpandable c owners e.1 := by
  simp only [exists_ofDefinitions_iff_forall, PrincipalRecords.exists_expanded_iff]

/-- The first definition that has no records decides with which error of a policy the expansion fails. -/
theorem ofDefinitions_eq_policy_iff {error : PolicyError} :
    ofDefinitions definitions c (.ofTexts owners) = .error (.policy error) ↔
      ∃ e, refused? definitions c owners = some e ∧ e.2.IsRefused c owners e.1 error := by
  have hrun : ofDefinitions definitions c (.ofTexts owners) = .error (.policy error) ↔
      (definitions.entries.mapM fun e => PrincipalRecords.ofDefinition c (.ofTexts owners) e.1 e.2) =
        .error (.policy error) := by
    rw [ofDefinitions, bind_eq_error]
    refine or_iff_left ?_
    rintro ⟨_, -, h⟩
    cases h
  rw [hrun, mapM_eq_error_find?_iff fun e _ => PrincipalRecords.exists_expanded_iff]
  exact exists_congr fun e => and_congr_right fun _ => PrincipalRecords.ofDefinition_eq_policy_iff

theorem exists_refused_of_mem {e : String × PrincipalDefinition} (he : e ∈ definitions.entries)
    (hn : ¬ e.2.IsExpandable c owners e.1) : ∃ e', refused? definitions c owners = some e' := by
  refine Option.isSome_iff_exists.1 (List.find?_isSome.2 ⟨e, he, ?_⟩)
  rw [decide_eq_false hn]
  rfl

/-- If no credential fails to be issued and all roles are texts that can stand for one, every faulty definition is
noticed. -/
theorem exists_policy_error_iff (hissue : ∀ e ∈ definitions.entries, e.2.HasRotation c →
      CanIssue c.now (PrincipalRecords.rotationDaysOf e.2 c) e.1)
    (hroles : ∀ e ∈ definitions.entries, ∀ g ∈ e.2.roles.entries, IsRoleText g.2.role) :
    (∃ error, ofDefinitions definitions c (.ofTexts owners) = .error (.policy error)) ↔
      ∃ e ∈ definitions.entries, e.2.IsFaulty c owners := by
  simp only [ofDefinitions_eq_policy_iff]
  constructor
  · rintro ⟨error, e, hfirst, h⟩
    exact ⟨e, List.mem_of_find?_eq_some hfirst, h.isFaulty⟩
  · rintro ⟨e, he, hfaulty⟩
    obtain ⟨e', hfirst⟩ := exists_refused_of_mem he fun h => h.not_isFaulty hfaulty
    have he' := List.mem_of_find?_eq_some hfirst
    have hn : ¬ e'.2.IsExpandable c owners e'.1 := by simpa using List.find?_some hfirst
    obtain ⟨error, h⟩ := PrincipalDefinition.exists_isRefused (hissue e' he') (hroles e' he') hn
    exact ⟨error, e', hfirst, h⟩

/-- How a map of definitions is expanded or refused. -/
structure FollowsRules (definitions : NameMap PrincipalDefinition) (c : Context) (owners : List String) : Prop where
  expands : ∀ r, ofDefinitions definitions c (.ofTexts owners) = .ok r → IsExpansion definitions c owners r
  exists_iff : (∃ r, ofDefinitions definitions c (.ofTexts owners) = .ok r) ↔
    ∀ e ∈ definitions.entries, e.2.IsExpandable c owners e.1
  /-- The first definition that has no records decides. -/
  refused_iff : ∀ error, ofDefinitions definitions c (.ofTexts owners) = .error (.policy error) ↔
    ∃ e, refused? definitions c owners = some e ∧ e.2.IsRefused c owners e.1 error
  /-- Every faulty definition is noticed, unless something else than an error of a policy may happen. -/
  faulty_iff : (∀ e ∈ definitions.entries, e.2.HasRotation c →
      CanIssue c.now (PrincipalRecords.rotationDaysOf e.2 c) e.1) →
    (∀ e ∈ definitions.entries, ∀ g ∈ e.2.roles.entries, IsRoleText g.2.role) →
    ((∃ error, ofDefinitions definitions c (.ofTexts owners) = .error (.policy error)) ↔
      ∃ e ∈ definitions.entries, e.2.IsFaulty c owners)

/-- Definitions are expanded or refused by these rules. A context that is read states its offset. -/
theorem expanded_or_refused (hnow : c.StatesOffset) : FollowsRules definitions c owners where
  expands := fun _ h => isExpansion_of_ofDefinitions hnow h
  exists_iff := exists_expanded_iff
  refused_iff := fun _ => ofDefinitions_eq_policy_iff
  faulty_iff := exists_policy_error_iff

/-- A definition with a grant and without owners of its own. -/
def deployer : PrincipalDefinition :=
  ⟨"Deployer", "", [], .ofList [("main", ⟨"/subscriptions/s", "Reader"⟩)], [], none⟩

theorem expanded_deployer :
    let definitions : NameMap PrincipalDefinition := .ofList [("deployer", deployer)]
    let c : Context := ⟨none, none, none, .earliest, 90, 30⟩
    c.StatesOffset ∧ ∃ r, ofDefinitions definitions c (.ofTexts ["bob", "ann", "bob"]) = .ok r ∧
      IsExpansion definitions c ["bob", "ann", "bob"] r := by
  intro definitions c
  have hread : Context.ofJson .earliest .null = .ok c := rfl
  have hnow : c.StatesOffset := Context.statesOffset_of_ofJson rfl hread
  have hrules : FollowsRules definitions c ["bob", "ann", "bob"] := expanded_or_refused hnow
  obtain ⟨r, hr⟩ := hrules.exists_iff.2 (by decide +kernel)
  exact ⟨hnow, r, hr, hrules.expands r hr⟩

/-- A definition whose credential ends past the calendar, and behind it one whose credential is never valid. -/
def overdue : NameMap PrincipalDefinition :=
  .ofList [("a", ⟨"A", "", ["o"], .empty, [], none⟩), ("b", ⟨"B", "", ["o"], .empty, [], some 0⟩)]

/-- The context on the last day of the calendar. -/
def finalContext : Context where
  tenantId := none
  subscriptionId := none
  managementGroupId := none
  now := { Timestamp.earliest with clock := Calendar.clockLimit - dayLength, clock_lt := by decide }
  rotationDays := 90
  renewWithinDays := 30

/-- A credential that ends past the calendar is no error of a policy, and what is wrong behind it goes unnoticed. -/
theorem faulty_unnoticed : (∃ e ∈ overdue.entries, ¬ e.2.HasRotation finalContext) ∧
    ¬ ∃ error, ofDefinitions overdue finalContext (.ofTexts []) = .error (.policy error) := by
  constructor
  · decide +kernel
  · have hfails : ∃ fault, ofDefinitions overdue finalContext (.ofTexts []) = .error (.outOfRange fault) := ⟨_, rfl⟩
    rintro ⟨error, h⟩
    obtain ⟨fault, hf⟩ := hfails
    cases h.symm.trans hf

end ResolvedPrincipals

end AccessPlan
