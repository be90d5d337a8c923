import AccessPlan.Proofs.Policy.Acceptance
import AccessPlan.Proofs.Policy.Records
import AccessPlan.Proofs.Principal.Instant

/-!
# How the time of a context is written

Two contexts that differ only in the offset that one instant is written with are the same. A configuration resolves in
them to policies that agree in everything but the ids of credentials.

* `HasRecords.mapM_issueTo`: the credentials of a policy are those that are issued to its service principals.
* `HasRecords.mem_changed_iff`: a key is changed exactly if it is that of a credential with two ids.
* `only_ids_differ`: the difference of two such policies, and when it is empty. It is not always: two clocks may show
  one instant in two ways.
-/

namespace AccessPlan

open Calendar (Timestamp clockLimit)

/-! ## Contexts at two times -/

/-- The context at another time. -/
def Context.withNow (c : Context) (now : Timestamp) : Context := { c with now }

section Contexts

variable {c : Context}

theorem Context.withTenant_withNow (now : Timestamp) (tenantId : Option String) :
    (c.withNow now).withTenant tenantId = (c.withTenant tenantId).withNow now := by
  unfold withTenant
  by_cases h : c.tenantId.isNone ∧ tenantId.getD "" ≠ ""
  · have hwith : (c.withNow now).tenantId.isNone ∧ tenantId.getD "" ≠ "" := h
    rw [if_pos h, if_pos hwith]
    rfl
  · have hwith : ¬ ((c.withNow now).tenantId.isNone ∧ tenantId.getD "" ≠ "") := h
    rw [if_neg h, if_neg hwith]

@[simp] theorem Context.now_withTenant (tenantId : Option String) : (c.withTenant tenantId).now = c.now := by
  unfold withTenant
  split <;> rfl

@[simp] theorem Context.rotationDays_withTenant (tenantId : Option String) :
    (c.withTenant tenantId).rotationDays = c.rotationDays := by
  unfold withTenant
  split <;> rfl

end Contexts

namespace PolicyConfig

variable {config : PolicyConfig} {context c : Context} {now now' : Timestamp} {p q : ResolvedPolicy}
  {records records' : List PrincipalRecords} {e : String × PrincipalDefinition} {kind : EntityKind} {k : String}

/-! ## The credentials of a policy -/

/-- The credential that is issued to a service principal. -/
def issueTo (c : Context) (e : String × PrincipalDefinition) : Except Failure Credential :=
  Credential.issue ("application-" ++ e.1) e.1 c.now (.whole (PrincipalRecords.rotationDaysOf e.2 c))

/-- The id of this credential. -/
def issuedId (c : Context) (e : String × PrincipalDefinition) : Except Failure String := (issueTo c e).map (·.keyId)

theorem issueTo_withTenant (tenantId : Option String) : issueTo (c.withTenant tenantId) = issueTo c := by
  funext e
  simp [issueTo, PrincipalRecords.rotationDaysOf]

theorem issuedId_withTenant (tenantId : Option String) : issuedId (c.withTenant tenantId) = issuedId c := by
  funext e
  rw [issuedId, issueTo_withTenant]
  rfl

theorem key_of_issueTo {cr : Credential} (h : issueTo c e = .ok cr) : cr.key = "credential-" ++ e.1 := by
  obtain ⟨endDate, keyId, -, -, rfl⟩ := issue_eq_ok_iff.1 h
  rfl

theorem issuedId_of_issueTo {cr : Credential} (h : issueTo c e = .ok cr) : issuedId c e = .ok cr.keyId := by
  rw [issuedId, h]
  rfl

/-- Credentials that are issued to one service principal at one instant agree in everything but their ids. -/
theorem isReissued_of_issueTo (hnow : c.now.instant = now.instant) {old new : Credential}
    (ho : issueTo c e = .ok old) (hn : issueTo (c.withNow now) e = .ok new) :
    old.IsReissued c.now.offset now.offset new :=
  Credential.isReissued_of_issue hnow ho hn

namespace HasRecords

section One

variable (hr : config.HasRecords c p records)
include hr

/-- The credentials of a policy are those that are issued to its service principals, in the order of the names. -/
theorem mapM_issueTo (ho : config.owners ≠ []) :
    config.servicePrincipals.entries.mapM (issueTo c) = .ok p.credentials := by
  rw [hr.credentials]
  apply mapM_eq_ok_iff_forall₂.2
  apply List.forall₂_map_right_iff.2
  refine (mapM_eq_ok_iff_forall₂.1 hr.principals).imp fun e r he => ?_
  obtain ⟨cr, hissue, rfl⟩ := PrincipalRecords.exists_issued ho he
  exact hissue

theorem mem_credentials (ho : config.owners ≠ []) {cr : Credential} :
    cr ∈ p.credentials ↔ ∃ e ∈ config.servicePrincipals.entries, issueTo c e = .ok cr :=
  mem_of_mapM_eq_ok (hr.mapM_issueTo ho)

theorem exists_credential (ho : config.owners ≠ []) (he : e ∈ config.servicePrincipals.entries) :
    ∃ cr ∈ p.credentials, issueTo c e = .ok cr := by
  obtain ⟨cr, hcr⟩ := exists_mapM_eq_ok_iff.1 ⟨_, hr.mapM_issueTo ho⟩ e he
  exact ⟨cr, (hr.mem_credentials ho).2 ⟨e, he, hcr⟩, hcr⟩

end One

section Two

variable (hr : config.HasRecords c p records) (hr' : config.HasRecords (c.withNow now) q records')
include hr hr'

/-- The records of the service principals differ in their credentials only. -/
theorem forall₂_records (ho : config.owners ≠ []) :
    List.Forall₂ (fun r r' => { r with credential := r'.credential } = r') records records' := by
  refine forall₂_of_forall₂ (mapM_eq_ok_iff_forall₂.1 hr.principals) (mapM_eq_ok_iff_forall₂.1 hr'.principals) ?_
  intro e r r' he he'
  obtain ⟨cr, -, rfl⟩ := PrincipalRecords.exists_issued ho he
  obtain ⟨cr', -, rfl⟩ := PrincipalRecords.exists_issued ho he'
  rfl

/-- Whatever is no credential does not depend on the time. -/
theorem agrees_withNow (ho : config.owners ≠ []) (hk : kind ≠ .credentials) : p.Agrees q kind := by
  have hrecords := forall₂_records hr hr' ho
  have hmap : ∀ {α : Type} (f : PrincipalRecords → α), (∀ r cr, f { r with credential := cr } = f r) →
      records.map f = records'.map f := fun f hf =>
    map_eq_of_forall₂ hrecords fun r r' h => by
      rw [← h]
      exact (hf r r'.credential).symm
  have hscopes : config.tierPlan.scopeAt (c.withNow now) = config.tierPlan.scopeAt c := by
    funext place
    cases place <;> rfl
  cases kind with
  | groups => exact hr.groups.trans hr'.groups.symm
  | memberships => exact hr.memberships.trans hr'.memberships.symm
  | roleDefinitions => exact hr.roleDefinitions.trans hr'.roleDefinitions.symm
  | assignments =>
    rw [ResolvedPolicy.Agrees, hr.assignments, hr'.assignments, hscopes, List.flatMap_def, List.flatMap_def,
      hmap _ fun _ _ => rfl]
  | applications =>
    rw [ResolvedPolicy.Agrees, hr.applications, hr'.applications]
    exact hmap _ fun _ _ => rfl
  | servicePrincipals =>
    rw [ResolvedPolicy.Agrees, hr.servicePrincipals, hr'.servicePrincipals]
    exact hmap _ fun _ _ => rfl
  | ownerEdges =>
    rw [ResolvedPolicy.Agrees, hr.ownerEdges, hr'.ownerEdges, List.flatMap_def, List.flatMap_def,
      hmap _ fun _ _ => rfl]
  | credentials => exact absurd rfl hk

/-- The credentials have the same keys. -/
theorem map_key_credentials (ho : config.owners ≠ []) :
    p.credentials.map Credential.key = q.credentials.map Credential.key := by
  have hkeys : ∀ {c : Context} {crs : List Credential}, config.servicePrincipals.entries.mapM (issueTo c) = .ok crs →
      crs.map Credential.key = config.servicePrincipals.entries.map fun e => "credential-" ++ e.1 :=
    map_of_mapM_eq_ok fun e cr h => key_of_issueTo h
  rw [hkeys (hr.mapM_issueTo ho), hkeys (hr'.mapM_issueTo ho)]

/-- So no credential is added or removed. -/
theorem added_removed_credentials (ho : config.owners ≠ []) :
    (diffOf p q .credentials).added = [] ∧ (diffOf p q .credentials).removed = [] := by
  have hkeys := map_key_credentials hr hr' ho
  refine ⟨List.eq_nil_iff_forall_not_mem.2 fun k hk => ?_, List.eq_nil_iff_forall_not_mem.2 fun k hk => ?_⟩
  · obtain ⟨hm, hn⟩ := EntityDiff.mem_added.1 hk
    rw [hkeys] at hn
    exact hn hm
  · obtain ⟨hm, hn⟩ := EntityDiff.mem_removed.1 hk
    rw [hkeys] at hm
    exact hn hm

/-- A key is changed exactly if it is that of a credential with two ids. -/
theorem mem_changed_iff (hv : config.IsValid) (hnow : c.now.instant = now.instant) :
    k ∈ (diffOf p q .credentials).changed ↔
      ∃ e ∈ config.servicePrincipals.entries, "credential-" ++ e.1 = k ∧ issuedId c e ≠ issuedId (c.withNow now) e := by
  have hids : ∀ {e : String × PrincipalDefinition} {old new : Credential}, issueTo c e = .ok old →
      issueTo (c.withNow now) e = .ok new → (new.same old = false ↔ issuedId c e ≠ issuedId (c.withNow now) e) := by
    intro e old new ho hn
    rw [← Bool.not_eq_true, (isReissued_of_issueTo hnow ho hn).same_iff, issuedId_of_issueTo ho,
      issuedId_of_issueTo hn, ne_eq, Except.ok.injEq, eq_comm]
  constructor
  · intro hk
    obtain ⟨old, new, ⟨hold, hkold⟩, ⟨hnew, hknew⟩, hs⟩ := EntityDiff.exists_of_mem_changed hk
    obtain ⟨e, he, ho⟩ := (hr.mem_credentials hv.owners).1 hold
    obtain ⟨e', he', hn⟩ := (hr'.mem_credentials hv.owners).1 hnew
    -- the key tells the name, and so the definition
    have hname : e.1 = e'.1 := by
      rw [key_of_issueTo ho, ← hknew, key_of_issueTo hn] at hkold
      exact (String.append_right_inj _).1 hkold
    obtain rfl : e = e' := List.inj_on_of_nodup_map (NameMap.nodup_names _) he he' hname
    exact ⟨e, he, (key_of_issueTo ho).symm.trans hkold, (hids ho hn).1 hs⟩
  · rintro ⟨e, he, rfl, hne⟩
    obtain ⟨old, hold, ho⟩ := hr.exists_credential hv.owners he
    obtain ⟨new, hnew, hn⟩ := hr'.exists_credential hv.owners he
    rw [← key_of_issueTo hn]
    exact EntityDiff.mem_changed (tellsRecords_of_nodup (hr.nodup_keys hv .credentials))
      (tellsRecords_of_nodup (hr'.nodup_keys hv .credentials)) hold hnew
      ((key_of_issueTo ho).trans (key_of_issueTo hn).symm) ((hids ho hn).2 hne)

end Two

end HasRecords

/-! ## Policies of one instant -/

/-- How two policies differ that a configuration resolves to in two contexts. -/
structure DiffersInIds (config : PolicyConfig) (context context' : Context) (p q : ResolvedPolicy) : Prop where
  previous : config.servicePrincipals.entries.mapM (issueTo context) = .ok p.credentials
  current : config.servicePrincipals.entries.mapM (issueTo context') = .ok q.credentials
  isEmpty_of_ne : ∀ kind, kind ≠ .credentials → (diffOf p q kind).isEmpty = true
  added : (diffOf p q .credentials).added = []
  removed : (diffOf p q .credentials).removed = []
  mem_changed_iff : ∀ k, k ∈ (diffOf p q .credentials).changed ↔
    ∃ e ∈ config.servicePrincipals.entries, "credential-" ++ e.1 = k ∧ issuedId context e ≠ issuedId context' e
  /-- There is no difference exactly if every service principal is issued one id in both contexts. -/
  isEmpty_iff : (PolicyDiff.between p q).isEmpty = true ↔
    ∀ e ∈ config.servicePrincipals.entries, issuedId context e = issuedId context' e
  isEmpty_of_offset : context.now.offset = context'.now.offset → (PolicyDiff.between p q).isEmpty = true

/-- At one instant, policies differ in the ids of credentials only. -/
theorem differsInIds {j : Json} (hj : PolicyConfig.ofJson j = .ok config) (hnow : context.now.instant = now.instant)
    (h : resolve config context = .ok p) (h' : resolve config (context.withNow now) = .ok q) :
    config.DiffersInIds context (context.withNow now) p q := by
  have hv := isValid_of_ofJson hj
  obtain ⟨records, hr⟩ := exists_records h
  obtain ⟨records', hr'⟩ := exists_records h'
  have hprevious := hr.mapM_issueTo hv.owners
  have hcurrent := hr'.mapM_issueTo hv.owners
  rw [issueTo_withTenant] at hprevious hcurrent
  rw [Context.withTenant_withNow] at hr'
  have hne : ∀ kind, kind ≠ .credentials → (diffOf p q kind).isEmpty = true := fun kind hk =>
    (hr.agrees_withNow hr' hv.owners hk).isEmpty (hr.same_self hv.owners)
  obtain ⟨hadded, hremoved⟩ := hr.added_removed_credentials hr' hv.owners
  have hchanged : ∀ k, k ∈ (diffOf p q .credentials).changed ↔ ∃ e ∈ config.servicePrincipals.entries,
      "credential-" ++ e.1 = k ∧ issuedId context e ≠ issuedId (context.withNow now) e := by
    intro k
    have hinstant : (context.withTenant config.tenantId).now.instant = now.instant := by
      rw [Context.now_withTenant]
      exact hnow
    have hk := hr.mem_changed_iff hr' hv (k := k) hinstant
    rwa [← Context.withTenant_withNow, issuedId_withTenant, issuedId_withTenant] at hk
  have hempty : (PolicyDiff.between p q).isEmpty = true ↔
      ∀ e ∈ config.servicePrincipals.entries, issuedId context e = issuedId (context.withNow now) e := by
    rw [PolicyDiff.isEmpty_iff_changed hne hadded hremoved, List.eq_nil_iff_forall_not_mem]
    simp only [hchanged, not_exists, not_and, not_not]
    exact ⟨fun hall e he => hall _ e he rfl, fun hall _ e he _ => hall e he⟩
  refine ⟨hprevious, hcurrent, hne, hadded, hremoved, hchanged, hempty, fun ho => hempty.2 fun e _ => ?_⟩
  obtain rfl : context.now = now := Timestamp.eq_of_instant hnow ho
  rfl

/-- At one instant, everything is the same but the ids of credentials, and these are if the offsets are. -/
theorem only_ids_differ (hnow : now.instant = now'.instant) :
    (∀ applicationKey name days old, Credential.issue applicationKey name now days = .ok old →
      ((∃ new, Credential.issue applicationKey name now' days = .ok new) ↔
        0 ≤ old.endDate.clockAt now'.offset ∧ old.endDate.clockAt now'.offset < clockLimit) ∧
      ∀ new, Credential.issue applicationKey name now' days = .ok new →
        old.IsReissued now.offset now'.offset new ∧ (new.same old = true ↔ new.keyId = old.keyId) ∧
          (now.offset = now'.offset → new.same old = true)) ∧
    ∀ j config (context : Context) p q, PolicyConfig.ofJson j = .ok config →
      resolve config (context.withNow now) = .ok p → resolve config (context.withNow now') = .ok q →
        config.DiffersInIds (context.withNow now) (context.withNow now') p q := by
  refine ⟨fun applicationKey name days old ho => ⟨Credential.exists_reissued_iff hnow ho, fun new hn => ?_⟩,
    fun j config context p q hj h h' => ?_⟩
  · have hreissued := Credential.isReissued_of_issue hnow ho hn
    exact ⟨hreissued, hreissued.same_iff, fun hoffset => hreissued.same_iff.2 (hreissued.keyId_eq hoffset)⟩
  · exact differsInIds hj hnow h h'

/-! ## One instant by three clocks -/

/-- The first instant by a clock that is five and a half hours ahead. -/
def eastern : Timestamp := ⟨330 * Calendar.minuteLength, some 330, by decide, by decide⟩

theorem instant_eastern : Timestamp.earliest.instant = eastern.instant := by decide

theorem isAcceptable_eastern : sample.IsAcceptable ((sampleContext.withNow eastern).withTenant sample.tenantId) :=
  { isAcceptable_sample with
    ready := by decide +kernel
    rotation := by decide +kernel
    credentials := by decide +kernel }

theorem only_ids_differ_eastern : Timestamp.earliest.instant = eastern.instant ∧
    ∃ p q, resolve sample sampleContext = .ok p ∧ resolve sample (sampleContext.withNow eastern) = .ok q ∧
      sample.DiffersInIds sampleContext (sampleContext.withNow eastern) p q := by
  have hj : PolicyConfig.ofJson sampleJson = .ok sample := rfl
  obtain ⟨p, h⟩ := isAcceptable_sample.exists_policy (isValid_of_ofJson hj)
  obtain ⟨q, h'⟩ := isAcceptable_eastern.exists_policy (isValid_of_ofJson hj)
  exact ⟨instant_eastern, p, q, h, h', (only_ids_differ instant_eastern).2 sampleJson sample sampleContext p q hj h h'⟩

theorem ids_differ_eastern :
    (unstated.instant = Timestamp.earliest.instant ∧ ∃ old new,
      Credential.issue "application-deployer" "deployer" unstated (.whole 90) = .ok old ∧
      Credential.issue "application-deployer" "deployer" .earliest (.whole 90) = .ok new ∧ new.same old = false) ∧
    PolicyConfig.ofJson sampleJson = .ok sample ∧ sampleContext.now.instant = eastern.instant ∧
      ∃ p q, resolve sample sampleContext = .ok p ∧ resolve sample (sampleContext.withNow eastern) = .ok q ∧
        (PolicyDiff.between p q).isEmpty = false := by
  have hj : PolicyConfig.ofJson sampleJson = .ok sample := rfl
  obtain ⟨p, h⟩ := isAcceptable_sample.exists_policy (isValid_of_ofJson hj)
  obtain ⟨q, h'⟩ := isAcceptable_eastern.exists_policy (isValid_of_ofJson hj)
  refine ⟨⟨instant_unstated, exists_not_same_unstated⟩, hj, instant_eastern, p, q, h, h', ?_⟩
  have hids : ∀ e ∈ sample.servicePrincipals.entries,
      (issuedId sampleContext e).toOption ≠ (issuedId (sampleContext.withNow eastern) e).toOption := by decide +kernel
  rw [← Bool.not_eq_true, (differsInIds hj instant_eastern h h').isEmpty_iff]
  intro hall
  exact hids _ List.mem_cons_self (congrArg Except.toOption (hall _ List.mem_cons_self))

end PolicyConfig

end AccessPlan
