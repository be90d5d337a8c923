import AccessPlan.Proofs.Json.Sameness
import AccessPlan.Proofs.Policy.Difference
import AccessPlan.Proofs.Policy.Secrets
import AccessPlan.Proofs.Policy.Stages

/-!
# What becomes of a key

Of the records of a kind with one key the last one counts (`ResolvedPolicy.last`). From one policy to the next the
records that count say what becomes of a key (`Fate.of`): it is added, removed, changed or not listed at all.

The difference of two policies shows exactly that (`comparison_exact`): every key where it belongs and nowhere else, in
ascending order. The other way round, what is added and what is removed are exchanged (`EntityDiff.between_swap`), and
where no key is repeated nothing is listed exactly if both policies have the same records
(`EntityDiff.isEmpty_between_iff`).

The laws are those of lists of records of any type, and all kinds have them as one (`diffOf_eq_between`).
-/

namespace AccessPlan

/-- What becomes of a key. -/
inductive Fate where
  | added
  | removed
  | changed
  | unlisted
  deriving DecidableEq, Repr

/-- What becomes of a key, from the record that counts before and the one that counts after. A key that never has a
record is not listed. -/
def Fate.of {α : Type} (same : α → α → Bool) : Option α → Option α → Fate
  | none, none => unlisted
  | none, some _ => added
  | some _, none => removed
  | some old, some new => if same new old then unlisted else changed

namespace Fate

variable {α β : Type} {same : α → α → Bool} {old new : Option α}

theorem of_eq_unlisted_iff : Fate.of same old new = .unlisted ↔
    old = none ∧ new = none ∨ ∃ o n, old = some o ∧ new = some n ∧ same n o = true := by
  cases old <;> cases new <;> simp [Fate.of]

theorem of_map {same' : β → β → Bool} {wrap : α → β} (hsame : ∀ r s, same' (wrap r) (wrap s) = same r s) :
    Fate.of same' (old.map wrap) (new.map wrap) = Fate.of same old new := by
  cases old <;> cases new <;> simp [Fate.of, hsame]

end Fate

namespace EntityDiff

/-- A key stands where it belongs by what became of it. -/
def Shows (d : EntityDiff) (k : String) : Fate → Prop
  | .added => k ∈ d.added
  | .removed => k ∈ d.removed
  | .changed => k ∈ d.changed
  | .unlisted => ¬ d.Lists k

/-- All lists are in strictly ascending order. -/
structure IsAscending (d : EntityDiff) : Prop where
  added : d.added.Pairwise (· < ·)
  removed : d.removed.Pairwise (· < ·)
  changed : d.changed.Pairwise (· < ·)

/-- The difference the other way round. -/
def swap (d : EntityDiff) : EntityDiff := ⟨d.removed, d.added, d.changed⟩

/-- A difference is told by what it shows. -/
theorem eq_of_shows {d d' : EntityDiff} (h : d.IsAscending) (h' : d'.IsAscending)
    (hs : ∀ k fate, d.Shows k fate ↔ d'.Shows k fate) : d = d' := by
  have hadded : d.added = d'.added := eq_of_ascending h.added h'.added fun k => hs k .added
  have hremoved : d.removed = d'.removed := eq_of_ascending h.removed h'.removed fun k => hs k .removed
  have hchanged : d.changed = d'.changed := eq_of_ascending h.changed h'.changed fun k => hs k .changed
  cases d
  cases d'
  cases hadded
  cases hremoved
  cases hchanged
  rfl

/-- The record of a key that counts. -/
def lastOf {α : Type} (key : α → String) (records : List α) (k : String) : Option α :=
  records.reverse.find? fun r => k == key r

section Last

variable {α β : Type} {key : α → String} {records : List α} {r : α} {k : String}

theorem get?_index_eq_lastOf : (index key records).get? k = lastOf key records k := by
  rw [index, NameMap.get?_ofList, ← List.map_reverse, lastOf]
  induction records.reverse with
  | nil => rfl
  | cons r rs ih =>
    rw [List.map_cons, List.lookup_cons, List.find?_cons]
    cases k == key r with
    | true => rfl
    | false => exact ih

/-- A key has a record that counts if it has a record. -/
theorem isSome_lastOf_iff : (lastOf key records k).isSome = true ↔ k ∈ records.map key := by
  rw [← get?_index_eq_lastOf, NameMap.isSome_get?_iff, mem_names_index]

theorem mem_of_lastOf (h : lastOf key records k = some r) : r ∈ records ∧ key r = k :=
  mem_of_get?_index (get?_index_eq_lastOf.trans h)

/-- Without repeated keys every record counts. -/
theorem lastOf_key (hn : (records.map key).Nodup) (hr : r ∈ records) : lastOf key records (key r) = some r := by
  rw [← get?_index_eq_lastOf]
  exact get?_index (tellsRecords_of_nodup hn) hr

theorem lastOf_map {key' : β → String} {wrap : α → β} (hkey : ∀ r, key' (wrap r) = key r) :
    lastOf key' (records.map wrap) k = (lastOf key records k).map wrap := by
  simp only [lastOf, ← List.map_reverse, List.find?_map, Function.comp_def, hkey]

end Last

/-! ## Laws of differences -/

section Laws

variable {α : Type} {key : α → String} {same : α → α → Bool} {before after : List α} {k : String} {fate : Fate}

theorem mem_added_iff_lastOf : k ∈ (between key same before after).added ↔
    lastOf key before k = none ∧ (lastOf key after k).isSome = true := by
  rw [mem_added, ← isSome_lastOf_iff, ← isSome_lastOf_iff, Option.not_isSome_iff_eq_none]
  exact and_comm

theorem mem_removed_iff_lastOf : k ∈ (between key same before after).removed ↔
    (lastOf key before k).isSome = true ∧ lastOf key after k = none := by
  rw [mem_removed, ← isSome_lastOf_iff, ← isSome_lastOf_iff, Option.not_isSome_iff_eq_none]

theorem mem_changed_iff_lastOf : k ∈ (between key same before after).changed ↔
    ∃ old new, lastOf key before k = some old ∧ lastOf key after k = some new ∧ same new old = false := by
  rw [between, List.mem_filter, mem_names_index, ← isSome_lastOf_iff, isChanged, get?_index_eq_lastOf,
    get?_index_eq_lastOf]
  cases lastOf key before k <;> cases lastOf key after k <;> simp

/-- A difference shows of every key what becomes of it. -/
theorem shows_iff : (between key same before after).Shows k fate ↔
    Fate.of same (lastOf key before k) (lastOf key after k) = fate := by
  cases fate <;>
    simp only [Shows, Lists, mem_added_iff_lastOf, mem_removed_iff_lastOf, mem_changed_iff_lastOf] <;>
    cases lastOf key before k with
    | none => cases lastOf key after k <;> simp [Fate.of]
    | some old =>
      cases lastOf key after k with
      | none => simp [Fate.of]
      | some new => cases h : same new old <;> simp [Fate.of, h]

theorem isAscending_between : (between key same before after).IsAscending where
  added := (NameMap.pairwise_names _).filter _
  removed := (NameMap.pairwise_names _).filter _
  changed := (NameMap.pairwise_names _).filter _

/-- The other way round, what is added and what is removed are exchanged. -/
theorem between_swap (hs : ∀ old ∈ before, ∀ new ∈ after, same old new = same new old) :
    between key same after before = (between key same before after).swap := by
  have hchanged : (between key same after before).changed = (between key same before after).changed := by
    refine eq_of_ascending isAscending_between.changed isAscending_between.changed fun k => ?_
    rw [mem_changed_iff_lastOf, mem_changed_iff_lastOf]
    constructor
    · rintro ⟨new, old, hn, ho, hne⟩
      exact ⟨old, new, ho, hn, hs old (mem_of_lastOf ho).1 new (mem_of_lastOf hn).1 ▸ hne⟩
    · rintro ⟨old, new, ho, hn, hne⟩
      exact ⟨new, old, hn, ho, (hs old (mem_of_lastOf ho).1 new (mem_of_lastOf hn).1).trans hne⟩
  rw [swap, ← hchanged]
  rfl

/-- Where no key is repeated, nothing is listed exactly if both sides have the same records. -/
theorem isEmpty_between_iff (hkey : ∀ old new, same new old = true → key new = key old)
    (hb : (before.map key).Nodup) (ha : (after.map key).Nodup) :
    (between key same before after).isEmpty = true ↔
      (∀ old ∈ before, ∃ new ∈ after, same new old = true) ∧ ∀ new ∈ after, ∃ old ∈ before, same new old = true := by
  have hshows : (between key same before after).isEmpty = true ↔
      ∀ k, Fate.of same (lastOf key before k) (lastOf key after k) = .unlisted :=
    isEmpty_iff.trans (forall_congr' fun k => (shows_iff : Shows _ k .unlisted ↔ _))
  simp only [hshows, Fate.of_eq_unlisted_iff]
  constructor
  · intro h
    constructor
    · intro old ho
      rcases h (key old) with ⟨hnone, -⟩ | ⟨old', new, ho', hn, hs⟩
      · rw [lastOf_key hb ho] at hnone
        cases hnone
      · obtain rfl := Option.some.inj ((lastOf_key hb ho).symm.trans ho')
        exact ⟨new, (mem_of_lastOf hn).1, hs⟩
    · intro new hn
      rcases h (key new) with ⟨-, hnone⟩ | ⟨old, new', ho, hn', hs⟩
      · rw [lastOf_key ha hn] at hnone
        cases hnone
      · obtain rfl := Option.some.inj ((lastOf_key ha hn).symm.trans hn')
        exact ⟨old, (mem_of_lastOf ho).1, hs⟩
  · rintro ⟨hold, hnew⟩ k
    cases ho : lastOf key before k with
    | none =>
      refine Or.inl ⟨rfl, Option.eq_none_iff_forall_ne_some.2 fun new hn => ?_⟩
      -- the record after would have the same one before, with its key
      obtain ⟨hm, rfl⟩ := mem_of_lastOf hn
      obtain ⟨old, hm', hs⟩ := hnew new hm
      rw [hkey old new hs, lastOf_key hb hm'] at ho
      cases ho
    | some old =>
      obtain ⟨hm, rfl⟩ := mem_of_lastOf ho
      obtain ⟨new, hm', hs⟩ := hold old hm
      exact Or.inr ⟨old, new, rfl, hkey old new hs ▸ lastOf_key ha hm', hs⟩

/-- Records may be wrapped. -/
theorem between_map {β : Type} {key' : β → String} {same' : β → β → Bool} (wrap : α → β)
    (hkey : ∀ r, key' (wrap r) = key r) (hsame : ∀ r s, same' (wrap r) (wrap s) = same r s) :
    between key' same' (before.map wrap) (after.map wrap) = between key same before after := by
  refine eq_of_shows isAscending_between isAscending_between fun k fate => ?_
  rw [shows_iff, shows_iff, lastOf_map hkey, lastOf_map hkey, Fate.of_map hsame]

end Laws

end EntityDiff

/-! ## Records that are the same -/

/-- No object within the secret names a field twice. -/
def Credential.HasProperSecret (c : Credential) : Prop := ∀ s, c.secret = some s → s.NamesOnce

theorem Credential.HasTextSecret.proper {c : Credential} (h : c.HasTextSecret) : c.HasProperSecret := by
  intro s hs
  rcases h with h | ⟨t, h⟩
  · cases h.symm.trans hs
  · obtain rfl := Option.some.inj (h.symm.trans hs)
    exact .str t

section Secrets

variable {c d : Credential}

theorem Credential.same_self (h : c.HasProperSecret) : c.same c = true := by
  have hsecret : (c.secret == c.secret) = true := by
    cases hs : c.secret with
    | none => rfl
    | some s => exact (h s hs).same_self
  simp [same, Calendar.Timestamp.sameInstant, hsecret]

theorem Credential.same_comm (hc : c.HasProperSecret) (hd : d.HasProperSecret) : c.same d = d.same c := by
  have hsecret : (c.secret == d.secret) = (d.secret == c.secret) := by
    cases hs : c.secret with
    | none => cases d.secret <;> rfl
    | some s =>
      cases ht : d.secret with
      | none => rfl
      | some t => exact (hc s hs).same_comm (hd t ht)
  simp [same, Calendar.Timestamp.sameInstant, hsecret, BEq.comm]

theorem Credential.key_eq_of_same (h : c.same d = true) : c.key = d.key := by
  simp only [same, Bool.and_eq_true, beq_iff_eq] at h
  exact h.1.1.1.1.1

end Secrets

namespace Entity

/-- Whether two records are the same, end dates compared by the instant. -/
def same : Entity → Entity → Bool
  | group g, group h => g == h
  | membership m, membership n => m == n
  | roleDefinition r, roleDefinition s => r == s
  | assignment a, assignment b => a == b
  | application a, application b => a == b
  | servicePrincipal s, servicePrincipal t => s == t
  | ownerEdge o, ownerEdge p => o == p
  | credential c, credential d => c.same d
  | _, _ => false

/-- A record without an object that names a field twice. Only secrets may have objects. -/
def IsProper : Entity → Prop
  | credential c => c.HasProperSecret
  | _ => True

variable {e e' : Entity}

theorem same_self (h : e.IsProper) : e.same e = true := by
  cases e with
  | credential c => exact Credential.same_self h
  | _ => exact beq_self_eq_true _

theorem same_comm (h : e.IsProper) (h' : e'.IsProper) : e.same e' = e'.same e := by
  cases e <;> cases e' <;> first | rfl | exact Credential.same_comm h h' | exact BEq.comm

/-- Records that are the same are of one kind and have one key. -/
theorem identity_eq_of_same (h : e.same e' = true) : e.identity = e'.identity := by
  cases e with
  | credential c =>
    cases e' with
    | credential d => exact congrArg (Prod.mk EntityKind.credentials) (Credential.key_eq_of_same h)
    | _ => cases h
  | _ => cases e' <;> first | cases h | exact congrArg identity (congrArg _ (eq_of_beq h))

end Entity

/-! ## Differences of policies -/

namespace ResolvedPolicy

/-- The records of a kind. -/
def records (p : ResolvedPolicy) : EntityKind → List Entity
  | .groups => p.groups.map .group
  | .memberships => p.memberships.map .membership
  | .roleDefinitions => p.roleDefinitions.map .roleDefinition
  | .assignments => p.assignments.map .assignment
  | .applications => p.applications.map .application
  | .servicePrincipals => p.servicePrincipals.map .servicePrincipal
  | .ownerEdges => p.ownerEdges.map .ownerEdge
  | .credentials => p.credentials.map .credential

/-- The record of a kind and a key that counts: the last one. -/
def last (p : ResolvedPolicy) (kind : EntityKind) (k : String) : Option Entity :=
  EntityDiff.lastOf Entity.key (p.records kind) k

/-- No object within a secret names a field twice. -/
def HasProperSecrets (p : ResolvedPolicy) : Prop := ∀ c ∈ p.credentials, c.HasProperSecret

/-- No kind has two records with one key. -/
def HasDistinctKeys (p : ResolvedPolicy) : Prop := ∀ kind, (p.keys kind).Nodup

/-- Two policies have the same records, whatever their order. -/
structure SameRecords (p q : ResolvedPolicy) : Prop where
  left : ∀ old, p.Has old → ∃ new, q.Has new ∧ new.same old = true
  right : ∀ new, q.Has new → ∃ old, p.Has old ∧ new.same old = true

variable {p q : ResolvedPolicy} {kind : EntityKind} {e : Entity}

theorem map_key_records : (p.records kind).map Entity.key = p.keys kind := by
  cases kind <;> exact List.map_map

theorem mem_records_iff : e ∈ p.records kind ↔ p.Has e ∧ e.kind = kind := by
  cases kind <;> cases e <;> simp [records, Has, Entity.kind]

theorem HasProperSecrets.isProper (h : p.HasProperSecrets) (he : p.Has e) : e.IsProper := by
  cases e with
  | credential c => exact h c he
  | _ => trivial

end ResolvedPolicy

section Policies

open ResolvedPolicy (map_key_records mem_records_iff)

variable {p q : ResolvedPolicy} {kind : EntityKind}

/-- All kinds are compared in one way. -/
theorem diffOf_eq_between : diffOf p q kind = .between Entity.key Entity.same (p.records kind) (q.records kind) := by
  symm
  cases kind <;> exact EntityDiff.between_map _ (fun _ => rfl) fun _ _ => rfl

theorem shows_diffOf_iff {k : String} {fate : Fate} :
    (diffOf p q kind).Shows k fate ↔ Fate.of Entity.same (p.last kind k) (q.last kind k) = fate := by
  rw [diffOf_eq_between]
  exact EntityDiff.shows_iff

theorem isAscending_diffOf : (diffOf p q kind).IsAscending := by
  rw [diffOf_eq_between]
  exact EntityDiff.isAscending_between

theorem diffOf_swap (hp : p.HasProperSecrets) (hq : q.HasProperSecrets) : diffOf q p kind = (diffOf p q kind).swap := by
  rw [diffOf_eq_between, diffOf_eq_between]
  refine EntityDiff.between_swap fun old ho new hn => ?_
  exact Entity.same_comm (hp.isProper (mem_records_iff.1 ho).1) (hq.isProper (mem_records_iff.1 hn).1)

theorem isEmpty_between_self (hp : p.HasProperSecrets) : (PolicyDiff.between p p).isEmpty = true := by
  rw [PolicyDiff.isEmpty_iff]
  intro kind
  rw [diffOf_eq_between]
  exact EntityDiff.isEmpty_between_self fun e he => Entity.same_self (hp.isProper (mem_records_iff.1 he).1)

theorem isEmpty_diffOf_iff (hp : p.HasDistinctKeys) (hq : q.HasDistinctKeys) : (diffOf p q kind).isEmpty = true ↔
    (∀ old ∈ p.records kind, ∃ new ∈ q.records kind, new.same old = true) ∧
      ∀ new ∈ q.records kind, ∃ old ∈ p.records kind, new.same old = true := by
  rw [diffOf_eq_between]
  refine EntityDiff.isEmpty_between_iff (fun old new h => ?_) ?_ ?_
  · exact congrArg Prod.snd (Entity.identity_eq_of_same h)
  · rw [map_key_records]
    exact hp kind
  · rw [map_key_records]
    exact hq kind

/-- Where no key is repeated, nothing is listed exactly if both policies have the same records. -/
theorem isEmpty_iff_sameRecords (hp : p.HasDistinctKeys) (hq : q.HasDistinctKeys) :
    (PolicyDiff.between p q).isEmpty = true ↔ p.SameRecords q := by
  rw [PolicyDiff.isEmpty_iff]
  simp only [isEmpty_diffOf_iff hp hq, mem_records_iff]
  constructor
  · intro h
    constructor
    · intro old ho
      obtain ⟨new, ⟨hn, -⟩, hs⟩ := (h old.kind).1 old ⟨ho, rfl⟩
      exact ⟨new, hn, hs⟩
    · intro new hn
      obtain ⟨old, ⟨ho, -⟩, hs⟩ := (h new.kind).2 new ⟨hn, rfl⟩
      exact ⟨old, ho, hs⟩
  · rintro h kind
    constructor
    · rintro old ⟨ho, rfl⟩
      obtain ⟨new, hn, hs⟩ := h.left old ho
      exact ⟨new, ⟨hn, congrArg Prod.fst (Entity.identity_eq_of_same hs)⟩, hs⟩
    · rintro new ⟨hn, rfl⟩
      obtain ⟨old, ho, hs⟩ := h.right new hn
      exact ⟨old, ⟨ho, (congrArg Prod.fst (Entity.identity_eq_of_same hs)).symm⟩, hs⟩

end Policies

/-- What the differences of two policies tell. -/
structure PolicyDiff.IsExact (p q : ResolvedPolicy) : Prop where
  /-- Every key is shown as what becomes of it, and as nothing else. -/
  shows : ∀ kind k fate, ((PolicyDiff.between p q).changes kind).Shows k fate ↔
    Fate.of Entity.same (p.last kind k) (q.last kind k) = fate
  ascending : ∀ kind, ((PolicyDiff.between p q).changes kind).IsAscending
  /-- The other way round, what is added and what is removed are exchanged. -/
  swap : ∀ kind, (PolicyDiff.between q p).changes kind = ((PolicyDiff.between p q).changes kind).swap
  self : (PolicyDiff.between p p).isEmpty = true
  /-- Where no key is repeated, nothing is listed exactly if both policies have the same records. -/
  isEmpty_iff : p.HasDistinctKeys → q.HasDistinctKeys → ((PolicyDiff.between p q).isEmpty = true ↔ p.SameRecords q)

/-- The differences of policies tell what becomes of every key. Every policy that is read or that a configuration
resolves to has proper secrets, and one that is resolved repeats no key. -/
theorem comparison_exact :
    (∀ p q : ResolvedPolicy, p.HasProperSecrets → q.HasProperSecrets → PolicyDiff.IsExact p q) ∧
      (∀ document p, ResolvedPolicy.ofDocument document = .ok p → p.HasProperSecrets) ∧
      ∀ j config context p, PolicyConfig.ofJson j = .ok config → resolve config context = .ok p →
        p.HasProperSecrets ∧ p.HasDistinctKeys := by
  refine ⟨fun p q hp hq => ?_, fun document p h c hc => ?_, fun j config context p hj h => ?_⟩
  · exact {
      shows := fun kind k fate => shows_diffOf_iff
      ascending := fun kind => isAscending_diffOf
      swap := fun kind => diffOf_swap hp hq
      self := isEmpty_between_self hp
      isEmpty_iff := isEmpty_iff_sameRecords }
  · exact (ResolvedPolicy.hasTextSecrets_of_ofDocument h c hc).proper
  · obtain ⟨records, hr⟩ := PolicyConfig.exists_records h
    have hv := PolicyConfig.isValid_of_ofJson hj
    refine ⟨fun c hc s hs => ?_, hr.nodup_keys hv⟩
    rw [hr.secret_eq_none hv.owners c hc] at hs
    cases hs

/-- A policy of edges of owners only. -/
def policyOfEdges (edges : List OwnerEdge) : ResolvedPolicy := ⟨[], [], [], [], [], [], edges, [], .empty⟩

/-- Of two edges with one key the last one counts. -/
theorem comparison_exact_edges :
    let before := policyOfEdges [⟨"api", "web/ann"⟩, ⟨"api/web", "ann"⟩]
    let after := policyOfEdges [⟨"api/web", "ann"⟩, ⟨"web", "ann"⟩]
    diffOf before after .ownerEdges = ⟨["web/ann"], [], []⟩ ∧ PolicyDiff.IsExact before after := by
  intro before after
  refine ⟨by decide, comparison_exact.1 before after (fun c hc => ?_) fun c hc => ?_⟩
  · cases hc
  · cases hc

end AccessPlan
