import AccessPlan.Policy.Diff
import AccessPlan.Proofs.Collection.Order
import Mathlib.Data.List.Nodup

/-!
# What a difference lists

A key is added or removed if only one side has a record of it (`mem_added`, `mem_removed`). Where every key
tells its record, as in a policy, a key is changed exactly if its two records are not the same (`mem_changed`,
`exists_of_mem_changed`), so whatever is listed is the key of a record that only one side has
(`exists_of_lists`).

* `isEmpty_between_self`: the same records have no difference.
* `between_of_mem_iff`: where records are only added, the difference lists the keys of the new ones.
-/

namespace AccessPlan

/-- A key tells its record. -/
def TellsRecords {α : Type} (key : α → String) (records : List α) : Prop :=
  ∀ r ∈ records, ∀ s ∈ records, key r = key s → r = s

theorem tellsRecords_of_nodup {α : Type} {key : α → String} {records : List α} (h : (records.map key).Nodup) :
    TellsRecords key records :=
  fun _ hr _ hs he => List.inj_on_of_nodup_map h hr hs he

namespace EntityDiff

/-- A key of the difference, whatever became of its record. -/
def Lists (d : EntityDiff) (k : String) : Prop := k ∈ d.added ∨ k ∈ d.removed ∨ k ∈ d.changed

theorem isEmpty_iff_eq_nil {d : EntityDiff} : d.isEmpty = true ↔ d.added = [] ∧ d.removed = [] ∧ d.changed = [] := by
  simp only [isEmpty, Bool.and_eq_true, List.isEmpty_iff, and_assoc]

theorem isEmpty_iff {d : EntityDiff} : d.isEmpty = true ↔ ∀ k, ¬ d.Lists k := by
  simp only [isEmpty_iff_eq_nil, List.eq_nil_iff_forall_not_mem, Lists, not_or]
  exact ⟨fun h k => ⟨h.1 k, h.2.1 k, h.2.2 k⟩, fun h => ⟨fun k => (h k).1, fun k => (h k).2.1, fun k => (h k).2.2⟩⟩

/-! ## Records by their keys -/

section Index

variable {α : Type} {key : α → String} {records : List α} {r : α} {k : String}

theorem mem_names_index : k ∈ (index key records).names ↔ k ∈ records.map key := by
  rw [index, NameMap.mem_names_ofList, List.map_map]
  rfl

theorem contains_index : (index key records).contains k = true ↔ k ∈ records.map key := by
  rw [NameMap.contains, NameMap.isSome_get?_iff, mem_names_index]

/-- The record that a key is bound to has the key. -/
theorem mem_of_get?_index (h : (index key records).get? k = some r) : r ∈ records ∧ key r = k := by
  obtain ⟨s, hs, he⟩ := List.mem_map.1 (NameMap.mem_ofList (NameMap.get?_eq_some_iff.1 h))
  obtain ⟨rfl, rfl⟩ := Prod.mk.inj he
  exact ⟨hs, rfl⟩

/-- A key that tells its record is bound to it. -/
theorem get?_index (hk : TellsRecords key records) (hr : r ∈ records) :
    (index key records).get? (key r) = some r := by
  have hc : (index key records).contains (key r) = true := contains_index.2 (List.mem_map_of_mem hr)
  obtain ⟨s, hs⟩ := Option.isSome_iff_exists.1 hc
  obtain ⟨hm, he⟩ := mem_of_get?_index hs
  rw [hs, hk s hm r hr he]

end Index

/-! ## Differences of lists of records -/

section Between

variable {α : Type} {key : α → String} {same : α → α → Bool} {before after : List α} {old new : α} {k : String}

theorem mem_added : k ∈ (between key same before after).added ↔ k ∈ after.map key ∧ k ∉ before.map key := by
  rw [between, List.mem_filter, mem_names_index, Bool.not_eq_true', ← Bool.not_eq_true, contains_index]

theorem mem_removed : k ∈ (between key same before after).removed ↔ k ∈ before.map key ∧ k ∉ after.map key := by
  rw [between, List.mem_filter, mem_names_index, Bool.not_eq_true', ← Bool.not_eq_true, contains_index]

theorem exists_of_mem_changed (h : k ∈ (between key same before after).changed) :
    ∃ old new, (old ∈ before ∧ key old = k) ∧ (new ∈ after ∧ key new = k) ∧ same new old = false := by
  obtain ⟨-, hc⟩ := List.mem_filter.1 h
  unfold isChanged at hc
  split at hc
  · rename_i old new ho hn
    exact ⟨old, new, mem_of_get?_index ho, mem_of_get?_index hn, by simpa using hc⟩
  · cases hc

/-- A key that tells its records is changed if they are not the same. -/
theorem mem_changed (hb : TellsRecords key before) (ha : TellsRecords key after) (ho : old ∈ before) (hn : new ∈ after)
    (hk : key old = key new) (hs : same new old = false) : key new ∈ (between key same before after).changed := by
  refine List.mem_filter.2 ⟨mem_names_index.2 (List.mem_map_of_mem hn), ?_⟩
  have hold := get?_index hb ho
  rw [hk] at hold
  simp only [isChanged, hold, get?_index ha hn, hs, Bool.not_false]

/-- A record of both sides is not changed. -/
theorem not_mem_of_mem_changed (ha : TellsRecords key after) (hs : ∀ r ∈ after, same r r = true)
    (ho : key old = k) (hn : new ∈ after ∧ key new = k) (hne : same new old = false) : old ∉ after := by
  intro hm
  obtain rfl := ha old hm new hn.1 (ho.trans hn.2.symm)
  rw [hs old hm] at hne
  cases hne

/-- A key is listed only for a record of one side that the other side does not have. -/
theorem exists_of_lists (ha : TellsRecords key after) (hs : ∀ r ∈ after, same r r = true)
    (h : (between key same before after).Lists k) :
    ∃ r, key r = k ∧ (r ∈ after ∧ r ∉ before ∨ r ∈ before ∧ r ∉ after) := by
  rcases h with h | h | h
  · obtain ⟨hm, hn⟩ := mem_added.1 h
    obtain ⟨r, hr, rfl⟩ := List.mem_map.1 hm
    exact ⟨r, rfl, Or.inl ⟨hr, fun hb => hn (List.mem_map_of_mem hb)⟩⟩
  · obtain ⟨hm, hn⟩ := mem_removed.1 h
    obtain ⟨r, hr, rfl⟩ := List.mem_map.1 hm
    exact ⟨r, rfl, Or.inr ⟨hr, fun hb => hn (List.mem_map_of_mem hb)⟩⟩
  · obtain ⟨old, new, ⟨ho, hk⟩, hn, hne⟩ := exists_of_mem_changed h
    exact ⟨old, hk, Or.inr ⟨ho, not_mem_of_mem_changed ha hs hk hn hne⟩⟩

/-- The same records have no difference. -/
theorem isEmpty_between_self (hs : ∀ r ∈ before, same r r = true) :
    (between key same before before).isEmpty = true := by
  rw [isEmpty_iff]
  rintro k (h | h | h)
  · exact (mem_added.1 h).2 (mem_added.1 h).1
  · exact (mem_removed.1 h).2 (mem_removed.1 h).1
  · obtain ⟨-, hc⟩ := List.mem_filter.1 h
    unfold isChanged at hc
    split at hc
    · rename_i old new ho hn
      obtain rfl := Option.some.inj (ho.symm.trans hn)
      rw [hs old (mem_of_get?_index ho).1] at hc
      cases hc
    · cases hc

/-- Where the records of one side are those of the other that are not new, the difference lists the keys of the
new ones. -/
theorem between_of_mem_iff {New : α → Prop} (hnew : ∀ r, r ∈ before ↔ r ∈ after ∧ ¬ New r)
    (ha : TellsRecords key after) (hs : ∀ r ∈ after, same r r = true) :
    (between key same before after).removed = [] ∧ (between key same before after).changed = [] ∧
      ∀ k, k ∈ (between key same before after).added ↔ ∃ r ∈ after, New r ∧ key r = k := by
  refine ⟨List.eq_nil_iff_forall_not_mem.2 fun k h => ?_, List.eq_nil_iff_forall_not_mem.2 fun k h => ?_, fun k => ?_⟩
  · obtain ⟨hm, hn⟩ := mem_removed.1 h
    obtain ⟨r, hr, rfl⟩ := List.mem_map.1 hm
    exact hn (List.mem_map_of_mem ((hnew r).1 hr).1)
  · obtain ⟨old, new, ⟨ho, hk⟩, hn, hne⟩ := exists_of_mem_changed h
    exact not_mem_of_mem_changed ha hs hk hn hne ((hnew old).1 ho).1
  · rw [mem_added]
    constructor
    · rintro ⟨hm, hn⟩
      obtain ⟨r, hr, rfl⟩ := List.mem_map.1 hm
      refine ⟨r, hr, Classical.byContradiction fun hold => ?_, rfl⟩
      exact hn (List.mem_map_of_mem ((hnew r).2 ⟨hr, hold⟩))
    · rintro ⟨r, hr, hn, rfl⟩
      refine ⟨List.mem_map_of_mem hr, fun hm => ?_⟩
      obtain ⟨s, hs, hk⟩ := List.mem_map.1 hm
      obtain rfl := ha s ((hnew s).1 hs).1 r hr hk
      exact ((hnew s).1 hs).2 hn

end Between

end EntityDiff

/-! ## Differences of policies -/

section Policies

variable {p q : ResolvedPolicy} {kind : EntityKind} {k : String}

theorem mem_added_diffOf : k ∈ (diffOf p q kind).added ↔ k ∈ q.keys kind ∧ k ∉ p.keys kind := by
  cases kind <;> exact EntityDiff.mem_added

theorem mem_removed_diffOf : k ∈ (diffOf p q kind).removed ↔ k ∈ p.keys kind ∧ k ∉ q.keys kind := by
  cases kind <;> exact EntityDiff.mem_removed

/-- Two policies have the same records of a kind. -/
def ResolvedPolicy.Agrees (p q : ResolvedPolicy) : EntityKind → Prop
  | .groups => p.groups = q.groups
  | .memberships => p.memberships = q.memberships
  | .roleDefinitions => p.roleDefinitions = q.roleDefinitions
  | .assignments => p.assignments = q.assignments
  | .applications => p.applications = q.applications
  | .servicePrincipals => p.servicePrincipals = q.servicePrincipals
  | .ownerEdges => p.ownerEdges = q.ownerEdges
  | .credentials => p.credentials = q.credentials

theorem beq_self_of_mem {α : Type} [BEq α] [LawfulBEq α] {records : List α} : ∀ r ∈ records, (r == r) = true :=
  fun r _ => beq_self_eq_true r

/-- Records that are the same have no difference. -/
theorem ResolvedPolicy.Agrees.isEmpty (hs : ∀ cr ∈ p.credentials, cr.same cr = true) (h : p.Agrees q kind) :
    (diffOf p q kind).isEmpty = true := by
  cases kind with
  | credentials =>
    rw [diffOf, ← (h : p.credentials = q.credentials)]
    exact EntityDiff.isEmpty_between_self hs
  | _ =>
    rw [Agrees] at h
    rw [diffOf, h]
    exact EntityDiff.isEmpty_between_self beq_self_of_mem

theorem PolicyDiff.isEmpty_iff : (PolicyDiff.between p q).isEmpty = true ↔
    ∀ kind, (diffOf p q kind).isEmpty = true := by
  rw [PolicyDiff.isEmpty, List.all_eq_true]
  exact ⟨fun h kind => h kind (by cases kind <;> decide), fun h kind _ => h kind⟩

/-- Where the records of one kind alone may be changed, there is no difference exactly if none of them is. -/
theorem PolicyDiff.isEmpty_iff_changed (hne : ∀ kind', kind' ≠ kind → (diffOf p q kind').isEmpty = true)
    (ha : (diffOf p q kind).added = []) (hr : (diffOf p q kind).removed = []) :
    (PolicyDiff.between p q).isEmpty = true ↔ (diffOf p q kind).changed = [] := by
  rw [PolicyDiff.isEmpty_iff]
  constructor
  · intro hall
    exact (EntityDiff.isEmpty_iff_eq_nil.1 (hall kind)).2.2
  · intro hc kind'
    by_cases hk : kind' = kind
    · rw [hk]
      exact EntityDiff.isEmpty_iff_eq_nil.2 ⟨ha, hr, hc⟩
    · exact hne kind' hk

end Policies

end AccessPlan
