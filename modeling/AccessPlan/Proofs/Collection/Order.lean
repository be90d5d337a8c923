import AccessPlan.Collection.NameMap

/-!
# What sorting and maps keep

* `sortedBy_perm`, `pairwise_sortedBy`: sorting only rearranges, and gives the order.
* `sortedBy_eq_of_perm`, `sortedUnique_eq_of_mem_iff`: sorted texts do not tell the order that they came in.
* `eq_of_ascending`: a strictly ascending list is told by what is in it.
* `NameMap.get?_eq_some_iff`: a map binds a name to a value exactly when the pair is one of its entries.
* `NameMap.eq_of_get?`: a map is what it binds; `NameMap.ofList_entries`: its entries give it back.
* `NameMap.get?_ofList`: in the map of a list the last binding of a name counts; if no name has two,
  `NameMap.get?_ofList_eq_some_iff` says which bindings the map has.
* `nodup_eraseDups`: what is left of a list without repetitions has none.
-/

namespace AccessPlan

section Sorting

variable {α : Type} {key : α → String} {xs : List α} {x : α}

theorem sortedBy_perm (key : α → String) (xs : List α) : (sortedBy key xs).Perm xs := List.mergeSort_perm _ _

@[simp] theorem mem_sortedBy : x ∈ sortedBy key xs ↔ x ∈ xs := (sortedBy_perm key xs).mem_iff

/-- What is sorted is in ascending order of its keys. -/
theorem pairwise_sortedBy (key : α → String) (xs : List α) : (sortedBy key xs).Pairwise fun a b => key a ≤ key b := by
  have htrans : ∀ a b c : α, decide (key a ≤ key b) = true → decide (key b ≤ key c) = true →
      decide (key a ≤ key c) = true := by
    intro a b c hab hbc
    exact decide_eq_true (String.le_trans (of_decide_eq_true hab) (of_decide_eq_true hbc))
  have htotal : ∀ a b : α, (decide (key a ≤ key b) || decide (key b ≤ key a)) = true := by
    intro a b
    rw [Bool.or_eq_true, decide_eq_true_eq, decide_eq_true_eq]
    exact String.le_total (key a) (key b)
  exact (List.pairwise_mergeSort htrans htotal xs).imp of_decide_eq_true

/-- If the keys are different, each is less than the next. -/
theorem ascending_keys_sortedBy (hn : ((sortedBy key xs).map key).Nodup) :
    ((sortedBy key xs).map key).Pairwise (· < ·) := by
  have hle : ((sortedBy key xs).map key).Pairwise (· ≤ ·) := List.pairwise_map.2 (pairwise_sortedBy key xs)
  exact (hle.and hn).imp fun ⟨hle, hne⟩ => String.not_le.1 fun hge => hne (String.le_antisymm hle hge)

/-- What is in order already stays as it is. -/
theorem sortedBy_of_pairwise (h : xs.Pairwise fun a b => key a ≤ key b) : sortedBy key xs = xs :=
  List.mergeSort_of_pairwise (h.imp fun h => decide_eq_true h)

/-- Texts in ascending order stay as they are. -/
theorem sortedBy_id_of_pairwise {names : List String} (h : names.Pairwise (· ≤ ·)) : sortedBy id names = names :=
  sortedBy_of_pairwise h

/-- The order of texts does not reach the sorted texts. -/
theorem sortedBy_eq_of_perm {names names' : List String} (h : names.Perm names') :
    sortedBy id names = sortedBy id names' := by
  have hp := ((sortedBy_perm id names).trans h).trans (sortedBy_perm id names').symm
  exact hp.eq_of_pairwise (fun _ _ _ _ hle hge => String.le_antisymm hle hge) (pairwise_sortedBy id names)
    (pairwise_sortedBy id names')

/-- The keys of what is sorted are the sorted keys. -/
theorem map_key_sortedBy (key : α → String) (xs : List α) : (sortedBy key xs).map key = sortedBy id (xs.map key) := by
  have hp := ((sortedBy_perm key xs).map key).trans (sortedBy_perm id (xs.map key)).symm
  exact hp.eq_of_pairwise (fun _ _ _ _ hle hge => String.le_antisymm hle hge)
    (List.pairwise_map.2 (pairwise_sortedBy key xs)) (pairwise_sortedBy id (xs.map key))

/-- A strictly ascending list is told by what is in it. -/
theorem eq_of_ascending {names names' : List String} (h : names.Pairwise (· < ·)) (h' : names'.Pairwise (· < ·))
    (hm : ∀ n, n ∈ names ↔ n ∈ names') : names = names' := by
  have hp : names.Perm names' :=
    (List.perm_ext_iff_of_nodup (h.imp String.ne_of_lt) (h'.imp String.ne_of_lt)).2 hm
  exact hp.eq_of_pairwise (fun _ _ _ _ hlt hgt => absurd hlt (String.lt_asymm hgt)) h h'

/-- Neither the order of texts nor how often they occur reaches the sorted texts without repetitions. -/
theorem sortedUnique_eq_of_mem_iff {names names' : List String} (h : ∀ n, n ∈ names ↔ n ∈ names') :
    sortedUnique names = sortedUnique names' :=
  eq_of_ascending (pairwise_sortedUnique names) (pairwise_sortedUnique names') fun n => by
    rw [mem_sortedUnique, mem_sortedUnique, h]

theorem sortedUnique_eq_nil_iff {names : List String} : sortedUnique names = [] ↔ names = [] := by
  simp only [List.eq_nil_iff_forall_not_mem, mem_sortedUnique]

/-- What is left of a list without its repetitions has none. -/
theorem nodup_eraseDups [BEq α] [LawfulBEq α] (xs : List α) : xs.eraseDups.Nodup := by
  match xs with
  | [] => exact .nil
  | x :: xs =>
    rw [List.eraseDups_cons, List.nodup_cons]
    refine ⟨fun h => ?_, nodup_eraseDups _⟩
    have hf := (List.mem_filter.1 (List.mem_eraseDups.1 h)).2
    simp at hf
termination_by xs.length
decreasing_by exact Nat.lt_succ_of_le (List.length_filter_le _ _)

end Sorting

namespace NameMap

variable {α : Type} {m : NameMap α} {name : String} {v : α} {e : String × α}

theorem mem_names : name ∈ m.names ↔ ∃ v, (name, v) ∈ m.entries := by
  simp [names]

theorem pairwise_names (m : NameMap α) : m.names.Pairwise (· < ·) := List.pairwise_map.2 m.ascending

theorem nodup_names (m : NameMap α) : m.names.Nodup := m.pairwise_names.imp String.ne_of_lt

theorem find_eq_some_iff : ∀ {es : List (String × α)}, es.Pairwise (fun a b => a.1 < b.1) →
    (find name es = some v ↔ (name, v) ∈ es)
  | [], _ => by simp [find]
  | e :: es, h => by
    obtain ⟨he, hes⟩ := List.pairwise_cons.1 h
    rw [find, List.mem_cons]
    split
    · rename_i hn
      -- a later entry has a greater name, so the entry found is the only one
      have hno : (name, v) ∉ es := fun hm => absurd hn.symm (String.ne_of_lt (he _ hm))
      simp only [Option.some.injEq, hno, or_false]
      exact ⟨fun hv => by rw [hn, ← hv], fun hv => by rw [← hv]⟩
    · rename_i hn
      rw [find_eq_some_iff hes]
      exact ⟨Or.inr, fun h => h.resolve_left fun heq => hn (by rw [← heq])⟩

/-- A map binds a name to a value exactly when the pair is one of its entries. -/
theorem get?_eq_some_iff : m.get? name = some v ↔ (name, v) ∈ m.entries := find_eq_some_iff m.ascending

theorem isSome_get?_iff : (m.get? name).isSome = true ↔ name ∈ m.names := by
  rw [Option.isSome_iff_exists, mem_names]
  simp only [get?_eq_some_iff]

theorem mem_insertEntry : ∀ {es : List (String × α)}, e ∈ insertEntry name v es → e = (name, v) ∨ e ∈ es
  | [], h => Or.inl (List.mem_singleton.1 h)
  | f :: es, h => by
    unfold insertEntry at h
    split at h
    · exact List.mem_cons.1 h
    · split at h
      · exact (List.mem_cons.1 h).imp_right (List.mem_cons_of_mem _)
      · rcases List.mem_cons.1 h with rfl | h
        · exact Or.inr List.mem_cons_self
        · exact (mem_insertEntry h).imp_right (List.mem_cons_of_mem _)

/-- The entries of the map of a list are entries of the list. -/
theorem mem_ofList {es : List (String × α)} (h : e ∈ (ofList es).entries) : e ∈ es := by
  have hf : ∀ (es : List (String × α)) (m : NameMap α),
      e ∈ (es.foldl (fun m e => m.insert e.1 e.2) m).entries → e ∈ es ∨ e ∈ m.entries := by
    intro es
    induction es with
    | nil => exact fun m h => Or.inr h
    | cons f es ih =>
      intro m h
      rcases ih _ h with h | h
      · exact Or.inl (List.mem_cons_of_mem f h)
      · exact (mem_insertEntry h).imp (fun he => by rw [he]; exact List.mem_cons_self) id
  exact (hf es empty h).resolve_right fun hn => by cases hn

theorem get?_foldl_insert_last : ∀ (es : List (String × α)) (m : NameMap α),
    (es.foldl (fun m e => m.insert e.1 e.2) m).get? name = (es.reverse.lookup name).or (m.get? name)
  | [], _ => rfl
  | (k, u) :: es, m => by
    rw [List.foldl_cons, get?_foldl_insert_last es, get?_insert, List.reverse_cons, List.lookup_append, Option.or_assoc]
    by_cases h : name = k
    · subst h
      simp
    · simp [h, List.lookup_cons, beq_eq_false_iff_ne.2 h]

/-- Of the bindings of a name the last one counts. -/
theorem get?_ofList {es : List (String × α)} : (ofList es).get? name = es.reverse.lookup name := by
  rw [ofList, get?_foldl_insert_last, get?_empty, Option.or_none]

/-- Maps that bind the same names to the same values are equal. -/
theorem eq_of_get? {m m' : NameMap α} (h : ∀ name, m.get? name = m'.get? name) : m = m' := by
  have hmem : ∀ e, e ∈ m.entries ↔ e ∈ m'.entries := by
    rintro ⟨name, v⟩
    rw [← get?_eq_some_iff, h, get?_eq_some_iff]
  have hnodup : ∀ m : NameMap α, m.entries.Nodup := fun m => m.ascending.imp fun hlt he =>
    String.ne_of_lt hlt (congrArg Prod.fst he)
  have hp : m.entries.Perm m'.entries := (List.perm_ext_iff_of_nodup (hnodup m) (hnodup m')).2 hmem
  have he : m.entries = m'.entries :=
    hp.eq_of_pairwise (fun _ _ _ _ hlt hgt => absurd hlt (String.lt_asymm hgt)) m.ascending m'.ascending
  cases m
  cases m'
  cases he
  rfl

/-- The map of the entries of a map is this map. -/
theorem ofList_entries (m : NameMap α) : ofList m.entries = m := by
  refine eq_of_get? fun name => ?_
  rw [ofList, get?_foldl_insert name m.entries empty m.ascending, get?_empty, Option.or_none]
  rfl

/-- A list in strictly ascending order of its names holds the entries of its map. -/
theorem entries_ofList {es : List (String × α)} (h : es.Pairwise fun a b => a.1 < b.1) : (ofList es).entries = es :=
  congrArg entries (ofList_entries ⟨es, h⟩)

/-- The map of a list binds the names of its entries. -/
theorem mem_names_ofList {es : List (String × α)} : name ∈ (ofList es).names ↔ name ∈ es.map (·.1) := by
  rw [← isSome_get?_iff, get?_ofList, List.lookup_isSome_iff]
  simp only [List.mem_reverse, beq_iff_eq, List.mem_map]
  exact exists_congr fun e => and_congr_right fun _ => eq_comm

/-- A list that binds no name to two values has the bindings of its map. -/
theorem get?_ofList_eq_some_iff {es : List (String × α)} (h : ∀ n u w, (n, u) ∈ es → (n, w) ∈ es → u = w) :
    (ofList es).get? name = some v ↔ (name, v) ∈ es := by
  rw [get?_eq_some_iff]
  constructor
  · exact mem_ofList
  · intro hm
    obtain ⟨w, hw⟩ := mem_names.1 (mem_names_ofList.2 (List.mem_map_of_mem hm))
    rwa [h name v w hm (mem_ofList hw)]

/-- Two lists with the same bindings have the same map. -/
theorem ofList_congr {es fs : List (String × α)} (h : ∀ n u w, (n, u) ∈ es → (n, w) ∈ es → u = w)
    (hm : ∀ e, e ∈ es ↔ e ∈ fs) : ofList es = ofList fs := by
  have h' : ∀ n u w, (n, u) ∈ fs → (n, w) ∈ fs → u = w := by
    intro n u w hu hw
    exact h n u w ((hm _).2 hu) ((hm _).2 hw)
  apply eq_of_get?
  intro name
  apply Option.ext
  intro v
  rw [get?_ofList_eq_some_iff h, get?_ofList_eq_some_iff h', hm]

end NameMap

end AccessPlan
