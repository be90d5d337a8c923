import AccessPlan.Proofs.Hierarchy.Building
import AccessPlan.Proofs.Schema.Agreement

/-!
# Building a hierarchy from any values

The names and the owners of a hierarchy may be values that nothing has checked before. A hierarchy is only built
from texts.

* `exists_names_of_checkNames`, `exists_texts_of_ownersOf`: values that pass as names or as owners are texts.
* `exists_texts_of_build`: a hierarchy that is built from any values is that of the blueprint of texts.
-/

namespace AccessPlan

section Texts

variable {values : List Json} {sorted : List String}

theorem texts?_eq_some {values : List Json} {xs : List String} (h : Json.texts? values = some xs) :
    values = xs.map .str := by
  induction values generalizing xs with
  | nil => rw [← Option.some.inj h, List.map_nil]
  | cons v values ih =>
    cases v with
    | str s =>
      obtain ⟨ys, hys, rfl⟩ := Option.map_eq_some_iff.1 h
      rw [List.map_cons, ih hys]
    | _ => cases h

theorem texts?_eq_none {values : List Json} (h : Json.texts? values = none) : ∃ v ∈ values, v.str? = none := by
  induction values with
  | nil => cases h
  | cons v values ih =>
    cases v with
    | str s =>
      obtain ⟨v, hm, hv⟩ := ih (Option.map_eq_none_iff.1 h)
      exact ⟨v, List.mem_cons_of_mem _ hm, hv⟩
    | _ => exact ⟨_, List.mem_cons_self, rfl⟩

theorem checkPrefix_eq_ok_iff {value : Json} {org : String} :
    checkPrefix value = .ok org ↔ value = .str org ∧ isPrefixText org = true := by
  cases value with
  | str s =>
    rw [checkPrefix_str, Json.str.injEq]
    constructor
    · rintro ⟨h, rfl⟩
      exact ⟨rfl, h⟩
    · rintro ⟨rfl, h⟩
      exact ⟨h, rfl⟩
  | _ => exact ⟨nofun, fun h => nomatch h.1⟩

/-- Values that pass as names are names. -/
theorem exists_names_of_checkNames {field : FieldName} (h : checkNames field values = .ok sorted) :
    ∃ names, values = names.map .str ∧ AreNames names ∧ sorted = sortedBy id names := by
  cases ht : Json.texts? values with
  | some names =>
    obtain rfl := texts?_eq_some ht
    exact ⟨names, rfl, checkNames_texts.1 h⟩
  | none =>
    obtain ⟨v, hm, hv⟩ := texts?_eq_none ht
    have hbad : (nameOf? v).isNone = true := by
      cases v with
      | str s => cases hv
      | _ => rfl
    have hsome : (values.find? fun v => (nameOf? v).isNone).isSome := List.find?_isSome.2 ⟨v, hm, hbad⟩
    obtain ⟨bad, hfound⟩ := Option.isSome_iff_exists.1 hsome
    rw [checkNames, hfound] at h
    cases h

/-- What is no text is not the same as a text. -/
theorem beq_str_eq_false {v : Json} {s : String} (hv : v.str? = none) : (v == .str s) = false := by
  show Json.same v (.str s) = false
  cases v with
  | str t => cases hv
  | float x => cases x <;> simp [Json.same, Json.number?]
  | _ => simp [Json.same, Json.number?]

/-- Of values that are taken once each, one is no text if one was none. -/
theorem exists_mem_eraseDups : ∀ {values : List Json}, (∃ v ∈ values, v.str? = none) →
    ∃ v ∈ values.eraseDups, v.str? = none
  | [], h => h
  | w :: values, h => by
    rw [List.eraseDups_cons]
    cases w with
    | str s =>
      obtain ⟨v, hm, hv⟩ := h
      rcases List.mem_cons.1 hm with rfl | hm
      · cases hv
      · have hkept : v ∈ values.filter fun b => !b == .str s :=
          List.mem_filter.2 ⟨hm, by rw [beq_str_eq_false hv]; rfl⟩
        obtain ⟨u, hu, hnone⟩ := exists_mem_eraseDups ⟨v, hkept, hv⟩
        exact ⟨u, List.mem_cons_of_mem _ hu, hnone⟩
    | _ => exact ⟨_, List.mem_cons_self, rfl⟩
termination_by values => values.length
decreasing_by exact Nat.lt_succ_of_le (List.length_filter_le _ _)

/-- Values that pass as owners are texts. -/
theorem exists_texts_of_ownersOf {record : String} (h : ownersOf record values = .ok sorted) :
    ∃ owners, values = owners.map .str ∧ sorted = sortedUnique owners := by
  cases ht : Json.texts? values with
  | some owners =>
    obtain rfl := texts?_eq_some ht
    rw [ownersOf_texts] at h
    exact ⟨owners, rfl, (Except.ok.inj h).symm⟩
  | none =>
    obtain ⟨v, hm, hv⟩ := exists_mem_eraseDups (texts?_eq_none ht)
    rw [ownersOf, ht] at h
    simp only [bind_eq_ok, mapError_eq_ok] at h
    obtain ⟨distinct, hdistinct, -, -, hread⟩ := h
    rw [Schema.Checked.toExcept_eq_ok] at hread
    have hall : distinct = sorted.map .str := Json.arr.inj (Schema.Reader.texts_eq_ok hread)
    unfold Json.distinct at hdistinct
    split at hdistinct
    · cases hdistinct
    · rw [Except.ok.inj hdistinct, hall] at hm
      obtain ⟨s, -, rfl⟩ := List.mem_map.1 hm
      cases hv

end Texts

theorem eq_nil_of_signsOf : ∀ {cs : List Char}, Text.signsOf cs = [] → cs = []
  | [], _ => rfl
  | c :: d :: cs, h => by
    unfold Text.signsOf at h
    split at h <;> cases h

/-- What counts as switched on has items if it may be run through. -/
theorem itemsOf_ne_nil {j : Json} {values : List Json} (ht : j.truthy = true) (h : j.itemsOf = .ok values) :
    values ≠ [] := by
  rintro rfl
  cases j with
  | arr items =>
    rw [Except.ok.inj h] at ht
    cases ht
  | obj fields =>
    rw [List.map_eq_nil_iff.1 (Except.ok.inj h)] at ht
    cases ht
  | str s =>
    have hsigns : Text.signs s = [] := List.map_eq_nil_iff.1 (Except.ok.inj h)
    rw [String.toList_eq_nil_iff.1 (eq_nil_of_signsOf hsigns)] at ht
    cases ht
  | _ => cases h

/-- A hierarchy that is built from any values is that of the blueprint of texts. -/
theorem exists_texts_of_build {org environments projects owners : Json} {projectGroups : Bool} {h : Hierarchy}
    (hb : Hierarchy.build org environments projects projectGroups owners = .ok h) :
    ∃ s es ps os, org = .str s ∧ environments.itemsOf = .ok (es.map .str) ∧ es ≠ [] ∧
      projects.itemsOrNone = .ok (ps.map .str) ∧ owners.itemsOrNone = .ok (os.map .str) ∧
      isPrefixText s = true ∧ AreNames es ∧ AreNames ps ∧
      ((Blueprint.ofTexts s es ps projectGroups os).groups.map Group.key).Nodup ∧
      h = (Blueprint.ofTexts s es ps projectGroups os).hierarchy := by
  simp only [Hierarchy.build, bind_eq_ok, mapError_eq_ok, checkPrefix_eq_ok_iff] at hb
  obtain ⟨s, ⟨rfl, hs⟩, hb⟩ := hb
  split at hb
  · obtain ⟨_, hthrown, -⟩ := bind_eq_ok.1 hb
    cases hthrown
  · rename_i ht
    simp only [bind_eq_ok, mapError_eq_ok, ofGroups_eq_ok_iff] at hb
    obtain ⟨vs, hvs, _, hes, ws, hws, _, hps, us, hus, _, hos, hn, rfl⟩ := hb
    obtain ⟨es, rfl, henvironments, rfl⟩ := exists_names_of_checkNames hes
    obtain ⟨ps, rfl, hprojects, rfl⟩ := exists_names_of_checkNames hps
    obtain ⟨os, rfl, rfl⟩ := exists_texts_of_ownersOf hos
    have hne := itemsOf_ne_nil (by simpa using ht) hvs
    exact ⟨s, es, ps, os, rfl, hvs, fun h => hne (by rw [h, List.map_nil]), hws, hus, hs, henvironments, hprojects, hn,
      rfl⟩

end AccessPlan
