import AccessPlan.Proofs.Escape
import AccessPlan.Proofs.Hierarchy.Layers

/-!
# Building a hierarchy from texts

* `isName_eq_true_iff`: which texts are names.
* `build_texts_eq_ok_iff`: a hierarchy is built exactly when the prefix is one, there is an environment, the
  names are names and different, and no two groups have the same key; it is then the hierarchy of the
  blueprint.
* `not_escapes_build`: from texts a hierarchy is built, or the configuration is refused.
-/

namespace AccessPlan

/-- The grammar of names: a lower-case letter or a digit, then such characters and hyphens, and then a line
break or nothing. -/
def IsName (name : String) : Prop :=
  ∃ first rest, isLowerOrDigit first = true ∧ (∀ c ∈ rest, isNameChar c = true) ∧
    (name.toList = first :: rest ∨ name.toList = first :: rest ++ ['\n'])

/-- The texts are names, and different. -/
structure AreNames (names : List String) : Prop where
  isName : ∀ n ∈ names, IsName n
  nodup : names.Nodup

section Grammar

variable {name : String} {cs : List Char}

theorem withoutFinalBreak_append : withoutFinalBreak (cs ++ ['\n']) = cs := by
  simp [withoutFinalBreak]

/-- Characters are those without the line break at the very end, and then that line break or nothing. -/
theorem eq_withoutFinalBreak (cs : List Char) : cs = withoutFinalBreak cs ∨ cs = withoutFinalBreak cs ++ ['\n'] := by
  unfold withoutFinalBreak
  split
  · rename_i h
    exact Or.inr (List.dropLast_append_getLast? _ h).symm
  · exact Or.inl rfl

/-- No line break can stand in a name but at the very end. -/
theorem withoutFinalBreak_of_name {first : Char} (hf : isLowerOrDigit first = true)
    (hr : ∀ c ∈ cs, isNameChar c = true) : withoutFinalBreak (first :: cs) = first :: cs := by
  refine if_neg fun h => ?_
  rcases List.mem_cons.1 (List.mem_of_getLast? h) with rfl | hm
  · exact absurd hf (by decide)
  · exact absurd (hr _ hm) (by decide)

theorem isName_eq_true_iff : isName name = true ↔ IsName name := by
  unfold isName
  constructor
  · intro h
    rcases hc : withoutFinalBreak name.toList with _ | ⟨first, rest⟩
    · rw [hc] at h
      cases h
    · rw [hc, Bool.and_eq_true, List.all_eq_true] at h
      exact ⟨first, rest, h.1, h.2, hc ▸ eq_withoutFinalBreak name.toList⟩
  · rintro ⟨first, rest, hf, hr, hn⟩
    have hc : withoutFinalBreak name.toList = first :: rest := by
      rcases hn with hn | hn
      · rw [hn, withoutFinalBreak_of_name hf hr]
      · rw [hn, withoutFinalBreak_append]
    rw [hc, Bool.and_eq_true, List.all_eq_true]
    exact ⟨hf, hr⟩

instance : DecidablePred IsName := fun _ => decidable_of_iff _ isName_eq_true_iff

end Grammar

section Names

variable {names sorted : List String}

theorem find?_badName_eq_none :
    (names.map Json.str).find? (fun v => (nameOf? v).isNone) = none ↔ ∀ n ∈ names, IsName n := by
  rw [List.find?_eq_none, List.forall_mem_map]
  refine forall₂_congr fun n _ => ?_
  rw [← isName_eq_true_iff]
  cases h : isName n <;> simp [nameOf?, h]

theorem filterMap_nameOf? (h : ∀ n ∈ names, IsName n) : (names.map Json.str).filterMap nameOf? = names := by
  rw [List.filterMap_map]
  refine (List.filterMap_congr fun n hn => ?_).trans List.filterMap_some
  simp [nameOf?, isName_eq_true_iff.2 (h n hn)]

theorem repeatedNames_eq_nil : repeatedNames names = [] ↔ names.Nodup := by
  rw [repeatedNames, sortedUnique_eq_nil_iff, List.filter_eq_nil_iff, List.nodup_iff_count_le_one]
  constructor
  · intro h n
    by_cases hn : n ∈ names
    · simpa using h n hn
    · simp [List.count_eq_zero_of_not_mem hn]
  · intro h n _
    simpa using h n

/-- Texts pass the check of names exactly when they are names and different. -/
theorem checkNames_texts {field : FieldName} :
    checkNames field (names.map Json.str) = .ok sorted ↔ AreNames names ∧ sorted = sortedBy id names := by
  unfold checkNames
  cases hf : (names.map Json.str).find? fun v => (nameOf? v).isNone with
  | some bad =>
    have hn : ¬ AreNames names := fun h => by
      rw [find?_badName_eq_none.2 h.isName] at hf
      cases hf
    simp [hn]
  | none =>
    have hi := find?_badName_eq_none.1 hf
    simp only [filterMap_nameOf? hi, repeatedNames_eq_nil]
    split
    · rename_i hd
      have hN : AreNames names := ⟨hi, hd⟩
      rw [Except.ok.injEq, eq_comm (a := sortedBy id names)]
      exact ⟨fun h => ⟨hN, h⟩, fun h => h.2⟩
    · rename_i hd
      simp only [reduceCtorEq, false_iff, not_and]
      exact fun h => absurd h.nodup hd

end Names

/-- The blueprint of texts in any order. -/
def Blueprint.ofTexts (org : String) (environments projects : List String) (projectGroups : Bool)
    (owners : List String) : Blueprint :=
  ⟨org, sortedBy id environments, sortedBy id projects, projectGroups, sortedUnique owners⟩

/-- Names that are in order stay as they are. -/
theorem Blueprint.ofTexts_of_pairwise {org : String} {environments projects owners : List String} {projectGroups : Bool}
    (he : environments.Pairwise (· ≤ ·)) (hq : projects.Pairwise (· ≤ ·)) :
    ofTexts org environments projects projectGroups owners =
      ⟨org, environments, projects, projectGroups, sortedUnique owners⟩ := by
  rw [ofTexts, sortedBy_id_of_pairwise he, sortedBy_id_of_pairwise hq]

section Build

variable {org : String} {environments projects owners : List String} {projectGroups : Bool} {h : Hierarchy}

theorem ofGroups_eq_ok_iff {groups : List Group} :
    Hierarchy.ofGroups groups = .ok h ↔
      (groups.map Group.key).Nodup ∧ h = ⟨groups, Hierarchy.membershipsOf groups⟩ := by
  rw [← firstRepeated_eq_none, Hierarchy.ofGroups]
  cases firstRepeated (groups.map Group.key) <;> simp [eq_comm]

theorem checkPrefix_str {t : String} : checkPrefix (.str org) = .ok t ↔ isPrefixText org = true ∧ t = org := by
  show (if isPrefixText org = true then Except.ok org else _) = _ ↔ _
  by_cases h : isPrefixText org = true
  · rw [if_pos h, Except.ok.injEq, eq_comm]
    exact ⟨fun ht => ⟨h, ht⟩, fun ht => ht.2⟩
  · rw [if_neg h]
    exact ⟨nofun, fun ht => absurd ht.1 h⟩

/-- The hierarchy of texts, or what is wrong with the configuration that they are from. -/
def Hierarchy.ofTexts (org : String) (environments projects : List String) (projectGroups : Bool)
    (owners : List String) : Except ConfigCause Hierarchy := do
  let org ← checkPrefix (.str org)
  if environments = [] then .error .noEnvironment
  else
    let environments ← checkNames "environments" (environments.map .str)
    let projects ← checkNames "projects" (projects.map .str)
    ofGroups (Blueprint.groups ⟨org, environments, projects, projectGroups, sortedUnique owners⟩)

/-- Values that are texts pass as they are. -/
theorem build_texts : Hierarchy.build (.str org) (.ofTexts environments) (.ofTexts projects) projectGroups
    (.ofTexts owners) = (Hierarchy.ofTexts org environments projects projectGroups owners).mapError .config := by
  unfold Hierarchy.build Hierarchy.ofTexts
  rw [Json.itemsOf_ofTexts, Json.itemsOrNone_ofTexts, Json.itemsOrNone_ofTexts]
  cases checkPrefix (.str org) with
  | error cause => rfl
  | ok org =>
    cases environments with
    | nil => rfl
    | cons e es =>
      have ht : (Json.ofTexts (e :: es)).truthy = true := rfl
      simp only [ht, mapError_ok, Bool.not_true, Bool.false_eq_true, reduceCtorEq, if_false, bind, Except.bind,
        ownersOf_texts]
      cases checkNames "environments" ((e :: es).map .str) with
      | error cause => rfl
      | ok environments =>
        cases checkNames "projects" (projects.map .str) with
        | error cause => rfl
        | ok projects => rfl

/-- From texts a hierarchy is built, or the configuration is refused. -/
theorem not_escapes_build : ¬ Escapes (Hierarchy.build (.str org) (.ofTexts environments) (.ofTexts projects)
    projectGroups (.ofTexts owners)) := by
  rw [build_texts]
  exact not_escapes_mapError fun _ => trivial

/-- When a hierarchy is built from texts, and which. -/
theorem build_texts_eq_ok_iff :
    Hierarchy.build (.str org) (.ofTexts environments) (.ofTexts projects) projectGroups (.ofTexts owners) = .ok h ↔
      isPrefixText org = true ∧ environments ≠ [] ∧ AreNames environments ∧ AreNames projects ∧
        ((Blueprint.ofTexts org environments projects projectGroups owners).groups.map Group.key).Nodup ∧
        h = (Blueprint.ofTexts org environments projects projectGroups owners).hierarchy := by
  rw [build_texts, mapError_eq_ok, Hierarchy.ofTexts, bind_eq_ok]
  by_cases he : environments = []
  · simp [he]
  · simp only [if_neg he, bind_eq_ok, checkPrefix_str, checkNames_texts, ofGroups_eq_ok_iff]
    constructor
    · rintro ⟨_, ⟨hp, rfl⟩, _, ⟨hes, rfl⟩, _, ⟨hps, rfl⟩, hn, rfl⟩
      exact ⟨hp, he, hes, hps, hn, rfl⟩
    · rintro ⟨hp, -, hes, hps, hn, rfl⟩
      exact ⟨_, ⟨hp, rfl⟩, _, ⟨hes, rfl⟩, _, ⟨hps, rfl⟩, hn, rfl⟩

end Build

end AccessPlan
