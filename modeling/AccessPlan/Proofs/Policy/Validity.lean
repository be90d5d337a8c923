import AccessPlan.Policy.Config
import AccessPlan.Proofs.Assignment.Granting
import AccessPlan.Proofs.Schema.Reading

/-!
# Configurations that have been checked

`isValid_of_ofJson`: a configuration that passes the check is `PolicyConfig.IsValid`. This is all that
resolutions depend on: the texts that keys are made of can be told apart, lists that are needed are not empty,
and every grant of a service principal names a role.
-/

namespace AccessPlan

open Schema (Origin Checked Reader)

namespace PolicyConfig

/-- What the check makes sure of. -/
structure IsValid (c : PolicyConfig) : Prop where
  orgPrefix : isPrefixText c.orgPrefix = true
  environments : c.environments ≠ []
  owners : c.owners ≠ []
  resourceGroups : ∀ m, c.resourceGroups = some m → ∀ name ∈ m.names, isKeySegment name = true
  principals : ∀ name ∈ c.servicePrincipals.names, isKeySegment name = true
  grants : ∀ d ∈ c.servicePrincipals.entries, ∀ g ∈ d.2.roles.entries, IsRoleText g.2.role

/-! ## Fields -/

theorem gives_listOfLeast {α : Type} {read : Reader α} : (Reader.listOfLeast 1 read).Gives (· ≠ []) := by
  intro j xs h
  obtain ⟨ys, -, hy⟩ := Checked.andThen_eq_ok.1 h
  split at hy
  · cases hy
  · rename_i hl
    cases hy
    rintro rfl
    exact hl Nat.one_pos

theorem gives_orgPrefixField : orgPrefixField.Gives (isPrefixText · = true) := by
  intro j s h
  obtain ⟨t, -, ht⟩ := Checked.andThen_eq_ok.1 h
  split at ht
  · rename_i hp
    cases ht
    exact hp
  · cases ht

theorem gives_ownersField : ownersField.Gives (· ≠ []) := by
  intro j owners h
  obtain ⟨listed, hl, ho⟩ := Checked.andThen_eq_ok.1 h
  split at ho
  · cases ho
  · cases ho
    exact gives_listOfLeast j _ hl

theorem isKeySegment_eq_true {name : String} : isKeySegment name = true ↔ name ≠ "" ∧ '/' ∉ name.toList := by
  simp [isKeySegment]

theorem isKeySegment_eq_false {name : String} : isKeySegment name = false ↔ name = "" ∨ '/' ∈ name.toList := by
  rw [← Bool.not_eq_true, isKeySegment_eq_true, not_and_or, not_not, not_not]

theorem keySegments_eq_ok {α : Type} {es : List (String × α)} {m : NameMap α} :
    keySegments es = .ok m ↔ .ofList es = m ∧ ∀ name ∈ m.names, isKeySegment name = true := by
  unfold keySegments
  cases hf : es.find? fun e => !isKeySegment e.1 with
  | some e =>
    have hb := List.find?_some hf
    have hm := List.mem_of_find?_eq_some hf
    refine ⟨nofun, ?_⟩
    rintro ⟨rfl, hs⟩
    rw [hs e.1 (NameMap.mem_names_ofList.2 (List.mem_map_of_mem hm))] at hb
    cases hb
  | none =>
    rw [Checked.ok.injEq]
    refine ⟨?_, fun h => h.1⟩
    rintro rfl
    refine ⟨rfl, fun name hn => ?_⟩
    obtain ⟨e, he, rfl⟩ := List.mem_map.1 (NameMap.mem_names_ofList.1 hn)
    simpa using List.find?_eq_none.1 hf e he

/-- The names of a map that passes can be told apart from the rest of a key. -/
theorem segmentMap_eq_ok {α : Type} {read : Reader α} {j : Json} {m : NameMap α} :
    segmentMap read j = .ok m ↔ Reader.mapOf read j = .ok m ∧ ∀ name ∈ m.names, isKeySegment name = true := by
  simp only [segmentMap, Reader.mapOf, Checked.andThen_eq_ok, Checked.map_eq_ok, keySegments_eq_ok,
    ← and_assoc, exists_and_right]

theorem gives_segmentMap {α : Type} {read : Reader α} :
    (segmentMap read).Gives fun m => ∀ name ∈ m.names, isKeySegment name = true := fun _ _ h =>
  (segmentMap_eq_ok.1 h).2

theorem gives_grant {origin : Origin} : (Grant.read origin).Gives fun g => IsRoleText g.role := by
  refine Reader.Gives.record fun j => ?_
  refine .seq (Reader.gives_textOf.required j) (.map ?_)
  exact fun scope _ role hr => ⟨hr.1, hr.2⟩

theorem gives_definition {origin : Origin} :
    (PrincipalDefinition.read origin).Gives fun d => ∀ g ∈ d.roles.entries, IsRoleText g.2.role := by
  refine Reader.Gives.record fun j => ?_
  refine .seq_any (.seq_any (.seq (gives_grant.mapOf.withDefault (List.forall_mem_nil _) j) ?_))
  refine .seq_any (.seq_any (.map ?_))
  exact fun _ _ _ _ _ hr _ _ => hr

theorem gives_principals {origin : Origin} : (segmentMap (PrincipalDefinition.read origin)).Gives fun m =>
    (∀ name ∈ m.names, isKeySegment name = true) ∧
      ∀ d ∈ m.entries, ∀ g ∈ d.2.roles.entries, IsRoleText g.2.role := by
  intro j m h
  obtain ⟨hm, hs⟩ := segmentMap_eq_ok.1 h
  exact ⟨hs, gives_definition.mapOf j m hm⟩

/-! ## The whole configuration -/

/-- A configuration that was read is valid. -/
theorem gives_read {origin : Origin} : (PolicyConfig.read origin).Gives IsValid := by
  refine Reader.Gives.record fun j => ?_
  -- the custom roles and the role tables, the ids and the switches of the tiers may be anything
  refine .seq_any (.seq_any (.seq_any (.seq_any (.seq_any ?_))))
  refine .seq_any (.seq_any ?_)
  refine .seq_any (.seq_any (.seq_any (.seq_any ?_)))
  refine .seq (gives_principals.withDefault ⟨List.forall_mem_nil _, List.forall_mem_nil _⟩ j) ?_
  refine .seq (gives_segmentMap.optional j) ?_
  refine .seq (gives_ownersField.required j) (.seq_any (.seq_any ?_))
  refine .seq (gives_listOfLeast.required j) (.map fun org ho => ?_)
  intro environments he _ _ owners hw groups hg principals hp _ _ _ _ _ _ _ _ _ _ _
  exact {
    orgPrefix := gives_orgPrefixField.required j org ho
    environments := he
    owners := hw
    resourceGroups := hg
    principals := hp.1
    grants := hp.2 }

/-- A configuration that passes the check is valid. -/
theorem isValid_of_ofJson {j : Json} {c : PolicyConfig} (h : PolicyConfig.ofJson j = .ok c) : c.IsValid :=
  gives_read j c (Checked.toExcept_eq_ok.1 h)

end PolicyConfig

end AccessPlan
