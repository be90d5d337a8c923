import AccessPlan.Proofs.Escape
import AccessPlan.Proofs.Policy.Validity
import AccessPlan.Proofs.Schema.Reason
import AccessPlan.Proofs.Text.Whole

/-!
# Configurations that are refused

A configuration that does not pass the check is refused with an error of a policy, with one exception: a name
of a resource group or of a service principal that cannot stand in a key is told in the reason, and a reason
with half of a surrogate pair cannot be handed out (`escapes_ofJson_iff`). Only the first such name of a map is
told, so the order in which the names came decides (`hasBrokenName_iff`).
-/

namespace AccessPlan.PolicyConfig

open Schema (Origin Checked Reader)

/-- The first name of the entries, in the order in which they came, that is empty or holds a slash also holds half of
a surrogate pair. -/
def HasBrokenName {α : Type} (es : List (String × α)) : Prop :=
  ∃ before e after, es = before ++ e :: after ∧ (∀ d ∈ before, d.1 ≠ "" ∧ '/' ∉ d.1.toList) ∧
    (e.1 = "" ∨ '/' ∈ e.1.toList) ∧ Text.isWhole e.1 = false

/-- The entries of one of the maps can be read, and they have a name that is refused for a reason that cannot be
handed out. -/
def HasBrokenNames (j : Json) : Prop :=
  (∃ v es, j.field? "resource_groups" = some v ∧
    Reader.entries .text (ResourceGroup.read .document) v = .ok es ∧ HasBrokenName es) ∨
  ∃ v es, j.field? "service_principals" = some v ∧
    Reader.entries .text (PrincipalDefinition.read .document) v = .ok es ∧ HasBrokenName es

/-! ## Records -/

theorem quiet_grant {origin : Origin} : (Grant.read origin).IsQuiet := by
  refine Reader.IsQuiet.record fun j => ?_
  rw [Checked.halves?_seq, Checked.halves?_map, Reader.quiet_textOf.required, Reader.quiet_textOf.required]
  rfl

theorem quiet_definition {origin : Origin} : (PrincipalDefinition.read origin).IsQuiet := by
  refine Reader.IsQuiet.record fun j => ?_
  simp only [Checked.halves?_seq, Checked.halves?_map, Option.or_none, Reader.quiet_textOf.required j,
    Reader.quiet_text.withDefault j, Reader.quiet_text.listOf.withDefault j, quiet_grant.mapOf.withDefault j,
    Reader.quiet_integer.optional j, Reader.texts]

theorem quiet_resourceGroup {origin : Origin} : (ResourceGroup.read origin).IsQuiet := by
  refine Reader.IsQuiet.record fun j => ?_
  simp only [Checked.halves?_seq, Checked.halves?_map, Option.or_none, Reader.quiet_textOf.required j,
    Reader.quiet_text.required j, Reader.quiet_text.listOf.withDefault j, Reader.quiet_member.withDefault j,
    Reader.texts, Criticality.read]

theorem quiet_customRole {origin : Origin} : (CustomRole.read origin).IsQuiet := by
  refine Reader.IsQuiet.record fun j => ?_
  have hp : CustomRole.permissions.IsQuiet := Reader.quiet_text.listOf.map
  simp only [Checked.halves?_seq, Checked.halves?_map, Option.or_none, Reader.quiet_text.withDefault j,
    hp.withDefault j]

theorem quiet_roleTable : RoleTable.read.IsQuiet :=
  Reader.IsQuiet.mapOf (Reader.IsQuiet.map (Reader.quiet_member.entries Reader.quiet_text.listOf))

/-! ## Fields with a rule of their own -/

theorem quiet_orgPrefixField : orgPrefixField.IsQuiet := fun j => by
  refine Checked.halves?_andThen_eq_none (Reader.quiet_text j) fun s _ => ?_
  split
  · rfl
  · rw [Checked.halves?_refused, Text.loneHalves?_eq_none]
    decide +kernel

theorem quiet_ownersField : ownersField.IsQuiet := fun j => by
  refine Checked.halves?_andThen_eq_none (Reader.quiet_text.listOfLeast j) fun owners _ => ?_
  split
  · rw [Checked.halves?_refused, Text.loneHalves?_eq_none]
    decide +kernel
  · rfl

/-- The reason that a name is refused for holds the name. -/
theorem loneHalves?_reason {name : String} :
    (Text.loneHalves? ("Name '" ++ name ++ "' must be non-empty and must not contain '/'")).isSome = true ↔
      Text.isWhole name = false := by
  rw [← Option.ne_none_iff_isSome, ne_eq, Text.loneHalves?_eq_none, Text.isWhole_between (by decide) (by decide),
    Bool.not_eq_true]

/-- The search of a check finds the first name that cannot stand in a key. -/
theorem hasBrokenName_iff {α : Type} {es : List (String × α)} : HasBrokenName es ↔
    ∃ e, es.find? (fun e => !isKeySegment e.1) = some e ∧ Text.isWhole e.1 = false := by
  simp only [List.find?_eq_some_iff_append, Bool.not_eq_true', Bool.not_not, isKeySegment_eq_true,
    isKeySegment_eq_false]
  constructor
  · rintro ⟨before, e, after, hes, hbefore, he, hw⟩
    exact ⟨e, ⟨he, before, after, hes, hbefore⟩, hw⟩
  · rintro ⟨e, ⟨he, before, after, hes, hbefore⟩, hw⟩
    exact ⟨before, e, after, hes, hbefore, he, hw⟩

theorem halves?_keySegments {α : Type} {es : List (String × α)} :
    (keySegments es).halves?.isSome = true ↔ HasBrokenName es := by
  rw [hasBrokenName_iff, keySegments]
  cases es.find? fun e => !isKeySegment e.1 with
  | none => simp
  | some e =>
    dsimp only
    rw [Checked.halves?_refused]
    simp only [Option.some.injEq, exists_eq_left']
    exact loneHalves?_reason

/-- The name that came first is told, not the one that comes first in the map. -/
example : keySegments [("b/", 0), ("a/", 1)] =
    .fault (.refused "Name 'b/' must be non-empty and must not contain '/'") := by decide +kernel

theorem halves?_segmentMap {α : Type} {read : Reader α} (hread : read.IsQuiet) {v : Json} :
    (segmentMap read v).halves?.isSome = true ↔ ∃ es, Reader.entries .text read v = .ok es ∧ HasBrokenName es := by
  rw [segmentMap, Checked.halves?_andThen (Reader.quiet_text.entries hread v)]
  simp only [halves?_keySegments]

/-- `null` in place of a map has no reason, whether it is refused or stands for none. -/
theorem halves?_nullable_segmentMap {α : Type} {read : Reader α} {v : Json} :
    (Reader.nullable (segmentMap read) v).halves? = (segmentMap read v).halves? := by
  cases v with
  | null => rfl
  | _ => exact Checked.halves?_map

/-! ## The whole configuration -/

theorem halves?_read {j : Json} : (PolicyConfig.read .document j).halves?.isSome = true ↔ HasBrokenNames j := by
  have hother : (∀ name, j.field? name = none) → ¬ HasBrokenNames j := by
    rintro h (⟨v, -, hv, -⟩ | ⟨v, -, hv, -⟩) <;> rw [h] at hv <;> cases hv
  cases j with
  | obj fields =>
    generalize hj : Json.obj fields = j
    have hread : (PolicyConfig.read .document j).halves? =
        (Reader.optional "resource_groups" (segmentMap (ResourceGroup.read .document)) j).halves?.or
          (Reader.withDefault "service_principals" (segmentMap (PrincipalDefinition.read .document))
            .empty j).halves? := by
      rw [← hj, PolicyConfig.read, Reader.record, hj]
      simp only [Checked.halves?_seq, Checked.halves?_map, Option.or_none, Option.none_or,
        quiet_orgPrefixField.required j, Reader.quiet_text.listOfLeast.required j, Reader.texts,
        Reader.quiet_text.listOf.withDefault j, Reader.quiet_switch.withDefault j, quiet_ownersField.required j,
        Reader.quiet_text.optional j, quiet_roleTable.optional j, quiet_customRole.mapOf.withDefault j]
    simp only [hread, Option.isSome_or, Bool.or_eq_true, Reader.optional, Reader.halves?_withDefault,
      halves?_nullable_segmentMap, halves?_segmentMap quiet_resourceGroup, halves?_segmentMap quiet_definition,
      HasBrokenNames, exists_and_left]
  | _ => exact iff_of_false (fun h => by cases h) (hother fun _ => rfl)

/-- A configuration escapes the check exactly if one of its maps has a name whose refusal cannot be handed
out. -/
theorem escapes_ofJson_iff {j : Json} : Escapes (PolicyConfig.ofJson j) ↔ HasBrokenNames j := by
  rw [← halves?_read, PolicyConfig.ofJson]
  cases PolicyConfig.read .document j with
  | ok c => simp [Checked.toExcept]
  | faulty faults =>
    rw [Checked.toExcept, Checked.halves?, Failure.ofFaults]
    cases Schema.loneHalves? faults with
    | none => exact ⟨fun h => absurd trivial (escapes_error.1 h), fun h => by cases h⟩
    | some halves => exact ⟨fun _ => rfl, fun _ => escapes_error.2 id⟩

end AccessPlan.PolicyConfig
