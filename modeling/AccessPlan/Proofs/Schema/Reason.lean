import AccessPlan.Proofs.Schema.Reading
import AccessPlan.Proofs.Schema.Simple

/-!
# Reasons that can be encoded

The faults of a check that fails are handed out with their reasons, and a reason with half of a surrogate pair
cannot be. The reasons of a combination are those of its parts, in order (`halves?_seq`). A reader is *quiet*
if its faults hold no such reason (`Reader.IsQuiet`); only a rule of its own gives a reason at all, so all
readers of simple values are quiet, and with them the readers of collections and records that are made of
them.
-/

namespace AccessPlan.Schema

namespace Checked

/-- The first halves of surrogate pairs in the reasons of a check that failed. -/
def halves? {α : Type} : Checked α → Option Text.LoneHalves
  | ok _ => none
  | faulty faults => loneHalves? faults

variable {α β : Type}

theorem loneHalves?_append (ds es : List Fault) : loneHalves? (ds ++ es) = (loneHalves? ds).or (loneHalves? es) :=
  List.findSome?_append

theorem loneHalves?_under (step : Step) (es : List Fault) : loneHalves? (es.map (·.under step)) = loneHalves? es := by
  rw [loneHalves?, List.findSome?_map]
  rfl

@[simp] theorem halves?_ok {a : α} : (ok a).halves? = none := rfl

@[simp] theorem halves?_map {f : α → β} {x : Checked α} : (f <$> x).halves? = x.halves? := by
  show (map f x).halves? = _
  cases x <;> rfl

/-- The reasons of a combination are those of its parts. -/
@[simp] theorem halves?_seq {f : Checked (α → β)} {x : Checked α} : (f <*> x).halves? = f.halves?.or x.halves? := by
  show (seq f x).halves? = _
  cases f with
  | ok f => cases x <;> rfl
  | faulty ds =>
    cases x with
    | ok a => exact (Option.or_none).symm
    | faulty es => exact loneHalves?_append ds es

@[simp] theorem halves?_under {x : Checked α} {step : Step} : (x.under step).halves? = x.halves? := by
  cases x with
  | ok a => rfl
  | faulty es => exact loneHalves?_under step es

theorem halves?_andThen_eq_none {x : Checked α} {check : α → Checked β} (hx : x.halves? = none)
    (h : ∀ a, x = ok a → (check a).halves? = none) : (x.andThen check).halves? = none := by
  cases x with
  | ok a => exact h a rfl
  | faulty es => exact hx

theorem halves?_andThen {x : Checked α} {check : α → Checked β} (hx : x.halves? = none) :
    (x.andThen check).halves?.isSome = true ↔ ∃ a, x = ok a ∧ (check a).halves?.isSome = true := by
  cases x with
  | ok a => simp [andThen]
  | faulty es =>
    rw [andThen, halves?, ← halves?, hx]
    simp

/-- Only a reason of its own can hold halves. -/
theorem FailsAsWhole.halves?_eq_none {x : Checked α} (hx : x.FailsAsWhole) : x.halves? = none := by
  cases x with
  | ok a => rfl
  | faulty faults =>
    obtain ⟨cause, rfl, hcause⟩ := hx faults rfl
    cases cause <;> first | rfl | exact absurd rfl (hcause _)

theorem halves?_refused (reason : String) :
    (fault (.refused reason) : Checked α).halves? = Text.loneHalves? reason := by
  show List.findSome? _ [_] = _
  rw [List.findSome?_singleton]

end Checked

namespace Reader

open Checked

/-- No fault of the reader has a reason that cannot be encoded. -/
def IsQuiet {α : Type} (read : Reader α) : Prop := ∀ j, (read j).halves? = none

section Quiet

variable {α β : Type} {read : Reader α} {name : String}

/-! ## Simple values -/

theorem IsSimple.quiet (h : read.IsSimple) : read.IsQuiet := fun j => (h j).halves?_eq_none

theorem quiet_text : text.IsQuiet := simple_text.quiet

theorem quiet_textOf {least : Nat} {most : Option Nat} : (textOf least most).IsQuiet := simple_textOf.quiet

theorem quiet_integer : integer.IsQuiet := simple_integer.quiet

theorem quiet_switch : switch.IsQuiet := simple_switch.quiet

theorem quiet_member {choices : List (String × α)} : (member choices).IsQuiet := simple_member.quiet

/-! ## Collections and records -/

theorem IsQuiet.nullable (h : read.IsQuiet) : (nullable read).IsQuiet := fun j => by
  cases j with
  | null => rfl
  | _ => exact halves?_map.trans (h _)

theorem IsQuiet.listOf (h : read.IsQuiet) : (listOf read).IsQuiet := fun j => by
  cases j with
  | arr items =>
    have hf : ∀ (index : Nat) (items : List Json), (itemsFrom read index items).halves? = none := by
      intro index items
      induction items generalizing index with
      | nil => rfl
      | cons j js ih => rw [itemsFrom, halves?_seq, halves?_map, halves?_under, h, ih, Option.or_none]
    exact hf 0 items
  | _ => rfl

theorem IsQuiet.listOfLeast {least : Nat} (h : read.IsQuiet) : (listOfLeast least read).IsQuiet := fun j => by
  refine halves?_andThen_eq_none (h.listOf j) fun xs _ => ?_
  split <;> rfl

theorem IsQuiet.entries {readName : Reader β} (hn : readName.IsQuiet) (h : read.IsQuiet) :
    (entries readName read).IsQuiet := fun j => by
  cases j with
  | obj fields =>
    show (entriesOf readName read fields).halves? = none
    induction fields with
    | nil => rfl
    | cons f fs ih =>
      simp only [entriesOf, halves?_seq, halves?_map, halves?_under, hn (.str f.1), h f.2, ih, Option.or_none]
  | _ => rfl

theorem IsQuiet.mapOf (h : read.IsQuiet) : (mapOf read).IsQuiet := fun j => by
  rw [Reader.mapOf, halves?_map]
  exact quiet_text.entries h j

theorem IsQuiet.map {f : α → β} (h : read.IsQuiet) : IsQuiet fun j => f <$> read j := fun j => by
  rw [halves?_map, h]

theorem IsQuiet.record {origin : Origin} (h : read.IsQuiet) : (record origin name read).IsQuiet := fun j => by
  cases j with
  | obj fields => exact h _
  | _ => cases origin <;> rfl

theorem IsQuiet.required (h : read.IsQuiet) : (required name read).IsQuiet := fun j => by
  unfold Reader.required
  split
  · rfl
  · rw [halves?_under, h]

theorem IsQuiet.withDefault {default : α} (h : read.IsQuiet) : (withDefault name read default).IsQuiet := fun j => by
  unfold Reader.withDefault
  split
  · rfl
  · rw [halves?_under, h]

/-- A field has a reason that cannot be encoded exactly if its value has one. -/
theorem halves?_withDefault {default : α} {j : Json} : (withDefault name read default j).halves?.isSome = true ↔
    ∃ v, j.field? name = some v ∧ (read v).halves?.isSome = true := by
  unfold Reader.withDefault
  cases j.field? name with
  | none => simp
  | some v => simp

theorem IsQuiet.optional (h : read.IsQuiet) : (optional name read).IsQuiet := h.nullable.withDefault

end Quiet

end Reader

end AccessPlan.Schema
