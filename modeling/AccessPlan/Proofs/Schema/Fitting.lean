import AccessPlan.Proofs.Schema.Places
import AccessPlan.Proofs.Schema.Simple

/-!
# Readers that fit a form

A reader fits a form if a check that fails has a fault, and all its faults are at places that the form has in the value
(`Reader.Fits`). A simple value is faulty as a whole, so its readers fit every form; a list, a map or a record is faulty
as a whole or where one of its parts is.
-/

namespace AccessPlan.Schema

namespace Checked

variable {α β : Type} {P Q : Trail → Prop}

/-- If the check fails, there is a fault, and all faults are at places as wanted. -/
def FailsAt (x : Checked α) (P : Trail → Prop) : Prop :=
  ∀ faults, x = faulty faults → faults ≠ [] ∧ ∀ f ∈ faults, P f.place

theorem failsAt_ok {a : α} : (ok a).FailsAt P := nofun

theorem failsAt_fault {cause : Cause} (h : P []) : (fault cause : Checked α).FailsAt P := by
  rintro _ ⟨⟩
  exact ⟨List.cons_ne_nil _ _, fun f hf => List.mem_singleton.1 hf ▸ h⟩

theorem FailsAt.map {x : Checked α} (f : α → β) (hx : x.FailsAt P) : (f <$> x).FailsAt P := by
  cases x with
  | ok a => exact failsAt_ok
  | faulty faults =>
    rintro _ ⟨⟩
    exact hx faults rfl

theorem FailsAt.seq {f : Checked (α → β)} {x : Checked α} (hf : f.FailsAt P) (hx : x.FailsAt P) :
    (f <*> x).FailsAt P := by
  cases f with
  | ok f =>
    cases x with
    | ok a => exact failsAt_ok
    | faulty es =>
      rintro _ ⟨⟩
      exact hx es rfl
  | faulty ds =>
    obtain ⟨hne, hds⟩ := hf ds rfl
    cases x with
    | ok a =>
      rintro _ ⟨⟩
      exact ⟨hne, hds⟩
    | faulty es =>
      rintro _ ⟨⟩
      exact ⟨List.append_ne_nil_of_left_ne_nil hne es, List.forall_mem_append.2 ⟨hds, (hx es rfl).2⟩⟩

theorem FailsAt.andThen {x : Checked α} {check : α → Checked β} (hx : x.FailsAt P)
    (h : ∀ a, (check a).FailsAt P) : (x.andThen check).FailsAt P := by
  cases x with
  | ok a => exact h a
  | faulty faults =>
    rintro _ ⟨⟩
    exact hx faults rfl

/-- The faults of a part are at places behind the step to it. -/
theorem FailsAt.under {x : Checked α} {step : Step} (hx : x.FailsAt Q) (h : ∀ p, Q p → P (step.shown :: p)) :
    (x.under step).FailsAt P := by
  cases x with
  | ok a => exact failsAt_ok
  | faulty faults =>
    rintro _ ⟨⟩
    obtain ⟨hne, hfaults⟩ := hx faults rfl
    refine ⟨List.map_eq_nil_iff.not.2 hne, fun f hf => ?_⟩
    obtain ⟨g, hg, rfl⟩ := List.mem_map.1 hf
    exact h _ (hfaults g hg)

end Checked

namespace Reader

open Checked
open Form (IsPlace)

/-- If a check fails, there is a fault, and all faults are at places that the form has in the value. -/
def Fits {α : Type} (read : Reader α) (form : Form) : Prop := ∀ j, (read j).FailsAt (form.IsPlace j)

section Fits

variable {α β : Type} {read : Reader α} {form : Form}

/-! ## Simple values -/

/-- A simple value is faulty as a whole, whatever form it is given. -/
theorem IsSimple.fits (h : read.IsSimple) : read.Fits form := fun j faults hj => by
  obtain ⟨cause, rfl, -⟩ := h j faults hj
  exact ⟨List.cons_ne_nil _ _, fun f hf => List.mem_singleton.1 hf ▸ .whole⟩

theorem fits_text : text.Fits form := simple_text.fits

theorem Fits.map (h : read.Fits form) (f : α → β) : Fits (fun j => f <$> read j) form := fun j => (h j).map f

/-- A rule of its own that refuses the value as a whole adds no place. -/
theorem Fits.andThen {check : α → Checked β} (h : read.Fits form)
    (hc : ∀ a (P : Trail → Prop), P [] → (check a).FailsAt P) :
    Fits (fun j => (read j).andThen check) form := fun j =>
  (h j).andThen fun a => hc a _ .whole

/-! ## Collections -/

theorem Fits.nullable (h : read.Fits form) : (nullable read).Fits form := fun j => by
  cases j with
  | null => exact failsAt_ok
  | _ => exact (h _).map some

theorem Fits.itemsFrom (h : read.Fits form) {items : List Json} : ∀ (rest : List Json) (index : Nat),
    (∀ i, rest[i]? = items[index + i]?) → (itemsFrom read index rest).FailsAt (IsPlace (.list form) (.arr items))
  | [], _, _ => failsAt_ok
  | v :: rest, index, hitems => by
    have hv : items[index]? = some v := (hitems 0).symm
    have hrest : ∀ i, rest[i]? = items[index + 1 + i]? := fun i => by
      rw [← List.getElem?_cons_succ (a := v), hitems (i + 1), Nat.add_right_comm, Nat.add_assoc]
    exact (((h v).under fun p => IsPlace.item hv).map _).seq (h.itemsFrom rest (index + 1) hrest)

theorem Fits.listOf (h : read.Fits form) : (listOf read).Fits (.list form) := fun j => by
  cases j with
  | arr items => exact h.itemsFrom items 0 fun i => by rw [Nat.zero_add]
  | _ => exact failsAt_fault .whole

theorem fits_texts : texts.Fits (.list .simple) := fits_text.listOf

theorem Fits.listOfLeast {least : Nat} (h : read.Fits form) : (listOfLeast least read).Fits (.list form) :=
  h.listOf.andThen fun xs P hP => by
    split
    · exact failsAt_fault hP
    · exact failsAt_ok

/-- The name of an entry is a simple value, so it is faulty as a whole. -/
theorem Fits.entriesOf {readName : Reader β} (hname : readName.Fits .simple) (h : read.Fits form)
    {fields : List (String × Json)} : ∀ rest : List (String × Json), rest ⊆ fields →
      (entriesOf readName read rest).FailsAt (IsPlace (.map form) (.obj fields))
  | [], _ => failsAt_ok
  | (name, v) :: rest, hsub => by
    have hv : (name, v) ∈ fields := hsub List.mem_cons_self
    have hkey : (((readName (.str name)).under .key).under (.field name)).FailsAt
        (IsPlace (.map form) (.obj fields)) := by
      refine ((hname (.str name)).under (Q := (IsPlace .simple (.str name)))
        (P := (· = [Step.key.shown])) fun p hp => ?_).under fun p hp => ?_
      · cases hp
        rfl
      · subst hp
        exact .name hv
    exact ((hkey.map _).seq ((h v).under fun p => .entry hv)).map _ |>.seq
      (Fits.entriesOf hname h rest fun e he => hsub (List.mem_cons_of_mem _ he))

theorem Fits.entries {readName : Reader β} (hname : readName.Fits .simple) (h : read.Fits form) :
    (entries readName read).Fits (.map form) := fun j => by
  cases j with
  | obj fields => exact Fits.entriesOf hname h fields fun _ => id
  | _ => exact failsAt_fault .whole

theorem Fits.mapOf (h : read.Fits form) : (mapOf read).Fits (.map form) := (Fits.entries fits_text h).map _

/-! ## Records -/

variable {fields : List (String × Form)} {name : String} {j : Json}

theorem Fits.record {origin : Origin} (h : read.Fits (.record fields)) :
    (record origin name read).Fits (.record fields) := fun j => by
  cases j with
  | obj _ => exact h _
  | _ => exact failsAt_fault .whole

/-- A field that has to be there is faulty where it is missing, or where its value is. -/
theorem Fits.required (h : read.Fits form) (hform : formOf? fields name = some form) :
    (required name read j).FailsAt (IsPlace (.record fields) j) := by
  have hname := shown_of_formOf? hform
  unfold Reader.required
  cases hv : j.field? name with
  | none =>
    refine (failsAt_fault rfl : (Checked.fault .missing : Checked α).FailsAt (· = [])).under fun p hp => ?_
    subst hp
    rw [hname]
    exact .missing hform hv
  | some v =>
    refine (h v).under fun p hp => ?_
    rw [hname]
    exact .field hform hv hp

theorem Fits.withDefault {default : α} (h : read.Fits form) (hform : formOf? fields name = some form) :
    (withDefault name read default j).FailsAt (IsPlace (.record fields) j) := by
  unfold Reader.withDefault
  cases hv : j.field? name with
  | none => exact failsAt_ok
  | some v =>
    refine (h v).under fun p hp => ?_
    rw [shown_of_formOf? hform]
    exact .field hform hv hp

theorem Fits.optional (h : read.Fits form) (hform : formOf? fields name = some form) :
    (optional name read j).FailsAt (IsPlace (.record fields) j) := h.nullable.withDefault hform

end Fits

end Reader

end AccessPlan.Schema
