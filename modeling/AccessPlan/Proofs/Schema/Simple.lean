import AccessPlan.Schema.Reader

/-!
# Readers of simple values

A simple value is taken as a whole. If its check fails, there is one fault, it is at no place inside of the value, and
its cause is one of those that are named, not a rule with a reason of its own (`Reader.IsSimple`).
-/

namespace AccessPlan.Schema

namespace Checked

variable {α β : Type}

/-- If the check fails, there is one fault, of the value as a whole, and its cause gives no reason of its own. -/
def FailsAsWhole (x : Checked α) : Prop :=
  ∀ faults, x = faulty faults → ∃ cause, faults = [⟨[], cause⟩] ∧ ∀ reason, cause ≠ .refused reason

theorem failsAsWhole_ok {a : α} : (ok a).FailsAsWhole := nofun

theorem failsAsWhole_fault {cause : Cause} (h : ∀ reason, cause ≠ .refused reason) :
    (fault cause : Checked α).FailsAsWhole := by
  rintro _ ⟨⟩
  exact ⟨cause, rfl, h⟩

theorem FailsAsWhole.andThen {x : Checked α} {check : α → Checked β} (hx : x.FailsAsWhole)
    (h : ∀ a, (check a).FailsAsWhole) : (x.andThen check).FailsAsWhole := by
  cases x with
  | ok a => exact h a
  | faulty faults =>
    rintro _ ⟨⟩
    exact hx faults rfl

end Checked

namespace Reader

open Checked

/-- The reader takes a value as a whole. -/
def IsSimple {α : Type} (read : Reader α) : Prop := ∀ j, (read j).FailsAsWhole

theorem simple_text : text.IsSimple := fun j => by
  cases j with
  | str s => exact failsAsWhole_ok
  | _ => exact failsAsWhole_fault nofun

theorem failsAsWhole_wholeText (s : String) : (wholeText s).FailsAsWhole := by
  unfold wholeText
  split
  · exact failsAsWhole_ok
  · exact failsAsWhole_fault nofun

theorem simple_textOf {least : Nat} {most : Option Nat} : (textOf least most).IsSimple := fun j => by
  refine ((simple_text j).andThen failsAsWhole_wholeText).andThen fun s => ?_
  split
  · exact failsAsWhole_fault nofun
  · cases most with
    | none => exact failsAsWhole_ok
    | some m =>
      simp only
      split
      · exact failsAsWhole_fault nofun
      · exact failsAsWhole_ok

theorem simple_integer : integer.IsSimple := fun j => by
  cases j with
  | int n => exact failsAsWhole_ok
  | bool b => exact failsAsWhole_ok
  | str s =>
    refine (failsAsWhole_wholeText s).andThen fun s => ?_
    unfold integerText
    split
    · exact failsAsWhole_ok
    · exact failsAsWhole_fault nofun
    · exact failsAsWhole_fault nofun
  | float x =>
    simp only [integer]
    split
    · exact failsAsWhole_fault nofun
    · exact failsAsWhole_fault nofun
    · split
      · exact failsAsWhole_ok
      · exact failsAsWhole_fault nofun
  | _ => exact failsAsWhole_fault nofun

theorem failsAsWhole_switchNumber (n : Int) : (switchNumber n).FailsAsWhole := by
  unfold switchNumber
  split
  · exact failsAsWhole_ok
  · split
    · exact failsAsWhole_ok
    · exact failsAsWhole_fault nofun

theorem failsAsWhole_switchWord (s : String) : (switchWord s).FailsAsWhole := by
  unfold switchWord
  dsimp only
  split
  · exact failsAsWhole_ok
  · split
    · exact failsAsWhole_ok
    · exact failsAsWhole_fault nofun

theorem simple_switch : switch.IsSimple := fun j => by
  cases j with
  | bool b => exact failsAsWhole_ok
  | int n =>
    simp only [switch]
    split
    · exact failsAsWhole_switchNumber n
    · exact failsAsWhole_fault nofun
  | float x =>
    simp only [switch]
    split
    · split
      · exact failsAsWhole_switchNumber _
      · exact failsAsWhole_fault nofun
    · exact failsAsWhole_fault nofun
  | str s => exact (failsAsWhole_wholeText s).andThen failsAsWhole_switchWord
  | _ => exact failsAsWhole_fault nofun

theorem failsAsWhole_chosen {α : Type} {value? : String → Option α} {cause : Cause}
    (h : ∀ reason, cause ≠ .refused reason) (s : String) : (chosen value? cause s).FailsAsWhole := by
  unfold chosen
  cases value? s with
  | some a => exact failsAsWhole_ok
  | none => exact (failsAsWhole_wholeText s).andThen fun _ => failsAsWhole_fault h

theorem simple_member {α : Type} {choices : List (String × α)} : (member choices).IsSimple := fun j => by
  cases j with
  | str s =>
    show (chosen (fun s => choices.lookup s) (.notMember (choices.map (·.1))) s).FailsAsWhole
    exact failsAsWhole_chosen (fun _ hr => by cases hr) s
  | _ => exact failsAsWhole_fault nofun

end Reader

end AccessPlan.Schema
