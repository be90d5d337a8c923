import AccessPlan.Proofs.Escape
import Mathlib.Data.List.Forall2

/-!
# Two operations that end alike

Two operations *end alike* if both give the same result, or both fail with failures of one class (`SameEnd`). Which of
several things that are wrong is found first may depend on an order that does not matter otherwise, so the failures
need not be equal.

* `SameEnd.bind`: compositions end alike if their parts do.
* `SameEnd.forM`: checks of two lists end alike if those of their items do, pair by pair.
* `sameEnd_forM_of_mem_iff`: checks of one kind end alike on lists of the same items, if all failures are of one class.
-/

namespace AccessPlan

/-- Two failures are of one class: they are the same, or errors of a policy of one kind. -/
def Failure.SameClass (f f' : Failure) : Prop :=
  f = f' ∨ ∃ e e' : PolicyError, f = .policy e ∧ f' = .policy e' ∧ e.report.kind = e'.report.kind

/-- Two operations give the same result, or fail with failures of one class. -/
def SameEnd {α : Type} (x x' : Except Failure α) : Prop :=
  (∃ a, x = .ok a ∧ x' = .ok a) ∨ ∃ f f', x = .error f ∧ x' = .error f' ∧ f.SameClass f'

/-- The kind of every error of a configuration. -/
theorem ConfigCause.kind_report (cause : ConfigCause) : cause.report.kind = .config := by cases cause <;> rfl

theorem LookupCause.kind_report (cause : LookupCause) : cause.report.kind = .roleLookup := by cases cause <;> rfl

namespace Failure

theorem SameClass.refl (f : Failure) : f.SameClass f := Or.inl rfl

theorem sameClass_config (cause cause' : ConfigCause) : (config cause).SameClass (config cause') :=
  Or.inr ⟨_, _, rfl, rfl, cause.kind_report.trans cause'.kind_report.symm⟩

theorem sameClass_roleLookup (cause cause' : LookupCause) : (roleLookup cause).SameClass (roleLookup cause') :=
  Or.inr ⟨_, _, rfl, rfl, cause.kind_report.trans cause'.kind_report.symm⟩

end Failure

section Ends

variable {α β : Type}

theorem SameEnd.refl : ∀ x : Except Failure α, SameEnd x x
  | .ok a => Or.inl ⟨a, rfl, rfl⟩
  | .error f => Or.inr ⟨f, f, rfl, rfl, .refl f⟩

/-- Compositions end alike if their parts do. -/
theorem SameEnd.bind {x x' : Except Failure α} {g g' : α → Except Failure β} (hx : SameEnd x x')
    (hg : ∀ a, x = .ok a → SameEnd (g a) (g' a)) : SameEnd (x >>= g) (x' >>= g') := by
  rcases hx with ⟨a, rfl, rfl⟩ | ⟨f, f', rfl, rfl, hf⟩
  · exact hg a rfl
  · exact Or.inr ⟨f, f', rfl, rfl, hf⟩

/-- Operations that have the same results and fail in one class only end alike. -/
theorem sameEnd_of_ok_iff {x x' : Except Failure α} (hok : ∀ a, x = .ok a ↔ x' = .ok a)
    (hclass : ∀ f f', x = .error f → x' = .error f' → f.SameClass f') : SameEnd x x' := by
  cases hx : x with
  | ok a => exact Or.inl ⟨a, rfl, (hok a).1 hx⟩
  | error f =>
    cases hx' : x' with
    | ok a =>
      have ha := (hok a).2 hx'
      rw [hx] at ha
      cases ha
    | error f' => exact Or.inr ⟨f, f', rfl, rfl, hclass f f' hx hx'⟩

/-- Checks of two lists end alike if those of their items do, pair by pair. -/
theorem SameEnd.forM {R : α → β → Prop} {f : α → Except Failure Unit} {g : β → Except Failure Unit} {xs : List α}
    {ys : List β} (hxs : List.Forall₂ R xs ys) (hfg : ∀ x y, R x y → SameEnd (f x) (g y)) :
    SameEnd (xs.forM f) (ys.forM g) := by
  induction hxs with
  | nil => exact .refl _
  | cons hxy _ ih => exact .bind (hfg _ _ hxy) fun _ _ => ih

/-- Where all failures of a check are of one class, it ends alike on lists of the same items. -/
theorem sameEnd_forM_of_mem_iff {f : α → Except Failure Unit} {xs ys : List α} (hxs : ∀ x, x ∈ xs ↔ x ∈ ys)
    (hclass : ∀ x ∈ xs, ∀ y ∈ xs, ∀ e e', f x = .error e → f y = .error e' → e.SameClass e') :
    SameEnd (xs.forM f) (ys.forM f) := by
  refine sameEnd_of_ok_iff (fun _ => ?_) fun e e' he he' => ?_
  · rw [forM_eq_ok, forM_eq_ok]
    exact forall_congr' fun x => imp_congr_left (hxs x)
  · obtain ⟨x, hx, hxe⟩ := exists_of_forM_eq_error he
    obtain ⟨y, hy, hye⟩ := exists_of_forM_eq_error he'
    exact hclass x hx y ((hxs y).2 hy) e e' hxe hye

end Ends

end AccessPlan
