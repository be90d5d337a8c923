import AccessPlan.PolicyError
import AccessPlan.Proofs.Collection.Traversal

/-!
# Failures outside of the documented errors

An operation *escapes* if it fails with anything but an error of a policy. Whether a composition escapes is
told by its parts in the order in which they run.

* `escapes_bind`: a composition escapes in its first part, or in the second one after a result of the first.
* `escapes_mapM_iff`: a run over a list escapes at an item before which every item has a result, that is, at
  the first item that has none (`escapes_mapM_find?_iff`).
-/

namespace AccessPlan

/-- The errors of a policy: a wrong configuration, a missing role table, a wrong reference, a wrong
cardinality. -/
def Failure.IsDocumented : Failure → Prop
  | policy _ => True
  | _ => False

/-- The operation fails otherwise than with an error of a policy. -/
def Escapes {α : Type} (x : Except Failure α) : Prop := ∃ f, x = .error f ∧ ¬ f.IsDocumented

variable {α β : Type}

@[simp] theorem not_escapes_ok {a : α} : ¬ Escapes (.ok a : Except Failure α) := by rintro ⟨f, h, -⟩; cases h

@[simp] theorem escapes_error {f : Failure} : Escapes (.error f : Except Failure α) ↔ ¬ f.IsDocumented :=
  ⟨fun ⟨_, h, hn⟩ => by cases h; exact hn, fun hn => ⟨f, rfl, hn⟩⟩

/-- What does not escape has a result or an error of a policy. -/
theorem not_escapes_iff {x : Except Failure α} :
    ¬ Escapes x ↔ (∃ a, x = .ok a) ∨ ∃ e, x = .error (.policy e) := by
  cases x with
  | ok a => simp
  | error f => cases f <;> simp [Failure.IsDocumented]

/-- A composition escapes in its first part, or in the second one after a result of the first. -/
theorem escapes_bind {x : Except Failure α} {f : α → Except Failure β} :
    Escapes (x >>= f) ↔ Escapes x ∨ ∃ a, x = .ok a ∧ Escapes (f a) := by
  cases x with
  | ok a => simp [bind, Except.bind]
  | error e => simp [bind, Except.bind]

theorem not_escapes_mapError {ε : Type} {x : Except ε α} {g : ε → Failure} (h : ∀ e, (g e).IsDocumented) :
    ¬ Escapes (x.mapError g) := by
  rintro ⟨f, hf, hn⟩
  obtain ⟨e, -, rfl⟩ := mapError_eq_error.1 hf
  exact hn (h e)

/-- A run over a list escapes at an item before which every item has a result. -/
theorem escapes_mapM_iff {f : α → Except Failure β} {xs : List α} :
    Escapes (xs.mapM f) ↔
      ∃ before x after, xs = before ++ x :: after ∧ (∀ y ∈ before, ∃ z, f y = .ok z) ∧ Escapes (f x) := by
  constructor
  · rintro ⟨e, he, hn⟩
    obtain ⟨before, x, after, hx, hb, hf⟩ := mapM_eq_error_iff.1 he
    exact ⟨before, x, after, hx, hb, e, hf, hn⟩
  · rintro ⟨before, x, after, hx, hb, e, hf, hn⟩
    exact ⟨e, mapM_eq_error_iff.2 ⟨before, x, after, hx, hb, hf⟩, hn⟩

/-- A run escapes at the first item that has no result, whatever says which items have one. -/
theorem escapes_mapM_find?_iff {f : α → Except Failure β} {P : α → Prop} [DecidablePred P] {xs : List α}
    (h : ∀ x ∈ xs, (∃ y, f x = .ok y) ↔ P x) :
    Escapes (xs.mapM f) ↔ ∃ x, (xs.find? fun x => !decide (P x)) = some x ∧ Escapes (f x) := by
  constructor
  · rintro ⟨e, he, hn⟩
    obtain ⟨x, hx, hf⟩ := (mapM_eq_error_find?_iff h).1 he
    exact ⟨x, hx, e, hf, hn⟩
  · rintro ⟨x, hx, e, hf, hn⟩
    exact ⟨e, (mapM_eq_error_find?_iff h).2 ⟨x, hx, hf⟩, hn⟩

/-- A check of every item does not escape if it does so on none. -/
theorem not_escapes_forM {f : α → Except Failure Unit} {xs : List α} (h : ∀ x ∈ xs, ¬ Escapes (f x)) :
    ¬ Escapes (xs.forM f) := by
  rintro ⟨e, he, hn⟩
  obtain ⟨x, hx, hf⟩ := exists_of_forM_eq_error he
  exact h x hx ⟨e, hf, hn⟩

end AccessPlan
