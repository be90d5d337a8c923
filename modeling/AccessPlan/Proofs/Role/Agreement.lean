import AccessPlan.Proofs.Role.Listing

/-!
# Tables that list the same roles

Two tables list the same roles if every row of one has a row in the other, with the same roles for every
persona in whatever order and however often (`RoleTable.SameRoles`). Looking up roles in books of such tables
gives the same roles (`RoleBook.sameMembers_rolesIn`), whatever the tables of resource types are.
-/

namespace AccessPlan

/-- Two lists have the same members. -/
def SameMembers (xs ys : List String) : Prop := ∀ x, x ∈ xs ↔ x ∈ ys

theorem SameMembers.refl (xs : List String) : SameMembers xs xs := fun _ => Iff.rfl

section Rel

variable {α β : Type} {R : α → α → Prop} {S : β → β → Prop}

theorem rel_refl (h : ∀ a, R a a) : ∀ x : Option α, Option.Rel R x x
  | none => .none
  | some a => .some (h a)

theorem rel_or {x x' y y' : Option α} (hx : Option.Rel R x x') (hy : Option.Rel R y y') :
    Option.Rel R (x.or y) (x'.or y') := by
  cases hx with
  | none => exact hy
  | some h => exact .some h

theorem rel_bind {x x' : Option α} {f f' : α → Option β} (hx : Option.Rel R x x')
    (hf : ∀ a a', R a a' → Option.Rel S (f a) (f' a')) : Option.Rel S (x.bind f) (x'.bind f') := by
  cases hx with
  | none => exact .none
  | some h => exact hf _ _ h

end Rel

/-- Two rows list the same roles for every persona. -/
def RoleRow.SameRoles (r r' : RoleRow String) : Prop := ∀ p, Option.Rel SameMembers (r.get? p) (r'.get? p)

/-- Two tables have the same rows, in whatever order and however often these list their roles. -/
def RoleTable.SameRoles (t t' : RoleTable String) : Prop :=
  ∀ name, Option.Rel RoleRow.SameRoles (t.get? name) (t'.get? name)

/-- The same tables over one table list the same roles. -/
theorem RoleTable.SameRoles.overlay {t t' : RoleTable String} (base : RoleTable String) (h : RoleTable.SameRoles t t') :
    RoleTable.SameRoles (base.overlay t) (base.overlay t') := by
  intro name
  rw [NameMap.get?_overlay, NameMap.get?_overlay]
  exact rel_or (h name) (rel_refl (fun row p => rel_refl SameMembers.refl _) _)

namespace RoleBook

variable {b b' : RoleBook String}

theorem rel_listed? (ht : RoleTable.SameRoles b.environments b'.environments)
    (ho : RoleTable.SameRoles b.environmentOverrides b'.environmentOverrides) (e : String) (p : Persona) :
    Option.Rel SameMembers (b.listed? e p) (b'.listed? e p) :=
  rel_or (rel_bind (ho e) fun _ _ h => h p) (rel_bind (ht e) fun _ _ h => h p)

/-- Books of tables that list the same roles give the same roles. -/
theorem sameMembers_rolesIn (ht : RoleTable.SameRoles b.environments b'.environments)
    (ho : RoleTable.SameRoles b.environmentOverrides b'.environmentOverrides) (e : String) (p : Persona) :
    SameMembers (b.rolesIn e p) (b'.rolesIn e p) := by
  intro role
  rw [rolesIn, rolesIn, List.mem_eraseDups, List.mem_eraseDups]
  have hl := rel_listed? ht ho e p
  generalize b.listed? e p = l at hl
  generalize b'.listed? e p = l' at hl
  cases hl with
  | none => exact Iff.rfl
  | some h => exact h role

end RoleBook

end AccessPlan
