import AccessPlan.Proofs.Assignment.Source
import AccessPlan.Proofs.Role.Listing

/-!
# Granting roles to groups

A role is granted exactly if it is a single role and a text that can stand for one (`grant_eq_ok_iff`). A text
that is a single role, but cannot stand for one, makes a grant escape (`escapes_grant_iff`).

On one place the groups are granted all their roles, or nothing (`grantsOn_eq_ok_iff`). If roles are listed
for every group, the first role that cannot be granted decides how the grants fail (`escapes_grantsOn_iff`).
-/

namespace AccessPlan

open Assignment (isSingleRole)

/-- A text that can stand for a role: it is not empty, and no half of a surrogate pair stands in it. -/
structure IsRoleText (role : String) : Prop where
  ne_empty : role ≠ ""
  isWhole : Text.isWhole role = true

/-- A role that can be granted. -/
structure IsGrantable (role : String) : Prop extends IsRoleText role where
  isSingle : isSingleRole role = true

section Roles

variable {role key principal : String} {tier : Tier} {scope : Scope} {kind : PrincipalKind} {a : Assignment}

instance : Decidable (IsRoleText role) :=
  decidable_of_iff (role ≠ "" ∧ Text.isWhole role = true) ⟨fun h => ⟨h.1, h.2⟩, fun h => ⟨h.1, h.2⟩⟩

instance : DecidablePred IsGrantable := fun role =>
  decidable_of_iff (IsRoleText role ∧ isSingleRole role = true) ⟨fun h => ⟨h.1, h.2⟩, fun h => ⟨h.1, h.2⟩⟩

theorem grant_eq_ok_iff : Assignment.grant key tier scope role principal kind = .ok a ↔
    IsGrantable role ∧ a = ⟨key, tier, scope, role, principal, kind⟩ := by
  rw [Assignment.grant_eq_ok]
  exact ⟨fun ⟨hs, hw, hne, ha⟩ => ⟨⟨⟨hne, hw⟩, hs⟩, ha⟩, fun ⟨h, ha⟩ => ⟨h.isSingle, h.isWhole, h.ne_empty, ha⟩⟩

theorem exists_grant_iff : (∃ a, Assignment.grant key tier scope role principal kind = .ok a) ↔ IsGrantable role := by
  simp only [grant_eq_ok_iff, exists_and_left, exists_eq, and_true]

/-- Only of a single role it is asked whether it can stand for one. -/
theorem escapes_grant_iff : Escapes (Assignment.grant key tier scope role principal kind) ↔
    isSingleRole role = true ∧ ¬ IsRoleText role := by
  unfold Assignment.grant
  cases hs : isSingleRole role with
  | false => simp [Failure.IsDocumented]
  | true =>
    cases hw : Text.isWhole role with
    | false =>
      have hn : ¬ IsRoleText role := fun h => by rw [h.isWhole] at hw; cases hw
      simp [Failure.IsDocumented, hn]
    | true =>
      by_cases he : role = ""
      · have hn : ¬ IsRoleText "" := fun h => h.ne_empty rfl
        simp [Failure.IsDocumented, he, hn]
      · simp [he, (⟨he, hw⟩ : IsRoleText role)]

/-- The only error of a policy that a grant is refused with is that its role is not a single one. -/
theorem grant_eq_policy_iff {e : PolicyError} :
    Assignment.grant key tier scope role principal kind = .error (.policy e) ↔
      isSingleRole role = false ∧ e = .cardinality (.str key) (.str role) := by
  unfold Assignment.grant
  cases isSingleRole role <;> cases Text.isWhole role <;> by_cases he : role = "" <;> simp [he, eq_comm]

end Roles

/-! ## Groups -/

namespace RoleBook

variable (book : RoleBook String)

/-- The roles of a group: those of its persona in its environment. -/
def rolesOfGroup (g : Group) : List String :=
  match g.environment, g.persona with
  | some e, some p => book.rolesIn e p
  | _, _ => []

/-- Roles are listed for the persona of the group in its environment. -/
def Lists (g : Group) : Prop := ∃ e p, g.environment = some e ∧ g.persona = some p ∧ (book.listed? e p).isSome = true

/-- The roles of the group are listed and can all be granted. -/
def Serves (g : Group) : Prop := book.Lists g ∧ ∀ role ∈ book.rolesOfGroup g, IsGrantable role

/-- What the groups are granted at a place. -/
def sourcesAt (groups : List Group) (place : Place) : List Source :=
  groups.flatMap fun g => (book.rolesOfGroup g).map (.group place g.key)

/-- The first role of the groups that cannot be granted. -/
def refused? (groups : List Group) : Option String :=
  (groups.flatMap book.rolesOfGroup).find? fun role => !decide (IsGrantable role)

variable {book} {groups : List Group} {g : Group}

/-- If roles are listed for all groups, all groups are served exactly when no role is refused. -/
theorem refused?_eq_none_iff (hl : ∀ g ∈ groups, book.Lists g) :
    book.refused? groups = none ↔ ∀ g ∈ groups, book.Serves g := by
  simp only [refused?, List.find?_eq_none, List.mem_flatMap, Bool.not_eq_true', decide_eq_false_iff_not,
    Decidable.not_not]
  exact ⟨fun h g hg => ⟨hl g hg, fun role hr => h role ⟨g, hg, hr⟩⟩, fun h role ⟨g, hg, hr⟩ => (h g hg).2 role hr⟩

end RoleBook

namespace Expansion

section Grants

variable {book : RoleBook String} {groups : List Group} {g : Group} {tier : Tier} {scope : Scope} {pre : String}
  {scopeAt : Place → Scope} {p : Place} {as : List Assignment}

/-- The grants of a group that roles are listed for, role by role. -/
theorem grantsOf_of_lists (h : book.Lists g) : grantsOf book tier scope pre g =
    (book.rolesOfGroup g).mapM fun role =>
      Assignment.grant (pre ++ g.key ++ "-" ++ role) tier scope role g.key .group := by
  obtain ⟨e, q, he, hq, hl⟩ := h
  have hr : book.environmentRoles (some e) q = .ok (book.rolesIn e q) :=
    RoleBook.environmentRoles_eq_ok_iff.2 ⟨hl, rfl⟩
  simp only [grantsOf, RoleBook.rolesOfGroup, he, hq, hr]
  rfl

theorem lists_of_grantsOf (h : grantsOf book tier scope pre g = .ok as) : book.Lists g := by
  unfold grantsOf at h
  cases hq : g.persona with
  | none =>
    rw [hq] at h
    cases h
  | some q =>
    simp only [hq, bind_eq_ok] at h
    obtain ⟨roles, hr, -⟩ := h
    cases he : g.environment with
    | none =>
      rw [he] at hr
      cases hr
    | some e =>
      rw [he] at hr
      exact ⟨e, q, he, hq, (RoleBook.environmentRoles_eq_ok_iff.1 hr).1⟩

/-- A group is granted all its roles exactly if they are listed and can be granted. -/
theorem grantsOf_eq_ok_iff : grantsOf book tier (scopeAt p) p.keyPrefix g = .ok as ↔ book.Serves g ∧
    as = (book.rolesOfGroup g).map fun role =>
      ⟨(Source.group p g.key role).key, tier, scopeAt p, role, g.key, .group⟩ := by
  by_cases hl : book.Lists g
  · rw [grantsOf_of_lists hl, RoleBook.Serves, mapM_eq_ok_iff fun role _ a => grant_eq_ok_iff]
    simp only [hl, true_and]
    rfl
  · exact ⟨fun h => absurd (lists_of_grantsOf h) hl, fun h => absurd h.1.1 hl⟩

/-- The groups are granted all their roles at a place, if all of them are served. -/
theorem grantsOn_eq_ok_iff : grantsOn book groups p.tier (scopeAt p) p.keyPrefix = .ok as ↔
    (∀ g ∈ groups, book.Serves g) ∧ as = (book.sourcesAt groups p).map (·.assignment scopeAt) := by
  rw [grantsOn, bind_eq_ok]
  simp only [mapM_eq_ok_iff fun g _ as => grantsOf_eq_ok_iff, RoleBook.sourcesAt, List.map_flatMap, List.map_map]
  constructor
  · rintro ⟨_, ⟨hs, rfl⟩, hr⟩
    exact ⟨hs, (Except.ok.inj hr).symm⟩
  · rintro ⟨hs, rfl⟩
    exact ⟨_, ⟨hs, rfl⟩, rfl⟩

/-- If roles are listed for all groups, the first role that is refused decides how the grants fail. -/
theorem escapes_grantsOn_iff (hl : ∀ g ∈ groups, book.Lists g) : Escapes (grantsOn book groups tier scope pre) ↔
    ∃ role, book.refused? groups = some role ∧ isSingleRole role = true := by
  have hrun : grantsOn book groups tier scope pre = (groups.flatMap fun g => (book.rolesOfGroup g).map fun role =>
      (g, role)).mapM fun o => Assignment.grant (pre ++ o.1.key ++ "-" ++ o.2) tier scope o.2 o.1.key .group := by
    rw [grantsOn, mapM_congr fun g hg => grantsOf_of_lists (hl g hg), ← mapM_flatMap]
    simp only [List.mapM_map, Function.comp_def]
    exact bind_pure_comp _ _
  have hroles : (groups.flatMap fun g => (book.rolesOfGroup g).map fun role => (g, role)).map Prod.snd =
      groups.flatMap book.rolesOfGroup := by
    simp only [List.map_flatMap, List.map_map, Function.comp_def, List.map_id']
  rw [hrun, escapes_mapM_find?_iff fun o _ => exists_grant_iff]
  simp only [escapes_grant_iff, RoleBook.refused?, ← hroles, List.find?_map, Option.map_eq_some_iff, Function.comp_def]
  constructor
  · rintro ⟨o, ho, hs, -⟩
    exact ⟨o.2, ⟨o, ho, rfl⟩, hs⟩
  · rintro ⟨_, ⟨o, ho, rfl⟩, hs⟩
    have hn : ¬ IsGrantable o.2 := by simpa using List.find?_some ho
    exact ⟨o, ho, hs, fun ht => hn ⟨ht, hs⟩⟩

end Grants

end Expansion

end AccessPlan
