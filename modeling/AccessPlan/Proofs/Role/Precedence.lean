import AccessPlan.Proofs.Collection.Distinct
import AccessPlan.Proofs.Role.Listing

/-!
# Which roles count

Roles may be listed three times for a name and a persona: as an override of this pair, in a supplied table of the name,
and in the built-in table of the name. The sources are of two grains. An override stands for one pair, and one that
lists nothing still counts. A table stands for its name: a supplied one hides the built-in one for all personas, those
it leaves out included (`IsTableOf`).

Both look-ups follow this order and differ only in what a table that leaves out the persona comes to, so one statement
with that as a parameter is about both (`FollowsPrecedence`). What is looked up depends on nothing that is supplied
under other names (`lookUps_follow_precedence`).
-/

namespace AccessPlan

/-! ## First occurrences -/

/-- The texts of a list, each once, in the order in which they first occur. -/
structure IsDistinctOf (roles listed : List String) : Prop where
  nodup : roles.Nodup
  mem_iff : ∀ role, role ∈ roles ↔ role ∈ listed
  ordered : roles.Pairwise fun a b => listed.idxOf a < listed.idxOf b

theorem isDistinctOf_eraseDups (listed : List String) : IsDistinctOf listed.eraseDups listed where
  nodup := nodup_eraseDups listed
  mem_iff _ := List.mem_eraseDups
  ordered := pairwise_idxOf_eraseDups listed

namespace RoleBook

/-! ## The order of the sources -/

/-- An override of a name and a persona. It may list nothing. -/
def IsOverride (overrides : RoleTable String) (name : String) (p : Persona) (roles : List String) : Prop :=
  ∃ row, overrides.get? name = some row ∧ row.get? p = some roles

/-- The table that counts for a name: the supplied one, or else the built-in one. -/
inductive IsTableOf (builtin supplied : RoleTable String) (name : String) : RoleRow String → Prop
  | supplied {row : RoleRow String} (h : supplied.get? name = some row) : IsTableOf builtin supplied name row
  | builtin {row : RoleRow String} (hnone : supplied.get? name = none) (h : builtin.get? name = some row) :
      IsTableOf builtin supplied name row

/-- A look-up follows the order of the sources; `entry` is what it takes from the table that counts for the name. -/
structure FollowsPrecedence (builtin supplied overrides : RoleTable String) (name : String) (p : Persona)
    (entry : RoleRow String → Option (List String)) (answer : Except Failure (List String)) : Prop where
  override : ∀ listed, IsOverride overrides name p listed → ∃ roles, answer = .ok roles ∧ IsDistinctOf roles listed
  table : (∀ listed, ¬ IsOverride overrides name p listed) → ∀ row listed, IsTableOf builtin supplied name row →
    entry row = some listed → ∃ roles, answer = .ok roles ∧ IsDistinctOf roles listed
  refused_iff : (∃ cause, answer = .error (.roleLookup cause)) ↔
    (∀ listed, ¬ IsOverride overrides name p listed) ∧ ∀ row, IsTableOf builtin supplied name row → entry row = none
  /-- There is no other way to fail. -/
  refused : ∀ f, answer = .error f → ∃ cause, f = .roleLookup cause

section Sources

variable {builtin supplied overrides : RoleTable String} {name : String} {p : Persona}
  {entry : RoleRow String → Option (List String)} {answer : Except Failure (List String)} {listed : List String}

/-- The list that counts. -/
def source? (builtin supplied overrides : RoleTable String) (name : String) (p : Persona)
    (entry : RoleRow String → Option (List String)) : Option (List String) :=
  (override? overrides name p).or (((builtin.overlay supplied).get? name).bind entry)

theorem isOverride_iff : IsOverride overrides name p listed ↔ override? overrides name p = some listed := by
  rw [override?, Option.bind_eq_some_iff]
  rfl

theorem not_isOverride_iff : (∀ listed, ¬ IsOverride overrides name p listed) ↔ override? overrides name p = none := by
  simp only [isOverride_iff, Option.eq_none_iff_forall_ne_some, ne_eq]

theorem isTableOf_iff {row : RoleRow String} :
    IsTableOf builtin supplied name row ↔ (builtin.overlay supplied).get? name = some row := by
  rw [NameMap.get?_overlay]
  constructor
  · rintro (h | ⟨hnone, h⟩)
    · rw [h, Option.some_or]
    · rw [hnone, Option.none_or, h]
  · intro h
    cases hs : supplied.get? name with
    | some row' =>
      rw [hs, Option.some_or] at h
      exact .supplied (h ▸ hs)
    | none =>
      rw [hs, Option.none_or] at h
      exact .builtin hs h

/-- There is no list exactly if there is no override and the table that counts has no entry. -/
theorem source?_eq_none_iff : source? builtin supplied overrides name p entry = none ↔
    (∀ listed, ¬ IsOverride overrides name p listed) ∧
      ∀ row, IsTableOf builtin supplied name row → entry row = none := by
  simp only [source?, Option.or_eq_none_iff, Option.bind_eq_none_iff, not_isOverride_iff, isTableOf_iff]

theorem source?_of_override (h : IsOverride overrides name p listed) :
    source? builtin supplied overrides name p entry = some listed := by
  rw [source?, isOverride_iff.1 h, Option.some_or]

theorem source?_of_table (hnone : ∀ listed, ¬ IsOverride overrides name p listed) {row : RoleRow String}
    (hrow : IsTableOf builtin supplied name row) (h : entry row = some listed) :
    source? builtin supplied overrides name p entry = some listed := by
  rw [source?, not_isOverride_iff.1 hnone, Option.none_or, isTableOf_iff.1 hrow, Option.bind_some, h]

/-- A look-up that gives the list that counts, each role once, and fails in one way only, follows the order. -/
theorem followsPrecedence_of_source
    (hok : ∀ roles, answer = .ok roles ↔
      ∃ listed, source? builtin supplied overrides name p entry = some listed ∧ roles = listed.eraseDups)
    (herror : ∀ f, answer = .error f → ∃ cause, f = .roleLookup cause) :
    FollowsPrecedence builtin supplied overrides name p entry answer where
  override listed h := ⟨_, (hok _).2 ⟨listed, source?_of_override h, rfl⟩, isDistinctOf_eraseDups listed⟩
  table hnone row listed hrow h :=
    ⟨_, (hok _).2 ⟨listed, source?_of_table hnone hrow h, rfl⟩, isDistinctOf_eraseDups listed⟩
  refused_iff := by
    rw [← source?_eq_none_iff]
    constructor
    · rintro ⟨cause, hcause⟩
      refine Option.eq_none_iff_forall_ne_some.2 fun listed hlisted => ?_
      cases hcause.symm.trans ((hok _).2 ⟨listed, hlisted, rfl⟩)
    · intro hnone
      cases ha : answer with
      | ok roles =>
        obtain ⟨listed, hlisted, -⟩ := (hok roles).1 ha
        cases hnone.symm.trans hlisted
      | error f =>
        obtain ⟨cause, rfl⟩ := herror f ha
        exact ⟨cause, rfl⟩
  refused := herror

/-- The list that counts depends on nothing that is supplied under other names. -/
theorem source?_congr {supplied' overrides' : RoleTable String} (hs : supplied'.get? name = supplied.get? name)
    (ho : overrides'.get? name = overrides.get? name) :
    source? builtin supplied' overrides' name p entry = source? builtin supplied overrides name p entry := by
  simp only [source?, override?, NameMap.get?_overlay, hs, ho]

end Sources

/-! ## The look-ups -/

section LookUps

variable {environments resourceTypes environmentOverrides resourceTypeOverrides environments' resourceTypes'
  environmentOverrides' resourceTypeOverrides' : RoleTable String} {name : String} {p : Persona} {roles : List String}

/-- What a table lists for a resource type. A persona that is left out has no access. -/
theorem resourceTypeList_eq_ok_iff {b : RoleBook String} : b.resourceTypeList name p = .ok roles ↔
    (override? b.resourceTypeOverrides name p).or
      ((b.resourceTypes.get? name).bind fun row => some ((row.get? p).getD [])) = some roles := by
  unfold resourceTypeList
  cases override? b.resourceTypeOverrides name p with
  | some listed => simp
  | none => cases b.resourceTypes.get? name <;> simp

theorem environmentRoles_ofTables_eq_ok_iff :
    (ofTables environments resourceTypes environmentOverrides resourceTypeOverrides).environmentRoles (some name) p =
        .ok roles ↔ ∃ listed, source? RoleTable.builtinEnvironments environments environmentOverrides name p
          (fun row => row.get? p) = some listed ∧ roles = listed.eraseDups := by
  simp only [environmentRoles, rolesOf_eq_ok_iff, environmentList_eq_ok_iff]
  rfl

theorem resourceTypeRoles_ofTables_eq_ok_iff :
    (ofTables environments resourceTypes environmentOverrides resourceTypeOverrides).resourceTypeRoles name p =
        .ok roles ↔ ∃ listed, source? RoleTable.builtinResourceTypes resourceTypes resourceTypeOverrides name p
          (fun row => some ((row.get? p).getD [])) = some listed ∧ roles = listed.eraseDups := by
  simp only [resourceTypeRoles, rolesOf_eq_ok_iff, resourceTypeList_eq_ok_iff]
  rfl

/-- Answers that give the same lists agree on whether there is one. -/
theorem toOption_eq_of_ok_iff {answer answer' : Except Failure (List String)}
    (h : ∀ roles, answer = .ok roles ↔ answer' = .ok roles) : answer.toOption = answer'.toOption := by
  cases ha : answer' with
  | ok roles => rw [(h roles).2 ha]
  | error f =>
    cases ha' : answer with
    | ok roles => cases ha.symm.trans ((h roles).1 ha')
    | error f' => rfl

end LookUps

/-- Look-ups follow the order of the sources: the override of the pair, the supplied table of the name, the built-in
table of the name. A persona that the table leaves out is refused in an environment and has no roles for a resource
type. What is supplied under other names, or for the other kind of names, does not count. -/
theorem lookUps_follow_precedence
    (environments resourceTypes environmentOverrides resourceTypeOverrides : RoleTable String) (name : String)
    (p : Persona) :
    let book := ofTables environments resourceTypes environmentOverrides resourceTypeOverrides
    FollowsPrecedence RoleTable.builtinEnvironments environments environmentOverrides name p (fun row => row.get? p)
      (book.environmentRoles (some name) p) ∧
    FollowsPrecedence RoleTable.builtinResourceTypes resourceTypes resourceTypeOverrides name p
      (fun row => some ((row.get? p).getD [])) (book.resourceTypeRoles name p) ∧
    ∀ environments' resourceTypes' environmentOverrides' resourceTypeOverrides' : RoleTable String,
      let book' := ofTables environments' resourceTypes' environmentOverrides' resourceTypeOverrides'
      (environments'.get? name = environments.get? name →
        environmentOverrides'.get? name = environmentOverrides.get? name →
          (book'.environmentRoles (some name) p).toOption = (book.environmentRoles (some name) p).toOption) ∧
      (resourceTypes'.get? name = resourceTypes.get? name →
        resourceTypeOverrides'.get? name = resourceTypeOverrides.get? name →
          (book'.resourceTypeRoles name p).toOption = (book.resourceTypeRoles name p).toOption) := by
  intro book
  refine ⟨followsPrecedence_of_source (fun _ => environmentRoles_ofTables_eq_ok_iff) fun _ => exists_cause_of_rolesOf,
    followsPrecedence_of_source (fun _ => resourceTypeRoles_ofTables_eq_ok_iff) fun _ => exists_cause_of_rolesOf, ?_⟩
  intro environments' resourceTypes' environmentOverrides' resourceTypeOverrides' book'
  constructor
  · intro ht ho
    refine toOption_eq_of_ok_iff fun roles => ?_
    rw [environmentRoles_ofTables_eq_ok_iff, environmentRoles_ofTables_eq_ok_iff, source?_congr ht ho]
  · intro ht ho
    refine toOption_eq_of_ok_iff fun roles => ?_
    rw [resourceTypeRoles_ofTables_eq_ok_iff, resourceTypeRoles_ofTables_eq_ok_iff, source?_congr ht ho]

/-- A table of one name. -/
def singleTable (name : String) (row : RoleRow String) : RoleTable String := .ofList [(name, row)]

theorem lookUps_follow_precedence_dev :
    let environments := singleTable "dev" { technical := some ["Writer", "Reader", "Writer"] }
    let resourceTypes := singleTable "vault" {}
    let overrides := singleTable "prod" { admin := some [] }
    let book := ofTables environments resourceTypes overrides .empty
    (∃ roles, book.environmentRoles (some "dev") .technical = .ok roles ∧
      IsDistinctOf roles ["Writer", "Reader", "Writer"]) ∧
    (∃ cause, book.environmentRoles (some "dev") .admin = .error (.roleLookup cause)) ∧
    (∃ roles, book.environmentRoles (some "prod") .admin = .ok roles ∧ IsDistinctOf roles []) ∧
    (∃ roles, book.resourceTypeRoles "vault" .admin = .ok roles ∧ IsDistinctOf roles []) ∧
    (NameMap.empty : RoleTable String).get? "dev" = overrides.get? "dev" ∧
    ((ofTables environments .empty .empty .empty).environmentRoles (some "dev") .technical).toOption =
      (book.environmentRoles (some "dev") .technical).toOption := by
  intro environments resourceTypes overrides book
  have hdev : IsTableOf RoleTable.builtinEnvironments environments "dev" _ := .supplied rfl
  have hvault : IsTableOf RoleTable.builtinResourceTypes resourceTypes "vault" _ := .supplied rfl
  have hnone : ∀ p listed, ¬ IsOverride overrides "dev" p listed := by
    rintro p listed ⟨row, hrow, -⟩
    cases hrow
  obtain ⟨htechnical, -, hframe⟩ :=
    lookUps_follow_precedence environments resourceTypes overrides .empty "dev" .technical
  obtain ⟨hadmin, -⟩ := lookUps_follow_precedence environments resourceTypes overrides .empty "dev" .admin
  obtain ⟨hprod, -⟩ := lookUps_follow_precedence environments resourceTypes overrides .empty "prod" .admin
  obtain ⟨-, htype, -⟩ := lookUps_follow_precedence environments resourceTypes overrides .empty "vault" .admin
  refine ⟨htechnical.table (hnone _) _ _ hdev rfl, hadmin.refused_iff.2 ⟨hnone _, fun row hrow => ?_⟩,
    hprod.override [] ⟨_, rfl, rfl⟩, htype.table ?_ _ _ hvault rfl, rfl, (hframe _ .empty .empty .empty).1 rfl rfl⟩
  · rw [Option.some.inj ((isTableOf_iff.1 hrow).symm.trans (isTableOf_iff.1 hdev))]
    rfl
  · rintro listed ⟨row, hrow, -⟩
    cases hrow

end RoleBook

end AccessPlan
