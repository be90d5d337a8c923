import AccessPlan.Proofs.Hierarchy.Values
import Mathlib.Data.List.Flatten

/-!
# A hierarchy is a tree of four layers

A blueprint makes a group for each environment, for each persona of an environment, and for each project of a
persona that has projects (`length_groups`, `mem_names_groups_iff`). Every group but the root hangs from a group before
it that is one layer up (`exists_above`), so the parents of a group lead to the root in as many steps as there are
layers above it (`ancestor?_depth`).

`isTreeOf_of_build`: every hierarchy that is built, from whatever values, is such a tree, and the check of its
topology passes.
-/

namespace AccessPlan

/-! ## Trees of groups -/

/-- The number of layers above. -/
def Level.depth : Level → Nat
  | root => 0
  | environment => 1
  | persona => 2
  | project => 3

/-- The environment, the persona and the project of a group. -/
def Group.names (g : Group) : Option String × Option Persona × Option String := (g.environment, g.persona, g.project)

/-- A group hangs from a group one layer up: it is of its environment and its persona, and its key continues the
other one's. The key of an environment group continues the prefix. -/
inductive Group.HangsFrom (g : Group) (org : String) (parent : Group) : Prop
  | environment {e : String} (above : parent.level = .root) (level : g.level = .environment)
      (environment : g.environment = some e) (key : g.key = org ++ "-" ++ e)
  | persona {p : Persona} (above : parent.level = .environment) (level : g.level = .persona)
      (environment : g.environment = parent.environment) (persona : g.persona = some p)
      (key : g.key = parent.key ++ "-" ++ p.label)
  | project {q : String} (above : parent.level = .persona) (level : g.level = .project)
      (environment : g.environment = parent.environment) (persona : g.persona = parent.persona)
      (project : g.project = some q) (key : g.key = parent.key ++ "-" ++ q)

namespace Hierarchy

variable (h : Hierarchy)

/-- The first group with the key of the parent. -/
def parent? (g : Group) : Option Group := g.parentKey.bind fun key => h.groups.find? fun g' => g'.key = key

/-- The group that so many steps to the parent lead to. -/
def ancestor? : (steps : Nat) → Group → Option Group
  | 0, g => some g
  | n + 1, g => (h.parent? g).bind (ancestor? n)

/-- The hierarchy is the tree of four layers for these names: its groups are those of the full product of the
environments, the personas and the projects, where administrators have no projects. -/
structure IsTree (org : String) (environments projects : List String) (projectGroups : Bool) (owners : List String) :
    Prop where
  length_groups : h.groups.length =
    if projectGroups then 1 + environments.length * (1 + 4 + 3 * projects.length) else 1 + 5 * environments.length
  nodup_keys : (h.groups.map Group.key).Nodup
  /-- Only the root has no parent. -/
  root : ∃ root, h.root? = some root ∧ root.level = .root ∧ h.groups.filter (fun g => g.parentKey.isNone) = [root]
  /-- The parent of every other group is a group before it, one layer up. -/
  above : ∀ g ∈ h.groups, g.level ≠ .root → ∃ parent, [parent, g].Sublist h.groups ∧
    g.parentKey = some parent.key ∧ g.HangsFrom org parent
  /-- The parents of every group lead to the root. -/
  ancestor : ∀ g ∈ h.groups, ∃ steps ≤ 3, h.ancestor? steps g = h.root?
  mem_names : ∀ names, names ∈ h.groups.map Group.names ↔ names = (none, none, none) ∨
    ∃ e ∈ environments, names = (some e, none, none) ∨ (∃ p, names = (some e, some p, none)) ∨
      ∃ p q, projectGroups = true ∧ p ≠ .admin ∧ q ∈ projects ∧ names = (some e, some p, some q)
  nodup_names : (h.groups.map Group.names).Nodup
  /-- The memberships are those of the groups below the root in their parents, in the order of the groups. -/
  memberships : List.Forall₂ (fun g m => g.parentKey = some m.parentKey ∧ g.key = m.childKey)
    (h.groups.filter fun g => g.parentKey.isSome) h.memberships
  /-- All groups have the same owners, in ascending order and each once. -/
  owners : ∃ all : List String, all.Pairwise (· < ·) ∧ (∀ owner, owner ∈ all ↔ owner ∈ owners) ∧
    ∀ g ∈ h.groups, g.owners = all

/-- The hierarchy is the tree for the names that the values are. -/
def IsTreeOf (org environments projects : Json) (projectGroups : Bool) (owners : Json) : Prop :=
  ∃ s es ps os, org = .str s ∧ environments.itemsOf = .ok (es.map .str) ∧ es.Nodup ∧
    projects.itemsOrNone = .ok (ps.map .str) ∧ ps.Nodup ∧ owners.itemsOrNone = .ok (os.map .str) ∧
    h.IsTree s es ps projectGroups os

end Hierarchy

namespace Blueprint

variable {b : Blueprint} {g : Group}

/-! ## How many groups there are -/

theorem length_environmentGroups (e : String) : (b.environmentGroups e).length =
    if b.projectGroups then 1 + 4 + 3 * b.projects.length else 5 := by
  have hlength : ∀ p, (b.personaGroups e p).length = 1 + (b.projectsOf p).length := fun p => by
    rw [personaGroups, List.length_cons, List.length_map, Nat.add_comm]
  simp only [environmentGroups, List.length_cons, List.length_flatMap, Persona.all, List.map_cons, List.map_nil,
    List.sum_cons, List.sum_nil, hlength, projectsOf, Persona.hasProjects]
  cases b.projectGroups
  · rfl
  · simp only [true_and, bne_iff_ne, ne_eq, reduceCtorEq, not_false_eq_true, not_true_eq_false, if_true, if_false,
      List.length_nil]
    omega

theorem length_groups : b.groups.length =
    if b.projectGroups then 1 + b.environments.length * (1 + 4 + 3 * b.projects.length)
    else 1 + 5 * b.environments.length := by
  rw [groups, List.length_cons, List.length_flatMap]
  simp only [length_environmentGroups, List.map_const', List.sum_replicate_nat]
  cases b.projectGroups <;> simp only [Bool.false_eq_true, if_true, if_false] <;> omega

/-! ## The names of groups -/

/-- The names of a group tell it. -/
theorem eq_of_names_eq {g' : Group} (h : b.Makes g) (h' : b.Makes g') (hn : g.names = g'.names) : g = g' := by
  simp only [Group.names, Prod.mk.injEq] at hn
  obtain ⟨he, hp, hq⟩ := hn
  cases h with
  | root =>
    cases h' with
    | root => rfl
    | _ => cases he
  | environment hm =>
    cases h' with
    | environment hm' => rw [Option.some.inj he]
    | root => cases he
    | _ => cases hp
  | persona hm p =>
    cases h' with
    | persona hm' p' => rw [Option.some.inj he, Option.some.inj hp]
    | project _ _ => cases hq
    | _ => cases hp
  | project hm hq' =>
    cases h' with
    | project _ _ => rw [Option.some.inj he, Option.some.inj hp, Option.some.inj hq]
    | _ => cases hq

/-- For which names there are groups. -/
theorem mem_names_groups_iff {names : Option String × Option Persona × Option String} :
    names ∈ b.groups.map Group.names ↔ names = (none, none, none) ∨
      ∃ e ∈ b.environments, names = (some e, none, none) ∨ (∃ p, names = (some e, some p, none)) ∨
        ∃ p q, b.projectGroups = true ∧ p ≠ .admin ∧ q ∈ b.projects ∧ names = (some e, some p, some q) := by
  simp only [List.mem_map, mem_groups_iff]
  constructor
  · rintro ⟨g, hg, rfl⟩
    cases hg with
    | root => exact Or.inl rfl
    | environment he => exact Or.inr ⟨_, he, Or.inl rfl⟩
    | persona he p => exact Or.inr ⟨_, he, Or.inr (Or.inl ⟨p, rfl⟩)⟩
    | project he hq =>
      obtain ⟨⟨hon, hp⟩, hq⟩ := mem_projectsOf.1 hq
      exact Or.inr ⟨_, he, Or.inr (Or.inr ⟨_, _, hon, bne_iff_ne.1 hp, hq, rfl⟩)⟩
  · rintro (rfl | ⟨e, he, rfl | ⟨p, rfl⟩ | ⟨p, q, hon, hp, hq, rfl⟩⟩)
    · exact ⟨_, .root, rfl⟩
    · exact ⟨_, .environment he, rfl⟩
    · exact ⟨_, .persona he p, rfl⟩
    · exact ⟨_, .project he (mem_projectsOf.2 ⟨⟨hon, bne_iff_ne.2 hp⟩, hq⟩), rfl⟩

/-! ## Groups hang from groups before them -/

theorem sublist_environmentGroups {e : String} (he : e ∈ b.environments) :
    (b.environmentGroups e).Sublist b.groups := by
  have h := (List.singleton_sublist.2 he).flatMap b.environmentGroups
  rw [List.flatMap_singleton] at h
  exact h.cons _

theorem sublist_personaGroups {e : String} (he : e ∈ b.environments) (p : Persona) :
    (b.personaGroups e p).Sublist b.groups := by
  have h := (List.singleton_sublist.2 p.mem_all).flatMap (b.personaGroups e)
  rw [List.flatMap_singleton] at h
  exact (h.cons _).trans (sublist_environmentGroups he)

/-- Every group but the root hangs from a group before it. -/
theorem exists_above (h : b.Makes g) (hl : g.level ≠ .root) : ∃ parent, b.Makes parent ∧
    [parent, g].Sublist b.groups ∧ g.parentKey = some parent.key ∧ g.HangsFrom b.org parent := by
  cases h with
  | root => exact absurd rfl hl
  | @environment e he =>
    refine ⟨b.rootGroup, .root, ?_, rfl, .environment rfl rfl rfl rfl⟩
    refine List.cons_sublist_cons.2 (List.singleton_sublist.2 (List.mem_flatMap.2 ⟨e, he, List.mem_cons_self⟩))
  | @persona e he p =>
    refine ⟨b.environmentGroup e, .environment he, ?_, rfl, .persona rfl rfl rfl rfl rfl⟩
    refine List.Sublist.trans ?_ (sublist_environmentGroups he)
    exact List.cons_sublist_cons.2 (List.singleton_sublist.2
      (List.mem_flatMap.2 ⟨p, p.mem_all, List.mem_cons_self⟩))
  | @project e q p he hq =>
    refine ⟨b.personaGroup e p, .persona he p, ?_, rfl, .project rfl rfl rfl rfl rfl rfl⟩
    refine List.Sublist.trans ?_ (sublist_personaGroups he p)
    exact List.cons_sublist_cons.2 (List.singleton_sublist.2 (List.mem_map_of_mem hq))

theorem parentKey_eq_none_iff (h : b.Makes g) : g.parentKey = none ↔ g = b.rootGroup := by
  cases h with
  | root => exact ⟨fun _ => rfl, fun _ => rfl⟩
  | _ => exact ⟨nofun, fun h => nomatch congrArg Group.level h⟩

end Blueprint

/-- A group that hangs from another one is one layer below it. -/
theorem Group.HangsFrom.depth_eq {org : String} {parent g : Group} (h : g.HangsFrom org parent) :
    g.level.depth = parent.level.depth + 1 := by
  cases h with
  | environment above level _ _ => rw [above, level]; rfl
  | persona above level _ _ _ => rw [above, level]; rfl
  | project above level _ _ _ _ => rw [above, level]; rfl

namespace Blueprint

variable {b : Blueprint} {g : Group}

section Ancestors

variable (hn : (b.groups.map Group.key).Nodup)
include hn

/-- The parent's key leads to the parent. -/
theorem parent?_eq {parent : Group} (h : b.Makes parent) (hp : g.parentKey = some parent.key) :
    b.hierarchy.parent? g = some parent := by
  have hm := mem_groups_iff.2 h
  rw [Hierarchy.parent?, hp, Option.bind_some]
  obtain ⟨found, hfound⟩ := Option.isSome_iff_exists.1
    (List.find?_isSome (p := fun g' : Group => decide (g'.key = parent.key)) |>.2 ⟨parent, hm, by simp⟩)
  have hkey := List.find?_some hfound
  rw [groups_hierarchy, hfound]
  exact congrArg some (eq_of_key_eq hn (mem_groups_iff.1 (List.mem_of_find?_eq_some hfound)) h (by simpa using hkey))

/-- The parents of a group lead to the root, by induction on the number of layers above the group. -/
theorem ancestor?_depth {n : Nat} : ∀ {g : Group}, b.Makes g → g.level.depth = n →
    b.hierarchy.ancestor? n g = some b.rootGroup := by
  induction n with
  | zero =>
    intro g hg hd
    cases hg with
    | root => rfl
    | _ => cases hd
  | succ n ih =>
    intro g hg hd
    have hl : g.level ≠ .root := fun h => by
      rw [h] at hd
      cases hd
    obtain ⟨parent, hparent, -, hkey, hhangs⟩ := exists_above hg hl
    rw [Hierarchy.ancestor?, parent?_eq hn hparent hkey, Option.bind_some]
    exact ih hparent (Nat.succ.inj (hhangs.depth_eq.symm.trans hd))

end Ancestors

theorem forall₂_membershipsOf (gs : List Group) :
    List.Forall₂ (fun g m => g.parentKey = some m.parentKey ∧ g.key = m.childKey)
      (gs.filter fun g => g.parentKey.isSome) (Hierarchy.membershipsOf gs) := by
  induction gs with
  | nil => exact .nil
  | cons g gs ih =>
    cases hp : g.parentKey with
    | none =>
      rw [List.filter_cons_of_neg (by simp [hp])]
      simpa [Hierarchy.membershipsOf, hp] using ih
    | some parent =>
      rw [List.filter_cons_of_pos (by simp [hp])]
      have hcons : Hierarchy.membershipsOf (g :: gs) = ⟨parent, g.key⟩ :: Hierarchy.membershipsOf gs := by
        simp [Hierarchy.membershipsOf, hp]
      rw [hcons]
      exact .cons ⟨hp, rfl⟩ ih

/-- The hierarchy of the blueprint of texts is their tree if its keys are different. -/
theorem isTree_ofTexts {org : String} {environments projects owners : List String} {projectGroups : Bool}
    (hn : ((ofTexts org environments projects projectGroups owners).groups.map Group.key).Nodup) :
    (ofTexts org environments projects projectGroups owners).hierarchy.IsTree org environments projects projectGroups
      owners where
  length_groups := by
    have hlength := length_groups (b := ofTexts org environments projects projectGroups owners)
    simp only [ofTexts, (sortedBy_perm id environments).length_eq, (sortedBy_perm id projects).length_eq] at hlength
    exact hlength
  nodup_keys := hn
  root := by
    refine ⟨_, root?_hierarchy, rfl, ?_⟩
    have hrest : ∀ g ∈ (ofTexts org environments projects projectGroups owners).groups.tail,
        ¬ g.parentKey.isNone = true := by
      intro g hg hnone
      have hmakes := mem_groups_iff.1 (List.mem_of_mem_tail hg)
      obtain rfl := (parentKey_eq_none_iff hmakes).1 (Option.isNone_iff_eq_none.1 hnone)
      exact (List.nodup_cons.1 (List.Nodup.of_map Group.key hn)).1 hg
    exact (List.filter_cons_of_pos rfl).trans (congrArg (List.cons _) (List.filter_eq_nil_iff.2 hrest))
  above g hg hl := by
    obtain ⟨parent, -, h⟩ := exists_above (mem_groups_iff.1 hg) hl
    exact ⟨parent, h⟩
  ancestor g hg := by
    refine ⟨g.level.depth, by cases g.level <;> decide, ?_⟩
    rw [ancestor?_depth hn (mem_groups_iff.1 hg) rfl, root?_hierarchy]
  mem_names names := by
    have hnames := @mem_names_groups_iff (ofTexts org environments projects projectGroups owners) names
    simp only [ofTexts, mem_sortedBy] at hnames
    exact hnames
  nodup_names := (List.Nodup.of_map Group.key hn).map_on fun g hg g' hg' =>
    eq_of_names_eq (mem_groups_iff.1 hg) (mem_groups_iff.1 hg')
  memberships := forall₂_membershipsOf _
  owners := by
    refine ⟨sortedUnique owners, pairwise_sortedUnique owners, fun _ => mem_sortedUnique, fun g hg => ?_⟩
    cases mem_groups_iff.1 hg <;> rfl

end Blueprint

/-! ## Hierarchies that are built -/

/-- Every hierarchy that is built is the tree of four layers for the names that the values are, and the check of its
topology passes. Its groups are those of a blueprint, which only has to be asked for its keys. -/
theorem isTreeOf_of_build {org environments projects owners : Json} {projectGroups : Bool} {h : Hierarchy}
    (hb : Hierarchy.build org environments projects projectGroups owners = .ok h) :
    h.IsTreeOf org environments projects projectGroups owners ∧ checkTopology h.groups = .ok () := by
  obtain ⟨s, es, ps, os, rfl, hes, -, hps, hos, -, hE, hP, hn, rfl⟩ := exists_texts_of_build hb
  have htree := Blueprint.isTree_ofTexts hn
  exact ⟨⟨s, es, ps, os, rfl, hes, hE.nodup, hps, hP.nodup, hos, htree⟩, Blueprint.checkTopology_groups hn⟩

theorem isTreeOf_web : ∃ h, Hierarchy.build (.str "acme") (.ofTexts ["dev", "prod"]) (.ofTexts ["web"]) true
    (.ofTexts ["second", "first", "second"]) = .ok h ∧
    h.IsTreeOf (.str "acme") (.ofTexts ["dev", "prod"]) (.ofTexts ["web"]) true
      (.ofTexts ["second", "first", "second"]) ∧ checkTopology h.groups = .ok () := by
  have hkeys : ((Blueprint.ofTexts "acme" ["dev", "prod"] ["web"] true
      ["second", "first", "second"]).groups.map Group.key).Nodup := by
    rw [Blueprint.ofTexts_of_pairwise (by decide) (by decide)]
    decide +kernel
  have hb := build_texts_eq_ok_iff.2 ⟨by decide +kernel, by decide, ⟨by decide +kernel, by decide +kernel⟩,
    ⟨by decide +kernel, by decide +kernel⟩, hkeys, rfl⟩
  exact ⟨_, hb, isTreeOf_of_build hb⟩

end AccessPlan
