import AccessPlan.Policy.Resolution
import AccessPlan.Proofs.Collection.Order
import AccessPlan.Proofs.Collection.Traversal
import AccessPlan.Proofs.Text.Join
import Mathlib.Data.List.Nodup

/-!
# The layers of a hierarchy

A blueprint makes four kinds of groups (`Blueprint.Makes`), and the list of its groups holds exactly these
(`mem_groups_iff`). If their keys are different, a key tells its group (`eq_of_key_eq`), so the groups below a
group are those of the next layer: below the root the groups of the environments (`environment_of_parent`),
below these the groups of their personas (`persona_of_parent`), and below these the groups of projects
(`project_of_parent`).

Every parent is a group (`exists_parent`), so the check of the topology passes (`checkTopology_groups`).
-/

namespace AccessPlan.Blueprint

/-- The groups of a blueprint, layer by layer. -/
inductive Makes (b : Blueprint) : Group → Prop
  | root : b.Makes b.rootGroup
  | environment {e : String} (he : e ∈ b.environments) : b.Makes (b.environmentGroup e)
  | persona {e : String} (he : e ∈ b.environments) (p : Persona) : b.Makes (b.personaGroup e p)
  | project {e q : String} {p : Persona} (he : e ∈ b.environments) (hq : q ∈ b.projectsOf p) :
      b.Makes (b.projectGroup e p q)

variable {b : Blueprint} {g g' : Group}

theorem mem_personaGroups_iff {e : String} {p : Persona} :
    g ∈ b.personaGroups e p ↔ g = b.personaGroup e p ∨ ∃ q ∈ b.projectsOf p, g = b.projectGroup e p q := by
  simp only [personaGroups, List.mem_cons, List.mem_map, eq_comm]

/-- The list of groups holds exactly the groups of the four layers. -/
theorem mem_groups_iff : g ∈ b.groups ↔ b.Makes g := by
  simp only [groups, environmentGroups, List.mem_cons, List.mem_flatMap, mem_personaGroups_iff]
  constructor
  · rintro (rfl | ⟨e, he, rfl | ⟨p, -, rfl | ⟨q, hq, rfl⟩⟩⟩)
    · exact .root
    · exact .environment he
    · exact .persona he p
    · exact .project he hq
  · intro h
    cases h with
    | root => exact Or.inl rfl
    | environment he => exact Or.inr ⟨_, he, Or.inl rfl⟩
    | persona he p => exact Or.inr ⟨_, he, Or.inr ⟨p, p.mem_all, Or.inl rfl⟩⟩
    | project he hq => exact Or.inr ⟨_, he, Or.inr ⟨_, Persona.mem_all _, Or.inr ⟨_, hq, rfl⟩⟩⟩

theorem mem_projectsOf {q : String} {p : Persona} : q ∈ b.projectsOf p ↔
    (b.projectGroups = true ∧ p.hasProjects = true) ∧ q ∈ b.projects := by
  unfold projectsOf
  split
  · rename_i h
    exact (and_iff_right h).symm
  · rename_i h
    exact ⟨fun hm => (List.not_mem_nil hm).elim, fun hm => absurd hm.1 h⟩

theorem Makes.mem_environments (h : b.Makes g) {e : String} (he : g.environment = some e) : e ∈ b.environments := by
  cases h with
  | root => cases he
  | environment hm => exact Option.some.inj he ▸ hm
  | persona hm _ => exact Option.some.inj he ▸ hm
  | project hm _ => exact Option.some.inj he ▸ hm

/-- Only groups of projects are of a project. -/
theorem Makes.mem_projects (h : b.Makes g) {q : String} (hq : g.project = some q) :
    b.projectGroups = true ∧ q ∈ b.projects := by
  cases h with
  | project _ hm =>
    obtain rfl := Option.some.inj hq
    exact ⟨(mem_projectsOf.1 hm).1.1, (mem_projectsOf.1 hm).2⟩
  | _ => cases hq

/-! ## Keys -/

section Keys

variable (hn : (b.groups.map Group.key).Nodup)
include hn

/-- A key tells its group. -/
theorem eq_of_key_eq (h : b.Makes g) (h' : b.Makes g') (hk : g.key = g'.key) : g = g' :=
  List.inj_on_of_nodup_map hn (mem_groups_iff.2 h) (mem_groups_iff.2 h') hk

/-- The key of a persona group tells the environment and the persona. -/
theorem personaKey_inj {e e' : String} {p p' : Persona} (he : e ∈ b.environments) (he' : e' ∈ b.environments)
    (h : b.personaKey e p = b.personaKey e' p') : e = e' ∧ p = p' := by
  have hg : b.personaGroup e p = b.personaGroup e' p' := eq_of_key_eq hn (.persona he p) (.persona he' p') h
  exact ⟨Option.some.inj (congrArg Group.environment hg), Option.some.inj (congrArg Group.persona hg)⟩

/-- Below the root are the groups of the environments. -/
theorem environment_of_parent (h : b.Makes g) (hp : g.parentKey = some b.rootKey) :
    ∃ e ∈ b.environments, g = b.environmentGroup e := by
  cases h with
  | root => cases hp
  | environment he => exact ⟨_, he, rfl⟩
  | persona he p =>
    have hk := eq_of_key_eq hn (.environment he) .root (Option.some.inj hp)
    exact absurd (congrArg Group.level hk) (by simp [environmentGroup, rootGroup])
  | project he hq =>
    have hk := eq_of_key_eq hn (.persona he _) .root (Option.some.inj hp)
    exact absurd (congrArg Group.level hk) (by simp [personaGroup, rootGroup])

/-- Below the group of an environment are the groups of its personas. -/
theorem persona_of_parent {e : String} (he : e ∈ b.environments) (h : b.Makes g)
    (hp : g.parentKey = some (b.environmentKey e)) : ∃ p, g = b.personaGroup e p := by
  cases h with
  | root => cases hp
  | environment he' =>
    have hk := eq_of_key_eq hn .root (.environment he) (Option.some.inj hp)
    exact absurd (congrArg Group.level hk) (by simp [environmentGroup, rootGroup])
  | persona he' p =>
    have hk := eq_of_key_eq hn (.environment he') (.environment he) (Option.some.inj hp)
    obtain rfl := Option.some.inj (congrArg Group.environment hk)
    exact ⟨p, rfl⟩
  | project he' hq =>
    have hk := eq_of_key_eq hn (.persona he' _) (.environment he) (Option.some.inj hp)
    exact absurd (congrArg Group.level hk) (by simp [personaGroup, environmentGroup])

/-- Below the group of a persona are the groups of projects. -/
theorem project_of_parent {e : String} {p : Persona} (he : e ∈ b.environments) (h : b.Makes g)
    (hp : g.parentKey = some (b.personaKey e p)) : ∃ q ∈ b.projectsOf p, g = b.projectGroup e p q := by
  cases h with
  | root => cases hp
  | environment he' =>
    have hk := eq_of_key_eq hn .root (.persona he p) (Option.some.inj hp)
    exact absurd (congrArg Group.level hk) (by simp [personaGroup, rootGroup])
  | persona he' p' =>
    have hk := eq_of_key_eq hn (.environment he') (.persona he p) (Option.some.inj hp)
    exact absurd (congrArg Group.level hk) (by simp [personaGroup, environmentGroup])
  | project he' hq =>
    have hk := eq_of_key_eq hn (.persona he' _) (.persona he p) (Option.some.inj hp)
    obtain rfl := Option.some.inj (congrArg Group.environment hk)
    obtain rfl := Option.some.inj (congrArg Group.persona hk)
    exact ⟨_, hq, rfl⟩

end Keys

/-! ## The hierarchy -/

/-- The groups of a blueprint with their memberships. -/
def hierarchy (b : Blueprint) : Hierarchy := ⟨b.groups, Hierarchy.membershipsOf b.groups⟩

@[simp] theorem groups_hierarchy : b.hierarchy.groups = b.groups := rfl

theorem root?_hierarchy : b.hierarchy.root? = some b.rootGroup := rfl

/-- The parent of every group is a group. -/
theorem exists_parent (h : b.Makes g) {key : String} (hp : g.parentKey = some key) :
    ∃ g', b.Makes g' ∧ g'.key = key := by
  cases h with
  | root => cases hp
  | environment _ => exact ⟨_, .root, Option.some.inj hp⟩
  | persona he _ => exact ⟨_, .environment he, Option.some.inj hp⟩
  | project he _ => exact ⟨_, .persona he _, Option.some.inj hp⟩

/-- The check of the topology passes if the keys are different. -/
theorem checkTopology_groups (hn : (b.groups.map Group.key).Nodup) : checkTopology b.groups = .ok () := by
  have hr : firstRepeated (b.groups.map Group.key) = none := firstRepeated_eq_none.2 hn
  simp only [checkTopology, hr, Option.isSome_none, Bool.false_eq_true, if_false, bind, Except.bind, pure, Except.pure]
  refine forM_eq_ok.2 fun g hg => ?_
  cases hp : g.parentKey with
  | none => rfl
  | some key =>
    obtain ⟨g', hg', rfl⟩ := exists_parent (mem_groups_iff.1 hg) hp
    have hm : g'.key ∈ b.groups.map Group.key := List.mem_map_of_mem (mem_groups_iff.2 hg')
    simp only [if_pos hm]

/-- The layer of the personas: the groups of every environment and persona. -/
theorem layer_persona : b.hierarchy.layer .persona =
    b.environments.flatMap fun e => Persona.all.map (b.personaGroup e) := by
  have hp : ∀ e p, (b.personaGroups e p).filter (fun g => g.level = .persona) = [b.personaGroup e p] := by
    intro e p
    have hq : ((b.projectsOf p).map (b.projectGroup e p)).filter (fun g => g.level = .persona) = [] := by
      rw [List.filter_eq_nil_iff]
      intro g hg
      obtain ⟨q, -, rfl⟩ := List.mem_map.1 hg
      simp [projectGroup]
    rw [personaGroups, List.filter_cons_of_pos (by simp [personaGroup]), hq]
  have he : ∀ e, (b.environmentGroups e).filter (fun g => g.level = .persona) =
      Persona.all.map (b.personaGroup e) := by
    intro e
    rw [environmentGroups, List.filter_cons_of_neg (by simp [environmentGroup]), List.filter_flatMap,
      List.map_eq_flatMap]
    simp only [hp]
  rw [Hierarchy.layer, groups_hierarchy, groups, List.filter_cons_of_neg (by simp [rootGroup]), List.filter_flatMap]
  simp only [he]

end AccessPlan.Blueprint
