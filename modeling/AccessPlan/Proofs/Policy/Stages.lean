import AccessPlan.Proofs.Policy.Acceptance
import AccessPlan.Proofs.Policy.Records

/-!
# The stages of a policy

A record may refer to other records, by their kind and their key (`Entity.references`): a group to its parent, a
membership to its two groups, an assignment to whom it is for, a service principal and a credential to their
application, and the edge of an owner to its principal.

The stages of a policy are an order in which its records can be created (`isStaged_of_resolve`): every record is listed
in one of them, and all records that it refers to are in the stages before.

* `keys_stages`: which records the stages list, whatever the policy is.
* `HasRecords.exists_reference`: no reference of a policy that was resolved dangles or leads to a later stage.
-/

namespace AccessPlan

/-- The items of every number below a bound are those with a number below it. -/
theorem flatMap_filter_perm {α : Type} (number : α → Nat) (xs : List α) : ∀ n : Nat,
    ((List.range n).flatMap fun k => xs.filter fun x => number x = k).Perm (xs.filter fun x => number x < n)
  | 0 => by simp
  | n + 1 => by
    have hsplit := List.filter_append_perm (fun x => decide (number x < n)) (xs.filter fun x => number x < n + 1)
    have hbelow : ∀ x ∈ xs, (decide (number x < n) && decide (number x < n + 1)) = decide (number x < n) := by
      intro x _
      rw [← Bool.decide_and, decide_eq_decide]
      omega
    have hlast : ∀ x ∈ xs, (!decide (number x < n) && decide (number x < n + 1)) = decide (number x = n) := by
      intro x _
      rw [← decide_not, ← Bool.decide_and, decide_eq_decide]
      omega
    rw [List.filter_filter, List.filter_filter, List.filter_congr hbelow, List.filter_congr hlast] at hsplit
    rw [List.range_succ, List.flatMap_append, List.flatMap_singleton]
    exact ((flatMap_filter_perm number xs n).append_right _).trans hsplit

/-- A record of any kind. -/
inductive Entity where
  | group (g : Group)
  | membership (m : Membership)
  | roleDefinition (r : RoleDefinition)
  | assignment (a : Assignment)
  | application (a : Application)
  | servicePrincipal (s : ServicePrincipal)
  | ownerEdge (o : OwnerEdge)
  | credential (c : Credential)

/-- The kind of record that a principal of a kind is. -/
def PrincipalKind.entityKind : PrincipalKind → EntityKind
  | group => .groups
  | servicePrincipal => .servicePrincipals

namespace Entity

def kind : Entity → EntityKind
  | group _ => .groups
  | membership _ => .memberships
  | roleDefinition _ => .roleDefinitions
  | assignment _ => .assignments
  | application _ => .applications
  | servicePrincipal _ => .servicePrincipals
  | ownerEdge _ => .ownerEdges
  | credential _ => .credentials

def key : Entity → String
  | group g => g.key
  | membership m => m.key
  | roleDefinition r => r.key
  | assignment a => a.key
  | application a => a.key
  | servicePrincipal s => s.key
  | ownerEdge o => o.key
  | credential c => c.key

/-- What tells a record: its kind, and its key, which a record of another kind may have as well. -/
def identity (e : Entity) : EntityKind × String := (e.kind, e.key)

/-- The records that a record needs. -/
def references : Entity → List (EntityKind × String)
  | group g => g.parentKey.toList.map fun parent => (.groups, parent)
  | membership m => [(.groups, m.parentKey), (.groups, m.childKey)]
  | roleDefinition _ => []
  | assignment a => [(a.principalKind.entityKind, a.principalKey)]
  | application _ => []
  | servicePrincipal s => [(.applications, s.applicationKey)]
  | ownerEdge o => [(.servicePrincipals, o.principalKey)]
  | credential c => [(.applications, c.applicationId)]

/-- The number of the stage of a record, from 0 on. -/
def stage : Entity → Nat
  | group g =>
    match g.level with
    | .root => 0
    | .environment => 1
    | .persona => 2
    | .project => 3
  | membership _ => 4
  | roleDefinition _ => 5
  | assignment a => if ResolvedPolicy.isOfPrincipal a then 11 else 6
  | application _ => 7
  | servicePrincipal _ => 8
  | credential _ => 9
  | ownerEdge _ => 10

theorem stage_assignment (a : Assignment) :
    (assignment a).stage = if ResolvedPolicy.isOfPrincipal a then 11 else 6 := rfl

theorem stage_lt (e : Entity) : e.stage < 12 := by
  cases e with
  | group g =>
    simp only [stage]
    cases g.level <;> decide
  | assignment a =>
    simp only [stage]
    split <;> decide
  | _ => exact of_decide_eq_true rfl

/-- Groups are created before everything that is no group. -/
theorem stage_group_le (g : Group) : (group g).stage ≤ 3 := by
  simp only [stage]
  cases g.level <;> decide

end Entity

namespace ResolvedPolicy

/-- All records of a policy. -/
def entities (p : ResolvedPolicy) : List Entity :=
  p.groups.map .group ++ p.memberships.map .membership ++ p.roleDefinitions.map .roleDefinition ++
    p.assignments.map .assignment ++ p.applications.map .application ++ p.servicePrincipals.map .servicePrincipal ++
    p.ownerEdges.map .ownerEdge ++ p.credentials.map .credential

/-- A record is one of those of a policy. -/
def Has (p : ResolvedPolicy) : Entity → Prop
  | .group g => g ∈ p.groups
  | .membership m => m ∈ p.memberships
  | .roleDefinition r => r ∈ p.roleDefinitions
  | .assignment a => a ∈ p.assignments
  | .application a => a ∈ p.applications
  | .servicePrincipal s => s ∈ p.servicePrincipals
  | .ownerEdge o => o ∈ p.ownerEdges
  | .credential c => c ∈ p.credentials

theorem mem_entities {p : ResolvedPolicy} {e : Entity} : e ∈ p.entities ↔ p.Has e := by
  cases e <;> simp [entities, Has]

/-- The stages of a policy are an order in which its records can be created. -/
structure IsStaged (p : ResolvedPolicy) : Prop where
  /-- A record is told by its kind and its key. -/
  distinct : (p.entities.map Entity.identity).Nodup
  /-- Every stage lists the records that belong to it. -/
  lists : p.stages.map Stage.keys =
    (List.range 12).map fun n => (p.entities.filter fun e => e.stage = n).map Entity.key
  /-- All stages together list every record once. -/
  complete : (p.stages.flatMap Stage.keys).Perm (p.entities.map Entity.key)
  /-- What a record refers to is a record of an earlier stage. -/
  references : ∀ e ∈ p.entities, ∀ r ∈ e.references, ∃ e' ∈ p.entities, e'.identity = r ∧ e'.stage < e.stage
  /-- The records of one stage do not refer to each other. -/
  independent : ∀ e ∈ p.entities, ∀ e' ∈ p.entities, e'.stage = e.stage → e'.identity ∉ e.references

section Stages

variable (p : ResolvedPolicy)

/-- The keys of the records of a stage, kind by kind. -/
theorem keys_of_stage (n : Nat) : (p.entities.filter fun e => e.stage = n).map Entity.key =
    (p.groups.filter fun g => (Entity.group g).stage = n).map Group.key ++
    (p.memberships.filter fun _ => 4 = n).map Membership.key ++
    (p.roleDefinitions.filter fun _ => 5 = n).map RoleDefinition.key ++
    (p.assignments.filter fun a => (if isOfPrincipal a then 11 else 6) = n).map Assignment.key ++
    (p.applications.filter fun _ => 7 = n).map Application.key ++
    (p.servicePrincipals.filter fun _ => 8 = n).map ServicePrincipal.key ++
    (p.ownerEdges.filter fun _ => 10 = n).map OwnerEdge.key ++
    (p.credentials.filter fun _ => 9 = n).map Credential.key := by
  simp only [entities, List.filter_append, List.map_append, List.filter_map, List.map_map]
  rfl

/-- The groups of a layer are those of its stage. -/
theorem groups_of_stage (level : Level) : (p.groups.filter fun g => (Entity.group g).stage = Level.all.idxOf level) =
    p.groups.filter fun g => g.level = level := by
  refine List.filter_congr fun g _ => decide_eq_decide.2 ?_
  simp only [Entity.stage]
  cases g.level <;> cases level <;> decide

theorem groups_of_later_stage {n : Nat} (hn : 3 < n) : (p.groups.filter fun g => (Entity.group g).stage = n) = [] :=
  List.filter_eq_nil_iff.2 fun g _ he => Nat.not_le.2 hn (of_decide_eq_true he ▸ Entity.stage_group_le g)

theorem assignments_of_other_stage {n : Nat} (hgroups : n ≠ 6) (hprincipals : n ≠ 11) :
    (p.assignments.filter fun a => (if isOfPrincipal a then 11 else 6) = n) = [] := by
  refine List.filter_eq_nil_iff.2 fun a _ he => ?_
  have hn := of_decide_eq_true he
  split at hn
  · exact hprincipals hn.symm
  · exact hgroups hn.symm

/-- Which records the stages list. -/
theorem keys_stages : p.stages.map Stage.keys =
    (List.range 12).map fun n => (p.entities.filter fun e => e.stage = n).map Entity.key := by
  have hroot : (p.groups.filter fun g => (Entity.group g).stage = 0) = _ := p.groups_of_stage .root
  have henvironments : (p.groups.filter fun g => (Entity.group g).stage = 1) = _ := p.groups_of_stage .environment
  have hpersonas : (p.groups.filter fun g => (Entity.group g).stage = 2) = _ := p.groups_of_stage .persona
  have hprojects : (p.groups.filter fun g => (Entity.group g).stage = 3) = _ := p.groups_of_stage .project
  have hgrants : ∀ b : Bool, ((if b = true then 11 else 6) = 6) = (b = false) := by decide
  have hprincipals : ∀ b : Bool, ((if b = true then 11 else 6) = 11) = (b = true) := by decide
  simp [keys_of_stage, stages, List.range_succ, hroot, henvironments, hpersonas, hprojects, groups_of_later_stage,
    assignments_of_other_stage, layerKeys, keys, hgrants, hprincipals]

/-- All stages together list every record once. -/
theorem perm_stages : (p.stages.flatMap Stage.keys).Perm (p.entities.map Entity.key) := by
  have hperm := flatMap_filter_perm Entity.stage p.entities 12
  rw [List.filter_eq_self.2 fun e _ => decide_eq_true e.stage_lt] at hperm
  rw [List.flatMap_def, p.keys_stages, ← List.flatMap_def, ← List.map_flatMap]
  exact hperm.map Entity.key

/-- The records are told by kinds and keys. -/
theorem identities : p.entities.map Entity.identity =
    EntityKind.all.flatMap fun kind => (p.keys kind).map fun key => (kind, key) := by
  simp only [entities, List.map_append, List.map_map, EntityKind.all, List.flatMap_cons, List.flatMap_nil,
    List.append_nil, keys, List.append_assoc]
  rfl

end Stages

end ResolvedPolicy

/-! ## References -/

/-- The parent of a group is a group of an earlier stage. -/
theorem Blueprint.Makes.exists_earlier_parent {b : Blueprint} {g : Group} {key : String} (h : b.Makes g)
    (hp : g.parentKey = some key) :
    ∃ g', b.Makes g' ∧ g'.key = key ∧ (Entity.group g').stage < (Entity.group g).stage := by
  cases h with
  | root => cases hp
  | environment _ => exact ⟨_, .root, Option.some.inj hp, Nat.zero_lt_one⟩
  | persona he _ => exact ⟨_, .environment he, Option.some.inj hp, Nat.one_lt_two⟩
  | project he _ => exact ⟨_, .persona he _, Option.some.inj hp, Nat.lt_succ_self 2⟩

namespace PolicyConfig

variable {config : PolicyConfig} {context c : Context} {p : ResolvedPolicy} {records : List PrincipalRecords}

namespace HasRecords

variable (hr : config.HasRecords c p records)
include hr

/-- The records of a service principal refer to each other. -/
theorem refers (ho : config.owners ≠ []) {r : PrincipalRecords} (hm : r ∈ records) :
    r.principal.applicationKey = r.application.key ∧ r.credential.applicationId = r.application.key ∧
      (∀ o ∈ r.ownerEdges, o.principalKey = r.principal.key) ∧
      ∀ a ∈ r.assignments, a.tier = .servicePrincipal ∧ a.principalKind = .servicePrincipal ∧
        a.principalKey = r.principal.key := by
  obtain ⟨e, -, he⟩ := hr.mem_records.1 hm
  obtain ⟨credential, hissue, rfl⟩ := PrincipalRecords.exists_issued ho he
  obtain ⟨endDate, keyId, -, -, rfl⟩ := issue_eq_ok_iff.1 hissue
  refine ⟨rfl, rfl, fun o hmo => ?_, fun a hma => ?_⟩
  · obtain ⟨owner, -, rfl⟩ := List.mem_map.1 hmo
    rfl
  · obtain ⟨x, hx, rfl⟩ := List.mem_map.1 hma
    obtain ⟨g, -, rfl⟩ := List.mem_map.1 hx
    exact ⟨rfl, rfl, rfl⟩

/-- What is granted to groups is granted to groups that there are. -/
theorem exists_group_of_source {x : Source} (hx : x ∈ config.groupSources) {scopeAt : Place → Scope} :
    ResolvedPolicy.isOfPrincipal (x.assignment scopeAt) = false ∧
      ∃ g ∈ p.groups, (x.assignment scopeAt).principalKind = .group ∧ g.key = (x.assignment scopeAt).principalKey := by
  obtain ⟨place, -, g, hg, role, -, rfl⟩ := mem_groupSources.1 hx
  obtain ⟨e, he, q, rfl⟩ := mem_layer_persona.1 hg
  refine ⟨?_, _, hr.mem_groups.2 (.persona (mem_environments_blueprint.2 he) q), rfl, rfl⟩
  cases place <;> rfl

/-- What a record of a policy refers to is a record of an earlier stage. -/
theorem exists_reference (ho : config.owners ≠ []) {e : Entity} (he : p.Has e) {i : EntityKind × String}
    (hi : i ∈ e.references) : ∃ e', p.Has e' ∧ e'.identity = i ∧ e'.stage < e.stage := by
  have happlication : ∀ r ∈ records, p.Has (.application r.application) := fun r hm => by
    rw [ResolvedPolicy.Has, hr.applications]
    exact List.mem_map_of_mem hm
  have hprincipal : ∀ r ∈ records, p.Has (.servicePrincipal r.principal) := fun r hm => by
    rw [ResolvedPolicy.Has, hr.servicePrincipals]
    exact List.mem_map_of_mem hm
  have hgroup : ∀ g, config.blueprint.Makes g → p.Has (.group g) := fun g hg => hr.mem_groups.2 hg
  cases e with
  | group g =>
    obtain ⟨parent, hp, rfl⟩ := List.mem_map.1 hi
    obtain ⟨g', hg', hk, hs⟩ := (hr.mem_groups.1 he).exists_earlier_parent (Option.mem_toList.1 hp)
    exact ⟨.group g', hgroup g' hg', congrArg _ hk, hs⟩
  | membership m =>
    obtain ⟨child, hc, hp, hk⟩ := hr.mem_memberships.1 he
    obtain ⟨parent, hm, hpk⟩ := Blueprint.exists_parent hc hp
    have hstage : ∀ g, (Entity.group g).stage < (Entity.membership m).stage := fun g =>
      Nat.lt_succ_of_le (Entity.stage_group_le g)
    simp only [Entity.references, List.mem_cons, List.not_mem_nil, or_false] at hi
    rcases hi with rfl | rfl
    · exact ⟨.group parent, hgroup parent hm, congrArg _ hpk, hstage parent⟩
    · exact ⟨.group child, hgroup child hc, congrArg _ hk, hstage child⟩
  | roleDefinition r => cases hi
  | assignment a =>
    obtain rfl := List.mem_singleton.1 hi
    rcases hr.mem_assignments.1 he with ⟨x, hx, rfl⟩ | ⟨r, hm, ha⟩
    · obtain ⟨htier, g, hg, hkind, hk⟩ := hr.exists_group_of_source hx
      refine ⟨.group g, hg, ?_, ?_⟩
      · rw [hkind, ← hk]
        rfl
      · rw [Entity.stage_assignment, htier]
        exact Nat.lt_of_le_of_lt (Entity.stage_group_le g) (by decide)
    · obtain ⟨htier, hkind, hk⟩ := (hr.refers ho hm).2.2.2 a ha
      refine ⟨.servicePrincipal r.principal, hprincipal r hm, ?_, ?_⟩
      · rw [hkind, hk]
        rfl
      · rw [Entity.stage_assignment, ResolvedPolicy.isOfPrincipal, htier]
        exact (by decide : 8 < 11)
  | application a => cases hi
  | servicePrincipal s =>
    obtain rfl := List.mem_singleton.1 hi
    rw [ResolvedPolicy.Has, hr.servicePrincipals] at he
    obtain ⟨r, hm, rfl⟩ := List.mem_map.1 he
    exact ⟨.application r.application, happlication r hm, congrArg _ (hr.refers ho hm).1.symm, (by decide : 7 < 8)⟩
  | ownerEdge o =>
    obtain rfl := List.mem_singleton.1 hi
    rw [ResolvedPolicy.Has, hr.ownerEdges, mem_sortedBy] at he
    obtain ⟨r, hm, hmo⟩ := List.mem_flatMap.1 he
    have hk := ((hr.refers ho hm).2.2.1 o hmo).symm
    exact ⟨.servicePrincipal r.principal, hprincipal r hm, congrArg _ hk, (by decide : 8 < 10)⟩
  | credential cr =>
    obtain rfl := List.mem_singleton.1 hi
    rw [ResolvedPolicy.Has, hr.credentials] at he
    obtain ⟨r, hm, rfl⟩ := List.mem_map.1 he
    exact ⟨.application r.application, happlication r hm, congrArg _ (hr.refers ho hm).2.1.symm, (by decide : 7 < 9)⟩

/-- No two records of a policy have the same kind and the same key. -/
theorem nodup_identities (hv : config.IsValid) : (p.entities.map Entity.identity).Nodup := by
  rw [p.identities, List.nodup_flatMap]
  have hall : EntityKind.all.Nodup := by decide
  refine ⟨fun kind _ => (hr.nodup_keys hv kind).map fun _ _ he => (Prod.mk.inj he).2, hall.imp fun hne i hi hi' => ?_⟩
  obtain ⟨k, -, rfl⟩ := List.mem_map.1 hi
  obtain ⟨k', -, he⟩ := List.mem_map.1 hi'
  exact hne (Prod.mk.inj he).1.symm

end HasRecords

/-- The stages of a policy that a configuration resolves to are an order in which its records can be created. -/
theorem isStaged_of_resolve {j : Json} (hj : PolicyConfig.ofJson j = .ok config)
    (h : resolve config context = .ok p) : p.IsStaged := by
  obtain ⟨records, hr⟩ := exists_records h
  have hv := isValid_of_ofJson hj
  have hdistinct := hr.nodup_identities hv
  have href : ∀ e ∈ p.entities, ∀ i ∈ e.references, ∃ e' ∈ p.entities, e'.identity = i ∧ e'.stage < e.stage := by
    intro e he i hi
    obtain ⟨e', he', h⟩ := hr.exists_reference hv.owners (ResolvedPolicy.mem_entities.1 he) hi
    exact ⟨e', ResolvedPolicy.mem_entities.2 he', h⟩
  exact {
    distinct := hdistinct
    lists := p.keys_stages
    complete := p.perm_stages
    references := href
    independent := fun e he e' he' hs hi => by
      -- the record that is referred to is the only one of its kind and key
      obtain ⟨e'', he'', hid, hlt⟩ := href e he _ hi
      obtain rfl := List.inj_on_of_nodup_map hdistinct he'' he' hid
      exact absurd hs (Nat.ne_of_lt hlt) }

/-- A configuration with every tier switched on has a policy with such stages. -/
theorem isStaged_sample : PolicyConfig.ofJson sampleJson = .ok sample ∧
    ∃ p, resolve sample sampleContext = .ok p ∧ p.IsStaged := by
  have hj : PolicyConfig.ofJson sampleJson = .ok sample := rfl
  obtain ⟨p, hp⟩ := isAcceptable_sample.exists_policy (isValid_of_ofJson hj)
  exact ⟨hj, p, hp, isStaged_of_resolve hj hp⟩

end PolicyConfig

end AccessPlan
