import AccessPlan.Proofs.Policy.Resolution

/-!
# The sources of a configuration

The assignments of a policy are those of the sources of its configuration: the roles of every persona group at
every place, and every grant of a service principal (`assignments_eq_sources`). No source is listed twice
(`nodup_sources`), and behind the names of a valid configuration the parts of a key can be told apart
(`isSeparable_of_mem`).

So two assignments share a key only at one place, for two groups whose keys and roles overlap
(`nodup_keys_iff`).
-/

namespace AccessPlan.PolicyConfig

variable (config : PolicyConfig)

/-- What the persona groups are granted. -/
def groupSources : List Source :=
  config.tierPlan.places.flatMap
    (config.roleBook.sourcesAt (sortedBy Group.key (config.blueprint.hierarchy.layer .persona)))

/-- What is granted: to the persona groups and to the service principals. -/
def sources : List Source := config.groupSources ++ ResolvedPrincipals.sourcesOf config.servicePrincipals

/-- Two persona groups have roles that overlap: the key of one group continues that of the other by a text
that the role of the other one begins with. -/
def HasOverlap : Prop :=
  ∃ g ∈ config.blueprint.hierarchy.layer .persona, ∃ k ∈ config.blueprint.hierarchy.layer .persona, ∃ s a b : String,
    a ∈ config.roleBook.rolesOfGroup g ∧ b ∈ config.roleBook.rolesOfGroup k ∧
      k.key = g.key ++ "-" ++ s ∧ a = s ++ "-" ++ b

variable {config} {x y : Source}

theorem mem_groupSources : x ∈ config.groupSources ↔ ∃ place ∈ config.tierPlan.places,
    ∃ g ∈ config.blueprint.hierarchy.layer .persona, ∃ role ∈ config.roleBook.rolesOfGroup g,
      x = .group place g.key role := by
  simp only [groupSources, RoleBook.sourcesAt, List.mem_flatMap, List.mem_map, mem_sortedBy, eq_comm]

theorem mem_principalSources : x ∈ ResolvedPrincipals.sourcesOf config.servicePrincipals ↔
    ∃ d ∈ config.servicePrincipals.entries, ∃ g ∈ d.2.roles.entries, x = .principal d.1 g.1 g.2 := by
  simp only [ResolvedPrincipals.sourcesOf, PrincipalDefinition.sources, List.mem_flatMap, List.mem_map, eq_comm]

/-- The assignments are those of the sources. -/
theorem assignments_eq_sources {c : Context} {granted : List Assignment} {principals : ResolvedPrincipals}
    (ho : config.owners ≠ [])
    (hg : expand config.blueprint.hierarchy config.roleBook c config.tierPlan = .ok granted)
    (hp : ResolvedPrincipals.ofDefinitions config.servicePrincipals c (.ofTexts config.owners) = .ok principals) :
    granted ++ principals.assignments = config.sources.map (·.assignment (config.tierPlan.scopeAt c)) := by
  obtain ⟨-, -, rfl⟩ := Expansion.expand_eq_ok_iff.1 hg
  rw [ResolvedPrincipals.assignments_ofDefinitions (config.tierPlan.scopeAt c) ho hp, sources, List.map_append]
  rfl

/-! ## No source twice -/

theorem nodup_rolesOfGroup {g : Group} : (config.roleBook.rolesOfGroup g).Nodup := by
  unfold RoleBook.rolesOfGroup
  split
  · exact RoleBook.nodup_rolesIn
  · exact .nil

theorem nodup_groupSources (hk : (config.blueprint.groups.map Group.key).Nodup) : config.groupSources.Nodup := by
  -- the keys of the persona groups are different, as all keys are
  have hkeys : (sortedBy Group.key (config.blueprint.hierarchy.layer .persona)).Pairwise fun g k => g.key ≠ k.key := by
    rw [← List.pairwise_map, ← List.Nodup, ((sortedBy_perm Group.key _).map Group.key).nodup_iff]
    exact hk.sublist (List.filter_sublist.map Group.key)
  rw [groupSources, List.nodup_flatMap]
  refine ⟨fun place _ => List.nodup_flatMap.2 ⟨fun g _ => ?_, hkeys.imp fun hne x hx hy => ?_⟩,
    TierPlan.nodup_places.imp fun hne x hx hy => ?_⟩
  · exact nodup_rolesOfGroup.map fun a b h => (Source.group.inj h).2.2
  · obtain ⟨a, -, rfl⟩ := List.mem_map.1 hx
    obtain ⟨b, -, he⟩ := List.mem_map.1 hy
    exact hne (Source.group.inj he).2.1.symm
  · obtain ⟨g, -, hg⟩ := List.mem_flatMap.1 hx
    obtain ⟨k, -, hk⟩ := List.mem_flatMap.1 hy
    obtain ⟨a, -, rfl⟩ := List.mem_map.1 hg
    obtain ⟨b, -, he⟩ := List.mem_map.1 hk
    exact hne (Source.group.inj he).1.symm

theorem nodup_principalSources : (ResolvedPrincipals.sourcesOf config.servicePrincipals).Nodup := by
  have hnames := List.pairwise_map.1 (NameMap.nodup_names config.servicePrincipals)
  refine List.nodup_flatMap.2 ⟨fun d _ => ?_, hnames.imp fun hne x hx hy => ?_⟩
  · have hlabels := List.pairwise_map.1 (NameMap.nodup_names d.2.roles)
    exact List.pairwise_map.2 (hlabels.imp fun hne he => hne (Source.principal.inj he).2.1)
  · obtain ⟨g, -, rfl⟩ := List.mem_map.1 hx
    obtain ⟨g', -, he⟩ := List.mem_map.1 hy
    exact hne (Source.principal.inj he).1.symm

/-- No source is listed twice. -/
theorem nodup_sources (hk : (config.blueprint.groups.map Group.key).Nodup) : config.sources.Nodup := by
  refine List.nodup_append.2 ⟨nodup_groupSources hk, nodup_principalSources, fun x hx y hy he => ?_⟩
  obtain ⟨_, -, _, -, _, -, rfl⟩ := mem_groupSources.1 hx
  obtain ⟨_, -, _, -, rfl⟩ := mem_principalSources.1 hy
  cases he

/-! ## Keys -/

/-- The name of a place can be told apart from the rest of a key. -/
theorem isSeparable_of_mem_places (hv : config.IsValid) {place : Place} {key role : String}
    (hp : place ∈ config.tierPlan.places) : (Source.group place key role).IsSeparable := by
  cases place with
  | resourceGroup name =>
    have hname : name ∈ (config.resourceGroups.getD .empty).names := by
      obtain ⟨t, -, ht⟩ := List.mem_flatMap.1 hp
      obtain rfl := TierPlan.tier_of_mem_placesOn ht
      simp only [Place.tier, TierPlan.placesOn] at ht
      split at ht
      · obtain ⟨n, hn, he⟩ := List.mem_map.1 ht
        rw [← Place.resourceGroup.inj he]
        exact hn
      · cases ht
    cases hr : config.resourceGroups with
    | none =>
      rw [hr] at hname
      cases hname
    | some m =>
      rw [hr] at hname
      exact (isKeySegment_eq_true.1 (hv.resourceGroups m hr name hname)).2
  | _ => trivial

/-- The names of a valid configuration can be told apart from the rest of a key. -/
theorem isSeparable_of_mem (hv : config.IsValid) (hx : x ∈ config.sources) : x.IsSeparable := by
  rcases List.mem_append.1 hx with hx | hx
  · obtain ⟨place, hp, g, -, role, -, rfl⟩ := mem_groupSources.1 hx
    exact isSeparable_of_mem_places hv hp
  · obtain ⟨d, hd, g, -, rfl⟩ := mem_principalSources.1 hx
    exact (isKeySegment_eq_true.1 (hv.principals d.1 (List.mem_map_of_mem hd))).2

/-- Sources with the same key are the same, or roles of groups at one place that are joined to the same
text. -/
theorem eq_or_joined_of_key_eq (hv : config.IsValid) (hx : x ∈ config.sources) (hy : y ∈ config.sources)
    (he : x.key = y.key) : x = y ∨ ∃ place ∈ config.tierPlan.places,
      ∃ g ∈ config.blueprint.hierarchy.layer .persona, ∃ k ∈ config.blueprint.hierarchy.layer .persona,
        ∃ a ∈ config.roleBook.rolesOfGroup g, ∃ b ∈ config.roleBook.rolesOfGroup k,
          x = .group place g.key a ∧ y = .group place k.key b ∧ g.key ++ "-" ++ a = k.key ++ "-" ++ b := by
  have hsx := isSeparable_of_mem hv hx
  have hsy := isSeparable_of_mem hv hy
  rcases List.mem_append.1 hx with hx | hx <;> rcases List.mem_append.1 hy with hy | hy
  · obtain ⟨p, hp, g, hg, a, ha, rfl⟩ := mem_groupSources.1 hx
    obtain ⟨q, -, k, hk, b, hb, rfl⟩ := mem_groupSources.1 hy
    obtain ⟨rfl, hj⟩ := (Source.key_group_eq_iff hsx hsy).1 he
    exact Or.inr ⟨p, hp, g, hg, k, hk, a, ha, b, hb, rfl, rfl, hj⟩
  · obtain ⟨p, -, g, -, a, -, rfl⟩ := mem_groupSources.1 hx
    obtain ⟨d, -, l, -, rfl⟩ := mem_principalSources.1 hy
    exact absurd he Source.key_group_ne_principal
  · obtain ⟨d, -, l, -, rfl⟩ := mem_principalSources.1 hx
    obtain ⟨p, -, g, -, a, -, rfl⟩ := mem_groupSources.1 hy
    exact absurd he.symm Source.key_group_ne_principal
  · obtain ⟨d, hd, l, hl, rfl⟩ := mem_principalSources.1 hx
    obtain ⟨d', hd', l', hl', rfl⟩ := mem_principalSources.1 hy
    obtain ⟨hn, hlabel⟩ := (Source.key_principal_eq_iff hsx hsy).1 he
    -- a name has one definition, and a label has one grant
    obtain rfl : d = d' := List.inj_on_of_nodup_map (NameMap.nodup_names _) hd hd' hn
    obtain rfl : l = l' := List.inj_on_of_nodup_map (NameMap.nodup_names _) hl hl' hlabel
    exact Or.inl rfl

/-- The keys are different exactly if nothing is granted to groups or no roles overlap. -/
theorem nodup_keys_iff (hv : config.IsValid) (hk : (config.blueprint.groups.map Group.key).Nodup) :
    (config.sources.map Source.key).Nodup ↔ ¬ (config.tierPlan.Emits ∧ config.HasOverlap) := by
  constructor
  · rintro hn ⟨he, g, hg, k, hk', s, a, b, ha, hb, hkey, rfl⟩
    obtain ⟨place, hp⟩ := List.exists_mem_of_ne_nil _ (TierPlan.places_ne_nil_iff.2 he)
    have hx : Source.group place g.key (s ++ "-" ++ b) ∈ config.sources :=
      List.mem_append_left _ (mem_groupSources.2 ⟨place, hp, g, hg, _, ha, rfl⟩)
    have hy : Source.group place k.key b ∈ config.sources :=
      List.mem_append_left _ (mem_groupSources.2 ⟨place, hp, k, hk', _, hb, rfl⟩)
    have hj : g.key ++ "-" ++ (s ++ "-" ++ b) = k.key ++ "-" ++ b := by
      rw [hkey]
      simp only [String.append_assoc]
    have heq := List.inj_on_of_nodup_map hn hx hy (Source.key_group_same_place.2 hj)
    -- one source would have both keys, but one key is longer than the other
    exact ne_append_hyphen ((Source.group.inj heq).2.1.trans hkey)
  · intro h
    refine (nodup_sources hk).map_on fun x hx y hy he => ?_
    rcases eq_or_joined_of_key_eq hv hx hy he with he | ⟨p, hp, g, hg, k, hk', a, ha, b, hb, rfl, rfl, hj⟩
    · exact he
    · have hemit := TierPlan.places_ne_nil_iff.1 (List.ne_nil_of_mem hp)
      rcases hyphen_join_eq_iff.1 hj with ⟨hgk, rfl⟩ | ⟨s, hkey, rfl⟩ | ⟨s, hkey, rfl⟩
      · rw [hgk]
      · exact absurd ⟨hemit, g, hg, k, hk', s, _, b, ha, hb, hkey, rfl⟩ h
      · exact absurd ⟨hemit, k, hk', g, hg, s, _, a, hb, ha, hkey, rfl⟩ h

/-- Roles without a hyphen do not overlap. -/
theorem not_hasOverlap (h : ∀ e ∈ config.environments, ∀ p, ∀ role ∈ config.roleBook.rolesIn e p, '-' ∉ role.toList) :
    ¬ config.HasOverlap := by
  rintro ⟨g, hg, -, -, s, _, b, ha, -, -, rfl⟩
  obtain ⟨e, he, p, rfl⟩ := mem_layer_persona.1 hg
  exact h e he p _ ha (by simp)

/-- Roles do not overlap if only one group gives a text that keys and roles are joined to. -/
theorem not_hasOverlap_of_joins (h : ∀ e ∈ config.environments, ∀ p, ∀ e' ∈ config.environments, ∀ p',
    ∀ a ∈ config.roleBook.rolesIn e p, ∀ b ∈ config.roleBook.rolesIn e' p',
      config.blueprint.personaKey e p ++ "-" ++ a = config.blueprint.personaKey e' p' ++ "-" ++ b →
        config.blueprint.personaKey e p = config.blueprint.personaKey e' p') : ¬ config.HasOverlap := by
  rintro ⟨g, hg, k, hk, s, _, b, ha, hb, hkey, rfl⟩
  obtain ⟨e, he, p, rfl⟩ := mem_layer_persona.1 hg
  obtain ⟨e', he', p', rfl⟩ := mem_layer_persona.1 hk
  have hjoin : config.blueprint.personaKey e p ++ "-" ++ (s ++ "-" ++ b) =
      config.blueprint.personaKey e' p' ++ "-" ++ b := by
    rw [show config.blueprint.personaKey e' p' = config.blueprint.personaKey e p ++ "-" ++ s from hkey]
    simp only [String.append_assoc]
  exact ne_append_hyphen ((h e he p e' he' p' _ ha b hb hjoin).trans hkey)

end AccessPlan.PolicyConfig
