import AccessPlan.Proofs.Assignment.Granting
import Mathlib.Data.List.Nodup

/-!
# The grants of all tiers

A plan has a list of places, tier by tier (`TierPlan.places`), and every place is granted to the same groups
with the same roles. So the tiers can be expanded exactly when each of them has what its scopes are made of
and, if there is a place at all, all groups are served (`expand_eq_ok_iff`). Where this fails other than with
an error of a policy, it fails at the first place (`escapes_expand_iff`).
-/

namespace AccessPlan

theorem Tier.mem_all (t : Tier) : t ∈ Tier.all := by cases t <;> decide

instance Tier.decidableForall {P : Tier → Prop} [DecidablePred P] : Decidable (∀ t, P t) :=
  decidable_of_iff (∀ t ∈ all, P t) ⟨fun h t => h t t.mem_all, fun h t _ => h t⟩

namespace TierPlan

variable (plan : TierPlan) (c : Context)

/-- Whether a tier is switched on. The grants of service principals have no switch. -/
def isOn : Tier → Bool
  | .managementGroup => plan.managementGroup
  | .tenant => plan.tenant
  | .subscription => plan.subscription
  | .resourceGroup => plan.resourceGroup
  | .servicePrincipal => false

/-- There is what the scopes of a tier are made of. -/
def IsReady : Tier → Prop
  | .managementGroup => plan.managementGroupName.getD "" ≠ ""
  | .tenant => c.tenantId.getD "" ≠ ""
  | .subscription => c.subscriptionId.getD "" ≠ ""
  | .resourceGroup => plan.resourceGroups ≠ none
  | .servicePrincipal => True

/-- The places of a tier. -/
def placesOn : Tier → List Place
  | .managementGroup => if plan.managementGroup then [.managementGroup] else []
  | .tenant => if plan.tenant then [.tenant] else []
  | .subscription => if plan.subscription then [.subscription] else []
  | .resourceGroup =>
    if plan.resourceGroup then (plan.resourceGroups.getD .empty).names.map .resourceGroup else []
  | .servicePrincipal => []

/-- The places of all tiers. -/
def places : List Place := Tier.all.flatMap plan.placesOn

/-- The scope of a place. -/
def scopeAt : Place → Scope
  | .managementGroup => managementGroupScope (plan.managementGroupName.getD "") c
  | .tenant => .tenant (c.tenantId.getD "")
  | .subscription => .subscription (c.subscriptionId.getD "")
  | .resourceGroup name => .resourceGroup (((plan.resourceGroups.getD .empty).get? name).elim "" (·.id))

/-- Some tier grants something to the groups. -/
def Emits : Prop := plan.managementGroup = true ∨ plan.tenant = true ∨ plan.subscription = true ∨
  (plan.resourceGroup = true ∧ (plan.resourceGroups.getD .empty).entries ≠ [])

variable {plan} {c} {place : Place}

instance : (t : Tier) → Decidable (plan.IsReady c t)
  | .managementGroup => inferInstanceAs (Decidable (plan.managementGroupName.getD "" ≠ ""))
  | .tenant => inferInstanceAs (Decidable (c.tenantId.getD "" ≠ ""))
  | .subscription => inferInstanceAs (Decidable (c.subscriptionId.getD "" ≠ ""))
  | .resourceGroup => inferInstanceAs (Decidable (plan.resourceGroups ≠ none))
  | .servicePrincipal => inferInstanceAs (Decidable True)

theorem tier_of_mem_placesOn {t : Tier} (h : place ∈ plan.placesOn t) : place.tier = t := by
  cases t with
  | resourceGroup =>
    simp only [placesOn] at h
    split at h
    · obtain ⟨name, -, rfl⟩ := List.mem_map.1 h
      rfl
    · cases h
  | servicePrincipal => cases h
  | _ =>
    simp only [placesOn] at h
    split at h
    · rw [List.mem_singleton.1 h]
      rfl
    · cases h

/-- There are places exactly when some tier grants something. -/
theorem places_ne_nil_iff : plan.places ≠ [] ↔ plan.Emits := by
  simp only [places, Tier.all, Emits, placesOn, List.flatMap_cons, List.flatMap_nil, ne_eq, List.append_eq_nil_iff,
    NameMap.names]
  cases plan.managementGroup <;> cases plan.tenant <;> cases plan.subscription <;> cases plan.resourceGroup <;> simp

theorem nodup_placesOn (t : Tier) : (plan.placesOn t).Nodup := by
  cases t with
  | resourceGroup =>
    simp only [placesOn]
    split
    · exact (NameMap.nodup_names _).map fun _ _ => Place.resourceGroup.inj
    · exact .nil
  | servicePrincipal => exact .nil
  | _ =>
    simp only [placesOn]
    split
    · exact List.nodup_singleton _
    · exact .nil

/-- No place is listed twice. -/
theorem nodup_places : plan.places.Nodup := by
  rw [places, List.nodup_flatMap]
  have ha : Tier.all.Nodup := by decide
  refine ⟨fun t _ => nodup_placesOn t, ha.imp fun hne place h h' => hne ?_⟩
  rw [← tier_of_mem_placesOn h, tier_of_mem_placesOn h']

/-- The tier of the first place comes after tiers that are switched off. -/
theorem exists_tiers_before_first {rest : List Place} (h : plan.places = place :: rest) :
    ∃ before after, Tier.all = before ++ place.tier :: after ∧ (∀ t ∈ before, plan.isOn t = false) ∧
      (∀ t ∈ before, plan.placesOn t = []) ∧ plan.placesOn place.tier ≠ [] := by
  have hm : place ∈ plan.places := h ▸ List.mem_cons_self
  obtain ⟨t, -, ht⟩ := List.mem_flatMap.1 hm
  obtain rfl := tier_of_mem_placesOn ht
  have hne := List.ne_nil_of_mem ht
  simp only [places, Tier.all, List.flatMap_cons, List.flatMap_nil, placesOn] at h
  cases hM : plan.managementGroup with
  | true =>
    simp only [hM, if_true, List.cons_append, List.cons.injEq] at h
    obtain ⟨rfl, -⟩ := h
    exact ⟨[], _, rfl, by simp, by simp, hne⟩
  | false =>
    cases hT : plan.tenant with
    | true =>
      simp only [hM, hT, Bool.false_eq_true, if_true, if_false, List.nil_append, List.cons_append,
        List.cons.injEq] at h
      obtain ⟨rfl, -⟩ := h
      exact ⟨[.managementGroup], _, rfl, by simp [isOn, hM], by simp [placesOn, hM], hne⟩
    | false =>
      cases hS : plan.subscription with
      | true =>
        simp only [hM, hT, hS, Bool.false_eq_true, if_true, if_false, List.nil_append, List.cons_append,
          List.cons.injEq] at h
        obtain ⟨rfl, -⟩ := h
        exact ⟨[.managementGroup, .tenant], _, rfl, by simp [isOn, hM, hT], by simp [placesOn, hM, hT], hne⟩
      | false =>
        have hr : place.tier = .resourceGroup := by
          cases place <;> simp_all [placesOn, Place.tier]
        rw [hr] at hne ⊢
        exact ⟨[.managementGroup, .tenant, .subscription], _, rfl, by simp [isOn, hM, hT, hS],
          by simp [placesOn, hM, hT, hS], hne⟩

end TierPlan

namespace Expansion

variable {book : RoleBook String} {groups : List Group} {c : Context} {plan : TierPlan} {as : List Assignment}

/-- The grants of one tier. -/
def onTier {ρ : Type} [Role ρ] (book : RoleBook ρ) (groups : List Group) (c : Context) (plan : TierPlan) :
    Tier → Except Failure (List Assignment)
  | .managementGroup => ifOn plan.managementGroup
    (grantsOnId book groups .managementGroup plan.managementGroupName (managementGroupScope · c))
  | .tenant => ifOn plan.tenant (grantsOnId book groups .tenant c.tenantId .tenant)
  | .subscription => ifOn plan.subscription (grantsOnId book groups .subscription c.subscriptionId .subscription)
  | .resourceGroup => ifOn plan.resourceGroup (grantsOnResourceGroups book groups plan.resourceGroups)
  | .servicePrincipal => .ok []

/-- What the groups are granted at places. -/
def grantsAt (book : RoleBook String) (groups : List Group) (scopeAt : Place → Scope) (places : List Place) :
    List Assignment := (places.flatMap (book.sourcesAt groups)).map (·.assignment scopeAt)

theorem grantsAt_flatMap {α : Type} {scopeAt : Place → Scope} {f : α → List Place} {xs : List α} :
    grantsAt book groups scopeAt (xs.flatMap f) = xs.flatMap fun x => grantsAt book groups scopeAt (f x) := by
  simp only [grantsAt, List.flatMap_assoc, List.map_flatMap]

theorem ifOn_eq_ok_iff {on : Bool} {grants : Except Failure (List Assignment)} :
    ifOn on grants = .ok as ↔ if on then grants = .ok as else as = [] := by
  cases on with
  | true => exact Iff.rfl
  | false => exact ⟨fun h => (Except.ok.inj h).symm, fun h => h ▸ rfl⟩

section OneScope

variable {on : Bool} {p : Place} {t : Tier} {id : Option String} {scopeOf : String → Scope} {scopeAt : Place → Scope}

theorem grantsOnId_of_ready (hid : id.getD "" ≠ "") : grantsOnId book groups t id scopeOf =
    grantsOn book groups t (scopeOf (id.getD "")) (t.name ++ "-") := by
  cases id with
  | none => exact absurd rfl hid
  | some id => exact if_neg hid

theorem grantsOnId_of_not_ready (hid : id.getD "" = "") :
    grantsOnId book groups t id scopeOf = .error (.reference (.tierUnready t)) := by
  cases id with
  | none => rfl
  | some id => exact if_pos hid

/-- The grants of a tier that has one scope, made of an id. -/
theorem grantsOnId_eq_ok_iff (hp : p.keyPrefix = p.tier.name ++ "-") (hs : scopeAt p = scopeOf (id.getD "")) :
    ifOn on (grantsOnId book groups p.tier id scopeOf) = .ok as ↔
      ((on = true → id.getD "" ≠ "") ∧ ((if on then [p] else []) ≠ [] → ∀ g ∈ groups, book.Serves g)) ∧
        as = grantsAt book groups scopeAt (if on then [p] else []) := by
  cases on with
  | false => simp [ifOn_eq_ok_iff, grantsAt]
  | true =>
    have hg : grantsAt book groups scopeAt [p] = (book.sourcesAt groups p).map (·.assignment scopeAt) := by
      rw [grantsAt, List.flatMap_singleton]
    simp only [ifOn_eq_ok_iff, if_true, forall_const, ne_eq, reduceCtorEq, not_false_eq_true, hg, and_assoc]
    by_cases hid : id.getD "" = ""
    · rw [grantsOnId_of_not_ready hid]
      exact ⟨nofun, fun h => absurd hid h.1⟩
    · rw [grantsOnId_of_ready hid, ← hs, ← hp, grantsOn_eq_ok_iff]
      exact ⟨fun h => ⟨hid, h⟩, fun h => h.2⟩

theorem escapes_grantsOnId_iff (hl : ∀ g ∈ groups, book.Lists g) :
    Escapes (ifOn on (grantsOnId book groups t id scopeOf)) ↔ (if on then [p] else []) ≠ [] ∧ id.getD "" ≠ "" ∧
      ∃ role, book.refused? groups = some role ∧ Assignment.isSingleRole role = true := by
  cases on with
  | false => simp [ifOn]
  | true =>
    simp only [ifOn, if_true, ne_eq, reduceCtorEq, not_false_eq_true, true_and]
    by_cases hid : id.getD "" = ""
    · rw [grantsOnId_of_not_ready hid]
      exact ⟨fun h => absurd trivial (escapes_error.1 h), fun h => absurd hid h.1⟩
    · rw [grantsOnId_of_ready hid, escapes_grantsOn_iff hl]
      exact ⟨fun h => ⟨hid, h⟩, fun h => h.2⟩

end OneScope

section ResourceGroups

variable {named : Option (NameMap ResourceGroup)}

/-- The grants on all resource groups. -/
theorem grantsOnResourceGroups_eq_ok_iff {scopeAt : Place → Scope}
    (hs : ∀ m, named = some m → ∀ e ∈ m.entries, scopeAt (.resourceGroup e.1) = .resourceGroup e.2.id) :
    grantsOnResourceGroups book groups named = .ok as ↔
      named ≠ none ∧ ((named.getD .empty).names ≠ [] → ∀ g ∈ groups, book.Serves g) ∧
        as = grantsAt book groups scopeAt ((named.getD .empty).names.map .resourceGroup) := by
  cases named with
  | none => exact ⟨nofun, fun h => absurd rfl h.1⟩
  | some m =>
    have hf : ∀ e ∈ m.entries, ∀ as, grantsOn book groups .resourceGroup (.resourceGroup e.2.id)
        (Tier.resourceGroup.name ++ "-" ++ e.1 ++ "/") = .ok as ↔
          (∀ g ∈ groups, book.Serves g) ∧
            as = (book.sourcesAt groups (.resourceGroup e.1)).map (·.assignment scopeAt) := fun e he as => by
      rw [← hs m rfl e he]
      exact grantsOn_eq_ok_iff (p := .resourceGroup e.1)
    have hg : grantsAt book groups scopeAt (m.names.map .resourceGroup) = (m.entries.map fun e =>
        (book.sourcesAt groups (.resourceGroup e.1)).map (·.assignment scopeAt)).flatten := by
      rw [grantsAt, NameMap.names, List.map_map, List.map_flatMap, List.flatMap_map, List.flatMap_def]
      rfl
    have hn : (m.names ≠ [] → ∀ g ∈ groups, book.Serves g) ↔ ∀ e ∈ m.entries, ∀ g ∈ groups, book.Serves g := by
      rw [NameMap.names, ne_eq, List.map_eq_nil_iff]
      constructor
      · exact fun h e he => h (List.ne_nil_of_mem he)
      · intro h hne
        obtain ⟨e, he⟩ := List.exists_mem_of_ne_nil _ hne
        exact h e he
    simp only [Option.getD_some, ne_eq, reduceCtorEq, not_false_eq_true, true_and] at hn ⊢
    rw [hn, hg, grantsOnResourceGroups, bind_eq_ok]
    constructor
    · rintro ⟨_, hm, hr⟩
      obtain ⟨ht, rfl⟩ := (mapM_eq_ok_iff hf).1 hm
      exact ⟨ht, (Except.ok.inj hr).symm⟩
    · rintro ⟨ht, rfl⟩
      exact ⟨_, (mapM_eq_ok_iff hf).2 ⟨ht, rfl⟩, rfl⟩

theorem escapes_grantsOnResourceGroups_iff (hl : ∀ g ∈ groups, book.Lists g) :
    Escapes (grantsOnResourceGroups book groups named) ↔ (named.getD .empty).names ≠ [] ∧
      ∃ role, book.refused? groups = some role ∧ Assignment.isSingleRole role = true := by
  cases named with
  | none => exact ⟨fun h => absurd trivial (escapes_error.1 h), fun h => absurd rfl h.1⟩
  | some m =>
    rw [grantsOnResourceGroups, Option.getD_some, NameMap.names, ne_eq, List.map_eq_nil_iff]
    simp only [escapes_bind, escapes_mapM_iff, escapes_grantsOn_iff hl]
    constructor
    · rintro (⟨before, e, after, he, -, hr⟩ | ⟨_, -, hp⟩)
      · exact ⟨fun hn => by simp [hn] at he, hr⟩
      · exact absurd hp not_escapes_ok
    · rintro ⟨hne, hr⟩
      obtain ⟨e, after, he⟩ := List.exists_cons_of_ne_nil hne
      exact Or.inl ⟨[], e, after, he, List.forall_mem_nil _, hr⟩

end ResourceGroups

section Tiers

/-- What it takes for one tier to be expanded, and what its grants are. -/
theorem onTier_eq_ok_iff {t : Tier} : onTier book groups c plan t = .ok as ↔
    ((plan.isOn t = true → plan.IsReady c t) ∧ (plan.placesOn t ≠ [] → ∀ g ∈ groups, book.Serves g)) ∧
      as = grantsAt book groups (plan.scopeAt c) (plan.placesOn t) := by
  cases t with
  | managementGroup => exact grantsOnId_eq_ok_iff (p := .managementGroup) rfl rfl
  | tenant => exact grantsOnId_eq_ok_iff (p := .tenant) rfl rfl
  | subscription => exact grantsOnId_eq_ok_iff (p := .subscription) rfl rfl
  | resourceGroup =>
    have hs : ∀ m, plan.resourceGroups = some m → ∀ e ∈ m.entries,
        plan.scopeAt c (.resourceGroup e.1) = .resourceGroup e.2.id := fun m hm e he => by
      rw [TierPlan.scopeAt, hm, Option.getD_some, NameMap.get?_eq_some_iff.2 he, Option.elim_some]
    rw [onTier, ifOn_eq_ok_iff, TierPlan.isOn, TierPlan.placesOn]
    cases plan.resourceGroup with
    | false => simp [grantsAt]
    | true => simpa [TierPlan.IsReady, and_assoc] using grantsOnResourceGroups_eq_ok_iff hs
  | servicePrincipal =>
    rw [onTier, Except.ok.injEq, eq_comm]
    simp [TierPlan.isOn, TierPlan.placesOn, grantsAt]

/-- A tier escapes exactly if it has a place, what its scopes are made of, and a role that makes a grant
escape. -/
theorem escapes_onTier_iff {t : Tier} (hl : ∀ g ∈ groups, book.Lists g) :
    Escapes (onTier book groups c plan t) ↔ plan.placesOn t ≠ [] ∧ plan.IsReady c t ∧
      ∃ role, book.refused? groups = some role ∧ Assignment.isSingleRole role = true := by
  cases t with
  | managementGroup => exact escapes_grantsOnId_iff hl
  | tenant => exact escapes_grantsOnId_iff hl
  | subscription => exact escapes_grantsOnId_iff hl
  | resourceGroup =>
    rw [onTier, ifOn, TierPlan.placesOn, TierPlan.IsReady]
    cases plan.resourceGroup with
    | false => simp
    | true =>
      simp only [if_true, escapes_grantsOnResourceGroups_iff hl, ne_eq, List.map_eq_nil_iff]
      refine and_congr_right fun hn => (and_iff_right fun he => hn ?_).symm
      rw [he]
      rfl
  | servicePrincipal => simp [onTier, TierPlan.placesOn]

/-- The tiers are expanded one after another. -/
theorem expand_eq_mapM {ρ : Type} [Role ρ] {book : RoleBook ρ} {h : Hierarchy} : expand h book c plan =
    (Tier.all.mapM (onTier book (sortedBy Group.key (h.layer .persona)) c plan)).map List.flatten := by
  simp only [Tier.all, List.mapM_cons, List.mapM_nil, onTier]
  unfold expand
  dsimp only
  generalize sortedBy Group.key (h.layer .persona) = groups
  cases ifOn plan.managementGroup _ with
  | error f => rfl
  | ok as =>
    cases ifOn plan.tenant _ with
    | error f => rfl
    | ok bs =>
      cases ifOn plan.subscription _ with
      | error f => rfl
      | ok cs => cases ifOn plan.resourceGroup _ <;> simp [bind, Except.bind, pure, Except.pure, Except.map]

variable {h : Hierarchy}

theorem escapes_map_iff {α β : Type} {f : α → β} {x : Except Failure α} : Escapes (x.map f) ↔ Escapes x := by
  cases x <;> simp [Except.map]

/-- When the tiers can be expanded, and what their grants are. -/
theorem expand_eq_ok_iff : expand h book c plan = .ok as ↔
    (∀ t, plan.isOn t = true → plan.IsReady c t) ∧
      (plan.Emits → ∀ g ∈ h.layer .persona, book.Serves g) ∧
      as = grantsAt book (sortedBy Group.key (h.layer .persona)) (plan.scopeAt c) plan.places := by
  have hserves : (∀ t ∈ Tier.all, plan.placesOn t ≠ [] →
      ∀ g ∈ sortedBy Group.key (h.layer .persona), book.Serves g) ↔
      (plan.Emits → ∀ g ∈ h.layer .persona, book.Serves g) := by
    simp only [mem_sortedBy, ← TierPlan.places_ne_nil_iff, TierPlan.places, ne_eq, List.flatMap_eq_nil_iff]
    constructor
    · intro hs hne
      obtain ⟨t, hm, hp⟩ : ∃ t ∈ Tier.all, plan.placesOn t ≠ [] := by simpa using hne
      exact hs t hm hp
    · exact fun hs t hm hp => hs fun hall => hp (hall t hm)
  rw [expand_eq_mapM, except_map_eq_ok]
  simp only [mapM_eq_ok_iff fun t _ as => onTier_eq_ok_iff]
  rw [TierPlan.places, grantsAt_flatMap, ← hserves]
  constructor
  · rintro ⟨_, ⟨ht, rfl⟩, rfl⟩
    exact ⟨fun t => (ht t t.mem_all).1, fun t hm => (ht t hm).2, rfl⟩
  · rintro ⟨hr, hs, rfl⟩
    exact ⟨_, ⟨fun t hm => ⟨hr t, hs t hm⟩, rfl⟩, rfl⟩

/-- The tiers escape exactly if the tier of the first place has what its scopes are made of, and the first
role that is refused makes a grant escape. -/
theorem escapes_expand_iff (hl : ∀ g ∈ h.layer .persona, book.Lists g) : Escapes (expand h book c plan) ↔
    (∃ place places, plan.places = place :: places ∧ plan.IsReady c place.tier) ∧
      ∃ role, book.refused? (sortedBy Group.key (h.layer .persona)) = some role ∧
        Assignment.isSingleRole role = true := by
  have hl' : ∀ g ∈ sortedBy Group.key (h.layer .persona), book.Lists g := fun g hg => hl g (mem_sortedBy.1 hg)
  rw [expand_eq_mapM, escapes_map_iff, escapes_mapM_iff]
  simp only [onTier_eq_ok_iff, escapes_onTier_iff hl', ← RoleBook.refused?_eq_none_iff hl', exists_and_left, exists_eq,
    and_true]
  constructor
  · rintro ⟨before, t, after, ha, hb, hp, hr, role, hrole, hs⟩
    -- a role is refused, so the tiers before have no places
    have hnil : before.flatMap plan.placesOn = [] := by
      refine List.flatMap_eq_nil_iff.2 fun u hu => Decidable.byContradiction fun hne => ?_
      rw [(hb u hu).2 hne] at hrole
      cases hrole
    obtain ⟨place, places, he⟩ := List.exists_cons_of_ne_nil hp
    have ht : place.tier = t := TierPlan.tier_of_mem_placesOn (he ▸ List.mem_cons_self)
    refine ⟨⟨place, places ++ after.flatMap plan.placesOn, ?_, ht ▸ hr⟩, role, hrole, hs⟩
    rw [TierPlan.places, ha, List.flatMap_append, hnil, List.flatMap_cons, he]
    rfl
  · rintro ⟨⟨place, places, he, hr⟩, hrole⟩
    obtain ⟨before, after, ha, hoff, hnil, hp⟩ := TierPlan.exists_tiers_before_first he
    refine ⟨before, place.tier, after, ha, fun t ht => ⟨fun hon => ?_, fun hne => ?_⟩, hp, hr, hrole⟩
    · rw [hoff t ht] at hon
      cases hon
    · exact absurd (hnil t ht) hne

end Tiers

end Expansion

end AccessPlan
