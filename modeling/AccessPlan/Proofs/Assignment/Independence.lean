import AccessPlan.Proofs.Assignment.Tiers

/-!
# Tiers do not depend on each other

A plan with several tiers switched on is a run over the plans with one of them (`expand_only`), and a tier of
resource groups is a run over maps with one of them (`expand_onlyOn`). So what is granted is put together
from the parts in their order, and the first part that fails decides how the whole fails (`isRunOf_expand`).
-/

namespace AccessPlan

namespace TierPlan

/-- The tiers that are switched on, in the order in which they are expanded. -/
def enabled (plan : TierPlan) : List Tier :=
  [Tier.managementGroup, .tenant, .subscription, .resourceGroup].filter plan.isOn

/-- The plan with one tier alone switched on. -/
def only (plan : TierPlan) (t : Tier) : TierPlan := { plan with
  managementGroup := decide (t = .managementGroup)
  tenant := decide (t = .tenant)
  subscription := decide (t = .subscription)
  resourceGroup := decide (t = .resourceGroup) }

/-- The plan that grants access to a map of resource groups alone. -/
def onlyOn (plan : TierPlan) (named : NameMap ResourceGroup) : TierPlan :=
  { plan.only .resourceGroup with resourceGroups := some named }

variable {plan : TierPlan} {t : Tier}

theorem filter_all_isOn : Tier.all.filter plan.isOn = plan.enabled := by
  have hall : Tier.all = [.managementGroup, .tenant, .subscription, .resourceGroup] ++ [.servicePrincipal] := rfl
  have hprincipal : [Tier.servicePrincipal].filter plan.isOn = [] := rfl
  rw [hall, List.filter_append, hprincipal, List.append_nil, enabled]

theorem enabled_only (h : t ≠ .servicePrincipal) : (plan.only t).enabled = [t] := by
  cases t with
  | servicePrincipal => exact absurd rfl h
  | _ => rfl

end TierPlan

namespace Expansion

variable {ρ : Type} [Role ρ] {book : RoleBook ρ} {groups : List Group} {h : Hierarchy} {c : Context} {plan : TierPlan}
  {t : Tier} {named : NameMap ResourceGroup}

theorem onTier_of_off (ht : plan.isOn t = false) : onTier book groups c plan t = .ok [] := by
  cases t with
  | servicePrincipal => rfl
  | _ =>
    rw [TierPlan.isOn] at ht
    rw [onTier, ht]
    rfl

/-- A tier that is switched on grants the same when all others are switched off. -/
theorem onTier_only (ht : plan.isOn t = true) :
    onTier book groups c (plan.only t) t = onTier book groups c plan t := by
  cases t with
  | servicePrincipal => rfl
  | _ =>
    rw [TierPlan.isOn] at ht
    rw [onTier, onTier, ht]
    rfl

/-- Only the tiers that are switched on are gone through. -/
theorem expand_eq_mapM_enabled : expand h book c plan =
    (plan.enabled.mapM (onTier book (sortedBy Group.key (h.layer .persona)) c plan)).map List.flatten := by
  rw [expand_eq_mapM, ← TierPlan.filter_all_isOn]
  exact (mapM_filter fun t _ ht => onTier_of_off ht).symm

/-- The plan with one tier alone grants what this tier grants. -/
theorem expand_only (ht : t ∈ plan.enabled) : expand h book c (plan.only t) =
    onTier book (sortedBy Group.key (h.layer .persona)) c plan t := by
  obtain ⟨hm, hon⟩ := List.mem_filter.1 ht
  have hne : t ≠ .servicePrincipal := by
    rintro rfl
    cases hon
  rw [expand_eq_mapM_enabled, TierPlan.enabled_only hne, flatten_mapM_singleton, onTier_only hon]

/-- The grants on one resource group. -/
def onResourceGroup (book : RoleBook ρ) (groups : List Group) (e : String × ResourceGroup) :
    Except Failure (List Assignment) :=
  grantsOn book groups .resourceGroup (.resourceGroup e.2.id) (Tier.resourceGroup.name ++ "-" ++ e.1 ++ "/")

/-- The resource groups of a map are gone through one by one. -/
theorem expand_onlyOn : expand h book c (plan.onlyOn named) =
    (named.entries.mapM (onResourceGroup book (sortedBy Group.key (h.layer .persona)))).map List.flatten := by
  have henabled : (plan.onlyOn named).enabled = [.resourceGroup] := rfl
  rw [expand_eq_mapM_enabled, henabled, flatten_mapM_singleton]
  show (named.entries.mapM _ >>= fun grants => pure grants.flatten) = _
  exact bind_pure_comp _ _

theorem expand_onlyOn_singleton (e : String × ResourceGroup) : expand h book c (plan.onlyOn (.ofList [e])) =
    onResourceGroup book (sortedBy Group.key (h.layer .persona)) e := by
  have hentries : (NameMap.ofList [e]).entries = [e] := rfl
  rw [expand_onlyOn, hentries, flatten_mapM_singleton]

/-- What all tiers grant is put together from what each grants alone, and what the tier of resource groups grants
from what is granted on each of them alone. -/
theorem isRunOf_expand (h : Hierarchy) (book : RoleBook ρ) (c : Context) (plan : TierPlan) :
    IsRunOf (plan.enabled.map fun t => expand h book c (plan.only t)) (expand h book c plan) ∧
      (∀ named : NameMap ResourceGroup, IsRunOf
        (named.entries.map fun e => expand h book c (plan.onlyOn (.ofList [e])))
        (expand h book c (plan.onlyOn named))) ∧
      expand h book c (plan.onlyOn .empty) = .ok [] := by
  refine ⟨?_, fun named => ?_, ?_⟩
  · rw [expand_eq_mapM_enabled, List.map_congr_left fun t ht => expand_only ht]
    exact isRunOf_mapM
  · rw [expand_onlyOn, List.map_congr_left fun e _ => expand_onlyOn_singleton e]
    exact isRunOf_mapM
  · rw [expand_onlyOn]
    rfl

end Expansion

end AccessPlan
