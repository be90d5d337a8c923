import AccessPlan.Assignment.Basic
import AccessPlan.Context
import AccessPlan.Role.Lookup

/-!
# Expansion of tiers

Every tier that is switched on grants the persona groups their roles on the scope of the tier: the management group,
the tenant, the subscription, or each of the resource groups. Project groups and all others get nothing of their own.

* `expand` goes through the tiers in a fixed order; the first one that fails decides.
-/

namespace AccessPlan

open Schema (Reader Origin)

/-- How critical a resource group is. -/
inductive Criticality where
  | low
  | medium
  | high
  | critical
  deriving DecidableEq, Repr

namespace Criticality

def all : List Criticality := [low, medium, high, critical]

def name : Criticality → String
  | low => "low"
  | medium => "medium"
  | high => "high"
  | critical => "critical"

def read : Reader Criticality := .member (all.map fun c => (c.name, c))

end Criticality

/-- A resource group that the persona groups are granted access to. -/
structure ResourceGroup where
  id : String
  name : String
  environment : String
  resourceTypes : List String
  criticality : Criticality
  deriving DecidableEq, Repr

namespace ResourceGroup

def read (origin : Origin) : Reader ResourceGroup :=
  .record origin "ResourceGroupConfig" fun j =>
    ResourceGroup.mk
      <$> Reader.required "id" (.textOf 1 none) j
      <*> Reader.required "name" (.textOf 1 none) j
      <*> Reader.required "environment" .text j
      <*> Reader.withDefault "resource_types" .texts [] j
      <*> Reader.withDefault "criticality_level" Criticality.read .medium j

def toJson (r : ResourceGroup) : Json := .obj [
  ("id", .str r.id),
  ("name", .str r.name),
  ("environment", .str r.environment),
  ("resource_types", .ofTexts r.resourceTypes),
  ("criticality_level", .str r.criticality.name)]

end ResourceGroup

/-- Which tiers are switched on, and what their scopes are made of beyond the context. -/
structure TierPlan where
  managementGroup : Bool
  tenant : Bool
  subscription : Bool
  resourceGroup : Bool
  managementGroupName : Option String
  resourceGroups : Option (NameMap ResourceGroup)

/-- The management group of the context, or else the one of the name. -/
def managementGroupScope (name : String) (c : Context) : Scope :=
  .managementGroup (if c.managementGroupId.getD "" = "" then managementGroupPath name else c.managementGroupId.getD "")

namespace Expansion

variable {ρ : Type} [Role ρ]

/-- The grants of one persona group on one scope. -/
def grantsOf (book : RoleBook ρ) (tier : Tier) (scope : Scope) (keyPrefix : String) (g : Group) :
    Except Failure (List Assignment) := do
  let some persona := g.persona | throw (.unknownPersona .null)
  let roles ← book.environmentRoles g.environment persona
  roles.mapM fun role =>
    Assignment.grantValue (keyPrefix ++ g.key ++ "-" ++ (Role.toJson role).plain) tier scope (Role.toJson role) g.key
      .group

/-- The grants of all persona groups on one scope. -/
def grantsOn (book : RoleBook ρ) (groups : List Group) (tier : Tier) (scope : Scope) (keyPrefix : String) :
    Except Failure (List Assignment) := do
  return (← groups.mapM (grantsOf book tier scope keyPrefix)).flatten

/-- The grants of a tier that has one scope, made of an id that must not be empty. -/
def grantsOnId (book : RoleBook ρ) (groups : List Group) (tier : Tier) (id : Option String) (scope : String → Scope) :
    Except Failure (List Assignment) :=
  match id with
  | some (id : String) =>
    if id = "" then .error (.reference (.tierUnready tier))
    else grantsOn book groups tier (scope id) (tier.name ++ "-")
  | none => .error (.reference (.tierUnready tier))

/-- The grants on every resource group, in the order of their names. -/
def grantsOnResourceGroups (book : RoleBook ρ) (groups : List Group)
    (resourceGroups : Option (NameMap ResourceGroup)) : Except Failure (List Assignment) := do
  let some named := resourceGroups | throw (.reference (.tierUnready .resourceGroup))
  let grants ← named.entries.mapM fun (name, r) =>
    grantsOn book groups .resourceGroup (.resourceGroup r.id) (Tier.resourceGroup.name ++ "-" ++ name ++ "/")
  return grants.flatten

/-- The grants of a tier, or none if it is switched off. -/
def ifOn (on : Bool) (grants : Except Failure (List Assignment)) : Except Failure (List Assignment) :=
  if on then grants else .ok []

end Expansion

open Expansion in
/-- The grants of all tiers that are switched on. -/
def expand {ρ : Type} [Role ρ] (h : Hierarchy) (book : RoleBook ρ) (c : Context) (plan : TierPlan) :
    Except Failure (List Assignment) := do
  let groups := sortedBy Group.key (h.layer .persona)
  let onManagementGroup ← ifOn plan.managementGroup
    (grantsOnId book groups .managementGroup plan.managementGroupName (managementGroupScope · c))
  let onTenant ← ifOn plan.tenant (grantsOnId book groups .tenant c.tenantId .tenant)
  let onSubscription ← ifOn plan.subscription
    (grantsOnId book groups .subscription c.subscriptionId .subscription)
  let onResourceGroups ← ifOn plan.resourceGroup (grantsOnResourceGroups book groups plan.resourceGroups)
  return onManagementGroup ++ onTenant ++ onSubscription ++ onResourceGroups

end AccessPlan
