import AccessPlan.Json.Display
import AccessPlan.Schema.Reader

/-!
# Scopes and tiers

A scope is what a role is granted on. Every scope has a written form, the path that grants refer to. A tier is a
reason for a grant: one of four places for the groups, and the grants of service principals.

* `Scope.read_toJson`: a written scope is read back.
-/

namespace AccessPlan

inductive Scope where
  | tenant (tenantId : String)
  | managementGroup (managementGroupId : String)
  | subscription (subscriptionId : String)
  | resourceGroup (id : String)
  | custom (id : String)
  deriving DecidableEq, Repr

/-- The path of the management group of a name. -/
def managementGroupPath (name : String) : String :=
  "/providers/Microsoft.Management/managementGroups/" ++ name

namespace Scope

/-- The path that a grant refers to. The root management group of a tenant has the tenant's id as its name. -/
def path : Scope → String
  | tenant id => managementGroupPath id
  | managementGroup id => id
  | subscription id => "/subscriptions/" ++ id
  | resourceGroup id => id
  | custom id => id

/-- The name of the kind of scope. -/
def kind : Scope → String
  | tenant _ => "tenant"
  | managementGroup _ => "management_group"
  | subscription _ => "subscription"
  | resourceGroup _ => "resource_group"
  | custom _ => "custom"

/-- The kinds of scopes: the name of the kind, the field of its id, and the scope of an id. -/
def kinds : List (String × String × (String → Scope)) := [
  ("tenant", "tenant_id", tenant),
  ("management_group", "management_group_id", managementGroup),
  ("subscription", "subscription_id", subscription),
  ("resource_group", "id", resourceGroup),
  ("custom", "id", custom)]

def toJson : Scope → Json
  | tenant id => .obj [("kind", .str "tenant"), ("tenant_id", .str id)]
  | managementGroup id => .obj [("kind", .str "management_group"), ("management_group_id", .str id)]
  | subscription id => .obj [("kind", .str "subscription"), ("subscription_id", .str id)]
  | resourceGroup id => .obj [("kind", .str "resource_group"), ("id", .str id)]
  | custom id => .obj [("kind", .str "custom"), ("id", .str id)]

/-- The scope of a value, told by its kind. -/
def read : Schema.Reader Scope := fun j =>
  match j with
  | .obj _ =>
    match j.field? "kind" with
    | none => .fault .noTag
    | some tag =>
      match tag.str?.bind fun s => (kinds.lookup s).map fun k => (s, k) with
      | none => .fault (.unknownTag tag.plain (kinds.map (·.1)))
      | some (kind, idField, make) => (make <$> Schema.Reader.required idField .text j).under (.field kind)
  | _ => .fault .noFields

/-- A written scope is read back. -/
theorem read_toJson (s : Scope) : read s.toJson = .ok s := by cases s <;> rfl

end Scope

/-- Why a role is granted. -/
inductive Tier where
  | managementGroup
  | tenant
  | subscription
  | resourceGroup
  | servicePrincipal
  deriving DecidableEq, Repr

namespace Tier

def all : List Tier := [managementGroup, tenant, subscription, resourceGroup, servicePrincipal]

def name : Tier → String
  | managementGroup => "management_group"
  | tenant => "tenant"
  | subscription => "subscription"
  | resourceGroup => "resource_group"
  | servicePrincipal => "service_principal"

def choices : List (String × Tier) := all.map fun t => (t.name, t)

def read : Schema.Reader Tier := .member choices

@[simp] theorem read_name (t : Tier) : read (.str t.name) = .ok t := by cases t <;> rfl

end Tier

end AccessPlan
