import AccessPlan.Context
import AccessPlan.Hierarchy.Group

/-!
# Custom roles

A custom role lists what it permits. Its definition can be assigned on the subscription, if one is known.
-/

namespace AccessPlan

open Schema (Reader Origin)

/-- A role of the configuration; its permissions are in ascending order, each once. -/
structure CustomRole where
  description : String
  actions : List String
  notActions : List String
  dataActions : List String
  notDataActions : List String
  deriving DecidableEq, Repr

namespace CustomRole

/-- A list of permissions. How often and in which order they are listed does not matter. -/
def permissions : Reader (List String) := fun j => sortedUnique <$> Reader.texts j

def read (origin : Origin) : Reader CustomRole :=
  .record origin "CustomRoleConfig" fun j =>
    CustomRole.mk
      <$> Reader.withDefault "description" .text "" j
      <*> Reader.withDefault "actions" permissions [] j
      <*> Reader.withDefault "not_actions" permissions [] j
      <*> Reader.withDefault "data_actions" permissions [] j
      <*> Reader.withDefault "not_data_actions" permissions [] j

def toJson (r : CustomRole) : Json := .obj [
  ("description", .str r.description),
  ("actions", .ofTexts r.actions),
  ("not_actions", .ofTexts r.notActions),
  ("data_actions", .ofTexts r.dataActions),
  ("not_data_actions", .ofTexts r.notDataActions)]

end CustomRole

/-- A role definition of a policy. -/
structure RoleDefinition where
  key : String
  name : String
  description : String
  actions : List String
  notActions : List String
  dataActions : List String
  notDataActions : List String
  assignableScopes : List String
  deriving DecidableEq, Repr

namespace RoleDefinition

def read (origin : Origin) : Reader RoleDefinition :=
  .record origin "RoleDefinition" fun j =>
    RoleDefinition.mk
      <$> Reader.required "key" .text j
      <*> Reader.required "name" .text j
      <*> Reader.required "description" .text j
      <*> Reader.withDefault "actions" .texts [] j
      <*> Reader.withDefault "not_actions" .texts [] j
      <*> Reader.withDefault "data_actions" .texts [] j
      <*> Reader.withDefault "not_data_actions" .texts [] j
      <*> Reader.withDefault "assignable_scopes" .texts [] j

def toJson (r : RoleDefinition) : Json := .obj [
  ("key", .str r.key),
  ("name", .str r.name),
  ("description", .str r.description),
  ("actions", .ofTexts r.actions),
  ("not_actions", .ofTexts r.notActions),
  ("data_actions", .ofTexts r.dataActions),
  ("not_data_actions", .ofTexts r.notDataActions),
  ("assignable_scopes", .ofTexts r.assignableScopes)]

/-- The definition of a custom role. -/
def ofCustomRole (scopes : List String) (name : String) (r : CustomRole) : RoleDefinition where
  key := "role-definition-" ++ name
  name := name
  description := r.description
  actions := r.actions
  notActions := r.notActions
  dataActions := r.dataActions
  notDataActions := r.notDataActions
  assignableScopes := scopes

/-- The scopes that custom roles can be assigned on. -/
def scopesOf (c : Context) : List String :=
  match c.subscriptionId with
  | some id => if id = "" then [] else [(Scope.subscription id).path]
  | none => []

/-- The definitions of custom roles, in the order of their names. -/
def ofCustomRoles (roles : NameMap CustomRole) (c : Context) : List RoleDefinition :=
  roles.entries.map fun e => ofCustomRole (scopesOf c) e.1 e.2

end RoleDefinition

end AccessPlan
