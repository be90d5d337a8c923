import AccessPlan.Assignment.Expansion
import AccessPlan.Assignment.RoleDefinition
import AccessPlan.Hierarchy.Name
import AccessPlan.Principal.Record

/-!
# Configurations

A configuration declares an organization: its environments and projects, its owners, which tiers are switched on, and
whatever takes the place of the built-in role tables. `PolicyConfig.ofJson` checks all fields and reports every fault.
-/

namespace AccessPlan

open Schema (Reader Origin Checked)

structure PolicyConfig where
  orgPrefix : String
  environments : List String
  projects : List String
  projectGroups : Bool
  owners : List String
  resourceGroups : Option (NameMap ResourceGroup)
  servicePrincipals : NameMap PrincipalDefinition
  managementGroupAssignments : Bool
  tenantAssignments : Bool
  subscriptionAssignments : Bool
  resourceGroupAssignments : Bool
  managementGroupName : Option String
  tenantId : Option String
  environmentTables : Option (RoleTable String)
  resourceTypeTables : Option (RoleTable String)
  environmentOverrides : Option (RoleTable String)
  resourceTypeOverrides : Option (RoleTable String)
  customRoles : NameMap CustomRole

namespace PolicyConfig

/-- A prefix of an organization. -/
def orgPrefixField : Reader String := fun j =>
  (Reader.text j).andThen fun s => if isPrefixText s then .ok s else .fault (.refused ConfigCause.prefixRule)

/-- At least one owner, and none that is blank. -/
def ownersField : Reader (List String) := fun j =>
  (Reader.listOfLeast 1 .text j).andThen fun owners =>
    if owners.any Text.allBlank then .fault (.refused "Owner ids must not be blank") else .ok owners

/-- Whether a name can be told apart from the rest of a key. -/
def isKeySegment (name : String) : Bool := name != "" && !name.toList.contains '/'

/-- The map of entries whose names can be told apart from the rest of a key. The names are looked at in the order in
which they came, and the first one that cannot is told. -/
def keySegments {α : Type} (es : List (String × α)) : Checked (NameMap α) :=
  match es.find? fun e => !isKeySegment e.1 with
  | some (name, _) => .fault (.refused s!"Name '{name}' must be non-empty and must not contain '/'")
  | none => .ok (.ofList es)

/-- A map whose names can be told apart from the rest of a key. -/
def segmentMap {α : Type} (read : Reader α) : Reader (NameMap α) := fun j =>
  (Reader.entries .text read j).andThen keySegments

def read (origin : Origin) : Reader PolicyConfig :=
  .record origin "PolicyConfig" fun j =>
    PolicyConfig.mk
      <$> Reader.required "org_prefix" orgPrefixField j
      <*> Reader.required "environments" (.listOfLeast 1 .text) j
      <*> Reader.withDefault "projects" .texts [] j
      <*> Reader.withDefault "enable_project_groups" .switch false j
      <*> Reader.required "owners" ownersField j
      <*> Reader.optional "resource_groups" (segmentMap (ResourceGroup.read origin)) j
      <*> Reader.withDefault "service_principals" (segmentMap (PrincipalDefinition.read origin)) .empty j
      <*> Reader.withDefault "enable_management_group_assignments" .switch false j
      <*> Reader.withDefault "enable_tenant_assignments" .switch false j
      <*> Reader.withDefault "enable_subscription_assignments" .switch false j
      <*> Reader.withDefault "enable_resource_group_assignments" .switch false j
      <*> Reader.optional "management_group_name" .text j
      <*> Reader.optional "tenant_id" .text j
      <*> Reader.optional "environment_role_tables" RoleTable.read j
      <*> Reader.optional "resource_type_role_tables" RoleTable.read j
      <*> Reader.optional "environment_role_overrides" RoleTable.read j
      <*> Reader.optional "resource_type_role_overrides" RoleTable.read j
      <*> Reader.withDefault "custom_roles" (.mapOf (CustomRole.read origin)) .empty j

/-- The configuration that a value is, or the faults of its fields. -/
def ofJson (j : Json) : Except Failure PolicyConfig :=
  (read .document j).toExcept (Failure.ofFaults fun faults => .config (.invalidFields faults))

def tableJson (t : Option (RoleTable String)) : Json := (t.map RoleTable.toJson).getD .null

def toJson (c : PolicyConfig) : Json := .obj [
  ("org_prefix", .str c.orgPrefix),
  ("environments", .ofTexts c.environments),
  ("projects", .ofTexts c.projects),
  ("enable_project_groups", .bool c.projectGroups),
  ("owners", .ofTexts c.owners),
  ("resource_groups", (c.resourceGroups.map (Json.ofMap ResourceGroup.toJson)).getD .null),
  ("service_principals", .ofMap PrincipalDefinition.toJson c.servicePrincipals),
  ("enable_management_group_assignments", .bool c.managementGroupAssignments),
  ("enable_tenant_assignments", .bool c.tenantAssignments),
  ("enable_subscription_assignments", .bool c.subscriptionAssignments),
  ("enable_resource_group_assignments", .bool c.resourceGroupAssignments),
  ("management_group_name", .ofOption c.managementGroupName),
  ("tenant_id", .ofOption c.tenantId),
  ("environment_role_tables", tableJson c.environmentTables),
  ("resource_type_role_tables", tableJson c.resourceTypeTables),
  ("environment_role_overrides", tableJson c.environmentOverrides),
  ("resource_type_role_overrides", tableJson c.resourceTypeOverrides),
  ("custom_roles", .ofMap CustomRole.toJson c.customRoles)]

/-- The role tables of a configuration over the built-in ones. -/
def roleBook (c : PolicyConfig) : RoleBook String :=
  .ofTables (c.environmentTables.getD .empty) (c.resourceTypeTables.getD .empty)
    (c.environmentOverrides.getD .empty) (c.resourceTypeOverrides.getD .empty)

def tierPlan (c : PolicyConfig) : TierPlan where
  managementGroup := c.managementGroupAssignments
  tenant := c.tenantAssignments
  subscription := c.subscriptionAssignments
  resourceGroup := c.resourceGroupAssignments
  managementGroupName := c.managementGroupName
  resourceGroups := c.resourceGroups

end PolicyConfig

end AccessPlan
