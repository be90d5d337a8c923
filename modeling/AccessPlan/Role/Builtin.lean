import AccessPlan.Role.Table

/-!
# Built-in role tables

The roles that are used for an environment or a resource type unless a table is supplied for it. The rows list the
roles of non-technical members, technical members, members of a single project, and administrators.
-/

namespace AccessPlan.RoleTable

variable {ρ : Type} [Role ρ]

def builtinEnvironments : RoleTable ρ := .ofList [
  ("dev", .full
    ["Reader", "Log Analytics Reader"]
    ["Contributor", "Key Vault Administrator", "Storage Blob Data Contributor", "Log Analytics Reader"]
    ["Contributor", "Key Vault Secrets Officer", "Storage Blob Data Contributor"]
    ["Owner", "User Access Administrator", "Key Vault Administrator"]),
  ("test", .full
    ["Reader"]
    ["Contributor", "Key Vault Secrets User", "Storage Blob Data Contributor", "Log Analytics Reader"]
    ["Contributor", "Storage Blob Data Reader"]
    ["Owner", "User Access Administrator"]),
  ("prod", .full
    ["Reader"]
    ["Reader", "Key Vault Secrets User", "Storage Blob Data Reader", "Log Analytics Reader"]
    ["Reader", "Storage Blob Data Reader"]
    ["Owner", "User Access Administrator", "Key Vault Administrator"])]

/-- A persona with no roles has no access to the resource type. -/
def builtinResourceTypes : RoleTable ρ := .ofList [
  ("key_vault", .full [] ["Key Vault Secrets User"] ["Key Vault Secrets User"] ["Key Vault Administrator"]),
  ("storage", .full
    ["Storage Blob Data Reader"]
    ["Storage Blob Data Contributor"]
    ["Storage Blob Data Contributor"]
    ["Storage Account Contributor", "Storage Blob Data Owner"]),
  ("networking", .full [] ["Reader"] [] ["Network Contributor"]),
  ("compute", .full
    []
    ["Virtual Machine Contributor"]
    ["Virtual Machine User Login"]
    ["Virtual Machine Contributor", "Virtual Machine Administrator Login"]),
  ("database", .full
    []
    ["SQL DB Contributor"]
    ["SQL DB Contributor"]
    ["SQL Server Contributor", "SQL Security Manager"]),
  ("monitoring", .full
    ["Monitoring Reader"]
    ["Monitoring Contributor", "Log Analytics Reader"]
    ["Monitoring Reader"]
    ["Monitoring Contributor", "Log Analytics Contributor"])]

end AccessPlan.RoleTable
