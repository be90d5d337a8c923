import AccessPlan.Hierarchy.Build
import AccessPlan.Policy.Config
import AccessPlan.Policy.Document
import AccessPlan.Principal.Expansion

/-!
# Resolution

`resolve` turns a configuration and a context into a policy, or answers with the first thing that is wrong. It checks
that the role tables cover the configuration, builds the hierarchy, expands the tiers and the service principals, and
puts every kind of record in the order of its keys.
-/

namespace AccessPlan

/-- Every environment has roles for every persona. -/
def checkEnvironmentCoverage (book : RoleBook String) (environments : List String) : Except Failure Unit :=
  (sortedBy id environments).forM fun e => Persona.all.forM fun p => do
    let _ ← book.environmentRoles (some e) p

/-- A resource group is in a configured environment, and its resource types are known. -/
def checkResourceGroup (book : RoleBook String) (environments : List String) (name : String) (r : ResourceGroup) :
    Except Failure Unit := do
  if r.environment ∉ environments then throw (.reference (.unknownEnvironment name r.environment))
  r.resourceTypes.forM fun t => do
    let _ ← book.resourceTypeRoles t .nonTechnical

/-- The role tables cover a configuration, whether its tiers are switched on or not. -/
def checkCoverage (config : PolicyConfig) (book : RoleBook String) : Except Failure Unit := do
  checkEnvironmentCoverage book config.environments
  (config.resourceGroups.getD .empty).entries.forM fun (name, r) =>
    checkResourceGroup book config.environments name r

/-- The parent of every group is a group, and no two groups have the same key. -/
def checkTopology (groups : List Group) : Except ReferenceCause Unit := do
  let keys := groups.map Group.key
  if (firstRepeated keys).isSome then throw .duplicateGroups
  groups.forM fun g =>
    match g.parentKey with
    | some parent => if parent ∈ keys then pure () else throw (.missingParent g.key parent)
    | none => pure ()

/-- The keys of records of a kind are different. -/
def checkUnique (kind : String) (keys : List String) : Except ReferenceCause Unit :=
  match firstRepeated keys with
  | some key => .error (.duplicateKey kind key)
  | none => .ok ()

/-- The policy of a configuration. -/
def resolve (config : PolicyConfig) (context : Context) : Except Failure ResolvedPolicy := do
  let context := context.withTenant config.tenantId
  let book := config.roleBook
  checkCoverage config book
  let h ← Hierarchy.build (.str config.orgPrefix) (.ofTexts config.environments) (.ofTexts config.projects)
    config.projectGroups (.ofTexts config.owners)
  (checkTopology h.groups).mapError .reference
  let granted ← expand h book context config.tierPlan
  let principals ← ResolvedPrincipals.ofDefinitions config.servicePrincipals context (.ofTexts config.owners)
  let assignments := sortedBy Assignment.key (granted ++ principals.assignments)
  (checkUnique "assignment" (assignments.map Assignment.key)).mapError .reference
  return {
    groups := sortedBy Group.key h.groups
    memberships := sortedBy Membership.key h.memberships
    roleDefinitions := RoleDefinition.ofCustomRoles config.customRoles context
    assignments := assignments
    applications := principals.applications
    servicePrincipals := principals.servicePrincipals
    ownerEdges := sortedBy OwnerEdge.key principals.ownerEdges
    credentials := principals.credentials
    summary := ← PolicySummary.ofHierarchy h book }

/-- The policy of a configuration that has not been checked, with a context or else that of the settings. -/
def resolveJson (config : Json) (context : Option Context) (settings : Settings) : Except Failure ResolvedPolicy := do
  let config ← PolicyConfig.ofJson config
  match context with
  | some c => resolve config c
  | none => resolve config (← Context.ofSettings settings (.ofOption config.tenantId) none)

end AccessPlan
