import AccessPlan.Context
import AccessPlan.Owners
import AccessPlan.Principal.Credential
import AccessPlan.Principal.Record

/-!
# Expansion of service principals

Every definition of a service principal becomes an application, a principal, a credential, an edge for each owner, and
an assignment for each of its grants. Roles and scopes are taken from the definition; no role table is looked at.

* `PrincipalRecords.ofDefinition` expands one definition, `ResolvedPrincipals.ofDefinitions` a map of them.
-/

namespace AccessPlan

open Calendar (Amount)

/-- The least and the greatest number of days that a credential may be valid. -/
def leastRotationDays : Int := 1

def greatestRotationDays : Int := 730

/-- A number of days in the range of validities; only integers, and switches in their place, pass. -/
def checkRotationDays (field : FieldName) (value : Json) : Except ConfigCause Int :=
  let days? : Option Int := match value with
    | .int n => some n
    | .bool b => some (if b then 1 else 0)
    | _ => none
  match days? with
  | some n =>
    if leastRotationDays ≤ n ∧ n ≤ greatestRotationDays then .ok n else .error (.rotationOutOfRange field value)
  | none => .error (.rotationOutOfRange field value)

/-- All records of one service principal. -/
structure PrincipalRecords where
  application : Application
  principal : ServicePrincipal
  credential : Credential
  ownerEdges : List OwnerEdge
  assignments : List Assignment

namespace PrincipalRecords

/-- The owners of a definition, or the default ones if it has none, in ascending order. The default ones have not been
checked. -/
def effectiveOwners (d : PrincipalDefinition) (defaultOwners : Json) : Except Failure (List String) :=
  if d.owners.isEmpty then do
    ownersOf "ApplicationRecord" (← defaultOwners.itemsOf.mapError .misfit)
  else .ok (sortedUnique d.owners)

/-- The days that the credential of a definition is valid. -/
def rotationDaysOf (d : PrincipalDefinition) (c : Context) : Int := d.rotationDays.getD c.rotationDays

/-- The assignment of one grant. -/
def grantOf (name principalKey label : String) (g : Grant) : Except Failure Assignment :=
  Assignment.grant (Tier.servicePrincipal.name ++ "-" ++ name ++ "/" ++ label) .servicePrincipal (.custom g.scope)
    g.role principalKey .servicePrincipal

def ofDefinition (c : Context) (defaultOwners : Json) (name : String) (d : PrincipalDefinition) :
    Except Failure PrincipalRecords := do
  let field := "service_principals." ++ name ++ ".rotation_days"
  let days ← (checkRotationDays field (.int (rotationDaysOf d c))).mapError .config
  let owners ← effectiveOwners d defaultOwners
  if owners.isEmpty then throw (.config (.noOwners name))
  let tags := sortedUnique d.tags
  let application : Application := {
    key := "application-" ++ name
    name := name
    displayName := d.displayName
    description := d.description
    owners := owners
    tags := tags }
  let principal : ServicePrincipal := {
    key := "service-principal-" ++ name
    applicationKey := application.key
    owners := owners
    tags := tags }
  let credential ← Credential.issue application.key name c.now (.whole days)
  let assignments ← d.roles.entries.mapM fun (label, g) => grantOf name principal.key label g
  return {
    application := application
    principal := principal
    credential := credential
    ownerEdges := owners.map fun owner => ⟨principal.key, owner⟩
    assignments := assignments }

end PrincipalRecords

/-- The records of all service principals, by kind. -/
structure ResolvedPrincipals where
  applications : List Application
  servicePrincipals : List ServicePrincipal
  ownerEdges : List OwnerEdge
  credentials : List Credential
  assignments : List Assignment

namespace ResolvedPrincipals

def ofRecords (records : List PrincipalRecords) : ResolvedPrincipals where
  applications := records.map (·.application)
  servicePrincipals := records.map (·.principal)
  ownerEdges := records.flatMap (·.ownerEdges)
  credentials := records.map (·.credential)
  assignments := records.flatMap (·.assignments)

/-- The records of a map of definitions, in the order of their names. -/
def ofDefinitions (definitions : NameMap PrincipalDefinition) (c : Context) (defaultOwners : Json) :
    Except Failure ResolvedPrincipals := do
  return ofRecords (← definitions.entries.mapM fun (name, d) => PrincipalRecords.ofDefinition c defaultOwners name d)

def toJson (r : ResolvedPrincipals) : Json := .obj [
  ("applications", .arr (r.applications.map Application.toJson)),
  ("service_principals", .arr (r.servicePrincipals.map ServicePrincipal.toJson)),
  ("owner_edges", .arr (r.ownerEdges.map OwnerEdge.toJson)),
  ("credentials", .arr (r.credentials.map Credential.toJson)),
  ("assignments", .arr (r.assignments.map Assignment.toJson))]

end ResolvedPrincipals

end AccessPlan
