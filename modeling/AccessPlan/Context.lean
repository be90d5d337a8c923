import AccessPlan.PolicyError
import AccessPlan.Settings

/-!
# The context of a resolution

What a resolution needs to know beyond its configuration: the directory, the subscription and the management group
that it is for, the time, and how long credentials are valid. Nothing else reaches a resolution from outside.
-/

namespace AccessPlan

open Schema (Reader Checked)

structure Context where
  tenantId : Option String
  subscriptionId : Option String
  managementGroupId : Option String
  now : Calendar.Timestamp
  rotationDays : Int
  renewWithinDays : Int
  deriving DecidableEq

namespace Context

/-- The context of a record. The clock is the time of a record that states none. -/
def read (clock : Calendar.Timestamp) (origin : Schema.Origin) : Reader Context :=
  .record origin "ResolutionContext" fun j =>
    Context.mk
      <$> Reader.optional "tenant_id" .text j
      <*> Reader.optional "subscription_id" .text j
      <*> Reader.optional "management_group_id" .text j
      <*> Reader.withDefault "now" .timestampUtc clock j
      <*> Reader.withDefault "rotation_days" .integer 90 j
      <*> Reader.withDefault "renew_within_days" .integer 30 j

/-- The context of a value, where no value and `null` stand for an empty record. -/
def ofJson (clock : Calendar.Timestamp) (j : Json) : Except Failure Context :=
  let record := match j with
    | .null => .obj []
    | j => j
  (read clock .document record).toExcept (.invalid "ResolutionContext")

/-- The context of the settings. A tenant id that is given and not empty wins over the one of the settings. -/
def ofSettings (s : Settings) (tenantId : Json) (now : Option Calendar.Timestamp) : Except Failure Context :=
  let tenant := if tenantId.truthy then tenantId else s.tenantId
  let idField (name : String) (value : Json) := (Reader.nullable .text value).under (.field name)
  (Context.mk
    <$> idField "tenant_id" tenant
    <*> idField "subscription_id" s.subscriptionId
    <*> idField "management_group_id" s.managementGroupId
    <*> .ok (now.getD s.clock).asUtc
    <*> (Reader.integer s.rotationDays).under (.field "rotation_days")
    <*> (Reader.integer s.renewWithinDays).under (.field "renew_within_days")).toExcept
      (.invalid "ResolutionContext")

def toJson (c : Context) : Json := .obj [
  ("tenant_id", .ofOption c.tenantId),
  ("subscription_id", .ofOption c.subscriptionId),
  ("management_group_id", .ofOption c.managementGroupId),
  ("now", .str c.now.text),
  ("rotation_days", .int c.rotationDays),
  ("renew_within_days", .int c.renewWithinDays)]

/-- The context with the tenant id of a configuration, if it has none of its own. -/
def withTenant (c : Context) (tenantId : Option String) : Context :=
  if c.tenantId.isNone ∧ tenantId.getD "" ≠ "" then { c with tenantId } else c

end Context

end AccessPlan
