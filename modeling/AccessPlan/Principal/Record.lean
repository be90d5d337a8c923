import AccessPlan.Assignment.Basic

/-!
# Service principals

The definition of a service principal in a configuration, and the records that a policy has for it: its application,
the principal itself, and an edge to each of its owners.

* `Application.read_toJson`, `ServicePrincipal.read_toJson`, `OwnerEdge.read_toJson`: written records are read back.
-/

namespace AccessPlan

open Schema (Reader Origin)

/-- A role on a scope, taken as it is written. -/
structure Grant where
  scope : String
  role : String
  deriving DecidableEq, Repr

namespace Grant

def read (origin : Origin) : Reader Grant :=
  .record origin "ServicePrincipalRoleConfig" fun j =>
    Grant.mk <$> Reader.required "scope" (.textOf 1 none) j <*> Reader.required "role" (.textOf 1 none) j

def toJson (g : Grant) : Json := .obj [("scope", .str g.scope), ("role", .str g.role)]

end Grant

/-- The definition of a service principal. -/
structure PrincipalDefinition where
  displayName : String
  description : String
  owners : List String
  roles : NameMap Grant
  tags : List String
  rotationDays : Option Int
  deriving DecidableEq

namespace PrincipalDefinition

def recordName : String := "ServicePrincipalConfig"

def read (origin : Origin) : Reader PrincipalDefinition :=
  .record origin recordName fun j =>
    PrincipalDefinition.mk
      <$> Reader.required "display_name" (.textOf 1 (some 120)) j
      <*> Reader.withDefault "description" .text "" j
      <*> Reader.withDefault "owners" .texts [] j
      <*> Reader.withDefault "roles" (.mapOf (Grant.read origin)) .empty j
      <*> Reader.withDefault "tags" .texts [] j
      <*> Reader.optional "rotation_days" .integer j

def toJson (d : PrincipalDefinition) : Json := .obj [
  ("display_name", .str d.displayName),
  ("description", .str d.description),
  ("owners", .ofTexts d.owners),
  ("roles", .ofMap Grant.toJson d.roles),
  ("tags", .ofTexts d.tags),
  ("rotation_days", (d.rotationDays.map Json.int).getD .null)]

end PrincipalDefinition

structure Application where
  key : String
  name : String
  displayName : String
  description : String
  owners : List String
  tags : List String
  deriving DecidableEq, Repr

namespace Application

def read (origin : Origin) : Reader Application :=
  .record origin "ApplicationRecord" fun j =>
    Application.mk
      <$> Reader.required "key" .text j
      <*> Reader.required "name" .text j
      <*> Reader.required "display_name" .text j
      <*> Reader.required "description" .text j
      <*> Reader.withDefault "owners" .texts [] j
      <*> Reader.withDefault "tags" .texts [] j

def toJson (a : Application) : Json := .obj [
  ("key", .str a.key),
  ("name", .str a.name),
  ("display_name", .str a.displayName),
  ("description", .str a.description),
  ("owners", .ofTexts a.owners),
  ("tags", .ofTexts a.tags)]

theorem read_toJson (origin : Origin) (a : Application) : read origin a.toJson = .ok a := by
  change Application.mk <$> Reader.required "key" .text a.toJson <*> _ <*> _ <*> _ <*> _ <*> _ = _
  rw [Reader.required_ok (a := a.key) rfl rfl, Reader.required_ok (a := a.name) rfl rfl,
    Reader.required_ok (a := a.displayName) rfl rfl, Reader.required_ok (a := a.description) rfl rfl,
    Reader.withDefault_ok (a := a.owners) rfl (readTexts_ofTexts _),
    Reader.withDefault_ok (a := a.tags) rfl (readTexts_ofTexts _)]
  rfl

end Application

structure ServicePrincipal where
  key : String
  applicationKey : String
  owners : List String
  tags : List String
  deriving DecidableEq, Repr

namespace ServicePrincipal

def read (origin : Origin) : Reader ServicePrincipal :=
  .record origin "ServicePrincipalRecord" fun j =>
    ServicePrincipal.mk
      <$> Reader.required "key" .text j
      <*> Reader.required "application_key" .text j
      <*> Reader.withDefault "owners" .texts [] j
      <*> Reader.withDefault "tags" .texts [] j

def toJson (s : ServicePrincipal) : Json := .obj [
  ("key", .str s.key),
  ("application_key", .str s.applicationKey),
  ("owners", .ofTexts s.owners),
  ("tags", .ofTexts s.tags)]

theorem read_toJson (origin : Origin) (s : ServicePrincipal) : read origin s.toJson = .ok s := by
  change ServicePrincipal.mk <$> Reader.required "key" .text s.toJson <*> _ <*> _ <*> _ = _
  rw [Reader.required_ok (a := s.key) rfl rfl, Reader.required_ok (a := s.applicationKey) rfl rfl,
    Reader.withDefault_ok (a := s.owners) rfl (readTexts_ofTexts _),
    Reader.withDefault_ok (a := s.tags) rfl (readTexts_ofTexts _)]
  rfl

end ServicePrincipal

/-- The ownership of a service principal. -/
structure OwnerEdge where
  principalKey : String
  ownerId : String
  deriving DecidableEq, Repr

namespace OwnerEdge

def key (o : OwnerEdge) : String := o.principalKey ++ "/" ++ o.ownerId

def recordName : String := "OwnerEdge"

def read (origin : Origin) : Reader OwnerEdge :=
  .record origin recordName fun j =>
    OwnerEdge.mk <$> Reader.required "principal_key" .text j <*> Reader.required "owner_id" .text j

def toJson (o : OwnerEdge) : Json := .obj [("principal_key", .str o.principalKey), ("owner_id", .str o.ownerId)]

theorem read_toJson (origin : Origin) (o : OwnerEdge) : read origin o.toJson = .ok o := rfl

end OwnerEdge

end AccessPlan
