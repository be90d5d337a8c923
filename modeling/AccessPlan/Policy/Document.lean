import AccessPlan.Argument
import AccessPlan.Policy.Summary
import AccessPlan.Principal.Credential
import AccessPlan.Principal.Record
import AccessPlan.Assignment.RoleDefinition

/-!
# Resolved policies and their documents

A resolved policy holds the records of eight kinds and a summary. Its document shows all of them, with the secrets
masked unless the caller wants them, and adds the stages: the keys in an order in which the records can be created.
-/

namespace AccessPlan

open Schema (Reader Origin)

/-- The kinds of records of a policy. -/
inductive EntityKind where
  | groups
  | memberships
  | roleDefinitions
  | assignments
  | applications
  | servicePrincipals
  | ownerEdges
  | credentials
  deriving DecidableEq, Repr

namespace EntityKind

def all : List EntityKind :=
  [groups, memberships, roleDefinitions, assignments, applications, servicePrincipals, ownerEdges, credentials]

def name : EntityKind → String
  | groups => "groups"
  | memberships => "memberships"
  | roleDefinitions => "role_definitions"
  | assignments => "assignments"
  | applications => "applications"
  | servicePrincipals => "service_principals"
  | ownerEdges => "owner_edges"
  | credentials => "credentials"

end EntityKind

structure ResolvedPolicy where
  groups : List Group
  memberships : List Membership
  roleDefinitions : List RoleDefinition
  assignments : List Assignment
  applications : List Application
  servicePrincipals : List ServicePrincipal
  ownerEdges : List OwnerEdge
  credentials : List Credential
  summary : PolicySummary

/-- Keys that can be created together. -/
structure Stage where
  name : String
  keys : List String
  deriving DecidableEq, Repr

def Stage.toJson (s : Stage) : Json := .obj [("stage", .str s.name), ("keys", .ofTexts s.keys)]

namespace ResolvedPolicy

def recordName : String := "ResolvedPolicy"

def read (origin : Origin) : Reader ResolvedPolicy :=
  .record origin recordName fun j =>
    ResolvedPolicy.mk
      <$> Reader.withDefault "groups" (.listOf (Group.read origin)) [] j
      <*> Reader.withDefault "memberships" (.listOf (Membership.read origin)) [] j
      <*> Reader.withDefault "role_definitions" (.listOf (RoleDefinition.read origin)) [] j
      <*> Reader.withDefault "assignments" (.listOf (Assignment.read origin)) [] j
      <*> Reader.withDefault "applications" (.listOf (Application.read origin)) [] j
      <*> Reader.withDefault "service_principals" (.listOf (ServicePrincipal.read origin)) [] j
      <*> Reader.withDefault "owner_edges" (.listOf (OwnerEdge.read origin)) [] j
      <*> Reader.withDefault "credentials" (.listOf (Credential.read origin)) [] j
      <*> Reader.withDefault "summary" (PolicySummary.read origin) .empty j

/-- The policy that a document holds. Stages and paths are derived, so they are not read. -/
def ofDocument (j : Json) : Except Failure ResolvedPolicy :=
  (read .document j).toExcept (.invalid recordName)

/-- The keys of the records of a kind. -/
def keys (p : ResolvedPolicy) : EntityKind → List String
  | .groups => p.groups.map Group.key
  | .memberships => p.memberships.map Membership.key
  | .roleDefinitions => p.roleDefinitions.map RoleDefinition.key
  | .assignments => p.assignments.map Assignment.key
  | .applications => p.applications.map Application.key
  | .servicePrincipals => p.servicePrincipals.map ServicePrincipal.key
  | .ownerEdges => p.ownerEdges.map OwnerEdge.key
  | .credentials => p.credentials.map Credential.key

/-- The keys of the groups of a layer. -/
def layerKeys (p : ResolvedPolicy) (level : Level) : List String :=
  (p.groups.filter fun g => g.level = level).map Group.key

def isOfPrincipal (a : Assignment) : Bool := a.tier == .servicePrincipal

/-- All keys in the order in which their records can be created; the records of one stage do not depend on each
other. -/
def stages (p : ResolvedPolicy) : List Stage := [
  ⟨"root", p.layerKeys .root⟩,
  ⟨"environments", p.layerKeys .environment⟩,
  ⟨"personas", p.layerKeys .persona⟩,
  ⟨"projects", p.layerKeys .project⟩,
  ⟨"memberships", p.keys .memberships⟩,
  ⟨"role_definitions", p.keys .roleDefinitions⟩,
  ⟨"assignments", (p.assignments.filter fun a => !isOfPrincipal a).map Assignment.key⟩,
  ⟨"applications", p.keys .applications⟩,
  ⟨"service_principals", p.keys .servicePrincipals⟩,
  ⟨"credentials", p.keys .credentials⟩,
  ⟨"owner_edges", p.keys .ownerEdges⟩,
  ⟨"service_principal_assignments", (p.assignments.filter isOfPrincipal).map Assignment.key⟩]

/-- The policy with all secrets masked. -/
def masked (p : ResolvedPolicy) : ResolvedPolicy := { p with credentials := p.credentials.map Credential.masked }

/-- The fields of the document, except for the stages. -/
def fields (p : ResolvedPolicy) : List (String × Json) := [
  ("groups", .arr (p.groups.map Group.toJson)),
  ("memberships", .arr (p.memberships.map Membership.toJson)),
  ("role_definitions", .arr (p.roleDefinitions.map RoleDefinition.toJson)),
  ("assignments", .arr (p.assignments.map Assignment.toJson)),
  ("applications", .arr (p.applications.map Application.toJson)),
  ("service_principals", .arr (p.servicePrincipals.map ServicePrincipal.toJson)),
  ("owner_edges", .arr (p.ownerEdges.map OwnerEdge.toJson)),
  ("credentials", .arr (p.credentials.map Credential.toJson)),
  ("summary", p.summary.toJson)]

/-- The document of a policy. Secrets have to be fit for a document even if they are masked in it. -/
def document (p : ResolvedPolicy) (maskSecrets : Bool) : Except Failure Json := do
  let shown := { p with credentials := ← p.credentials.mapM Credential.documented }
  let shown := if maskSecrets then shown.masked else shown
  return .obj (shown.fields ++ [("apply_stages", .arr (p.stages.map Stage.toJson))])

/-- Whether all items of two lists are the same, in order. -/
def sameAll {α : Type} (same : α → α → Bool) : List α → List α → Bool
  | [], [] => true
  | x :: xs, y :: ys => same x y && sameAll same xs ys
  | _, _ => false

/-- Whether two policies are the same, end dates compared by the instant. -/
def same (p q : ResolvedPolicy) : Bool :=
  p.groups == q.groups && p.memberships == q.memberships && p.roleDefinitions == q.roleDefinitions &&
    p.assignments == q.assignments && p.applications == q.applications &&
    p.servicePrincipals == q.servicePrincipals && p.ownerEdges == q.ownerEdges &&
    sameAll Credential.same p.credentials q.credentials && p.summary == q.summary

/-- The policy with another secret, or with none for `null`, for the credentials of a key. Only a text is the key of
one. The key is needed if there are credentials, and the secret if one has the key. -/
def withSecret (p : ResolvedPolicy) (key secret : Option Json) : Except Failure ResolvedPolicy := do
  let credentials ← p.credentials.mapM fun c => do
    if (← Failure.require "key" key).str? = some c.key then
      match ← Failure.require "value" secret with
      | .null => return { c with secret := none }
      | value => return { c with secret := some value }
    else return c
  return { p with credentials }

end ResolvedPolicy

end AccessPlan
