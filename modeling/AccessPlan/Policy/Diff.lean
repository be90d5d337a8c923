import AccessPlan.Policy.Document

/-!
# Differences of policies

Two policies are compared kind by kind and key by key. A key is added, removed, or changed if its records are not the
same; of records with one key the last one counts.
-/

namespace AccessPlan

/-- The keys of a kind of records that differ, each list in ascending order. -/
structure EntityDiff where
  added : List String
  removed : List String
  changed : List String
  deriving DecidableEq, Repr

namespace EntityDiff

def isEmpty (d : EntityDiff) : Bool := d.added.isEmpty && d.removed.isEmpty && d.changed.isEmpty

/-- Records by their keys. -/
def index {α : Type} (key : α → String) (records : List α) : NameMap α := .ofList (records.map fun r => (key r, r))

/-- Whether a key is bound in both maps to records that are not the same. -/
def isChanged {α : Type} (same : α → α → Bool) (before after : NameMap α) (key : String) : Bool :=
  match before.get? key, after.get? key with
  | some old, some new => !same new old
  | _, _ => false

def between {α : Type} (key : α → String) (same : α → α → Bool) (before after : List α) : EntityDiff :=
  let old := index key before
  let new := index key after
  { added := new.names.filter fun k => !old.contains k
    removed := old.names.filter fun k => !new.contains k
    changed := new.names.filter (isChanged same old new) }

def toJson (d : EntityDiff) : Json :=
  .obj [("added", .ofTexts d.added), ("removed", .ofTexts d.removed), ("changed", .ofTexts d.changed)]

end EntityDiff

/-- The differences of the records of a kind. -/
def diffOf (before after : ResolvedPolicy) : EntityKind → EntityDiff
  | .groups => .between Group.key (· == ·) before.groups after.groups
  | .memberships => .between Membership.key (· == ·) before.memberships after.memberships
  | .roleDefinitions => .between RoleDefinition.key (· == ·) before.roleDefinitions after.roleDefinitions
  | .assignments => .between Assignment.key (· == ·) before.assignments after.assignments
  | .applications => .between Application.key (· == ·) before.applications after.applications
  | .servicePrincipals => .between ServicePrincipal.key (· == ·) before.servicePrincipals after.servicePrincipals
  | .ownerEdges => .between OwnerEdge.key (· == ·) before.ownerEdges after.ownerEdges
  | .credentials => .between Credential.key Credential.same before.credentials after.credentials

/-- The differences of all kinds. -/
structure PolicyDiff where
  changes : EntityKind → EntityDiff

namespace PolicyDiff

/-- What changed from one policy to the next. -/
def between (before after : ResolvedPolicy) : PolicyDiff := ⟨diffOf before after⟩

def isEmpty (d : PolicyDiff) : Bool := EntityKind.all.all fun k => (d.changes k).isEmpty

/-- The names of the kinds without a difference, in ascending order. -/
def emptyKinds (d : PolicyDiff) : List String :=
  sortedBy id ((EntityKind.all.filter fun k => (d.changes k).isEmpty).map EntityKind.name)

def changesJson (d : PolicyDiff) : Json := .obj (EntityKind.all.map fun k => (k.name, (d.changes k).toJson))

end PolicyDiff

end AccessPlan
