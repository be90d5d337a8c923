import AccessPlan.Persona
import AccessPlan.PolicyError

/-!
# Groups

A group of members has a key and belongs to one of four layers: the root, the environments, their personas, and the
projects below a persona. Every group but the root names its parent. A hierarchy is the list of its groups together
with the memberships of groups in their parents.

* `Group.read_toJson`, `Membership.read_toJson`: written records are read back.
-/

namespace AccessPlan

open Schema (Reader Checked Origin)

/-- The layers of a hierarchy, from the top. -/
inductive Level where
  | root
  | environment
  | persona
  | project
  deriving DecidableEq, Repr

namespace Level

def all : List Level := [root, environment, persona, project]

def name : Level → String
  | root => "root"
  | environment => "environment"
  | persona => "persona"
  | project => "project"

def read : Reader Level := .member (all.map fun l => (l.name, l))

@[simp] theorem read_name (l : Level) : read (.str l.name) = .ok l := by cases l <;> rfl

end Level

/-- A persona in a record. -/
def Persona.read : Reader Persona := .member choices

structure Group where
  key : String
  displayName : String
  description : String
  parentKey : Option String
  level : Level
  environment : Option String
  persona : Option Persona
  project : Option String
  owners : List String
  deriving DecidableEq, Repr

namespace Group

/-- Groups of administrators are privileged. -/
def isPrivileged (g : Group) : Bool := g.persona == some .admin

def read (origin : Origin) : Reader Group :=
  .record origin "Group" fun j =>
    Group.mk
      <$> Reader.required "key" .text j
      <*> Reader.required "display_name" .text j
      <*> Reader.required "description" .text j
      <*> Reader.optional "parent_key" .text j
      <*> Reader.required "level" Level.read j
      <*> Reader.optional "environment" .text j
      <*> Reader.optional "persona" Persona.read j
      <*> Reader.optional "project" .text j
      <*> Reader.withDefault "owners" .texts [] j

def toJson (g : Group) : Json := .obj [
  ("key", .str g.key),
  ("display_name", .str g.displayName),
  ("description", .str g.description),
  ("parent_key", .ofOption g.parentKey),
  ("level", .str g.level.name),
  ("environment", .ofOption g.environment),
  ("persona", .ofOption (g.persona.map Persona.name)),
  ("project", .ofOption g.project),
  ("owners", .ofTexts g.owners)]

end Group

/-- The membership of one group in another. -/
structure Membership where
  parentKey : String
  childKey : String
  deriving DecidableEq, Repr

namespace Membership

def key (m : Membership) : String := m.parentKey ++ "/" ++ m.childKey

def read (origin : Origin) : Reader Membership :=
  .record origin "MembershipEdge" fun j =>
    Membership.mk
      <$> Reader.required "parent_group_key" .text j
      <*> Reader.required "child_group_key" .text j

def toJson (m : Membership) : Json :=
  .obj [("parent_group_key", .str m.parentKey), ("child_group_key", .str m.childKey)]

end Membership

structure Hierarchy where
  groups : List Group
  memberships : List Membership
  deriving DecidableEq, Repr

namespace Hierarchy

/-- The first group without a parent. -/
def root? (h : Hierarchy) : Option Group := h.groups.find? fun g => g.parentKey.isNone

/-- The groups whose parent has the key. -/
def children (h : Hierarchy) (key : String) : List Group := h.groups.filter fun g => g.parentKey = some key

/-- The groups of a layer. -/
def layer (h : Hierarchy) (level : Level) : List Group := h.groups.filter fun g => g.level = level

def privileged (h : Hierarchy) : List Group := h.groups.filter Group.isPrivileged

def read (origin : Origin) : Reader Hierarchy :=
  .record origin "Hierarchy" fun j =>
    Hierarchy.mk
      <$> Reader.withDefault "groups" (.listOf (Group.read origin)) [] j
      <*> Reader.withDefault "memberships" (.listOf (Membership.read origin)) [] j

def toJson (h : Hierarchy) : Json := .obj [
  ("groups", .arr (h.groups.map Group.toJson)),
  ("memberships", .arr (h.memberships.map Membership.toJson))]

end Hierarchy

/-! ## Written records are read back -/

theorem readOption_ofOption (s : Option String) : Reader.nullable .text (Json.ofOption s) = .ok s := by
  cases s <;> rfl

theorem readTexts_ofTexts (xs : List String) : Reader.texts (Json.ofTexts xs) = .ok xs :=
  @Reader.listOf_ok _ Reader.text Json.str (fun _ => rfl) xs

theorem Group.read_toJson (origin : Origin) (g : Group) : Group.read origin g.toJson = .ok g := by
  have hp : Reader.optional "persona" Persona.read g.toJson = .ok g.persona := by
    refine Reader.withDefault_ok rfl ?_
    cases g.persona with
    | none => rfl
    | some p => cases p <;> rfl
  change Group.mk <$> Reader.required "key" .text g.toJson <*> _ <*> _ <*> _ <*> _ <*> _ <*> _ <*> _ <*> _ = _
  rw [Reader.required_ok (a := g.key) rfl rfl, Reader.required_ok (a := g.displayName) rfl rfl,
    Reader.required_ok (a := g.description) rfl rfl, hp,
    Reader.required_ok (a := g.level) rfl (Level.read_name g.level)]
  simp only [Reader.optional]
  rw [Reader.withDefault_ok (a := g.parentKey) rfl (readOption_ofOption _),
    Reader.withDefault_ok (a := g.environment) rfl (readOption_ofOption _),
    Reader.withDefault_ok (a := g.project) rfl (readOption_ofOption _),
    Reader.withDefault_ok (a := g.owners) rfl (readTexts_ofTexts _)]
  rfl

theorem Membership.read_toJson (origin : Origin) (m : Membership) : Membership.read origin m.toJson = .ok m := rfl

end AccessPlan
