import AccessPlan.Role.Lookup

/-!
# Summary of a policy

A summary shows the groups and roles of a hierarchy by environment, by persona, and the privileged groups by
themselves. It is derived from one list of sections, one for each environment group with the persona groups below it.

* `PolicySummary.ofSections` arranges the sections in the three views.
* `PolicySummary.ofHierarchy` derives the sections from a hierarchy and the role tables.
* `PolicySummary.roleTexts_texts`: roles that are texts are shown as they are.
-/

namespace AccessPlan

open Schema (Reader Origin Checked)

/-- A persona group of an environment with its roles, and the groups of its projects by project. -/
structure PersonaGroupSummary where
  groupKey : String
  roles : List String
  projects : NameMap String
  deriving DecidableEq

namespace PersonaGroupSummary

def recordName : String := "PersonaGroupSummary"

def read (origin : Origin) : Reader PersonaGroupSummary :=
  .record origin recordName fun j =>
    PersonaGroupSummary.mk
      <$> Reader.required "group_key" .text j
      <*> Reader.withDefault "roles" .texts [] j
      <*> Reader.withDefault "projects" (.mapOf .text) .empty j

def toJson (s : PersonaGroupSummary) : Json := .obj [
  ("group_key", .str s.groupKey),
  ("roles", .ofTexts s.roles),
  ("projects", .ofMap .str s.projects)]

end PersonaGroupSummary

/-- An environment group and its persona groups by persona. -/
structure EnvironmentSummary where
  groupKey : String
  personas : NameMap PersonaGroupSummary
  deriving DecidableEq

namespace EnvironmentSummary

def read (origin : Origin) : Reader EnvironmentSummary :=
  .record origin "EnvironmentSummary" fun j =>
    EnvironmentSummary.mk
      <$> Reader.required "group_key" .text j
      <*> Reader.withDefault "personas" (.mapOf (PersonaGroupSummary.read origin)) .empty j

def toJson (s : EnvironmentSummary) : Json := .obj [
  ("group_key", .str s.groupKey),
  ("personas", .ofEntries ((Persona.arrange s.personas.entries).map fun e => (e.1, e.2.toJson)))]

end EnvironmentSummary

/-- The groups of a persona in all environments, with its roles by environment and by resource type. -/
structure PersonaSummary where
  groups : List String
  environmentRoles : NameMap (List String)
  resourceTypeRoles : NameMap (List String)
  deriving DecidableEq

namespace PersonaSummary

def recordName : String := "PersonaSummary"

def read (origin : Origin) : Reader PersonaSummary :=
  .record origin recordName fun j =>
    PersonaSummary.mk
      <$> Reader.withDefault "groups" .texts [] j
      <*> Reader.withDefault "environment_roles" (.mapOf .texts) .empty j
      <*> Reader.withDefault "resource_type_roles" (.mapOf .texts) .empty j

def toJson (s : PersonaSummary) : Json := .obj [
  ("groups", .ofTexts s.groups),
  ("environment_roles", .ofMap .ofTexts s.environmentRoles),
  ("resource_type_roles", .ofMap .ofTexts s.resourceTypeRoles)]

end PersonaSummary

/-- A group of administrators. -/
structure PrivilegedGroup where
  key : String
  environment : String
  roles : List String
  deriving DecidableEq

namespace PrivilegedGroup

def read (origin : Origin) : Reader PrivilegedGroup :=
  .record origin "PrivilegedGroup" fun j =>
    PrivilegedGroup.mk
      <$> Reader.required "key" .text j
      <*> Reader.required "environment" .text j
      <*> Reader.withDefault "roles" .texts [] j

def toJson (g : PrivilegedGroup) : Json :=
  .obj [("key", .str g.key), ("environment", .str g.environment), ("roles", .ofTexts g.roles)]

end PrivilegedGroup

structure PolicySummary where
  byEnvironment : NameMap EnvironmentSummary
  byPersona : NameMap PersonaSummary
  privilegedGroups : List PrivilegedGroup
  deriving DecidableEq

namespace PolicySummary

def recordName : String := "PolicySummary"

/-- The summary of nothing. -/
def empty : PolicySummary := ⟨.empty, .empty, []⟩

def read (origin : Origin) : Reader PolicySummary :=
  .record origin recordName fun j =>
    PolicySummary.mk
      <$> Reader.withDefault "by_environment" (.mapOf (EnvironmentSummary.read origin)) .empty j
      <*> Reader.withDefault "by_persona" (.mapOf (PersonaSummary.read origin)) .empty j
      <*> Reader.withDefault "privileged_groups" (.listOf (PrivilegedGroup.read origin)) [] j

def toJson (s : PolicySummary) : Json := .obj [
  ("by_environment", .ofMap EnvironmentSummary.toJson s.byEnvironment),
  ("by_persona", .ofEntries ((Persona.arrange s.byPersona.entries).map fun e => (e.1, e.2.toJson))),
  ("privileged_groups", .arr (s.privilegedGroups.map PrivilegedGroup.toJson))]

/-! ## Parts of records -/

variable {ρ : Type} [Role ρ]

/-- Roles as texts, and a fault for each that is none. -/
def roleTexts (roles : List ρ) : Checked (List String) := Reader.texts (.arr (roles.map Role.toJson))

/-- The entries of a map by their names. Entries without a name make one fault together. -/
def namedEntries {α : Type} (entries : List (Option String × α)) : Checked (List (String × α)) :=
  if entries.any (·.1.isNone) then .faulty [⟨[.field "None", .key], .notText⟩]
  else .ok (entries.filterMap fun e => e.1.map fun name => (name, e.2))

/-- The roles of a persona by resource type, for all resource types of the tables. -/
def resourceTypeRolesOf (book : RoleBook ρ) (p : Persona) : Except Failure (NameMap (List String)) := do
  let listed ← book.resourceTypes.names.mapM fun name => do return (name, ← book.resourceTypeRoles name p)
  let checked := Checked.all (listed.map fun (name, roles) => Prod.mk name <$> (roleTexts roles).under (.field name))
  (NameMap.ofList <$> checked.under (.field "resource_type_roles")).toExcept (.invalid PersonaSummary.recordName)

/-! ## Sections -/

/-- A persona group as one section shows it. -/
structure Entry where
  environment : String
  group : Group
  persona : Persona
  roles : List String
  projects : NameMap String

/-- An environment group with the persona groups below it. -/
structure Section where
  environment : String
  groupKey : String
  entries : List Entry

/-- The groups of the projects below a persona group, by project. -/
def projectsOf (h : Hierarchy) (g : Group) : Checked (NameMap String) :=
  NameMap.ofList <$> namedEntries ((sortedBy Group.key (h.children g.key)).map fun p => (p.project, p.key))

/-- A group below an environment group. It has to be the group of a persona. -/
def entryOf (h : Hierarchy) (book : RoleBook ρ) (environment : Option String) (g : Group) : Except Failure Entry := do
  let some persona := g.persona | throw (.unknownPersona .null)
  let roles ← book.environmentRoles environment persona
  let entry := Entry.mk (environment.getD "") g persona <$> (roleTexts roles).under (.field "roles") <*>
    (projectsOf h g).under (.field "projects")
  entry.toExcept (.invalid PersonaGroupSummary.recordName)

/-- The entries below an environment group. -/
def entriesBelow (h : Hierarchy) (book : RoleBook ρ) (g : Group) : Except Failure (List Entry) :=
  (h.children g.key).mapM (entryOf h book g.environment)

/-- The sections of a hierarchy, in the order of the keys of the environment groups. -/
def sectionsOf (h : Hierarchy) (book : RoleBook ρ) : Except Failure (List Section) := do
  let some root := h.root? | throw .noRoot
  let sections ← (sortedBy Group.key (h.children root.key)).mapM fun g => do
    return (g.environment, g.key, ← entriesBelow h book g)
  let named ← ((namedEntries sections).under (.field "by_environment")).toExcept (.invalid recordName)
  return named.map fun (name, key, entries) => ⟨name, key, entries⟩

/-! ## Views -/

def environmentView (s : Section) : EnvironmentSummary where
  groupKey := s.groupKey
  personas := .ofList (s.entries.map fun e => (e.persona.name, ⟨e.group.key, e.roles, e.projects⟩))

def personaView (resourceTypeRoles : NameMap (List String)) (entries : List Entry) (p : Persona) : PersonaSummary :=
  let own := entries.filter fun e => e.persona = p
  { groups := sortedBy id (own.map (·.group.key))
    environmentRoles := .ofList (own.map fun e => (e.environment, e.roles))
    resourceTypeRoles }

def privilegedView (entries : List Entry) : List PrivilegedGroup :=
  sortedBy PrivilegedGroup.key
    ((entries.filter fun e => e.group.isPrivileged).map fun e => ⟨e.group.key, e.environment, e.roles⟩)

/-- The three views of sections, with the roles of the personas by resource type. -/
def ofSections (typeRoles : List (Persona × NameMap (List String))) (sections : List Section) : PolicySummary :=
  let entries := sections.flatMap (·.entries)
  { byEnvironment := .ofList (sections.map fun s => (s.environment, environmentView s))
    byPersona := .ofList (typeRoles.map fun (p, roles) => (p.name, personaView roles entries p))
    privilegedGroups := privilegedView entries }

/-- The summary of a hierarchy. -/
def ofHierarchy (h : Hierarchy) (book : RoleBook ρ) : Except Failure PolicySummary := do
  let typeRoles ← Persona.all.mapM fun p => do return (p, ← resourceTypeRolesOf book p)
  return ofSections typeRoles (← sectionsOf h book)

theorem roleTexts_texts (roles : List String) : roleTexts roles = .ok roles :=
  readTexts_ofTexts roles

end PolicySummary

end AccessPlan
