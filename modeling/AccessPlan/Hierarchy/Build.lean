import AccessPlan.Collection.Repeated
import AccessPlan.Hierarchy.Group
import AccessPlan.Hierarchy.Name
import AccessPlan.Owners

/-!
# Building the hierarchy of an organization

The groups are derived from names alone: one root, an environment group for every environment, a group for every
persona of an environment, and, if wanted, a group for every project of a persona that has projects. Names are put in
ascending order first, so the order in which they are given does not matter.

The pure construction is `Blueprint.groups`; `Hierarchy.build` checks the names before it and the keys after it.
-/

namespace AccessPlan

/-- What a hierarchy is derived from, its names in ascending order. -/
structure Blueprint where
  org : String
  environments : List String
  projects : List String
  projectGroups : Bool
  owners : List String

namespace Blueprint

variable (b : Blueprint)

def rootKey : String := groupKey [b.org, "org"]

def environmentKey (environment : String) : String := groupKey [b.org, environment]

def personaKey (environment : String) (persona : Persona) : String :=
  groupKey [b.environmentKey environment, persona.label]

def projectKey (environment : String) (persona : Persona) (project : String) : String :=
  groupKey [b.personaKey environment persona, project]

def rootGroup : Group where
  key := b.rootKey
  displayName := b.rootKey
  description := Text.toTitleCase b.org ++ " organization"
  parentKey := none
  level := .root
  environment := none
  persona := none
  project := none
  owners := b.owners

def environmentGroup (environment : String) : Group where
  key := b.environmentKey environment
  displayName := b.environmentKey environment
  description := Text.toTitleCase environment ++ " environment"
  parentKey := some b.rootKey
  level := .environment
  environment := some environment
  persona := none
  project := none
  owners := b.owners

def personaGroup (environment : String) (persona : Persona) : Group where
  key := b.personaKey environment persona
  displayName := b.personaKey environment persona
  description := persona.displayLabel
  parentKey := some (b.environmentKey environment)
  level := .persona
  environment := some environment
  persona := some persona
  project := none
  owners := b.owners

def projectGroup (environment : String) (persona : Persona) (project : String) : Group where
  key := b.projectKey environment persona project
  displayName := b.projectKey environment persona project
  description := persona.displayLabel ++ " (" ++ project ++ ")"
  parentKey := some (b.personaKey environment persona)
  level := .project
  environment := some environment
  persona := some persona
  project := some project
  owners := b.owners

/-- The projects that a persona has groups for. -/
def projectsOf (persona : Persona) : List String :=
  if b.projectGroups ∧ persona.hasProjects then b.projects else []

/-- The group of a persona and those of its projects. -/
def personaGroups (environment : String) (persona : Persona) : List Group :=
  b.personaGroup environment persona :: (b.projectsOf persona).map (b.projectGroup environment persona)

/-- The group of an environment and all groups below it. -/
def environmentGroups (environment : String) : List Group :=
  b.environmentGroup environment :: Persona.all.flatMap (b.personaGroups environment)

/-- All groups, every group after its parent. -/
def groups : List Group := b.rootGroup :: b.environments.flatMap b.environmentGroups

end Blueprint

namespace Hierarchy

/-- The memberships of groups in their parents. -/
def membershipsOf (groups : List Group) : List Membership :=
  groups.filterMap fun g => g.parentKey.map fun parent => ⟨parent, g.key⟩

/-- The hierarchy of groups whose keys are different. -/
def ofGroups (groups : List Group) : Except ConfigCause Hierarchy :=
  match firstRepeated (groups.map Group.key) with
  | some key => .error (.keyCollision key)
  | none => .ok ⟨groups, membershipsOf groups⟩

/-- The hierarchy of an organization from values that have not been checked. -/
def build (org environments projects : Json) (projectGroups : Bool) (owners : Json) : Except Failure Hierarchy := do
  let org ← (checkPrefix org).mapError .config
  if !environments.truthy then throw (.config .noEnvironment)
  let environments ← (checkNames "environments" (← environments.itemsOf.mapError .misfit)).mapError .config
  let projects ← (checkNames "projects" (← projects.itemsOrNone.mapError .misfit)).mapError .config
  let owners ← ownersOf "Group" (← owners.itemsOrNone.mapError .misfit)
  (ofGroups (Blueprint.groups ⟨org, environments, projects, projectGroups, owners⟩)).mapError .config

end Hierarchy

end AccessPlan
