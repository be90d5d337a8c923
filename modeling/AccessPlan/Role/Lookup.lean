import AccessPlan.Role.Builtin

/-!
# Looking up roles

The roles of a persona are, in this order: the list that overrides exactly this name and persona, the supplied table
of the name, the built-in table of the name. A supplied table hides the built-in table of its name as a whole.

* `environmentRoles` needs an entry for the persona, `resourceTypeRoles` takes a missing one for no access.
* Roles that are listed twice count once, at their first place.
-/

namespace AccessPlan

/-- The effective role tables. -/
structure RoleBook (ρ : Type) where
  environments : RoleTable ρ
  resourceTypes : RoleTable ρ
  environmentOverrides : RoleTable ρ
  resourceTypeOverrides : RoleTable ρ

namespace RoleBook

variable {ρ : Type}

/-- The book of supplied tables over the built-in ones. -/
def ofTables [Role ρ] (environments resourceTypes environmentOverrides resourceTypeOverrides : RoleTable ρ) :
    RoleBook ρ where
  environments := RoleTable.builtinEnvironments.overlay environments
  resourceTypes := RoleTable.builtinResourceTypes.overlay resourceTypes
  environmentOverrides
  resourceTypeOverrides

/-- The book of the built-in tables. -/
def builtin : RoleBook String := ofTables .empty .empty .empty .empty

/-- The names of the tables that a book is made of. -/
def tableNames : List String :=
  ["environment_tables", "resource_type_tables", "environment_overrides", "resource_type_overrides"]

/-- Tables by their names: an object, or a value that does not count as switched on for no tables. -/
def checkTables (tables : Json) : Except Misfit Unit :=
  match tables with
  | .obj fields =>
    match fields.find? fun f => !tableNames.contains f.1 with
    | some f => .error (.unknownTable f.1)
    | none => .ok ()
  | j => if j.truthy then .error (.noTables j) else .ok ()

/-- The book of tables by their names, where no table has been checked. -/
def ofUnchecked (tables : Json) : Except Failure (RoleBook Json) := do
  (checkTables tables).mapError .misfit
  return ofTables (← RoleTable.ofUnchecked (tables.field "environment_tables"))
    (← RoleTable.ofUnchecked (tables.field "resource_type_tables"))
    (← RoleTable.ofUnchecked (tables.field "environment_overrides"))
    (← RoleTable.ofUnchecked (tables.field "resource_type_overrides"))

/-- The list that overrides a name and a persona. -/
def override? (t : RoleTable ρ) (name : String) (p : Persona) : Option (List ρ) :=
  (t.get? name).bind fun r => r.get? p

/-- What is listed for a persona in an environment. -/
def environmentList (b : RoleBook ρ) (environment : Option String) (p : Persona) : Except LookupCause (List ρ) :=
  match environment with
  | none => .error (.environmentTable .null b.environments.names)
  | some name =>
    match override? b.environmentOverrides name p with
    | some roles => .ok roles
    | none =>
      match b.environments.get? name with
      | none => .error (.environmentTable (.str name) b.environments.names)
      | some row =>
        match row.get? p with
        | none => .error (.personaEntry name p)
        | some roles => .ok roles

/-- What is listed for a persona and a resource type. -/
def resourceTypeList (b : RoleBook ρ) (resourceType : String) (p : Persona) : Except LookupCause (List ρ) :=
  match override? b.resourceTypeOverrides resourceType p with
  | some roles => .ok roles
  | none =>
    match b.resourceTypes.get? resourceType with
    | none => .error (.resourceTypeTable (.str resourceType) b.resourceTypes.names)
    | some row => .ok ((row.get? p).getD [])

/-- The roles of a list that was looked up, each once. -/
def rolesOf [Role ρ] (listed : Except LookupCause (List ρ)) : Except Failure (List ρ) := do
  (Role.distinct (← listed.mapError .roleLookup)).mapError .misfit

/-- The roles of a persona in an environment. -/
def environmentRoles [Role ρ] (b : RoleBook ρ) (environment : Option String) (p : Persona) :
    Except Failure (List ρ) := rolesOf (b.environmentList environment p)

/-- The roles of a persona for a resource type. -/
def resourceTypeRoles [Role ρ] (b : RoleBook ρ) (resourceType : String) (p : Persona) : Except Failure (List ρ) :=
  rolesOf (b.resourceTypeList resourceType p)

/-! ## Looking up any value

Lists and objects cannot be looked up; any other value that is no text is the name of nothing. -/

/-- What a look-up gives for a value. -/
def lookUp {α : Type} (found : String → Except Failure α) (otherwise : Json → Except Failure α) :
    Json → Except Failure α
  | .str name => found name
  | j => if j.isKey then otherwise j else .error (.misfit (.noKey j))

def environmentRolesOf [Role ρ] (b : RoleBook ρ) (environment : Json) (p : Persona) : Except Failure (List ρ) :=
  lookUp (fun name => b.environmentRoles (some name) p)
    (fun j => .error (.roleLookup (.environmentTable j b.environments.names))) environment

def resourceTypeRolesOf [Role ρ] (b : RoleBook ρ) (resourceType : Json) (p : Persona) : Except Failure (List ρ) :=
  lookUp (fun name => b.resourceTypeRoles name p)
    (fun j => .error (.roleLookup (.resourceTypeTable j b.resourceTypes.names))) resourceType

/-- Whether there is a table for an environment. -/
def coversEnvironment (b : RoleBook ρ) : Json → Except Failure Bool :=
  lookUp (fun name => .ok (b.environments.contains name)) (fun _ => .ok false)

end RoleBook

end AccessPlan
