import AccessPlan.Hierarchy.Group

/-!
# Role tables

A role table says for each of its names, environments or resource types, which roles the personas have. A name may
leave out personas: having no roles and having no entry are different.

The roles of a checked table are texts. A table that has not been checked may list any values, so the tables have the
kind of their roles as a parameter; `Role` says what is done with either kind.
-/

namespace AccessPlan

open Schema (Reader)

/-- What may be listed as a role. -/
class Role (ρ : Type) where
  ofText : String → ρ
  toJson : ρ → Json
  /-- The roles, each once at its first place. -/
  distinct : List ρ → Except Misfit (List ρ)

instance : Role String := ⟨id, .str, fun roles => .ok roles.eraseDups⟩

instance : Role Json := ⟨.str, id, Json.distinct⟩

/-- The roles of the personas under one name. -/
structure RoleRow (ρ : Type) where
  nonTechnical : Option (List ρ) := none
  technical : Option (List ρ) := none
  soloProject : Option (List ρ) := none
  admin : Option (List ρ) := none
  deriving DecidableEq

namespace RoleRow

variable {ρ : Type}

def get? (r : RoleRow ρ) : Persona → Option (List ρ)
  | .nonTechnical => r.nonTechnical
  | .technical => r.technical
  | .soloProject => r.soloProject
  | .admin => r.admin

def set (r : RoleRow ρ) (p : Persona) (roles : List ρ) : RoleRow ρ :=
  match p with
  | .nonTechnical => { r with nonTechnical := some roles }
  | .technical => { r with technical := some roles }
  | .soloProject => { r with soloProject := some roles }
  | .admin => { r with admin := some roles }

def ofList (entries : List (Persona × List ρ)) : RoleRow ρ :=
  entries.foldl (fun r e => r.set e.1 e.2) {}

/-- A row of texts that has an entry for every persona. -/
def full [Role ρ] (nonTechnical technical soloProject admin : List String) : RoleRow ρ :=
  ⟨some (nonTechnical.map Role.ofText), some (technical.map Role.ofText), some (soloProject.map Role.ofText),
    some (admin.map Role.ofText)⟩

/-- The entries, in the order of the personas. -/
def entries (r : RoleRow ρ) : List (Persona × List ρ) :=
  Persona.all.filterMap fun p => (r.get? p).map fun roles => (p, roles)

def toJson (r : RoleRow String) : Json := .obj (r.entries.map fun e => (e.1.name, .ofTexts e.2))

def read : Reader (RoleRow String) := fun j => ofList <$> Reader.entries Persona.read .texts j

/-- The entries of a row that has not been checked; the first name that is no persona is refused, and so are roles that
are no collection. -/
def ofUnchecked (j : Json) : Except Failure (RoleRow Json) := do
  let entries ← (← j.entriesOf.mapError .misfit).mapM fun (name, roles) => do
    let some p := Persona.ofName? name | throw (Failure.unknownPersona (.str name))
    return (p, ← roles.itemsOf.mapError .misfit)
  return .ofList entries

end RoleRow

/-- Rows by the name of an environment or of a resource type. -/
abbrev RoleTable (ρ : Type) := NameMap (RoleRow ρ)

namespace RoleTable

def toJson (t : RoleTable String) : Json := .ofMap RoleRow.toJson t

def read : Reader (RoleTable String) := .mapOf RoleRow.read

/-- The table of a value that has not been checked. -/
def ofUnchecked (j : Json) : Except Failure (RoleTable Json) := do
  let rows ← (← j.entriesOrNone.mapError Failure.misfit).mapM fun (name, row) => do
    return (name, ← RoleRow.ofUnchecked row)
  return .ofList rows

end RoleTable

end AccessPlan
