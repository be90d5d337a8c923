import AccessPlan.Assignment.Scope
import AccessPlan.Calendar.Span
import AccessPlan.Json.Writer
import AccessPlan.Misfit
import AccessPlan.Persona

/-!
# Errors of a resolution

A configuration that cannot be resolved is refused with one of four kinds of errors: the configuration itself is
wrong, a role table is missing, something refers to what does not exist, or a grant has not exactly one role. Each
kind has its causes, and every cause has a message and details.

`Failure` adds what can go wrong outside of that: a record that does not have its required form, a date outside of the
calendar, a value that is no persona, groups without a root, values of the wrong kind where nothing has been checked,
and text that cannot be encoded.
-/

namespace AccessPlan

/-- The kinds of errors; `general` is the kind that the others are kinds of. -/
inductive ErrorKind where
  | general
  | config
  | roleLookup
  | reference
  | cardinality
  deriving DecidableEq, Repr

namespace ErrorKind

def name : ErrorKind → String
  | general => "PolicyError"
  | config => "ConfigValidationError"
  | roleLookup => "RoleLookupError"
  | reference => "ReferentialError"
  | cardinality => "CardinalityError"

def all : List ErrorKind := [general, config, roleLookup, reference, cardinality]

end ErrorKind

/-- An error as it is handed out. -/
structure ErrorReport where
  kind : ErrorKind
  message : String
  /-- An object in every report of the library. -/
  details : Json

namespace ErrorReport

/-- A report on a configuration: what is wrong with which field. -/
def ofFields (message : String) (problems : List (String × String)) : ErrorReport :=
  ⟨.config, message, .obj [("field_errors", .obj (problems.map fun p => (p.1, .str p.2)))]⟩

/-- A report that names one field. -/
def ofField (message field problem : String) : ErrorReport := ofFields message [(field, problem)]

/-- Details that have not been checked, with a list of wrong fields if there is one. -/
def uncheckedDetails (kind : ErrorKind) (details : Json) (fieldErrors : Option Json) : Except Misfit Json :=
  let details := if details.truthy then details else .obj []
  match kind, fieldErrors with
  | _, none => .ok details
  | .config, some errors => if errors.truthy then details.withField "field_errors" errors else .ok details
  | _, some _ => .error .noFieldErrors

/-- The report of values that have not been checked. Only an error of a configuration lists wrong fields, and the
message has to be a text. -/
def ofUnchecked (kind : ErrorKind) (message details : Json) (fieldErrors : Option Json) :
    Except Misfit ErrorReport := do
  let details ← uncheckedDetails kind details fieldErrors
  let .str message := message | throw (.noText message)
  return ⟨kind, message, details⟩

def toJson (r : ErrorReport) : Json :=
  .obj [("error", .str r.kind.name), ("message", .str r.message), ("details", r.details)]

end ErrorReport

/-- A field as errors name it: in running text, and in the list of wrong fields. -/
structure FieldName where
  shown : String
  listed : String
  deriving DecidableEq, Repr

namespace FieldName

/-- A text is named as it is. -/
def ofText (s : String) : FieldName := ⟨s, s⟩

instance : Coe String FieldName := ⟨ofText⟩

/-- The name of a field that may be any value. -/
def ofJson : Json → FieldName
  | .str s => ofText s
  | j => ⟨j.plain, j.text⟩

end FieldName

/-- What is wrong with a configuration. -/
inductive ConfigCause where
  | invalidFields (faults : List Schema.Fault)
  | badPrefix (value : Json)
  | badName (field : FieldName) (value : Json)
  | duplicateNames (field : FieldName) (names : List String)
  | noEnvironment
  | keyCollision (key : String)
  | rotationOutOfRange (field : FieldName) (value : Json)
  | windowOutOfRange (value : Json)
  | noOwners (principal : String)

/-- Which role table or entry is missing. What was looked up in the tables may be any value. -/
inductive LookupCause where
  | environmentTable (environment : Json) (known : List String)
  | personaEntry (environment : String) (persona : Persona)
  | resourceTypeTable (resourceType : Json) (known : List String)

/-- What refers to nothing, or stands for two things. -/
inductive ReferenceCause where
  | duplicateGroups
  | missingParent (key parent : String)
  | duplicateKey (kind key : String)
  | unknownEnvironment (resourceGroup environment : String)
  /-- A tier that is switched on without what its scope is made of. -/
  | tierUnready (tier : Tier)

/-- The errors that a resolution answers with. -/
inductive PolicyError where
  | config (cause : ConfigCause)
  | roleLookup (cause : LookupCause)
  | reference (cause : ReferenceCause)
  /-- The key of a grant and what it has in place of one role. -/
  | cardinality (key role : Json)

/-- What was refused, as messages about a field put it. -/
def invalidValue (value : Json) : String := s!"invalid value {value.shown}"

/-- The places of faults with their messages. A later fault at one place replaces an earlier one. -/
def fieldErrors (faults : List Schema.Fault) : List (String × String) :=
  faults.foldl (fun fields f => withEntry fields f.location f.cause.message) []

namespace ConfigCause

def prefixRule : String := "Organization prefix must be 1-20 characters of letters, digits or hyphens"

def report : ConfigCause → ErrorReport
  | invalidFields faults =>
    let fields := fieldErrors faults
    .ofFields s!"Invalid policy configuration ({fields.length} errors)" fields
  | badPrefix value => .ofField prefixRule "org_prefix" (invalidValue value)
  | badName field value =>
    .ofField s!"Invalid {field.shown} name {value.shown}: use lowercase letters, digits and hyphens" field.listed
      (invalidValue value)
  | duplicateNames field names =>
    .ofField (s!"Duplicate {field.shown} names: " ++ ", ".intercalate names) field.listed "duplicate values"
  | noEnvironment => .ofField "At least one environment is required" "environments" "must not be empty"
  | keyCollision key => ⟨.config, s!"Group key collision on '{key}'", .obj [("key", .str key)]⟩
  | rotationOutOfRange field value =>
    .ofField s!"{field.shown} must be between 1 and 730 days" field.listed (invalidValue value)
  | windowOutOfRange value =>
    .ofField "renew_within_days must be at least 0 and smaller than rotation_days" "renew_within_days"
      (invalidValue value)
  | noOwners principal =>
    .ofField s!"Service principal '{principal}' has no owners" s!"service_principals.{principal}.owners"
      "must not be empty"

end ConfigCause

namespace LookupCause

def report : LookupCause → ErrorReport
  | environmentTable environment known =>
    ⟨.roleLookup, s!"No role table for environment '{environment.plain}'",
      .obj [("environment", environment), ("known", .ofTexts known)]⟩
  | personaEntry environment persona =>
    ⟨.roleLookup, s!"Role table for environment '{environment}' has no entry for persona '{persona.name}'",
      .obj [("environment", .str environment), ("persona", .str persona.name)]⟩
  | resourceTypeTable resourceType known =>
    ⟨.roleLookup, s!"No role table for resource type '{resourceType.plain}'",
      .obj [("resource_type", resourceType), ("known", .ofTexts known)]⟩

end LookupCause

namespace ReferenceCause

/-- What a tier is called, and what its scope is made of. -/
def tierTexts : Tier → String × String
  | .managementGroup => ("Management group", "management group name")
  | .tenant => ("Tenant", "tenant id")
  | .subscription => ("Subscription", "subscription id")
  | .resourceGroup => ("Resource group", "resource group map")
  | .servicePrincipal => ("Service principal", "service principal")

def report : ReferenceCause → ErrorReport
  | duplicateGroups => ⟨.reference, "Duplicate group keys in resolved hierarchy", .obj []⟩
  | missingParent key parent =>
    ⟨.reference, s!"Group '{key}' references missing parent '{parent}'",
      .obj [("key", .str key), ("parent_key", .str parent)]⟩
  | duplicateKey kind key => ⟨.reference, s!"Duplicate {kind} key '{key}'", .obj [("key", .str key)]⟩
  | unknownEnvironment resourceGroup environment =>
    ⟨.reference, s!"Resource group '{resourceGroup}' references unknown environment '{environment}'",
      .obj [("resource_group", .str resourceGroup), ("environment", .str environment)]⟩
  | tierUnready tier =>
    let (title, part) := tierTexts tier
    ⟨.reference, s!"{title} assignments are enabled but no {part} is set", .obj [("tier", .str tier.name)]⟩

end ReferenceCause

/-- The error as it is handed out. -/
def PolicyError.report : PolicyError → ErrorReport
  | config cause => cause.report
  | roleLookup cause => cause.report
  | reference cause => cause.report
  | cardinality key role =>
    ⟨.cardinality, s!"Assignment '{key.plain}' must carry exactly one role, got {role.shown}", .obj [("key", key)]⟩

/-- Everything that can go wrong. -/
inductive Failure where
  | policy (error : PolicyError)
  /-- A record that does not have its required form: its name and its faults. -/
  | invalid (record : String) (faults : List Schema.Fault)
  | outOfRange (fault : Calendar.RangeFault)
  | unknownPersona (value : Json)
  | noRoot
  | misfit (cause : Misfit)
  /-- A text with half of a surrogate pair whose bytes are needed. -/
  | unencodable (halves : Text.LoneHalves)
  /-- A text with half of a surrogate pair in the answer to a request. -/
  | unwritable (halves : Text.LoneHalves)
  /-- A value with more levels than a document may show. -/
  | tooDeep
  /-- An argument that is needed and was left out, by its name. -/
  | missing (argument : String)

namespace Failure

def config (cause : ConfigCause) : Failure := policy (.config cause)

def roleLookup (cause : LookupCause) : Failure := policy (.roleLookup cause)

def reference (cause : ReferenceCause) : Failure := policy (.reference cause)

/-- The failure of faults. Their reasons are handed out as text, so none may hold half of a surrogate pair. -/
def ofFaults (refuse : List Schema.Fault → Failure) (faults : List Schema.Fault) : Failure :=
  match Schema.loneHalves? faults with
  | some halves => unencodable halves
  | none => refuse faults

/-- The failure of a cause that names a field. The field may be any value, but it has to be listed by its name. -/
def ofField (field : Json) (cause : ConfigCause) : Failure :=
  if field.isKey then config cause else misfit (.noKey field)

end Failure

end AccessPlan
