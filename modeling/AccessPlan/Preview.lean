import AccessPlan.Json.Reader
import AccessPlan.Policy.Resolution
import AccessPlan.Preview.Location

/-!
# Preview of a policy file

A preview resolves the configuration in a file and logs what would be applied: the number of keys of every stage, the
roles of every persona group, and the privileged groups. Nothing is created.
-/

namespace AccessPlan.Preview

/-- How serious a record of the log is. -/
inductive Severity where
  | info
  | error
  deriving DecidableEq, Repr

def Severity.name : Severity → String
  | info => "INFO"
  | error => "ERROR"

structure LogRecord where
  severity : Severity
  message : String
  deriving DecidableEq, Repr

/-- The texts of files by the normal forms of their locations. -/
abbrev Files := List (String × String)

/-- How a preview ends. -/
inductive Ending where
  /-- The exit code. -/
  | exit (code : Nat)
  /-- The file has no JSON value. -/
  | unreadable (error : Json.ReadError) (source : String)
  /-- There is no file at the location. -/
  | noFile (location : String)
  /-- There is a directory at the location. -/
  | directory (location : String)
  /-- The location, or a name in it, has too many bytes. -/
  | longLocation (location : String)
  /-- No file can have the location. -/
  | unfitLocation (fault : Text.SystemFault)
  | failed (failure : Failure)

structure Outcome where
  log : List LogRecord
  ending : Ending

def info (message : String) : LogRecord := ⟨.info, message⟩

/-- The lines of a file end with a line feed, whatever they end with in the file. -/
def unifiedLines : List Char → List Char
  | '\r' :: '\n' :: cs => '\n' :: unifiedLines cs
  | '\r' :: cs => '\n' :: unifiedLines cs
  | c :: cs => c :: unifiedLines cs
  | [] => []

/-- Roles on one line, or a dash for none. -/
def roleLine (roles : List String) : String :=
  let line := ", ".intercalate roles
  if line = "" then "-" else line

def stageLines (p : ResolvedPolicy) : List LogRecord :=
  p.stages.map fun s => info ("  - " ++ s.name ++ ": " ++ toString s.keys.length)

/-- The lines of an environment, its personas in their order. -/
def environmentLines (environment : String) (s : EnvironmentSummary) : List LogRecord :=
  info ("  - " ++ environment ++ " (" ++ s.groupKey ++ ")") ::
    Persona.all.filterMap fun p => (s.personas.get? p.name).map fun g =>
      info ("      " ++ p.name ++ ": " ++ roleLine g.roles)

def privilegedLine (g : PrivilegedGroup) : LogRecord :=
  info ("  - " ++ g.key ++ ": " ++ ", ".intercalate g.roles)

/-- What is logged of a policy. -/
def policyLines (p : ResolvedPolicy) : List LogRecord :=
  [info "", info "Apply stages:"] ++ stageLines p ++
    [info "", info "Environments:"] ++ p.summary.byEnvironment.entries.flatMap (fun e => environmentLines e.1 e.2) ++
    [info "", info "Privileged groups:"] ++ p.summary.privilegedGroups.map privilegedLine

/-- What is logged of an error. -/
def errorLine (e : PolicyError) : LogRecord :=
  ⟨.error, "Policy resolution failed: " ++ e.report.message ++ " " ++ e.report.details.shown⟩

/-- The preview of the configuration that a text holds. -/
def ofText (settings : Settings) (text : String) : Outcome :=
  let source := String.ofList (unifiedLines text.toList)
  match Json.read source with
  | .error e => ⟨[], .unreadable e source⟩
  | .ok j =>
    match resolveJson j none settings with
    | .ok p => ⟨policyLines p, .exit 0⟩
    | .error (.policy e) => ⟨[errorLine e], .exit 1⟩
    | .error f => ⟨[], .failed f⟩

/-- What is logged if the settings name no file. -/
def noPath : LogRecord := ⟨.error, "POLICY_CONFIG_PATH is not set"⟩

/-- The preview of the file at a location in normal form. -/
def ofFile (settings : Settings) (files : Files) (location : String) : Outcome :=
  match Text.systemBytes location with
  | .error fault => ⟨[], .unfitLocation fault⟩
  | .ok _ =>
    match files.lookup location with
    | some text => ofText settings text
    | none =>
      if Location.isTooLong location then ⟨[], .longLocation location⟩
      else if Location.climbs location then ⟨[], .directory location⟩
      else ⟨[], .noFile location⟩

/-- The preview of the file that the settings name, if they name one. -/
def run (settings : Settings) (files : Files) : Outcome :=
  match settings.policyPath with
  | .str path =>
    if path = "" then ⟨[noPath], .exit 2⟩
    else
      let location := Location.normal path
      let outcome := ofFile settings files location
      { outcome with log := info ("Loading policy configuration from " ++ location) :: outcome.log }
  | j => if j.truthy then ⟨[], .failed (.misfit (.noPath j))⟩ else ⟨[noPath], .exit 2⟩

end AccessPlan.Preview
