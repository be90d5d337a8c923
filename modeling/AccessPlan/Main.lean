import AccessPlan.Calendar.Reading
import AccessPlan.Preview
import Std.Time.DateTime.Timestamp

/-!
# Command line

Resolves the policy file that the variable `POLICY_CONFIG_PATH` names and logs what would be applied, with the settings
of the environment.
-/

namespace AccessPlan.CommandLine

/-- What is said of a failure that no log record reports. -/
def failureLines : Failure → List String
  | .policy e => [e.report.message]
  | .invalid record faults => record :: faults.map fun f => f.location ++ ": " ++ f.cause.message
  | .outOfRange _ => ["date value out of range"]
  | .unknownPersona value => [value.shown ++ " is not a valid Persona"]
  | .noRoot => ["no group without a parent"]
  | .misfit _ => ["value of the wrong kind"]
  | .unencodable halves => [halves.message]
  | .unwritable halves => [halves.message]
  | .tooDeep => ["value with too many levels"]
  | .missing argument => ["no " ++ argument]

/-- What is said at the end of a preview, and its exit code. -/
def endingLines : Preview.Ending → List String × UInt32
  | .exit code => ([], UInt32.ofNat code)
  | .unreadable e source => ([e.message source], 1)
  | .noFile location => (["No such file: " ++ location], 1)
  | .directory location => (["Is a directory: " ++ location], 1)
  | .longLocation location => (["Name too long: " ++ location], 1)
  | .unfitLocation fault => ([fault.message], 1)
  | .failed f => (failureLines f, 1)

/-- The variables of the environment that are set. -/
def readVariables : IO (NameMap String) :=
  Environment.variableNames.foldlM (fun m name => do
    match ← IO.getEnv name with
    | some value => return m.insert name (Text.ofPlain value)
    | none => return m) NameMap.empty

/-- The reading of the clock. -/
def readClock : IO Calendar.Timestamp := do
  let now ← Std.Time.Timestamp.now
  let micros := now.toNanosecondsSinceUnixEpoch.val / 1000
  match Calendar.ofEpochMicros micros with
  | .ok t => return t
  | .error cause => throw (IO.userError cause.message)

/-- The file at a location, if it can be read. -/
def readFiles (location : String) : IO Preview.Files := do
  match Text.plain location with
  | .error _ => return []
  | .ok path =>
    try
      return [(location, Text.ofPlain (← IO.FS.readFile path))]
    catch _ =>
      return []

/-- Prints a text, its halves of surrogate pairs escaped. -/
def printLine (s : String) : IO Unit := IO.eprintln (String.ofList ((Text.signs s).flatMap Json.escapeHalf))

/-- Runs a preview in an environment and logs it. -/
def preview (e : Environment) : IO UInt32 := do
  let files ← match e.policyPath with
    | some path => readFiles (Preview.Location.normal path)
    | none => pure []
  let outcome := Preview.run (Settings.ofEnvironment e (← readClock)) files
  for r in outcome.log do
    printLine (r.severity.name ++ " " ++ r.message)
  let (lines, code) := endingLines outcome.ending
  lines.forM printLine
  return code

end AccessPlan.CommandLine

open AccessPlan in
/-- Previews the policy file of the environment. -/
def main : IO UInt32 := do
  let values ← CommandLine.readVariables
  match Environment.ofVariables values.get? with
  | .ok e => CommandLine.preview e
  | .error fault => do
    IO.eprintln fault.message
    return 1
