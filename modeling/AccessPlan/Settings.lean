import AccessPlan.Calendar.Timestamp
import AccessPlan.Json.Display
import AccessPlan.Text.Blank
import AccessPlan.Text.Numeral
import AccessPlan.Text.SystemBytes
import AccessPlan.Text.UpperCase

/-!
# Settings

The settings of a run come from the variables of its environment, and every one of them has a default. What a run takes
from them is `Settings`: values that are checked only when they are used, together with the reading of the clock.
-/

namespace AccessPlan

/-- All that the variables of an environment set. -/
structure Environment where
  tenantId : Option String
  subscriptionId : Option String
  managementGroupId : Option String
  rotationDays : Int
  renewWithinDays : Int
  logLevel : String
  allowOrigin : Option String
  enableDocs : Bool
  resolveRateLimit : String
  policyPath : Option String

/-- Why the value of a variable is not taken. -/
inductive VariableFault where
  | noInteger (value : String)
  | tooManyDigits (count : Nat)
  | noText (value : Json)
  /-- A text that no variable can hold. -/
  | unfit (fault : Text.SystemFault)

/-- What is said of a value that is not taken. A value that is no integer is shown up to a greatest length. -/
def VariableFault.message : VariableFault → String
  | noInteger value =>
    "invalid literal for int() with base 10: " ++ String.ofList ((Text.quoted value).toList.take 200)
  | tooManyDigits count => Text.tooManyDigits count
  | noText value => "no text: " ++ value.shown
  | unfit fault => fault.message

namespace Environment

/-- The number of digits at the start of a numeral, behind its sign, if they are grouped well. -/
def leadingDigits? (cs : List Char) : Option Nat :=
  let run := (Text.signed cs).2.takeWhile fun c => c = '_' || (Text.digitValue? c).isSome
  (Text.digitGroups? Text.digitValue? false 0 run).map fun _ => run.countP (· ≠ '_')

/-- The integer that a variable holds: a sign and digits of any script, with white space around. Digits that are too
many are refused before anything behind them is looked at. -/
def readInteger (s : String) : Except VariableFault Int :=
  let cs := Text.trimmed s.toList
  let count := (leadingDigits? cs).getD 0
  if Text.mostDigits < count then .error (.tooManyDigits count)
  else match Text.integer? Text.digitValue? cs with
    | some n => .ok n
    | none => .error (.noInteger s)

/-- A variable that holds an integer, or the default if it is not set. -/
def integerVariable (value : Option String) (default : Int) : Except VariableFault Int :=
  match value with
  | none => .ok default
  | some s => readInteger s

/-- The settings of an environment. -/
def ofVariables (valueOf : String → Option String) : Except VariableFault Environment := do
  let rotationDays ← integerVariable (valueOf "CREDENTIAL_ROTATION_DAYS") 90
  let renewWithinDays ← integerVariable (valueOf "CREDENTIAL_RENEW_WITHIN_DAYS") 30
  return {
    tenantId := valueOf "AZURE_TENANT_ID"
    subscriptionId := valueOf "AZURE_SUBSCRIPTION_ID"
    managementGroupId := valueOf "MANAGEMENT_GROUP_ID"
    rotationDays
    renewWithinDays
    logLevel := Text.toUpperCase ((valueOf "LOG_LEVEL").getD "INFO")
    allowOrigin := valueOf "ALLOW_ORIGIN"
    enableDocs := valueOf "ENABLE_DOCS" = some "1"
    resolveRateLimit := (valueOf "RESOLVE_RATE_LIMIT").getD "60/minute"
    policyPath := valueOf "POLICY_CONFIG_PATH" }

/-- The names of the variables that are read. -/
def variableNames : List String := [
  "AZURE_TENANT_ID", "AZURE_SUBSCRIPTION_ID", "MANAGEMENT_GROUP_ID", "CREDENTIAL_ROTATION_DAYS",
  "CREDENTIAL_RENEW_WITHIN_DAYS", "LOG_LEVEL", "ALLOW_ORIGIN", "ENABLE_DOCS", "RESOLVE_RATE_LIMIT",
  "POLICY_CONFIG_PATH"]

/-- The text that a variable holds which is set to a value: the one that its bytes write. -/
def variableText : Json → Except VariableFault String
  | .str s => (Text.ofSystemBytes <$> Text.systemBytes s).mapError .unfit
  | j => .error (.noText j)

/-- The settings of an environment that sets variables to values that have not been checked. -/
def ofValues (values : List (String × Json)) : Except VariableFault Environment := do
  let texts ← (values.filter fun v => variableNames.contains v.1).mapM fun v => do return (v.1, ← variableText v.2)
  ofVariables fun name => texts.lookup name

/-- The settings by the names of their variables. -/
def toJson (e : Environment) : Json := .obj [
  ("AZURE_TENANT_ID", .ofOption e.tenantId),
  ("AZURE_SUBSCRIPTION_ID", .ofOption e.subscriptionId),
  ("MANAGEMENT_GROUP_ID", .ofOption e.managementGroupId),
  ("CREDENTIAL_ROTATION_DAYS", .int e.rotationDays),
  ("CREDENTIAL_RENEW_WITHIN_DAYS", .int e.renewWithinDays),
  ("LOG_LEVEL", .str e.logLevel),
  ("ALLOW_ORIGIN", .ofOption e.allowOrigin),
  ("ENABLE_DOCS", .bool e.enableDocs),
  ("RESOLVE_RATE_LIMIT", .str e.resolveRateLimit),
  ("POLICY_CONFIG_PATH", .ofOption e.policyPath)]

end Environment

/-- What a run takes from its settings, unchecked, and the reading of the clock. -/
structure Settings where
  tenantId : Json := .null
  subscriptionId : Json := .null
  managementGroupId : Json := .null
  rotationDays : Json := .int 90
  renewWithinDays : Json := .int 30
  /-- The location of the policy file of a preview. -/
  policyPath : Json := .null
  /-- Whether the service has pages of documentation. -/
  showsDocs : Bool := false
  clock : Calendar.Timestamp

namespace Settings

def ofEnvironment (e : Environment) (clock : Calendar.Timestamp) : Settings where
  tenantId := .ofOption e.tenantId
  subscriptionId := .ofOption e.subscriptionId
  managementGroupId := .ofOption e.managementGroupId
  rotationDays := .int e.rotationDays
  renewWithinDays := .int e.renewWithinDays
  policyPath := .ofOption e.policyPath
  showsDocs := e.enableDocs
  clock

end Settings

end AccessPlan
