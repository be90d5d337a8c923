import AccessPlan.Digest.Identifier
import AccessPlan.Hierarchy.Group
import AccessPlan.Json.Raw

/-!
# Credentials

A credential lets an application in until its end date. Its secret is set elsewhere and never shown; its id is derived
from the application and the end date, so that a renewed credential has another id.

* `Credential.issue` makes a credential that ends a number of days after a time.
* `Credential.same` compares credentials, their end dates by the instant.
-/

namespace AccessPlan

open Schema (Reader Origin)
open Calendar (Timestamp Amount RangeFault)

structure Credential where
  key : String
  applicationId : String
  keyId : String
  endDate : Timestamp
  /-- A text in every record that was read; one that is set later may be any value. -/
  secret : Option Json
  sensitive : Bool

namespace Credential

def recordName : String := "CredentialRecord"

/-- What is shown in place of a secret. -/
def secretMask : String := "<sensitive>"

def read (origin : Origin) : Reader Credential :=
  .record origin recordName fun j =>
    Credential.mk
      <$> Reader.required "key" .text j
      <*> Reader.required "application_id" .text j
      <*> Reader.required "key_id" .text j
      <*> Reader.required "end_date" .timestampUtc j
      <*> (Option.map Json.str <$> Reader.optional "secret_value" .text j)
      <*> Reader.withDefault "sensitive" .switch true j

def toJson (c : Credential) : Json := .obj [
  ("key", .str c.key),
  ("application_id", .str c.applicationId),
  ("key_id", .str c.keyId),
  ("end_date", .str c.endDate.text),
  ("secret_value", c.secret.getD .null),
  ("sensitive", .bool c.sensitive)]

/-- Whether two credentials are the same. -/
def same (c d : Credential) : Bool :=
  c.key == d.key && c.applicationId == d.applicationId && c.keyId == d.keyId && c.endDate.sameInstant d.endDate &&
    c.secret == d.secret && c.sensitive == d.sensitive

/-- The credential with its secret as a document shows it. A text is shown as it is. -/
def documented (c : Credential) : Except Failure Credential :=
  match c.secret with
  | none | some (.str _) => .ok c
  | some secret =>
    match secret.documented with
    | .ok .null => .ok { c with secret := none }
    | .ok shown => .ok { c with secret := some shown }
    | .error .tooDeep => .error .tooDeep
    | .error (.brokenName halves) => .error (.unencodable halves)

/-- The credential with its secret, if it has one, masked. -/
def masked (c : Credential) : Credential := { c with secret := c.secret.map fun _ => .str secretMask }

/-- The namespace of the ids of credentials. -/
def idNamespace : List UInt8 :=
  [0x0b, 0x8f, 0x4c, 0x1e, 0x5d, 0x0a, 0x5b, 0x55, 0x9a, 0x57, 0x3f, 0x7f, 0x1c, 0x3e, 0x2a, 0x10]

/-- The text that the id of a credential is derived from. -/
def idSource (applicationKey : String) (endDate : Timestamp) : String := applicationKey ++ ":" ++ endDate.isoText

/-- The id of a credential of an application that ends at a date. It is derived from bytes. -/
def idOf (applicationKey : String) (endDate : Timestamp) : Except Failure String :=
  match Text.encodeUtf8 (idSource applicationKey endDate) with
  | .ok bytes => .ok (Digest.nameIdentifier idNamespace bytes)
  | .error halves => .error (.unencodable halves)

/-- The end of a validity of so many days from a time on. The days are counted in hours. -/
def endAfter (now : Timestamp) (days : Amount) : Except RangeFault Timestamp := do
  now.later (← (days.inUnits 24).micros Calendar.hourLength)

/-- A credential that ends so many days after a time. -/
def issue (applicationKey name : String) (now : Timestamp) (days : Amount) : Except Failure Credential := do
  let endDate ← (endAfter now days).mapError .outOfRange
  let keyId ← idOf applicationKey endDate
  return {
    key := "credential-" ++ name
    applicationId := applicationKey
    keyId
    endDate := endDate.asUtc
    secret := none
    sensitive := true }

/-- A credential of values that have not been checked. The application is looked at last. -/
def issueUnchecked (applicationKey name : Json) (now : Timestamp) (days : Json) : Except Failure Credential := do
  let some amount := Amount.ofJson? days | throw (.misfit (.noAmount days))
  let c ← issue applicationKey.plain name.plain now amount
  match applicationKey with
  | .str _ => return c
  | _ => throw (.invalid recordName [⟨[.field "application_id"], .notText⟩])

@[simp] theorem masked_masked (c : Credential) : c.masked.masked = c.masked := by
  simp [masked, Function.comp_def]

end Credential

end AccessPlan
