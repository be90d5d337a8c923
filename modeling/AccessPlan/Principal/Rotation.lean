import AccessPlan.Principal.Expansion

/-!
# Rotation of credentials

A rotation renews the credentials that end inside a window of days from the time of the context; all others are kept.
Secrets do not pass through: a kept secret is masked and a renewed credential has none.

* `rotate` checks the period and the window first; the window has to be shorter than the period.
* `rotateInTurn` applies rotations one after another, each to the result of the last one that succeeded.
-/

namespace AccessPlan

open Calendar (Timestamp Amount)

/-- The credentials after a rotation, and the keys of those that were renewed. -/
structure Rotation where
  credentials : List Credential
  rotated : List String

namespace Rotation

/-- A window of days from zero up to, but not including, the period. -/
def checkWindow (period : Int) (value : Json) : Except Failure Amount :=
  match Amount.ofJson? value with
  | none => .error (.misfit (.incomparable (.int 0) value true))
  | some a =>
    match a.value? with
    | none => .error (.config (.windowOutOfRange value))
    | some q => if 0 ≤ q ∧ q < period then .ok a else .error (.config (.windowOutOfRange value))

/-- A credential that was renewed to a new end date. -/
def renew (now : Timestamp) (period : Int) (c : Credential) : Except Failure Credential := do
  let endDate ← (Credential.endAfter now (.whole period)).mapError .outOfRange
  let keyId ← Credential.idOf c.applicationId endDate
  return { c with endDate, keyId, secret := none }

/-- One credential after the rotation, and whether it was renewed. -/
def step (now windowEnd : Timestamp) (period : Int) (c : Credential) : Except Failure (Credential × Bool) := do
  if windowEnd.instant < c.endDate.instant then return (c.masked, false)
  return (← renew now period c, true)

def ofSteps (steps : List (Credential × Bool)) : Rotation where
  credentials := steps.map (·.1)
  rotated := (steps.filter (·.2)).map (·.1.key)

def toJson (r : Rotation) : Json :=
  .obj [("credentials", .arr (r.credentials.map Credential.toJson)), ("rotated", .ofTexts r.rotated)]

end Rotation

open Rotation in
/-- The rotation of credentials. The context stands in for a period or a window that is not given. -/
def rotate (credentials : List Credential) (c : Context) (rotationDays renewWithinDays : Option Json) :
    Except Failure Rotation := do
  let period ← (checkRotationDays "rotation_days" (rotationDays.getD (.int c.rotationDays))).mapError .config
  let window ← checkWindow period (renewWithinDays.getD (.int c.renewWithinDays))
  let span ← (window.micros Calendar.dayLength).mapError .outOfRange
  let windowEnd ← (c.now.later span).mapError .outOfRange
  return ofSteps (← credentials.mapM (step c.now windowEnd period))

/-- A rotation as it is asked for: a context that has not been checked, a period and a window. -/
structure RotationRequest where
  context : Json
  rotationDays : Option Json
  renewWithinDays : Option Json

/-- The rotation that a request asks for. The clock is the time of a context that states none. -/
def RotationRequest.answer (clock : Timestamp) (credentials : List Credential) (r : RotationRequest) :
    Except Failure Rotation := do
  rotate credentials (← Context.ofJson clock r.context) r.rotationDays r.renewWithinDays

/-- The rotations of requests in turn. One that fails leaves the credentials as they are. -/
def rotateInTurn (clock : Timestamp) : List Credential → List RotationRequest → List (Except Failure Rotation)
  | _, [] => []
  | credentials, r :: rs =>
    match r.answer clock credentials with
    | .ok rotation => .ok rotation :: rotateInTurn clock rotation.credentials rs
    | .error f => .error f :: rotateInTurn clock credentials rs

end AccessPlan
