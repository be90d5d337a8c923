import AccessPlan.PolicyError

/-!
# Arguments

A command or a query is an object, and its fields are its arguments. An argument that is left out is missed only when it
is needed.
-/

namespace AccessPlan

/-- The value of an argument that is needed. -/
def Failure.require (name : String) (value : Option Json) : Except Failure Json :=
  match value with
  | some v => .ok v
  | none => .error (.missing name)

/-- The argument of a name. -/
def Json.argument (name : String) : Json → Except Failure Json
  | .obj fields => Failure.require name (lookup name fields)
  | j => .error (.misfit (.noArguments j))

end AccessPlan
