import AccessPlan.Json.Basic
import AccessPlan.Text.Utf8

/-!
# Values of any kind in documents

A field that holds a value of any kind is shown in a document down to a greatest level. The value itself is the first
level, and what stands in a list or an object is one level below it. The names of fields are encoded on the way, and a
number that is not finite is shown as `null`.

* `within` shows a value of so many levels at most, `documented` one as a document has it.
-/

namespace AccessPlan.Json

/-- The greatest number of levels of a value in a document. -/
def mostLevels : Nat := 255

/-- Why a value is not shown in a document. -/
inductive RawFault where
  | tooDeep
  /-- A name of a field that has no bytes. -/
  | brokenName (halves : Text.LoneHalves)

/-- The name of a field that is encoded. -/
def wholeName (name : String) : Except RawFault String :=
  match Text.loneHalves? name with
  | some halves => .error (.brokenName halves)
  | none => .ok name

/-- A value as it is shown if at most `n` levels may be. -/
def within : (n : Nat) → Json → Except RawFault Json
  | 0, _ => .error .tooDeep
  | n + 1, arr items => arr <$> items.mapM (within n)
  | n + 1, obj fields => obj <$> fields.mapM fun f => do return (← wholeName f.1, ← within n f.2)
  | _ + 1, float x => .ok (if x.value?.isSome then float x else null)
  | _ + 1, j => .ok j

/-- A value as a document shows it. -/
def documented (j : Json) : Except RawFault Json := within mostLevels j

end AccessPlan.Json
