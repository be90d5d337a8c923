import AccessPlan.Hierarchy.Group

/-!
# Assignments

An assignment grants exactly one role to one principal on one scope.

* `Assignment.grant` makes one of parts that have their form, and `Assignment.ofValues` one of values that have not
  been checked. Both refuse a role that is a list, or a text with a comma in it.
* `Assignment.read_toJson`: a written assignment is read back if its role is a text of characters that is not empty;
  its path, which is written too, is not read.
-/

namespace AccessPlan

open Schema (Reader Checked Origin)

/-- Who a role is granted to. -/
inductive PrincipalKind where
  | group
  | servicePrincipal
  deriving DecidableEq, Repr

namespace PrincipalKind

def name : PrincipalKind → String
  | group => "group"
  | servicePrincipal => "service_principal"

def ofName? (s : String) : Option PrincipalKind := [group, servicePrincipal].find? fun k => k.name = s

/-- What is said of a value that is no kind of principal. -/
def fault : Schema.Cause := .notConstant ["group", "service_principal"]

def read : Reader PrincipalKind
  | .str s => Reader.chosen ofName? fault s
  | _ => .fault fault

@[simp] theorem read_name (k : PrincipalKind) : read (.str k.name) = .ok k := by cases k <;> rfl

end PrincipalKind

structure Assignment where
  key : String
  tier : Tier
  scope : Scope
  role : String
  principalKey : String
  principalKind : PrincipalKind
  deriving DecidableEq, Repr

namespace Assignment

def recordName : String := "Assignment"

def read (origin : Origin) : Reader Assignment :=
  .record origin recordName fun j =>
    Assignment.mk
      <$> Reader.required "key" .text j
      <*> Reader.required "tier" Tier.read j
      <*> Reader.required "scope" Scope.read j
      <*> Reader.required "role" (.textOf 1 none) j
      <*> Reader.required "principal_key" .text j
      <*> Reader.withDefault "principal_type" PrincipalKind.read .group j

def toJson (a : Assignment) : Json := .obj [
  ("key", .str a.key),
  ("tier", .str a.tier.name),
  ("scope", a.scope.toJson),
  ("role", .str a.role),
  ("principal_key", .str a.principalKey),
  ("principal_type", .str a.principalKind.name),
  ("scope_string", .str a.scope.path)]

/-- Whether a text names a single role. -/
def isSingleRole (role : String) : Bool := !role.toList.contains ','

/-- The assignment of parts. The role must be a single one, and a text of characters that is not empty. -/
def grant (key : String) (tier : Tier) (scope : Scope) (role principalKey : String) (kind : PrincipalKind) :
    Except Failure Assignment :=
  if !isSingleRole role then .error (.policy (.cardinality (.str key) (.str role)))
  else if !Text.isWhole role then .error (.invalid recordName [⟨[.field "role"], .unpairedHalf⟩])
  else if role = "" then .error (.invalid recordName [⟨[.field "role"], .tooShort 1⟩])
  else .ok ⟨key, tier, scope, role, principalKey, kind⟩

/-- The assignment of a role that may be any value; only a text is a role. -/
def grantValue (key : String) (tier : Tier) (scope : Scope) (role : Json) (principalKey : String)
    (kind : PrincipalKind) : Except Failure Assignment :=
  match role with
  | .str role => grant key tier scope role principalKey kind
  | role => .error (.policy (.cardinality (.str key) role))

/-- The assignment of a record whose fields have not been checked. The role is looked at first. -/
def ofValues (j : Json) : Except Failure Assignment :=
  let role := j.field "role"
  if (role.str?.map isSingleRole).getD false then (read .document j).toExcept (.invalid recordName)
  else .error (.policy (.cardinality (j.field "key") role))

theorem read_toJson (origin : Origin) {a : Assignment} (h : a.role ≠ "") (hw : Text.isWhole a.role = true) :
    read origin a.toJson = .ok a := by
  have hr : Reader.textOf 1 none (.str a.role) = .ok a.role := by
    have hl : ¬ Text.length a.role < 1 := by simpa [Nat.lt_one_iff, Text.length_eq_zero] using h
    simp only [Reader.textOf, Reader.text, Reader.wholeText, hw, Checked.andThen, if_true, if_neg hl]
  change Assignment.mk <$> Reader.required "key" .text a.toJson <*> _ <*> _ <*> _ <*> _ <*> _ = _
  rw [Reader.required_ok (a := a.key) rfl rfl, Reader.required_ok (a := a.tier) rfl (Tier.read_name _),
    Reader.required_ok (a := a.scope) rfl (Scope.read_toJson _), Reader.required_ok (a := a.role) rfl hr,
    Reader.required_ok (a := a.principalKey) rfl rfl,
    Reader.withDefault_ok (a := a.principalKind) rfl (PrincipalKind.read_name _)]
  rfl

theorem grant_eq_ok {key : String} {tier : Tier} {scope : Scope} {role principal : String} {kind : PrincipalKind}
    {a : Assignment} : grant key tier scope role principal kind = .ok a ↔
      isSingleRole role = true ∧ Text.isWhole role = true ∧ role ≠ "" ∧
        a = ⟨key, tier, scope, role, principal, kind⟩ := by
  unfold grant
  cases h : isSingleRole role <;> cases hw : Text.isWhole role <;> by_cases hr : role = "" <;> simp [hr, eq_comm]

end Assignment

end AccessPlan
