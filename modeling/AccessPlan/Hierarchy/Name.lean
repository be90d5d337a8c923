import AccessPlan.Collection.Sorted
import AccessPlan.PolicyError

/-!
# Names that keys are made of

The key of a group is made of the prefix of the organization and the names of an environment and a project. Both have
a grammar, which lets one line break stand at the very end.

* `isPrefixText` and `isName` are the grammars.
* `checkPrefix` and `checkNames` refuse everything else; names must also be different.
-/

namespace AccessPlan

/-- The characters without a line break at the very end. -/
def withoutFinalBreak (cs : List Char) : List Char :=
  if cs.getLast? = some '\n' then cs.dropLast else cs

def isLowerOrDigit (c : Char) : Bool := c.isLower || c.isDigit

/-- Lower-case letters, digits and hyphens. -/
def isNameChar (c : Char) : Bool := isLowerOrDigit c || c == '-'

/-- Letters, digits and hyphens. -/
def isPrefixChar (c : Char) : Bool := c.isAlphanum || c == '-'

/-- The greatest number of characters of a prefix. -/
def longestPrefix : Nat := 20

/-- Whether a text is a prefix: one to twenty letters, digits or hyphens. -/
def isPrefixText (s : String) : Bool :=
  let cs := withoutFinalBreak s.toList
  !cs.isEmpty && decide (cs.length ≤ longestPrefix) && cs.all isPrefixChar

/-- Whether a text is a name: lower-case letters, digits and hyphens, no hyphen in front. -/
def isName (s : String) : Bool :=
  match withoutFinalBreak s.toList with
  | [] => false
  | c :: cs => isLowerOrDigit c && cs.all isNameChar

/-- The prefix that a value is. -/
def checkPrefix : Json → Except ConfigCause String
  | .str s => if isPrefixText s then .ok s else .error (.badPrefix (.str s))
  | j => .error (.badPrefix j)

/-- The name that a value is. -/
def nameOf? : Json → Option String
  | .str s => if isName s then some s else none
  | _ => none

/-- The names that occur more than once, in ascending order. -/
def repeatedNames (names : List String) : List String :=
  sortedUnique (names.filter fun n => decide (1 < names.count n))

/-- The names of a field in ascending order. The first value that is no name is refused, then repetitions are. -/
def checkNames (field : FieldName) (values : List Json) : Except ConfigCause (List String) :=
  match values.find? fun v => (nameOf? v).isNone with
  | some bad => .error (.badName field bad)
  | none =>
    let names := values.filterMap nameOf?
    if repeatedNames names = [] then .ok (sortedBy id names)
    else .error (.duplicateNames field (repeatedNames names))

/-- Segments with a hyphen between each two. -/
def groupKey (segments : List String) : String := "-".intercalate segments

end AccessPlan
