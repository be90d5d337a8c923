import AccessPlan.Text.SystemBytes

/-!
# Locations of files

A location is a text of names between slashes. Its normal form has no empty names, no names of a single dot and no slash
at its end; two slashes in front are kept apart from one, and any other number of them counts as one.

* `normal` is the normal form, `climbs` tells the locations that are directories whatever files there are, and
  `isTooLong` those that are refused before it is known that nothing is there.
-/

namespace AccessPlan.Preview.Location

/-- The names between the slashes, with empty names where slashes meet. -/
def names : List Char → List (List Char)
  | [] => [[]]
  | c :: cs =>
    match c, names cs with
    | '/', ns => [] :: ns
    | c, n :: ns => (c :: n) :: ns
    | c, [] => [[c]]

/-- The names that lead somewhere: neither empty nor a single dot. -/
def steps (cs : List Char) : List (List Char) := (names cs).filter fun n => n ≠ [] ∧ n ≠ ['.']

/-- The slashes in front of a normal form. -/
def root (cs : List Char) : List Char :=
  match (cs.takeWhile (· = '/')).length with
  | 0 => []
  | 2 => ['/', '/']
  | _ => ['/']

/-- The normal form. A location that leads nowhere is a single dot. -/
def normal (location : String) : String :=
  let cs := location.toList
  let normal := root cs ++ ['/'].intercalate (steps cs)
  if normal = [] then "." else String.ofList normal

/-- The steps after those that only climb up. -/
def descent (location : String) : List (List Char) := (steps location.toList).dropWhile (· = ['.', '.'])

/-- Whether a location only climbs up, so that a directory is there in any case. -/
def climbs (location : String) : Bool := (descent location).isEmpty

/-- The greatest number of bytes of a location. -/
def mostBytes : Nat := 4095

/-- The greatest number of bytes of a name. -/
def mostNameBytes : Nat := 255

/-- The number of bytes of characters. -/
def byteCount (cs : List Char) : Nat := ((Text.signsOf cs).flatMap Text.Sign.bytes).length

/-- Whether a location has too many bytes, or its first name that is not there in any case has. -/
def isTooLong (location : String) : Bool :=
  mostBytes < byteCount location.toList || (descent location).head?.any (mostNameBytes < byteCount ·)

end AccessPlan.Preview.Location
