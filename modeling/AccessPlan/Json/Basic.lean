import AccessPlan.Collection.Keyed
import AccessPlan.Number.Binary64
import AccessPlan.Text.Sign

/-!
# JSON values

Whole numbers and numbers written with a fraction or an exponent are different values: `1` and `1.0` are told apart by
the checks of a configuration and are written back as they came.

* `Json.field?` looks up a field of an object.
* `Json.truthy` is the loose reading of a value as a switch.
-/

namespace AccessPlan

/-- A JSON value. The fields of an object are in the order in which they came. -/
inductive Json where
  | null
  | bool (b : Bool)
  | int (n : Int)
  | float (x : Binary64)
  | str (s : String)
  | arr (items : List Json)
  | obj (fields : List (String × Json))
  deriving Inhabited

namespace Json

/-- The value of a field in a list of fields. -/
def lookup (name : String) : List (String × Json) → Option Json
  | [] => none
  | f :: fs => if f.1 = name then some f.2 else lookup name fs

/-- The fields of an object; no other value has fields. -/
def fields : Json → List (String × Json)
  | obj fields => fields
  | _ => []

/-- A field of an object. -/
def field? (name : String) : Json → Option Json
  | obj fields => lookup name fields
  | _ => none

/-- A field, or `null` where there is none. -/
def field (name : String) (j : Json) : Json := (j.field? name).getD null

/-- Whether a value counts as switched on: everything but `null`, `false`, zero and what is empty. -/
def truthy : Json → Bool
  | null => false
  | bool b => b
  | int n => n != 0
  | float x => x.value? != some 0
  | str s => s != ""
  | arr items => !items.isEmpty
  | obj fields => !fields.isEmpty

/-- The texts, and only if every item is a text. -/
def texts? : List Json → Option (List String)
  | [] => some []
  | str s :: items => (texts? items).map (s :: ·)
  | _ :: _ => none

def str? : Json → Option String
  | str s => some s
  | _ => none

/-- A text, or `null` for none. -/
def ofOption : Option String → Json
  | none => null
  | some s => str s

mutual

/-- All texts of a value in the order in which they are written, the names of fields aside. -/
def allTexts : Json → List String
  | str s => [s]
  | arr items => textsOfItems items
  | obj fields => textsOfFields fields
  | _ => []

def textsOfItems : List Json → List String
  | [] => []
  | x :: xs => allTexts x ++ textsOfItems xs

def textsOfFields : List (String × Json) → List String
  | [] => []
  | (_, value) :: fs => allTexts value ++ textsOfFields fs

end

/-- The list of texts as a value. -/
def ofTexts (xs : List String) : Json := arr (xs.map str)

/-- What one meets in running through a value: the items of an array, the names of an object's fields, the signs of a
text. -/
def elements : Json → List Json
  | arr items => items
  | obj fields => fields.map fun f => str f.1
  | str s => (Text.signs s).map fun x => str (Text.ofSigns [x])
  | _ => []

/-- Whether a value is a number; `true` and `false` count as numbers. -/
def isNumber : Json → Bool
  | bool _ => true
  | int _ => true
  | float _ => true
  | _ => false

/-- The rational that a number is; `true` and `false` count as one and zero. -/
def number? : Json → Option Rat
  | bool b => some (if b then 1 else 0)
  | int n => some n
  | float x => x.value?
  | _ => none

mutual

/-- Whether two values are the same. Numbers are compared by their value, whatever way they are written; what is no
number at all is the same as itself. Objects are compared without regard to the order of their fields. -/
def same : Json → Json → Bool
  | null, null => true
  | str s, str t => s == t
  | arr xs, arr ys => sameItems xs ys
  | obj fs, obj gs => fs.length == gs.length && sameFields fs gs
  | float (.infinite a), float (.infinite b) => a == b
  | float .nan, float .nan => true
  | x, y =>
    match x.number?, y.number? with
    | some p, some q => p == q
    | _, _ => false

def sameItems : List Json → List Json → Bool
  | [], [] => true
  | x :: xs, y :: ys => same x y && sameItems xs ys
  | _, _ => false

def sameFields : List (String × Json) → List (String × Json) → Bool
  | [], _ => true
  | (name, value) :: fs, gs =>
    (match lookup name gs with
    | some other => same value other
    | none => false) && sameFields fs gs

end

/-- Values are equal when they are the same value. -/
instance : BEq Json := ⟨same⟩

end Json

end AccessPlan
