import AccessPlan.Json.Basic

/-!
# Values of the wrong kind

Some operations take values that have not been checked before. A value of a kind that an operation has no meaning for
is a misfit; what it was wanted for is kept with it.

* `Json.distinct` needs values that can be told apart, `Json.itemsOf` one with items, `Json.entriesOf` an object.
* `itemsOf_ofTexts`: a list of texts is no misfit.
-/

namespace AccessPlan

/-- A value of a kind that an operation has no meaning for. -/
inductive Misfit where
  /-- A value that has no items. -/
  | noItems (value : Json)
  /-- A value that has no entries. -/
  | noEntries (value : Json)
  /-- A list or an object where values are looked up or told apart. -/
  | noKey (value : Json)
  /-- Two values that are compared, and whether equal ones would be in order. -/
  | incomparable (left right : Json) (allowsEqual : Bool)
  /-- A part of a joined text that is no text, and its index. -/
  | noSegment (index : Nat) (value : Json)
  /-- A value in place of a number of days. -/
  | noAmount (value : Json)
  /-- A value in place of a text. -/
  | noText (value : Json)
  /-- A value in which no part can be set by its name. -/
  | noNamedParts (value : Json)
  /-- A list of wrong fields for a kind of error that has none. -/
  | noFieldErrors
  /-- A value in place of the path of a file. -/
  | noPath (value : Json)
  /-- A value in place of an object of arguments. -/
  | noArguments (value : Json)
  /-- A value in place of tables by their names. -/
  | noTables (value : Json)
  /-- A name that no table has. -/
  | unknownTable (name : String)

namespace Json

/-- The items of a list, the names of an object's fields, or the signs of a text. -/
def itemsOf : Json → Except Misfit (List Json)
  | arr items => .ok items
  | obj fields => .ok (elements (obj fields))
  | str s => .ok (elements (str s))
  | j => .error (.noItems j)

/-- The items of a value, where one that does not count as switched on stands for no items. -/
def itemsOrNone (j : Json) : Except Misfit (List Json) := if j.truthy then j.itemsOf else .ok []

/-- The fields of an object. -/
def entriesOf : Json → Except Misfit (List (String × Json))
  | obj fields => .ok fields
  | j => .error (.noEntries j)

/-- The fields of an object, where a value that does not count as switched on stands for no fields. -/
def entriesOrNone (j : Json) : Except Misfit (List (String × Json)) := if j.truthy then j.entriesOf else .ok []

/-- An object with one more field. -/
def withField (j : Json) (name : String) (value : Json) : Except Misfit Json :=
  match j with
  | obj fields => .ok (obj (withEntry fields name value))
  | j => .error (.noNamedParts j)

/-- Whether a value can be looked up: lists and objects cannot. -/
def isKey : Json → Bool
  | arr _ => false
  | obj _ => false
  | _ => true

/-- Values, each once at its first place. The first one that cannot be looked up is a misfit. -/
def distinct (values : List Json) : Except Misfit (List Json) :=
  match values.find? fun v => !v.isKey with
  | some v => .error (.noKey v)
  | none => .ok values.eraseDups

/-- Whether one of two values comes first: two texts, or two numbers. -/
def isOrdered : Json → Json → Bool
  | str _, str _ => true
  | x, y => x.isNumber && y.isNumber

/-- Different values that are to be put in order; the first one that cannot be compared with the one before it is a
misfit. -/
def checkOrdered : List Json → Except Misfit Unit
  | x :: y :: rest => if isOrdered x y then checkOrdered (y :: rest) else .error (.incomparable y x false)
  | _ => .ok ()

/-- Segments that are texts, counted from an index on; the first one that is none is a misfit. -/
def segmentsFrom : (index : Nat) → List Json → Except Misfit (List String)
  | _, [] => .ok []
  | index, str s :: values => return s :: (← segmentsFrom (index + 1) values)
  | index, v :: _ => .error (.noSegment index v)

@[simp] theorem itemsOf_ofTexts (xs : List String) : (ofTexts xs).itemsOf = .ok (xs.map str) := rfl

@[simp] theorem itemsOrNone_ofTexts (xs : List String) : (ofTexts xs).itemsOrNone = .ok (xs.map str) := by
  cases xs <;> rfl

end Json

end AccessPlan
