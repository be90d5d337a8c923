import AccessPlan.Calendar.Reading
import AccessPlan.Text.Utf8

/-!
# Faults of a value

A value that does not have the required form has faults. Each is a cause at a place: the steps that lead from the
whole value to the part that is wrong.
-/

namespace AccessPlan.Schema

/-- One step from a value to a part of it. -/
inductive Step where
  /-- To the field of a name. Halves of surrogate pairs in the name are replaced where the step is shown. -/
  | field (name : String)
  | item (index : Nat)
  /-- From the entry of a map to its name. -/
  | key
  deriving DecidableEq, Repr

def Step.text : Step → String
  | field name => Text.withoutHalves name
  | item index => toString index
  | key => "[key]"

def Step.toJson : Step → Json
  | item index => .int index
  | s => .str s.text

/-- What is wrong with a part of a value. -/
inductive Cause where
  | missing
  | notText
  /-- A text with half of a surrogate pair where the characters matter. -/
  | unpairedHalf
  | tooShort (least : Nat)
  | tooLong (most : Nat)
  | notInteger
  | fractionalInteger
  | unreadableInteger
  | endlessInteger
  | oversizedInteger
  | notSwitch
  | unreadableSwitch
  | notList
  | tooFewItems (least given : Nat)
  | notMap
  /-- A value in place of a record of the given name. -/
  | notRecord (name : String)
  /-- A value without fields where fields are needed. -/
  | noFields
  | notMember (choices : List String)
  | notConstant (choices : List String)
  | noTag
  | unknownTag (tag : String) (choices : List String)
  | timestamp (fault : Calendar.TimestampFault)
  /-- A value of the right form that a rule of its own refuses. -/
  | refused (reason : String)
  deriving DecidableEq, Repr

/-- A word with its number, in the singular only for one. -/
def counted (n : Nat) (word : String) : String := s!"{n} {word}" ++ if n = 1 then "" else "s"

/-- The choices in quotes, the last one after "or". -/
def choiceText (choices : List String) : String :=
  let quoted := choices.map fun c => "'" ++ c ++ "'"
  match quoted.reverse with
  | [] => ""
  | [c] => c
  | last :: rest => ", ".intercalate rest.reverse ++ " or " ++ last

namespace Cause

/-- The name of the kind of fault. -/
def code : Cause → String
  | missing => "missing"
  | notText => "string_type"
  | unpairedHalf => "string_unicode"
  | tooShort _ => "string_too_short"
  | tooLong _ => "string_too_long"
  | notInteger => "int_type"
  | fractionalInteger => "int_from_float"
  | unreadableInteger => "int_parsing"
  | endlessInteger => "finite_number"
  | oversizedInteger => "int_parsing_size"
  | notSwitch => "bool_type"
  | unreadableSwitch => "bool_parsing"
  | notList => "list_type"
  | tooFewItems _ _ => "too_short"
  | notMap => "dict_type"
  | notRecord _ => "model_type"
  | noFields => "model_attributes_type"
  | notMember _ => "enum"
  | notConstant _ => "literal_error"
  | noTag => "union_tag_not_found"
  | unknownTag _ _ => "union_tag_invalid"
  | timestamp .wrongType => "datetime_type"
  | timestamp (.unfit _) => "datetime_parsing"
  | timestamp (.noDate _) => "datetime_from_date_parsing"
  | refused _ => "value_error"

def message : Cause → String
  | missing => "Field required"
  | notText => "Input should be a valid string"
  | unpairedHalf => "Input should be a valid string, unable to parse raw data as a unicode string"
  | tooShort least => "String should have at least " ++ counted least "character"
  | tooLong most => "String should have at most " ++ counted most "character"
  | notInteger => "Input should be a valid integer"
  | fractionalInteger => "Input should be a valid integer, got a number with a fractional part"
  | unreadableInteger => "Input should be a valid integer, unable to parse string as an integer"
  | endlessInteger => "Input should be a finite number"
  | oversizedInteger => "Unable to parse input string as an integer, exceeded maximum size"
  | notSwitch => "Input should be a valid boolean"
  | unreadableSwitch => "Input should be a valid boolean, unable to interpret input"
  | notList => "Input should be a valid list"
  | tooFewItems least given =>
    let bound := counted least "item"
    s!"List should have at least {bound} after validation, not {given}"
  | notMap => "Input should be a valid dictionary"
  | notRecord name => s!"Input should be a valid dictionary or instance of {name}"
  | noFields => "Input should be a valid dictionary or object to extract fields from"
  | notMember choices => s!"Input should be {choiceText choices}"
  | notConstant choices => s!"Input should be {choiceText choices}"
  | noTag => "Unable to extract tag using discriminator 'kind'"
  | unknownTag tag choices =>
    let shown := Text.withoutHalves tag
    let expected := ", ".intercalate (choices.map fun c => "'" ++ c ++ "'")
    s!"Input tag '{shown}' found using 'kind' does not match any of the expected tags: {expected}"
  | timestamp .wrongType => "Input should be a valid datetime"
  | timestamp (.unfit cause) => s!"Input should be a valid datetime, {cause.message}"
  | timestamp (.noDate cause) => s!"Input should be a valid datetime or date, {cause.message}"
  | refused reason => s!"Value error, {reason}"

end Cause

/-- A cause and the place it holds for. -/
structure Fault where
  path : List Step
  cause : Cause
  deriving DecidableEq, Repr

namespace Fault

/-- The place as one text. -/
def location (f : Fault) : String :=
  if f.path = [] then "root" else ".".intercalate (f.path.map Step.text)

/-- The last step of the place. -/
def lastStep (f : Fault) : String := (f.path.getLast?.map Step.text).getD "root"

/-- The fault as seen from a value that holds the faulty one. -/
def under (f : Fault) (step : Step) : Fault := { f with path := step :: f.path }

def toJson (f : Fault) : Json :=
  .obj [("loc", .arr (f.path.map Step.toJson)), ("type", .str f.cause.code), ("msg", .str f.cause.message)]

end Fault

/-- The first halves of surrogate pairs in the reasons of faults. Reasons are handed out as they are, unlike places. -/
def loneHalves? (faults : List Fault) : Option Text.LoneHalves :=
  faults.findSome? fun f => match f.cause with
    | .refused reason => Text.loneHalves? reason
    | _ => none

end AccessPlan.Schema
