import AccessPlan.Json.OfMap
import AccessPlan.Schema.Checked
import AccessPlan.Text.Integer

/-!
# Readers of values

A reader checks a JSON value for a form and hands back what it stands for. The readers here are for texts, integers,
switches, timestamps, lists, maps, and the fields of records. A field that a record does not name is ignored.

* `required_ok`, `withDefault_ok`, `listOf_ok`: what the readers give for a value of the right form.
-/

namespace AccessPlan.Schema

/-- A check of a value. -/
abbrev Reader (α : Type) := Json → Checked α

/-- Where a record is read from. A request says otherwise than a document what is no record. -/
inductive Origin where
  | document
  | request
  deriving DecidableEq, Repr

namespace Reader

/-! ## Simple values -/

def text : Reader String
  | .str s => .ok s
  | _ => .fault .notText

/-- A text whose characters have to be looked at, so that none may be half of a surrogate pair. -/
def wholeText (s : String) : Checked String :=
  if Text.isWhole s then .ok s else .fault .unpairedHalf

/-- A text with a least and, if there is one, a greatest number of signs. -/
def textOf (least : Nat) (most : Option Nat) : Reader String := fun j =>
  ((text j).andThen wholeText).andThen fun s =>
    if Text.length s < least then .fault (.tooShort least)
    else match most with
      | none => .ok s
      | some m => if m < Text.length s then .fault (.tooLong m) else .ok s

/-- The integer that a text stands for. -/
def integerText (s : String) : Checked Int :=
  match Text.readInteger s with
  | .ok n => .ok n
  | .error .unreadable => .fault .unreadableInteger
  | .error .oversized => .fault .oversizedInteger

def integer : Reader Int
  | .int n => .ok n
  | .bool b => .ok (if b then 1 else 0)
  | .float x =>
    match x.value?, x.int? with
    | none, _ => .fault .endlessInteger
    | some _, none => .fault .fractionalInteger
    | some _, some n => if isInnerWord n then .ok n else .fault .oversizedInteger
  | .str s => (wholeText s).andThen integerText
  | _ => .fault .notInteger

def onWords : List String := ["1", "on", "t", "true", "y", "yes"]

def offWords : List String := ["0", "off", "f", "false", "n", "no"]

/-- The switch that a number is. -/
def switchNumber (n : Int) : Checked Bool :=
  if n = 0 then .ok false else if n = 1 then .ok true else .fault .unreadableSwitch

/-- The switch that a word is. -/
def switchWord (s : String) : Checked Bool :=
  let word := s.map Char.toLower
  if onWords.contains word then .ok true
  else if offWords.contains word then .ok false
  else .fault .unreadableSwitch

def switch : Reader Bool
  | .bool b => .ok b
  | .int n => if isWord n then switchNumber n else .fault .notSwitch
  | .float x =>
    match x.int? with
    | some n => if isInnerWord n then switchNumber n else .fault .notSwitch
    | none => .fault .notSwitch
  | .str s => (wholeText s).andThen switchWord
  | _ => .fault .notSwitch

/-- The timestamp that a value denotes. -/
def timestampValue (j : Json) : Checked Calendar.Timestamp :=
  match Calendar.Timestamp.ofJson j with
  | .ok t => .ok t
  | .error fault => .fault (.timestamp fault)

def timestamp : Reader Calendar.Timestamp
  | .str s => (wholeText s).andThen fun s => timestampValue (.str s)
  | j => timestampValue j

/-- A timestamp; a clock without an offset is one of Coordinated Universal Time. -/
def timestampUtc : Reader Calendar.Timestamp := fun j => Calendar.Timestamp.asUtc <$> timestamp j

/-- The value of a text, or the fault that it is none of those wanted. -/
def chosen {α : Type} (value? : String → Option α) (fault : Cause) (s : String) : Checked α :=
  match value? s with
  | some a => .ok a
  | none => (wholeText s).andThen fun _ => .fault fault

/-- One of several values, each with its text. -/
def member {α : Type} (choices : List (String × α)) : Reader α := fun j =>
  match j with
  | .str s => chosen (fun s => choices.lookup s) (.notMember (choices.map (·.1))) s
  | _ => .fault (.notMember (choices.map (·.1)))

/-! ## Collections -/

/-- `null` for none. -/
def nullable {α : Type} (read : Reader α) : Reader (Option α)
  | .null => .ok none
  | j => some <$> read j

/-- The items from the given index on. -/
def itemsFrom {α : Type} (read : Reader α) : (index : Nat) → List Json → Checked (List α)
  | _, [] => .ok []
  | index, j :: js => List.cons <$> (read j).under (.item index) <*> itemsFrom read (index + 1) js

def listOf {α : Type} (read : Reader α) : Reader (List α)
  | .arr items => itemsFrom read 0 items
  | _ => .fault .notList

def texts : Reader (List String) := listOf text

/-- A list of at least so many items. -/
def listOfLeast {α : Type} (least : Nat) (read : Reader α) : Reader (List α) := fun j =>
  (listOf read j).andThen fun xs =>
    if xs.length < least then .fault (.tooFewItems least xs.length) else .ok xs

/-- The entries of a map, each name checked before its value. -/
def entriesOf {α β : Type} (readName : Reader α) (read : Reader β) : List (String × Json) → Checked (List (α × β))
  | [] => .ok []
  | (name, value) :: fields =>
    List.cons <$>
      (Prod.mk <$> ((readName (.str name)).under .key).under (.field name) <*> (read value).under (.field name)) <*>
      entriesOf readName read fields

/-- The entries of an object in the order in which they came. -/
def entries {α β : Type} (readName : Reader α) (read : Reader β) : Reader (List (α × β))
  | .obj fields => entriesOf readName read fields
  | _ => .fault .notMap

def mapOf {α : Type} (read : Reader α) : Reader (NameMap α) := fun j =>
  NameMap.ofList <$> entries text read j

/-! ## Records -/

/-- A record: the reader of its fields, which is used on an object only. -/
def record {α : Type} (origin : Origin) (name : String) (read : Reader α) : Reader α := fun j =>
  match j with
  | .obj _ => read j
  | _ => .fault (match origin with | .document => .notRecord name | .request => .noFields)

/-- A field that has to be there. -/
def required {α : Type} (name : String) (read : Reader α) : Reader α := fun j =>
  match j.field? name with
  | none => (Checked.fault .missing).under (.field name)
  | some v => (read v).under (.field name)

/-- A field that may be left out. -/
def withDefault {α : Type} (name : String) (read : Reader α) (default : α) : Reader α := fun j =>
  match j.field? name with
  | none => .ok default
  | some v => (read v).under (.field name)

/-- A field that may be left out or `null`. -/
def optional {α : Type} (name : String) (read : Reader α) : Reader (Option α) :=
  withDefault name (nullable read) none

theorem required_ok {α : Type} {name : String} {read : Reader α} {j v : Json} {a : α} (hj : j.field? name = some v)
    (hv : read v = .ok a) : required name read j = .ok a := by
  simp [required, hj, hv]

theorem withDefault_ok {α : Type} {name : String} {read : Reader α} {j v : Json} {a b : α}
    (hj : j.field? name = some v) (hv : read v = .ok a) : withDefault name read b j = .ok a := by
  simp [withDefault, hj, hv]

theorem itemsFrom_ok {α : Type} {read : Reader α} {write : α → Json} (h : ∀ a, read (write a) = .ok a) :
    ∀ (index : Nat) (xs : List α), itemsFrom read index (xs.map write) = .ok xs
  | _, [] => rfl
  | index, x :: xs => by
    simp [itemsFrom, h x, itemsFrom_ok h (index + 1) xs]

/-- A list of written values is read back. -/
theorem listOf_ok {α : Type} {read : Reader α} {write : α → Json} (h : ∀ a, read (write a) = .ok a) (xs : List α) :
    listOf read (.arr (xs.map write)) = .ok xs := itemsFrom_ok h 0 xs

end Reader

end AccessPlan.Schema
