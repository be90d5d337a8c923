import AccessPlan.Json.Basic
import AccessPlan.Number.Shortest
import AccessPlan.Text.Quoted

/-!
# Values inside messages

A value that was refused is shown in the message that says so: texts are quoted, numbers have the fewest digits that
read back, and nothing, true and false are written `None`, `True` and `False`.
-/

namespace AccessPlan.Json

/-- Numbers are written without an exponent from `0.0001` up to sixteen digits before the point, an integral number
ends with `.0`, and an exponent has a sign and at least two digits. -/
def numberLayout : Decimal.Layout where
  leastPlain := -4
  greatestPlain := 15
  exponentWidth := 2
  integralEnd := ".0"
  notANumber := "nan"
  infinity := "inf"

mutual

/-- A value as messages show it. -/
def shown : Json → String
  | null => "None"
  | bool b => if b then "True" else "False"
  | int n => toString n
  | float x => x.text numberLayout
  | str s => Text.quoted s
  | arr items => "[" ++ ", ".intercalate (shownItems items) ++ "]"
  | obj fields => "\x7b" ++ ", ".intercalate (shownFields fields) ++ "\x7d"

def shownItems : List Json → List String
  | [] => []
  | x :: xs => shown x :: shownItems xs

def shownFields : List (String × Json) → List String
  | [] => []
  | (name, value) :: fs => (Text.quoted name ++ ": " ++ shown value) :: shownFields fs

end

/-- A value as running text: a text stands for itself, everything else is shown. -/
def plain : Json → String
  | str s => s
  | j => j.shown

/-- A value as running text, if it counts as switched on. -/
def plainIfOn? (j : Json) : Option String := if j.truthy then some j.plain else none

end AccessPlan.Json
