import AccessPlan.Json.Display

/-!
# Writing JSON

`Json.text` writes a value on one line. Only the quote, the backslash and the control characters are escaped.
`Json.line` also escapes halves of surrogate pairs, so that what it writes can be encoded.
-/

namespace AccessPlan.Json

/-- A character of a text. -/
def escape (c : Char) : List Char :=
  if c = '"' ∨ c = '\\' then ['\\', c]
  else if c = '\n' then ['\\', 'n']
  else if c = '\r' then ['\\', 'r']
  else if c = '\t' then ['\\', 't']
  else if c = '\x08' then ['\\', 'b']
  else if c = '\x0c' then ['\\', 'f']
  else if c.toNat < 32 then ['\\', 'u'] ++ Text.hex 4 c.toNat
  else [c]

def quote (s : String) : String := String.ofList ('"' :: s.toList.flatMap escape ++ ['"'])

/-- Numbers are laid out as in messages; the values beyond are written by name. -/
def writtenLayout : Decimal.Layout := { numberLayout with notANumber := "NaN", infinity := "Infinity" }

mutual

/-- The value on one line. -/
def text : Json → String
  | null => "null"
  | bool b => if b then "true" else "false"
  | int n => toString n
  | float x => x.text writtenLayout
  | str s => quote s
  | arr items => "[" ++ ",".intercalate (textItems items) ++ "]"
  | obj fields => "\x7b" ++ ",".intercalate (textFields fields) ++ "\x7d"

def textItems : List Json → List String
  | [] => []
  | x :: xs => text x :: textItems xs

def textFields : List (String × Json) → List String
  | [] => []
  | (name, value) :: fs => (quote name ++ ":" ++ text value) :: textFields fs

end

/-- The characters of a sign of a written value; half of a surrogate pair is escaped. -/
def escapeHalf : Text.Sign → List Char
  | .character c => [c]
  | .half code => ['\\', 'u'] ++ Text.hex 4 code

/-- The value on one line, an ordinary string that can be encoded. -/
def line (j : Json) : String := String.ofList ((Text.signs j.text).flatMap escapeHalf)

end AccessPlan.Json
