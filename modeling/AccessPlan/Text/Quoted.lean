import AccessPlan.Text.Printable
import AccessPlan.Text.Sign

/-!
# Quoted text

A text is shown between single quotes, or between double quotes when it holds single quotes and no double quote. The
quote, the backslash and every character without a visible form are escaped, and so is half of a surrogate pair.
-/

namespace AccessPlan.Text

/-- A digit of the sixteen-digit numerals, in small letters. -/
def hexDigit (n : Nat) : Char := Nat.digitChar (n % 16)

/-- The last `width` digits of `n` to the base sixteen. -/
def hex : (width : Nat) → (n : Nat) → List Char
  | 0, _ => []
  | width + 1, n => hex width (n / 16) ++ [hexDigit n]

/-- The escape of a code by its least width: two, four or eight digits. -/
def escapedCode (code : Nat) : List Char :=
  if code < 256 then ['\\', 'x'] ++ hex 2 code
  else if code < 65536 then ['\\', 'u'] ++ hex 4 code
  else ['\\', 'U'] ++ hex 8 code

/-- A character inside quotes. -/
def escapedCharacter (quote : Char) (c : Char) : List Char :=
  if c = quote ∨ c = '\\' then ['\\', c]
  else if c = '\n' then ['\\', 'n']
  else if c = '\r' then ['\\', 'r']
  else if c = '\t' then ['\\', 't']
  else if isPrintable c then [c]
  else escapedCode c.toNat

/-- A sign inside quotes. -/
def escaped (quote : Char) : Sign → List Char
  | .character c => escapedCharacter quote c
  | .half code => escapedCode code

/-- The quote that needs the fewer escapes. -/
def quoteFor (cs : List Char) : Char :=
  if cs.contains '\'' && !cs.contains '"' then '"' else '\''

/-- A text between quotes. -/
def quoted (s : String) : String :=
  let quote := quoteFor s.toList
  String.ofList (quote :: (signs s).flatMap (escaped quote) ++ [quote])

end AccessPlan.Text
