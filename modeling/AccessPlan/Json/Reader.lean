import AccessPlan.Json.Basic
import AccessPlan.Text.Encoding
import AccessPlan.Text.Numeral

/-!
# Reading JSON

`Json.read` reads one value that fills the whole text, white space aside. A text that is no such value is refused with
a cause and the position at which reading had to stop; `ReadError.message` gives the line and column as well. Two
limits hold: whole numbers have at most `Text.mostDigits` digits, and values are nested so many levels at most, which
are fewer for the body of a request.

The steps work on the characters still to be read and hand back the rest. A position is the number of signs before it,
so inside the reader it is kept as the rest after it.

* `Json.read` reads a text, `Json.readBody` the body of a request, whose encoding shows in its first bytes.
-/

namespace AccessPlan.Json

/-- Why a text is no JSON value. -/
inductive ReadCause where
  | noValue
  | noFieldName
  | noColon
  | noComma
  | unclosedText
  | controlCharacter
  | badEscape
  | badCodePoint
  | extraData
  | byteOrderMark
  /-- A whole number of too many digits. -/
  | tooManyDigits (count : Nat)
  /-- An array or an object at too deep a level. -/
  | tooDeep (inObject : Bool)
  deriving DecidableEq, Repr

namespace ReadCause

/-- Whether a limit of the reader was met; the text may be well formed all the same. -/
def isLimit : ReadCause → Bool
  | tooManyDigits _ => true
  | tooDeep _ => true
  | _ => false

/-- What was expected, or what was wrong. -/
def message : ReadCause → String
  | noValue => "Expecting value"
  | noFieldName => "Expecting property name enclosed in double quotes"
  | noColon => "Expecting ':' delimiter"
  | noComma => "Expecting ',' delimiter"
  | unclosedText => "Unterminated string starting at"
  | controlCharacter => "Invalid control character at"
  | badEscape => "Invalid \\escape"
  | badCodePoint => "Invalid \\uXXXX escape"
  | extraData => "Extra data"
  | byteOrderMark => "Unexpected UTF-8 BOM (decode using utf-8-sig)"
  | tooManyDigits count => Text.tooManyDigits count
  | tooDeep inObject =>
    let part := if inObject then "object" else "array"
    s!"maximum recursion depth exceeded while decoding a JSON {part} from a unicode string"

end ReadCause

/-- Where reading stopped: a cause and the characters from there to the end. -/
structure Stop where
  cause : ReadCause
  rest : List Char

/-- A cause and the position it holds for, counted in signs from the start. -/
structure ReadError where
  cause : ReadCause
  position : Nat
  deriving DecidableEq, Repr

/-- The end of a line. -/
def lineFeed : Text.Sign := .character '\n'

/-- The message, with the line and the column of the position in the text unless a limit was met. -/
def ReadError.message (e : ReadError) (source : String) : String :=
  let before := (Text.signs source).take e.position
  let line := before.count lineFeed + 1
  let column := (before.reverse.takeWhile (· ≠ lineFeed)).length + 1
  if e.cause.isLimit then e.cause.message
  else s!"{e.cause.message}: line {line} column {column} (char {e.position})"

/-- Stopping before `rest`. -/
def stop {α : Type} (cause : ReadCause) (rest : List Char) : Except Stop α :=
  .error ⟨cause, rest⟩

def isSpace (c : Char) : Bool := c = ' ' || c = '\t' || c = '\n' || c = '\r'

def skipSpace (cs : List Char) : List Char := cs.dropWhile isSpace

/-! ## Texts -/

def hexValue? (c : Char) : Option Nat :=
  if c.isDigit then some (c.toNat - 48)
  else if 'a' ≤ c ∧ c ≤ 'f' then some (c.toNat - 87)
  else if 'A' ≤ c ∧ c ≤ 'F' then some (c.toNat - 55)
  else none

/-- The number that four digits to the base sixteen write. -/
def codeUnit? (a b c d : Char) : Option Nat := do
  return (((← hexValue? a) * 16 + (← hexValue? b)) * 16 + (← hexValue? c)) * 16 + (← hexValue? d)

/-- The escapes of one letter. -/
def simpleEscape? : Char → Option Char
  | '"' => some '"'
  | '\\' => some '\\'
  | '/' => some '/'
  | 'b' => some '\x08'
  | 'f' => some '\x0c'
  | 'n' => some '\n'
  | 'r' => some '\r'
  | 't' => some '\t'
  | _ => none

/-- The characters read so far, the last one first, with those of one more sign. -/
def withSign (acc : List Char) (x : Text.Sign) : List Char := x.characters.reverse ++ acc

/-- The rest of a text up to its closing quote. The characters from its opening quote on are in `opening`, those read so
far are in `acc`, the last one first; `fuel` bounds the number of characters. -/
def readText (opening : List Char) : (fuel : Nat) → (acc : List Char) → List Char → Except Stop (String × List Char)
  | 0, _, _ => .error ⟨.unclosedText, opening⟩
  | _ + 1, _, [] => .error ⟨.unclosedText, opening⟩
  | _ + 1, acc, '"' :: rest => .ok (String.ofList acc.reverse, rest)
  | _ + 1, _, ['\\'] => .error ⟨.unclosedText, opening⟩
  | fuel + 1, acc, '\\' :: 'u' :: rest =>
    match rest with
    | a :: b :: c :: d :: after@(_ :: _) =>
      match codeUnit? a b c d with
      | none => stop .badCodePoint ('u' :: rest)
      | some code =>
        match Text.isHighHalf code, after with
        | true, '\\' :: 'u' :: a' :: b' :: c' :: d' :: last@(_ :: _) =>
          match codeUnit? a' b' c' d' with
          | none => stop .badCodePoint ('u' :: a' :: b' :: c' :: d' :: last)
          | some low =>
            if Text.isLowHalf low then
              readText opening fuel (withSign acc (.character (Text.pairCharacter code low))) last
            else readText opening fuel (withSign acc (.ofCode code)) after
        | _, _ => readText opening fuel (withSign acc (.ofCode code)) after
    | _ => stop .badCodePoint ('u' :: rest)
  | fuel + 1, acc, '\\' :: e :: rest =>
    match simpleEscape? e with
    | some c => readText opening fuel (c :: acc) rest
    | none => stop .badEscape ('\\' :: e :: rest)
  | fuel + 1, acc, c :: rest =>
    if c.toNat < 32 then stop .controlCharacter (c :: rest) else readText opening fuel (c :: acc) rest

/-! ## Numbers -/

def isDigit (c : Char) : Bool := c.isDigit

/-- The digits before the point: a zero alone, or digits that do not start with one. -/
def wholePart? : List Char → Option (List Char × List Char)
  | '0' :: rest => some (['0'], rest)
  | c :: rest => if c.isDigit then some ((c :: rest).span isDigit) else none
  | [] => none

/-- The digits after a point, if a point with digits is next. -/
def fraction : List Char → List Char × List Char
  | '.' :: rest =>
    match rest.span isDigit with
    | ([], _) => ([], '.' :: rest)
    | (digits, after) => (digits, after)
  | cs => ([], cs)

/-- An exponent, if one is next. -/
def exponent (cs : List Char) : Option Int × List Char :=
  let digitsAfter (sign : Int) (rest : List Char) : Option Int × List Char :=
    match rest.span isDigit with
    | ([], _) => (none, cs)
    | (digits, after) => (some (sign * Text.digitsValue digits), after)
  match cs with
  | e :: rest =>
    if e = 'e' ∨ e = 'E' then
      match rest with
      | '-' :: rest => digitsAfter (-1) rest
      | '+' :: rest => digitsAfter 1 rest
      | _ => digitsAfter 1 rest
    else (none, cs)
  | [] => (none, cs)

/-- A number. Without a fraction and an exponent it is a whole number, which may not have too many digits. -/
def readNumber (cs : List Char) : Except Stop (Json × List Char) :=
  let (negative, unsigned) := match cs with
    | '-' :: rest => (true, rest)
    | _ => (false, cs)
  match wholePart? unsigned with
  | none => stop .noValue cs
  | some (whole, rest) =>
    let (part, rest) := fraction rest
    let (power, rest) := exponent rest
    if part.isEmpty ∧ power.isNone then
      let n : Int := Text.digitsValue whole
      if Text.mostDigits < whole.length then stop (.tooManyDigits whole.length) cs
      else .ok (.int (if negative then -n else n), rest)
    else
      let digits := Text.digitsValue (whole ++ part)
      .ok (.float (.ofDecimal negative digits (power.getD 0 - part.length)), rest)

/-! ## Values -/

/-- The rest after a word, if the word is next. -/
def afterWord? (word : String) (cs : List Char) : Option (List Char) :=
  if word.toList.isPrefixOf cs then some (cs.drop word.length) else none

/-- The values that are written as a word. -/
def words : List (String × Json) :=
  [("null", .null), ("true", .bool true), ("false", .bool false), ("NaN", .float .nan),
    ("Infinity", .float (.infinite false)), ("-Infinity", .float (.infinite true))]

def readWord? (cs : List Char) : Option (Json × List Char) :=
  words.findSome? fun w => (afterWord? w.1 cs).map fun rest => (w.2, rest)

/-- The greatest number of arrays and objects inside one another in a text. -/
def deepest : Nat := 990

/-- The greatest number of arrays and objects inside one another in the body of a request. -/
def deepestBody : Nat := 964

mutual

/-- One value, with so many `levels` left for arrays and objects. Every call reads at least one character for two
units of `fuel`. -/
def readValue : (fuel levels : Nat) → List Char → Except Stop (Json × List Char)
  | 0, _, cs => stop .noValue cs
  | fuel + 1, levels, cs =>
    match cs, levels with
    | '"' :: rest, _ => do
      let (s, rest) ← readText cs fuel [] rest
      return (.str s, rest)
    | '[' :: _, 0 => stop (.tooDeep false) cs
    | '[' :: rest, levels + 1 =>
      match skipSpace rest with
      | ']' :: rest => .ok (.arr [], rest)
      | rest => do
        let (items, rest) ← readItems fuel levels rest
        return (.arr items, rest)
    | '\x7b' :: _, 0 => stop (.tooDeep true) cs
    | '\x7b' :: rest, levels + 1 =>
      match skipSpace rest with
      | '\x7d' :: rest => .ok (.obj [], rest)
      | rest => do
        let (fields, rest) ← readFields fuel levels [] rest
        return (.obj fields, rest)
    | _, _ =>
      match readWord? cs with
      | some found => .ok found
      | none => readNumber cs

/-- The items of an array, its first one being next, and the closing bracket. -/
def readItems : (fuel levels : Nat) → List Char → Except Stop (List Json × List Char)
  | 0, _, cs => stop .noValue cs
  | fuel + 1, levels, cs => do
    let (item, rest) ← readValue fuel levels cs
    match skipSpace rest with
    | ']' :: rest => return ([item], rest)
    | ',' :: rest =>
      let (items, rest) ← readItems fuel levels (skipSpace rest)
      return (item :: items, rest)
    | rest => stop .noComma rest

/-- The fields of an object after those already read, and the closing brace. -/
def readFields : (fuel levels : Nat) → (before : List (String × Json)) → List Char →
    Except Stop (List (String × Json) × List Char)
  | 0, _, _, cs => stop .noFieldName cs
  | fuel + 1, levels, before, cs =>
    match cs with
    | '"' :: rest => do
      let (name, rest) ← readText cs fuel [] rest
      match skipSpace rest with
      | ':' :: rest =>
        let (value, rest) ← readValue fuel levels (skipSpace rest)
        let fields := withEntry before name value
        match skipSpace rest with
        | '\x7d' :: rest => return (fields, rest)
        | ',' :: rest => readFields fuel levels fields (skipSpace rest)
        | rest => stop .noComma rest
      | rest => stop .noColon rest
    | _ => stop .noFieldName cs

end

/-- The value that all of the characters write. -/
def readAll (levels : Nat) (cs : List Char) : Except Stop Json := do
  let (value, rest) ← readValue (2 * cs.length + 2) levels (skipSpace cs)
  match skipSpace rest with
  | [] => return value
  | rest => stop .extraData rest

/-- The value that characters write, or the cause and the position of the failure. -/
def readChars (levels : Nat) (cs : List Char) : Except ReadError Json :=
  (readAll levels cs).mapError fun s => ⟨s.cause, (Text.signsOf cs).length - (Text.signsOf s.rest).length⟩

/-- The value that a text writes. A byte order mark is refused. -/
def read (source : String) : Except ReadError Json :=
  match source.toList with
  | '\ufeff' :: _ => .error ⟨.byteOrderMark, 0⟩
  | cs => readChars deepest cs

/-- The signs of a body in the encoding that its bytes speak for, if they are well formed. A byte order mark in front of
UTF-8 is no part of the text. -/
def bodySigns? (body : String) : Option (List Text.Sign) :=
  let bytes := body.toUTF8.toList
  match Text.Encoding.ofBytes bytes with
  | .utf16 bigEndian => Text.decodeUnits16? bigEndian bytes
  | .utf32 bigEndian => Text.decodeUnits32? bigEndian bytes
  | .utf8 =>
    match body.toList with
    | '\ufeff' :: cs => some (cs.map .character)
    | cs => some (cs.map .character)

/-- The value that a body, an ordinary string, writes; there is neither a value nor an error of a position if its bytes
are ill formed. -/
def readBody (body : String) : Option (Except ReadError Json) :=
  (bodySigns? body).map fun signs => readChars deepestBody (signs.flatMap Text.Sign.characters)

end AccessPlan.Json
