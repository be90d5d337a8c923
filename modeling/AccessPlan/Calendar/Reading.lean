import AccessPlan.Calendar.Timestamp
import AccessPlan.Json.Basic
import AccessPlan.Number.Word

/-!
# Reading timestamps

A timestamp is written as a date with an optional time of day and offset, or as a number: the seconds since 1970 in
Coordinated Universal Time, or the milliseconds if the number is beyond `2 · 10 ^ 10`.

* `Timestamp.ofText` reads a text, `Timestamp.ofNumber` a number, and `Timestamp.ofJson` either.
* `Misreading` holds the causes of a failure. A text that is neither a timestamp nor a number is judged as a date.
-/

namespace AccessPlan.Calendar

/-- Why a text is no date, or a number no timestamp. -/
inductive Misreading where
  | tooShort
  | yearCharacter
  | separator
  | monthCharacter
  | dayCharacter
  | monthRange
  | dayRange
  | extraCharacters
  | tooEarly
  | tooLate
  | yearZero
  | notANumber
  deriving DecidableEq, Repr

def Misreading.message : Misreading → String
  | tooShort => "input is too short"
  | yearCharacter => "invalid character in year"
  | separator => "invalid date separator, expected `-`"
  | monthCharacter => "invalid character in month"
  | dayCharacter => "invalid character in day"
  | monthRange => "month value is outside expected range of 1-12"
  | dayRange => "day value is outside expected range"
  | extraCharacters => "unexpected extra characters at the end of the input"
  | tooEarly => "dates before 0000 are not supported as unix timestamps"
  | tooLate => "dates after 9999 are not supported as unix timestamps"
  | yearZero => "year 0 is out of range"
  | notANumber => "NaN values not permitted"

/-- Why a value is no timestamp. -/
inductive TimestampFault where
  /-- A value that is neither a text nor a number. -/
  | wrongType
  /-- A timestamp or a number that denotes no time of the calendar. -/
  | unfit (cause : Misreading)
  /-- A text that was judged as a date and is none. -/
  | noDate (cause : Misreading)
  deriving DecidableEq, Repr

/-! ## Dates and times of day -/

/-- The rest after a character that has to be next. -/
def after? (expected : Char) : List Char → Option (List Char)
  | [] => none
  | c :: cs => if c = expected then some cs else none

def orElse {ε α : Type} (e : ε) : Option α → Except ε α
  | some a => .ok a
  | none => .error e

/-- A date at the start of a text, and the rest. -/
def readDate (cs : List Char) : Except Misreading (Date × List Char) := do
  if Text.byteCount (Text.signsOf cs) < 10 then throw .tooShort
  let (year, cs) ← orElse .yearCharacter (Text.digits? 4 cs)
  let cs ← orElse .separator (after? '-' cs)
  let (month, cs) ← orElse .monthCharacter (Text.digits? 2 cs)
  let cs ← orElse .separator (after? '-' cs)
  let (day, cs) ← orElse .dayCharacter (Text.digits? 2 cs)
  if month < 1 ∨ 12 < month then throw .monthRange
  if day < 1 ∨ daysInMonth year month < day then throw .dayRange
  return (⟨year, month, day⟩, cs)

/-- The microseconds that the digits after a point stand for; digits beyond the sixth are cut off. -/
def microseconds (digits : List Char) : Nat :=
  Text.digitsValue ((digits ++ List.replicate 6 '0').take 6)

/-- Seconds with an optional fraction, if a colon is next. -/
def readSeconds? : List Char → Option (Nat × List Char)
  | ':' :: cs => do
    let (seconds, cs) ← Text.digits? 2 cs
    guard (seconds < 60)
    match cs with
    | c :: rest =>
      if c = '.' ∨ c = ',' then
        match rest.span Char.isDigit with
        | ([], _) => none
        | (digits, rest) => return (seconds * 1000000 + microseconds digits, rest)
      else return (seconds * 1000000, cs)
    | [] => return (seconds * 1000000, cs)
  | cs => some (0, cs)

/-- A time of day in microseconds, and the rest. -/
def readTimeOfDay? (cs : List Char) : Option (Nat × List Char) := do
  let (hour, cs) ← Text.digits? 2 cs
  guard (hour < 24)
  let cs ← after? ':' cs
  let (minute, cs) ← Text.digits? 2 cs
  guard (minute < 60)
  let (micros, cs) ← readSeconds? cs
  return (hour * hourLength + minute * minuteLength + micros, cs)

/-- Hours and minutes, with or without a colon between them, up to the end of the text. -/
def readOffset? (cs : List Char) : Option Nat := do
  let (hour, cs) ← Text.digits? 2 cs
  let cs := (after? ':' cs).getD cs
  let (minute, cs) ← Text.digits? 2 cs
  guard (minute < 60 ∧ hour * 60 + minute < 1440 ∧ cs = [])
  return hour * 60 + minute

/-- The offset at the end of a text, if one is stated. -/
def readZone? : List Char → Option (Option Int)
  | [] => some none
  | ['Z'] => some (some 0)
  | ['z'] => some (some 0)
  | '+' :: cs => (readOffset? cs).map fun m => some (m : Int)
  | '-' :: cs => (readOffset? cs).map fun m => some (-(m : Int))
  | '\u2212' :: cs => (readOffset? cs).map fun m => some (-(m : Int))
  | _ => none

/-- The timestamp of a date, a time of day and an offset. The year zero has none. -/
def ofParts (date : Date) (timeOfDay : Nat) (offset : Option Int) : Except TimestampFault Timestamp :=
  if date.year = 0 then .error (.unfit .yearZero)
  else orElse (.unfit .tooLate) (Timestamp.ofClock? (date.dayNumber * dayLength + timeOfDay : Nat) offset)

/-- Date, time and offset, if a text consists of these three. -/
def readParts? (cs : List Char) : Option (Date × Nat × Option Int) := do
  let (date, cs) ← (readDate cs).toOption
  match cs with
  | c :: cs =>
    guard (c = 'T' ∨ c = 't' ∨ c = ' ' ∨ c = '_')
    let (timeOfDay, cs) ← readTimeOfDay? cs
    let offset ← readZone? cs
    return (date, timeOfDay, offset)
  | [] => none

/-- A date alone is its midnight. -/
def ofDateText (cs : List Char) : Except TimestampFault Timestamp :=
  match readDate cs with
  | .error cause => .error (.noDate cause)
  | .ok (date, []) => ofParts date 0 none
  | .ok (_, _ :: _) => .error (.noDate .extraCharacters)

/-! ## Numbers -/

/-- The days before the first of January 1970. -/
def epochDay : Nat := 719162

/-- The greatest number of which the unit is the second; beyond it, milliseconds are meant. -/
def greatestSeconds : Nat := 20000000000

/-- The microseconds of the unit that a number counts. -/
def unitOf (q : Rat) : Nat := if q.abs ≤ greatestSeconds then 1000000 else 1000

/-- The timestamp so many microseconds after the start of 1970. -/
def ofEpochMicros (micros : Int) : Except Misreading Timestamp :=
  let year := 366 * dayLength
  let clock := epochDay * dayLength + micros
  if clock < -year then .error .tooEarly
  else if clock < 0 then .error .yearZero
  else orElse .tooLate (Timestamp.ofClock? clock (some 0))

/-- The timestamp that an integer denotes. -/
def ofInteger (n : Int) : Except Misreading Timestamp := ofEpochMicros (n * unitOf n)

/-- The timestamp that a binary number denotes. The part behind the point is taken as a binary number, and its
microseconds are rounded to the nearest, a tie going up. -/
def ofNumber : Binary64 → Except Misreading Timestamp
  | .nan => .error .notANumber
  | .infinite negative => .error (if negative then .tooEarly else .tooLate)
  | x@(.finite ..) =>
    let q := x.value?.getD 0
    let part := (Binary64.ofRat (q - q.floor)).scale (unitOf q)
    ofEpochMicros (q.floor * unitOf q + Binary64.roundUp (part.value?.getD 0))

/-- A sign and digits as an integer of 64 bits. -/
def readWord? (cs : List Char) : Option Int := do
  let (negative, digits) := Text.signed cs
  guard (!digits.isEmpty ∧ digits.all Char.isDigit)
  let n : Int := Text.digitsValue digits
  let n := if negative then -n else n
  guard (isWord n)
  return n

/-- An exponent at the end of a text: nothing, or its letter, a sign and digits. -/
def readExponent? : List Char → Option Int
  | [] => some 0
  | c :: cs => do
    guard (c = 'e' ∨ c = 'E')
    let (negative, digits) := Text.signed cs
    guard (!digits.isEmpty ∧ digits.all Char.isDigit)
    let n : Int := Text.digitsValue digits
    return if negative then -n else n

/-- The binary number nearest to a decimal with a point: a sign, digits on at least one side of the point, and perhaps
an exponent. A decimal beyond all binary numbers has none. -/
def readDecimal? (cs : List Char) : Option Binary64 := do
  let (negative, cs) := Text.signed cs
  let (whole, cs) := cs.span Char.isDigit
  let cs ← after? '.' cs
  let (part, cs) := cs.span Char.isDigit
  guard (!(whole ++ part).isEmpty)
  let power ← readExponent? cs
  let number := Binary64.ofDecimal negative (Text.digitsValue (whole ++ part)) (power - part.length)
  guard number.value?.isSome
  return number

/-! ## Values -/

/-- The timestamp of a text that is not one of date and time. An integer is counted from 1970, and so is a decimal if
that gives a time of the calendar or of the year zero; everything else is judged as a date. -/
def ofOtherText (cs : List Char) : Except TimestampFault Timestamp :=
  match readWord? cs with
  | some n =>
    match ofInteger n with
    | .ok t => .ok t
    | .error .yearZero => .error (.unfit .yearZero)
    | .error cause => .error (.noDate cause)
  | none =>
    match (readDecimal? cs).map ofNumber with
    | some (.ok t) => .ok t
    | some (.error .yearZero) => .error (.unfit .yearZero)
    | _ => ofDateText cs

/-- The timestamp that a text denotes: date and time, a number, or a date alone. -/
def ofText (s : String) : Except TimestampFault Timestamp :=
  let cs := s.toList
  match readParts? cs with
  | some (date, timeOfDay, offset) => ofParts date timeOfDay offset
  | none => ofOtherText cs

/-- The timestamp that a value denotes. -/
def Timestamp.ofJson : Json → Except TimestampFault Timestamp
  | .str s => ofText s
  | .int n =>
    match Binary64.ofRat n with
    | .infinite _ => .error .wrongType
    | _ => (ofInteger (max (-wordLimit) (min wordLimit n))).mapError .unfit
  | .float x => (ofNumber x).mapError .unfit
  | _ => .error .wrongType

end AccessPlan.Calendar
