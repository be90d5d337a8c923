import AccessPlan.Text.Blank
import AccessPlan.Text.Numeral

/-!
# Integers in texts

`readInteger` reads an integer where a text stands in its place. A plain numeral, as JSON writes integers, is taken as
it stands. Any other text is tidied first: white space around it, a plus sign, zeros in front, zeros behind a point and
single underscores between digits are taken away, and what is left has to be a plain numeral.

* `plainInteger` reads a plain numeral, `tidied?` makes one of another text.
-/

namespace AccessPlan.Text

/-- Why a text is not read as an integer. -/
inductive IntegerFault where
  | unreadable
  /-- A plain numeral of too many digits. -/
  | oversized
  deriving DecidableEq, Repr

/-- The integer that a plain numeral writes: a minus sign at most, and digits with no zero in front. -/
def plainInteger (cs : List Char) : Except IntegerFault Int :=
  let (negative, body) := match cs with
    | '-' :: rest => (true, rest)
    | _ => (false, cs)
  let digits := body.takeWhile Char.isDigit
  if body = ['0'] then .ok 0
  else if digits.isEmpty ∨ body.head? = some '0' then .error .unreadable
  else if mostDigits < digits.length then .error .oversized
  else if digits.length < body.length then .error .unreadable
  else
    let n : Int := digitsValue digits
    .ok (if negative then -n else n)

/-- What is left of a numeral after zeros and underscores, the last of them being `last`. Nothing but them is cut to
the last one, and a point keeps the one in front of it. -/
def afterZeros : (last : Char) → List Char → Option (List Char)
  | last, [] => some [last]
  | last, c :: cs =>
    if c = '0' ∨ c = '_' then afterZeros c cs
    else if c = '.' then some (last :: c :: cs)
    else if c.isDigit ∨ c = '-' then some (c :: cs)
    else none

/-- A numeral without the zeros in front of it. -/
def withoutZeros : List Char → Option (List Char)
  | '0' :: cs => afterZeros '0' cs
  | c :: cs => if c.isDigit ∨ c = '-' then some (c :: cs) else none
  | [] => none

/-- A numeral without a point that only zeros follow, at least one of them. -/
def withoutPointZeros (cs : List Char) : List Char :=
  match cs.reverse.span (· = '0') with
  | (_ :: _, '.' :: rest) => rest.reverse
  | _ => cs

/-- Whether every underscore stands between two other characters. -/
def singleUnderscores : (afterOther : Bool) → List Char → Bool
  | afterOther, [] => afterOther
  | afterOther, c :: cs => if c = '_' then afterOther && singleUnderscores false cs else singleUnderscores true cs

/-- A numeral without its underscores, if every one stands between two other characters. -/
def withoutUnderscores (cs : List Char) : List Char :=
  if singleUnderscores false cs then cs.filter (· ≠ '_') else cs

/-- A numeral that has been tidied; there is none if it does not begin as one. -/
def tidied? (cs : List Char) : Option (List Char) := do
  let (sign, body) ← match trimmed cs with
    | '+' :: '-' :: _ => none
    | '+' :: rest => some ([], rest)
    | '-' :: rest => some (['-'], rest)
    | cs => some ([], cs)
  return sign ++ withoutUnderscores (withoutPointZeros (← withoutZeros body))

/-- The integer that a text stands for. -/
def readInteger (s : String) : Except IntegerFault Int :=
  match plainInteger s.toList with
  | .error .unreadable =>
    match (tidied? s.toList).map plainInteger with
    | some (.ok n) => .ok n
    | _ => .error .unreadable
  | result => result

end AccessPlan.Text
