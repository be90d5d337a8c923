import AccessPlan.Number.Binary64

/-!
# The shortest decimal of a binary number

`Decimal.shortest x` has the fewest significant digits among the decimals that read back as `x`, and is the nearest of
those to the exact value. `Decimal.Layout` says where its point stands and when an exponent is written.
-/

namespace AccessPlan

/-- The decimal `digits · 10 ^ scale`. -/
structure Decimal where
  digits : Nat
  scale : Int
  deriving DecidableEq, Repr, Inhabited

namespace Decimal

/-- The power of ten at or below a positive rational. -/
def magnitude (q : Rat) : Int :=
  let guess : Int := (Nat.toDigits 10 q.num.natAbs).length - (Nat.toDigits 10 q.den).length
  if q < (10 : Rat) ^ guess then guess - 1 else guess

/-- The decimals of `count` digits on both sides of `q`, the nearer one first. Of two that are equally near, the one
with an even last digit comes first. -/
def neighbours (q : Rat) (count : Nat) : List Decimal :=
  let scale := magnitude q - count + 1
  let low := (q / (10 : Rat) ^ scale).floor
  let gap := q / (10 : Rat) ^ scale - low
  let below : Decimal := ⟨low.toNat, scale⟩
  let above : Decimal := ⟨(low + 1).toNat, scale⟩
  if gap < 1 / 2 ∨ gap = 1 / 2 ∧ low % 2 = 0 then [below, above] else [above, below]

/-- The shortest decimal that reads back as the number `significand · 2 ^ exponent`. Seventeen digits always do. -/
def shortest (significand : Nat) (exponent : Int) : Decimal :=
  let q : Rat := significand * (2 : Rat) ^ exponent
  let candidates := (List.range 17).flatMap fun n => neighbours q (n + 1)
  let readsBack (d : Decimal) : Bool :=
    Binary64.ofDecimal false d.digits d.scale == Binary64.finite false significand exponent
  (candidates.find? readsBack).getD ⟨0, 0⟩

/-- Where the decimal point stands: the decisions of a number format. -/
structure Layout where
  /-- The least and the greatest power of ten of the leading digit that are written without an exponent. -/
  leastPlain : Int
  greatestPlain : Int
  /-- The least number of digits of an exponent. -/
  exponentWidth : Nat
  /-- What an integral number without an exponent ends with. -/
  integralEnd : String
  notANumber : String
  infinity : String

/-- The digits without the zeros at their end, which the scale takes over. -/
def trimmed (digits : List Char) : List Char := (digits.reverse.dropWhile (· = '0')).reverse

def padLeft (width : Nat) (cs : List Char) : List Char := List.replicate (width - cs.length) '0' ++ cs

/-- The text of a positive decimal. -/
def layOut (l : Layout) (d : Decimal) : String :=
  let digits := Nat.toDigits 10 d.digits
  let power : Int := digits.length - 1 + d.scale
  let digits := trimmed digits
  if l.leastPlain ≤ power ∧ power ≤ l.greatestPlain then
    if power < 0 then
      "0." ++ String.ofList (List.replicate (-power - 1).toNat '0' ++ digits)
    else
      let whole := power.toNat + 1
      let front := digits.take whole
      let front := front ++ List.replicate (whole - front.length) '0'
      match digits.drop whole with
      | [] => String.ofList front ++ l.integralEnd
      | rest => String.ofList front ++ "." ++ String.ofList rest
  else
    let mantissa := match digits with
      | [] => "0"
      | [c] => c.toString
      | c :: rest => c.toString ++ "." ++ String.ofList rest
    let sign := if power < 0 then "-" else "+"
    mantissa ++ "e" ++ sign ++ String.ofList (padLeft l.exponentWidth (Nat.toDigits 10 power.natAbs))

end Decimal

/-- The text of a number under a layout, with the fewest digits that read back. -/
def Binary64.text (l : Decimal.Layout) : Binary64 → String
  | .nan => l.notANumber
  | .infinite negative => (if negative then "-" else "") ++ l.infinity
  | .finite negative significand exponent =>
    (if negative then "-" else "") ++
      if significand = 0 then "0" ++ l.integralEnd else Decimal.layOut l (Decimal.shortest significand exponent)

end AccessPlan
