/-!
# Binary numbers of double precision

Numbers written with a fraction or an exponent are kept as binary numbers with a significand of 53 bits. Arithmetic
is exact on rationals and rounded once, to the nearest binary number, a tie going to the even significand.

* `Binary64.ofRat` is the rounding, `Binary64.ofDecimal` the reading of a decimal.
* `Binary64.value?` is the exact rational of a finite number, and `Binary64.int?` its integer if it is one.
-/

namespace AccessPlan

/-- A double precision number: finite, `± significand · 2 ^ exponent`, or one of the values beyond. The significand is
below `2 ^ 53`, and at least `2 ^ 52` unless the exponent is the least one, `-1074`. -/
inductive Binary64 where
  | finite (negative : Bool) (significand : Nat) (exponent : Int)
  | infinite (negative : Bool)
  | nan
  deriving DecidableEq, Repr, Inhabited

namespace Binary64

/-- The rational nearest to `q` among the integers, a tie going to the even one. -/
def roundEven (q : Rat) : Int :=
  let low := q.floor
  let gap := q - low
  if gap < 1 / 2 then low else if 1 / 2 < gap then low + 1 else if low % 2 = 0 then low else low + 1

/-- The integer nearest to `q`, a tie going up. -/
def roundUp (q : Rat) : Int := (q + 1 / 2).floor

/-- The least number that is too large for a significand. -/
def significandLimit : Nat := 0x20000000000000

def leastExponent : Int := -1074

def greatestExponent : Int := 971

/-- The nearest double precision number to `± q` for a rational `q` that is not negative. -/
def ofMagnitude (negative : Bool) (q : Rat) : Binary64 :=
  if q = 0 then finite negative 0 leastExponent else
  let guess : Int := Nat.log2 q.num.natAbs - Nat.log2 q.den - 53
  let fitting := if q / (2 : Rat) ^ guess < significandLimit then guess else guess + 1
  let exponent := max leastExponent fitting
  let significand := (roundEven (q / (2 : Rat) ^ exponent)).toNat
  if significand = significandLimit then
    if exponent < greatestExponent then finite negative (significandLimit / 2) (exponent + 1) else infinite negative
  else if exponent ≤ greatestExponent then finite negative significand exponent else infinite negative

/-- The nearest double precision number. -/
def ofRat (q : Rat) : Binary64 := ofMagnitude (decide (q < 0)) q.abs

/-- The number written `digits · 10 ^ scale`. Scales far beyond the range are settled by the number of digits, so that
no huge power is formed. -/
def ofDecimal (negative : Bool) (digits : Nat) (scale : Int) : Binary64 :=
  let size : Int := (Nat.toDigits 10 digits).length + scale
  if digits = 0 ∨ size < -400 then finite negative 0 leastExponent
  else if 400 < size then infinite negative
  else ofMagnitude negative (digits * (10 : Rat) ^ scale)

/-- The exact value of a finite number. -/
def value? : Binary64 → Option Rat
  | finite negative significand exponent =>
    let magnitude : Rat := significand * (2 : Rat) ^ exponent
    some (if negative then -magnitude else magnitude)
  | _ => none

/-- The integer that a finite number without a fraction is. -/
def int? (x : Binary64) : Option Int :=
  x.value?.bind fun q => if q.den = 1 then some q.num else none

/-- The product with an integer, rounded. -/
def scale (x : Binary64) (n : Nat) : Binary64 :=
  match x with
  | finite negative significand exponent => ofMagnitude negative (significand * (2 : Rat) ^ exponent * n)
  | y => y

end Binary64

end AccessPlan
