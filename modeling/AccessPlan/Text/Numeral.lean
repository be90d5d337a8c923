import AccessPlan.Text.DecimalDigit

/-!
# Numerals

`padded width n` writes the last `width` decimal digits of `n`, and `digits? width` reads so many digits and hands
back the rest of the text. `integer?` reads a whole text as an integer with a sign, its digits perhaps grouped by
underscores. Numerals of more than `mostDigits` digits are not turned into numbers.

* `digits?_padded`: what is written is read back, whatever follows.
-/

namespace AccessPlan.Text

/-- The number that the digits `0` to `9` write. -/
def digitsValue (cs : List Char) : Nat := cs.foldl (fun n c => 10 * n + (c.toNat - '0'.toNat)) 0

/-- A minus sign or a plus sign at the start, and the rest: `true` for the minus sign. -/
def signed : List Char → Bool × List Char
  | '-' :: cs => (true, cs)
  | '+' :: cs => (false, cs)
  | cs => (false, cs)

/-- The greatest number of digits of a numeral that is turned into a number. -/
def mostDigits : Nat := 4300

/-- What is said of a numeral with more digits. -/
def tooManyDigits (count : Nat) : String :=
  s!"Exceeds the limit ({mostDigits} digits) for integer string conversion: value has {count} digits; " ++
    "use sys.set_int_max_str_digits() to increase the limit"

/-- The last `width` decimal digits of `n`. -/
def padded : (width : Nat) → (n : Nat) → List Char
  | 0, _ => []
  | width + 1, n => padded width (n / 10) ++ [Nat.digitChar (n % 10)]

/-- The number that the next `width` digits write after the digits of `before`, and the rest of the text. -/
def digitsAfter? : (width : Nat) → (before : Nat) → List Char → Option (Nat × List Char)
  | 0, before, cs => some (before, cs)
  | _ + 1, _, [] => none
  | width + 1, before, c :: cs => (asciiDigit? c).bind fun d => digitsAfter? width (10 * before + d) cs

/-- The number that the next `width` digits write, and the rest of the text. -/
def digits? (width : Nat) (cs : List Char) : Option (Nat × List Char) := digitsAfter? width 0 cs

/-- Digits of a kind with single underscores between them. -/
def digitGroups? (digit : Char → Option Nat) : (afterDigit : Bool) → (before : Nat) → List Char → Option Nat
  | afterDigit, before, [] => if afterDigit then some before else none
  | afterDigit, before, c :: cs =>
    if c = '_' then if afterDigit then digitGroups? digit false before cs else none
    else (digit c).bind fun d => digitGroups? digit true (10 * before + d) cs

/-- An optional sign and digits of a kind. -/
def integer? (digit : Char → Option Nat) : List Char → Option Int
  | '-' :: cs => (digitGroups? digit false 0 cs).map fun n => -(n : Int)
  | '+' :: cs => (digitGroups? digit false 0 cs).map fun n => (n : Int)
  | cs => (digitGroups? digit false 0 cs).map fun n => (n : Int)

theorem asciiDigit?_digitChar : ∀ n < 10, asciiDigit? (Nat.digitChar n) = some n := by decide

theorem length_padded (width n : Nat) : (padded width n).length = width := by
  induction width generalizing n with
  | zero => rfl
  | succ width ih => simp [padded, ih]

/-- The last of several digits is read on its own. -/
theorem digitsAfter?_succ (width before : Nat) (cs : List Char) :
    digitsAfter? (width + 1) before cs = (digitsAfter? width before cs).bind fun r => digitsAfter? 1 r.1 r.2 := by
  induction width generalizing before cs with
  | zero => rfl
  | succ width ih =>
    cases cs with
    | nil => rfl
    | cons c cs =>
      rw [digitsAfter?, digitsAfter?]
      cases asciiDigit? c with
      | none => rfl
      | some d => exact ih _ _

theorem digitsAfter?_padded (width before n : Nat) (rest : List Char) :
    digitsAfter? width before (padded width n ++ rest) = some (Nat.pow 10 width * before + n % Nat.pow 10 width, rest) := by
  induction width generalizing n rest with
  | zero => simp [digitsAfter?, padded, Nat.mod_one]
  | succ width ih =>
    rw [digitsAfter?_succ, padded, List.append_assoc, ih]
    simp only [Option.bind_some, List.cons_append, List.nil_append, digitsAfter?,
      asciiDigit?_digitChar _ (Nat.mod_lt n (by decide : 0 < 10)), Option.some.injEq, Prod.mk.injEq, and_true]
    have hp : Nat.pow 10 (width + 1) = 10 * Nat.pow 10 width := Nat.mul_comm _ _
    rw [hp, Nat.mod_mul, Nat.mul_add, Nat.mul_assoc]
    omega

/-- What is written with enough digits is read back, whatever follows. -/
theorem digits?_padded {width n : Nat} (h : n < Nat.pow 10 width) (rest : List Char) :
    digits? width (padded width n ++ rest) = some (n, rest) := by
  rw [digits?, digitsAfter?_padded, Nat.mod_eq_of_lt h, Nat.mul_zero, Nat.zero_add]

end AccessPlan.Text
