import AccessPlan.Text.Sign

/-!
# Encodings of bytes

Bytes that begin with zeros in certain places hold text of 16-bit or 32-bit units, because the first character is an
ASCII one; all other bytes hold UTF-8. Units are put together to signs, and half of a surrogate pair that stands alone
is kept.

* `Encoding.ofBytes` finds the encoding, and `decodeUnits16?`, `decodeUnits32?` decode units.
-/

namespace AccessPlan.Text

/-- How characters are written as bytes. -/
inductive Encoding where
  | utf8
  | utf16 (bigEndian : Bool)
  | utf32 (bigEndian : Bool)
  deriving DecidableEq, Repr

/-- The encoding that the first bytes speak for. -/
def Encoding.ofBytes : List UInt8 → Encoding
  | [a, b] => if a = 0 then .utf16 true else if b = 0 then .utf16 false else .utf8
  | a :: b :: c :: d :: _ =>
    if a = 0 then if b = 0 then .utf32 true else .utf16 true
    else if b = 0 then if c = 0 ∧ d = 0 then .utf32 false else .utf16 false
    else .utf8
  | _ => .utf8

/-- The number that bytes write, the most significant one first. -/
def bigEndianValue (bs : List UInt8) : Nat := bs.foldl (fun n b => 256 * n + b.toNat) 0

def unitValue (bigEndian : Bool) (bs : List UInt8) : Nat :=
  bigEndianValue (if bigEndian then bs else bs.reverse)

/-- The units of two bytes, if no byte is left over. -/
def units16? (bigEndian : Bool) : List UInt8 → Option (List Nat)
  | [] => some []
  | a :: b :: bs => (units16? bigEndian bs).map (unitValue bigEndian [a, b] :: ·)
  | [_] => none

/-- The units of four bytes, if no byte is left over. -/
def units32? (bigEndian : Bool) : List UInt8 → Option (List Nat)
  | [] => some []
  | a :: b :: c :: d :: bs => (units32? bigEndian bs).map (unitValue bigEndian [a, b, c, d] :: ·)
  | _ => none

def isHighHalf (code : Nat) : Bool := decide (0xD800 ≤ code ∧ code < 0xDC00)

def isLowHalf (code : Nat) : Bool := decide (0xDC00 ≤ code ∧ code < 0xE000)

/-- The character of a pair of halves. -/
def pairCharacter (high low : Nat) : Char := Char.ofNat (0x10000 + (high - 0xD800) * 0x400 + (low - 0xDC00))

/-- The signs of units of 16 bits. -/
def signsOf16 : List Nat → List Sign
  | high :: low :: units =>
    if isHighHalf high ∧ isLowHalf low then .character (pairCharacter high low) :: signsOf16 units
    else .ofCode high :: signsOf16 (low :: units)
  | [unit] => [.ofCode unit]
  | [] => []

def decodeUnits16? (bigEndian : Bool) (bs : List UInt8) : Option (List Sign) :=
  (units16? bigEndian bs).map signsOf16

/-- The signs of units of 32 bits; a unit beyond the last code has none. -/
def decodeUnits32? (bigEndian : Bool) (bs : List UInt8) : Option (List Sign) :=
  (units32? bigEndian bs).bind fun units =>
    if units.all (· < 0x110000) then some (units.map .ofCode) else none

end AccessPlan.Text
