import AccessPlan.Text.Quoted

/-!
# UTF-8

Bytes are decoded to characters. A sequence that breaks off or that no character has is replaced, as far as it could
have been the start of a character, by one replacement character. Half of a surrogate pair has no bytes, so a text
that holds one is not encoded.

* `isOk_encodeUtf8`: a text has bytes exactly when no half stands in it.
* `plain_ofPlain`: an ordinary string is read back from its text.
-/

namespace AccessPlan.Text

/-! ## Decoding -/

/-- The first byte of a character of several bytes: how many bytes follow, the range of the next one, and the bits
that the first byte adds. -/
structure Lead where
  following : Nat
  low : Nat
  high : Nat
  bits : Nat

def lead? (b : Nat) : Option Lead :=
  if 0xC2 ≤ b ∧ b ≤ 0xDF then some ⟨1, 0x80, 0xBF, b - 0xC0⟩
  else if b = 0xE0 then some ⟨2, 0xA0, 0xBF, 0⟩
  else if b = 0xED then some ⟨2, 0x80, 0x9F, b - 0xE0⟩
  else if 0xE1 ≤ b ∧ b ≤ 0xEF then some ⟨2, 0x80, 0xBF, b - 0xE0⟩
  else if b = 0xF0 then some ⟨3, 0x90, 0xBF, 0⟩
  else if 0xF1 ≤ b ∧ b ≤ 0xF3 then some ⟨3, 0x80, 0xBF, b - 0xF0⟩
  else if b = 0xF4 then some ⟨3, 0x80, 0x8F, b - 0xF0⟩
  else none

def replacement : Char := '\ufffd'

/-- The character whose first bytes gave `bits`, with `following` bytes to come, and the rest. The next byte has to be
from `low` to `high`. -/
def tail : (following low high bits : Nat) → List UInt8 → Char × List UInt8
  | 0, _, _, bits, bs => (Char.ofNat bits, bs)
  | _ + 1, _, _, _, [] => (replacement, [])
  | following + 1, low, high, bits, b :: bs =>
    if low ≤ b.toNat ∧ b.toNat ≤ high then tail following 0x80 0xBF (bits * 64 + (b.toNat - 0x80)) bs
    else (replacement, b :: bs)

/-- The characters of at most `fuel` bytes. -/
def decodeBytes : (fuel : Nat) → List UInt8 → List Char
  | 0, _ => []
  | _ + 1, [] => []
  | fuel + 1, b :: bs =>
    if b.toNat < 0x80 then Char.ofNat b.toNat :: decodeBytes fuel bs
    else match lead? b.toNat with
      | none => replacement :: decodeBytes fuel bs
      | some l =>
        let (c, rest) := tail l.following l.low l.high l.bits bs
        c :: decodeBytes fuel rest

/-- The characters of bytes; what is no character is replaced. -/
def decodeUtf8 (bs : List UInt8) : List Char := decodeBytes bs.length bs

/-! ## Encoding -/

/-- Halves of surrogate pairs that stand one after another in a text: the code of the first one, the number of signs
before it, and how many they are. -/
structure LoneHalves where
  code : Nat
  position : Nat
  count : Nat
  deriving DecidableEq, Repr

/-- What is said of a text with halves that has to be encoded. -/
def LoneHalves.message (h : LoneHalves) : String :=
  if h.count = 1 then
    let shown := String.ofList (escapedCode h.code)
    s!"'utf-8' codec can't encode character '{shown}' in position {h.position}: surrogates not allowed"
  else
    let last := h.position + h.count - 1
    s!"'utf-8' codec can't encode characters in position {h.position}-{last}: surrogates not allowed"

/-- The halves from the first sign on that is not fit, if there is one. -/
def firstHalves? (isFit : Sign → Bool) (xs : List Sign) : Option LoneHalves :=
  let rest := xs.dropWhile isFit
  rest.head?.map fun x => ⟨x.code, xs.length - rest.length, (rest.takeWhile Sign.isHalf).length⟩

/-- The first halves in a text, if it holds any. -/
def loneHalves? (s : String) : Option LoneHalves := firstHalves? (fun x => !x.isHalf) (signs s)

/-- The ordinary string of a text without halves. -/
def plain (s : String) : Except LoneHalves String :=
  match loneHalves? s with
  | some h => .error h
  | none => .ok (String.ofList ((signs s).filterMap Sign.character?))

/-- The bytes of a text; only one without halves has bytes. -/
def encodeUtf8 (s : String) : Except LoneHalves (List UInt8) := (fun t => t.toUTF8.toList) <$> plain s

/-- The text with three replacement characters, one for every byte, in the place of each half. -/
def withoutHalves (s : String) : String :=
  if isWhole s then s
  else ofSigns ((signs s).flatMap fun x => if x.isHalf then List.replicate 3 (.character replacement) else [x])

theorem withoutHalves_of_isWhole {s : String} (h : isWhole s = true) : withoutHalves s = s := if_pos h

theorem dropWhile_whole_eq_nil_iff (xs : List Sign) :
    (xs.dropWhile fun x => !x.isHalf) = [] ↔ ∀ x ∈ xs, x.isHalf = false := by
  induction xs with
  | nil => simp
  | cons x xs ih => cases h : x.isHalf <;> simp [List.dropWhile, h, ih]

theorem loneHalves?_eq_none {s : String} : loneHalves? s = none ↔ isWhole s = true := by
  rw [loneHalves?, firstHalves?, isWhole]
  simp only [Option.map_eq_none_iff, List.head?_eq_none_iff, dropWhile_whole_eq_nil_iff]
  simp

/-- A text has bytes exactly when no half stands in it. -/
theorem isOk_encodeUtf8 {s : String} : (encodeUtf8 s).isOk = isWhole s := by
  cases h : loneHalves? s with
  | none => rw [loneHalves?_eq_none.1 h, encodeUtf8, plain, h]; rfl
  | some halves =>
    have hw : isWhole s = false := by
      rw [← Bool.not_eq_true, ← loneHalves?_eq_none, h]
      simp
    rw [hw, encodeUtf8, plain, h]
    rfl

theorem filterMap_character? (cs : List Char) : (cs.map Sign.character).filterMap Sign.character? = cs := by
  induction cs with
  | nil => rfl
  | cons c cs ih => simp only [List.map_cons, List.filterMap_cons, Sign.character?, ih]

/-- An ordinary string is read back from the text of its characters. -/
theorem plain_ofPlain (s : String) : plain (ofPlain s) = .ok s := by
  have hw : loneHalves? (ofPlain s) = none := by
    rw [loneHalves?_eq_none, isWhole, signs_ofPlain]
    simp [Sign.isHalf]
  rw [plain, hw, signs_ofPlain, filterMap_character?, String.ofList_toList]

end AccessPlan.Text
