/-!
# Signs of a text

A text is a sequence of signs: of characters, and of halves of surrogate pairs that stand alone and are no characters.
It is kept in a string of characters in which nearly every character stands for itself. A half is written by two
characters: a mark, and an ideograph that tells which half it is. The mark itself is written in the same way. It is the
character next to the halves in the order of codes, so texts and the strings that keep them are in the same order.

* `signsOf_flatMap`: the signs are read back from the characters that write them.
* `signs_ofPlain`: an ordinary string is kept as the text of its characters.
-/

namespace AccessPlan.Text

/-- Whether a code is half of a surrogate pair. -/
def isHalf (code : Nat) : Bool := decide (0xD800 ≤ code ∧ code < 0xE000)

/-- A character, or half of a surrogate pair that stands alone. -/
inductive Sign where
  | character (c : Char)
  | half (code : Nat)
  deriving DecidableEq, Repr

/-- The character that stands in front of the second one of a sign. -/
def mark : Char := '\ue000'

/-- The characters that write a code from the first half up to the mark. -/
def marked (code : Nat) : List Char := [mark, Char.ofNat (0x4E00 + (code - 0xD800))]

/-- The code that a character stands for behind the mark. -/
def markedCode? (c : Char) : Option Nat :=
  if 0x4E00 ≤ c.toNat ∧ c.toNat ≤ 0x5600 then some (c.toNat - 0x4E00 + 0xD800) else none

namespace Sign

def code : Sign → Nat
  | character c => c.toNat
  | half code => code

/-- The sign of a code. -/
def ofCode (code : Nat) : Sign := if isHalf code then half code else character (Char.ofNat code)

/-- The characters that write a sign. -/
def characters : Sign → List Char
  | character c => if c = mark then marked c.toNat else [c]
  | half code => marked code

def isHalf : Sign → Bool
  | character _ => false
  | half _ => true

/-- The character of a sign that is one. -/
def character? : Sign → Option Char
  | character c => some c
  | half _ => none

/-- A sign is well formed if it is a character, or its code is that of a half. -/
def IsWellFormed : Sign → Prop
  | character _ => True
  | half code => Text.isHalf code = true

end Sign

/-- The code that a character writes behind the character `c`, if `c` is the mark. -/
def codeBehind? (c d : Char) : Option Nat := if c = mark then markedCode? d else none

/-- The signs that characters write. -/
def signsOf : List Char → List Sign
  | [] => []
  | [c] => [.character c]
  | c :: d :: cs =>
    match codeBehind? c d with
    | some code => .ofCode code :: signsOf cs
    | none => .character c :: signsOf (d :: cs)

/-- The signs of a text. -/
def signs (s : String) : List Sign := signsOf s.toList

/-- The text of signs. -/
def ofSigns (signs : List Sign) : String := String.ofList (signs.flatMap Sign.characters)

/-- The text of the characters of an ordinary string. -/
def ofPlain (s : String) : String := ofSigns (s.toList.map .character)

/-- The number of bytes that the characters among signs have. -/
def byteCount (signs : List Sign) : Nat := (signs.filterMap Sign.character?).foldr (fun c count => c.utf8Size + count) 0

/-- The number of signs in a text. -/
def length (s : String) : Nat := (signs s).length

/-- Whether a text has no half that stands alone. -/
def isWhole (s : String) : Bool := !(signs s).any Sign.isHalf

/-! ## Reading back -/

theorem toNat_ofNat {n : Nat} (h : n.isValidChar) : (Char.ofNat n).toNat = n := by
  rw [Char.ofNat, dif_pos h]
  rfl

theorem markedCode?_ofNat {k : Nat} (h : k ≤ 0x800) : markedCode? (Char.ofNat (0x4E00 + k)) = some (k + 0xD800) := by
  have hv : (0x4E00 + k).isValidChar := by unfold Nat.isValidChar; omega
  have hb : 0x4E00 ≤ 0x4E00 + k ∧ 0x4E00 + k ≤ 0x5600 := by omega
  rw [markedCode?, toNat_ofNat hv, if_pos hb, Nat.add_sub_cancel_left]

theorem signsOf_mark {k : Nat} (h : k ≤ 0x800) (cs : List Char) :
    signsOf (mark :: Char.ofNat (0x4E00 + k) :: cs) = .ofCode (k + 0xD800) :: signsOf cs := by
  simp [signsOf, codeBehind?, markedCode?_ofNat h]

theorem signsOf_marked {code : Nat} (h : 0xD800 ≤ code ∧ code ≤ 0xE000) (cs : List Char) :
    signsOf (marked code ++ cs) = .ofCode code :: signsOf cs := by
  obtain ⟨k, rfl⟩ := Nat.exists_eq_add_of_le' h.1
  rw [marked, Nat.add_sub_cancel]
  exact signsOf_mark (by omega) cs

theorem signsOf_cons {c : Char} (h : c ≠ mark) (cs : List Char) : signsOf (c :: cs) = .character c :: signsOf cs := by
  cases cs <;> simp [signsOf, codeBehind?, h]

/-- The sign in front is read back, whatever follows. -/
theorem signsOf_characters {x : Sign} (h : x.IsWellFormed) (cs : List Char) :
    signsOf (x.characters ++ cs) = x :: signsOf cs := by
  cases x with
  | character c =>
    by_cases hc : c = mark
    · subst hc
      exact @signsOf_marked 0xE000 (by omega) cs
    · simpa [Sign.characters, hc] using signsOf_cons hc cs
  | half code =>
    have hh : isHalf code = true := h
    have hb : 0xD800 ≤ code ∧ code < 0xE000 := by simpa [isHalf] using hh
    rw [Sign.characters, signsOf_marked (by omega), Sign.ofCode, if_pos hh]

/-- Signs are read back from the characters that write them. -/
theorem signsOf_flatMap : ∀ {xs : List Sign}, (∀ x ∈ xs, x.IsWellFormed) → signsOf (xs.flatMap Sign.characters) = xs
  | [], _ => rfl
  | x :: xs, h => by
    rw [List.flatMap_cons, signsOf_characters (h x List.mem_cons_self),
      signsOf_flatMap fun y hy => h y (List.mem_cons_of_mem _ hy)]

/-- An ordinary string is kept as the text of its characters. -/
theorem signs_ofPlain (s : String) : signs (ofPlain s) = s.toList.map .character := by
  rw [signs, ofPlain, ofSigns, String.toList_ofList]
  exact signsOf_flatMap fun x hx => by
    obtain ⟨c, -, rfl⟩ := List.mem_map.1 hx
    trivial

/-- Only the empty text has no signs. -/
theorem length_eq_zero {s : String} : length s = 0 ↔ s = "" := by
  rw [length, signs, List.length_eq_zero_iff, ← String.toList_eq_nil_iff]
  match s.toList with
  | [] => simp [signsOf]
  | [c] => simp [signsOf]
  | c :: d :: cs => cases h : codeBehind? c d <;> simp [signsOf, h]

end AccessPlan.Text
