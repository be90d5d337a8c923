import AccessPlan.Text.Utf8

/-!
# Texts for the operating system

Variables of an environment and locations of files are bytes without zeros. The characters of a text have their bytes,
and a half from U+DC80 to U+DCFF stands for one byte that is part of no character. No other half stands for a byte.

* `signsOfBytes_flatMap`: the bytes of characters are read back as these characters.
-/

namespace AccessPlan.Text

/-- The bytes that a sign stands for. -/
def Sign.bytes : Sign → List UInt8
  | character c => String.utf8EncodeChar c
  | half code => if 0xDC80 ≤ code ∧ code < 0xDD00 then [UInt8.ofNat (code - 0xDC00)] else []

/-- Why a text is nothing for the operating system. -/
inductive SystemFault where
  /-- Halves from the first one that stands for no byte. -/
  | halves (found : LoneHalves)
  | zeroByte

def SystemFault.message : SystemFault → String
  | halves found => found.message
  | zeroByte => "embedded null byte"

/-- The bytes that a text stands for. -/
def systemBytes (s : String) : Except SystemFault (List UInt8) :=
  match firstHalves? (fun x => !x.bytes.isEmpty) (signs s) with
  | some found => .error (.halves found)
  | none =>
    let bytes := (signs s).flatMap Sign.bytes
    if bytes.contains 0 then .error .zeroByte else .ok bytes

/-- The signs of bytes behind the first `skipped` ones. A byte that starts no character is a half. -/
def signsOfBytes : (skipped : Nat) → List UInt8 → List Sign
  | _, [] => []
  | skipped + 1, _ :: bs => signsOfBytes skipped bs
  | 0, b :: bs =>
    match ((b :: bs).take 4).toByteArray.utf8DecodeChar? 0 with
    | some c => .character c :: signsOfBytes (c.utf8Size - 1) bs
    | none => .half (0xDC00 + b.toNat) :: signsOfBytes 0 bs

/-- The text that bytes write. -/
def ofSystemBytes (bs : List UInt8) : String := ofSigns (signsOfBytes 0 bs)

/-! ## Reading back -/

theorem signsOfBytes_append : ∀ (xs bs : List UInt8), signsOfBytes xs.length (xs ++ bs) = signsOfBytes 0 bs
  | [], _ => rfl
  | _ :: xs, bs => signsOfBytes_append xs bs

theorem take_four_encoded (c : Char) (bs : List UInt8) :
    ((String.utf8EncodeChar c ++ bs).take 4).toByteArray.utf8DecodeChar? 0 = some c := by
  have h : (String.utf8EncodeChar c).length ≤ 4 := by
    rw [String.length_utf8EncodeChar]
    exact c.utf8Size_le_four
  rw [List.take_append, List.take_of_length_le h, List.toByteArray_append]
  exact ByteArray.utf8DecodeChar?_utf8EncodeChar_append

/-- The character in front is read back from its bytes, whatever follows. -/
theorem signsOfBytes_encoded (c : Char) (bs : List UInt8) :
    signsOfBytes 0 (String.utf8EncodeChar c ++ bs) = .character c :: signsOfBytes 0 bs := by
  have h := take_four_encoded c bs
  have hl := String.length_utf8EncodeChar c
  match hc : String.utf8EncodeChar c with
  | [] =>
    rw [hc] at hl
    exact absurd c.utf8Size_pos (by simp [← hl])
  | x :: xs =>
    rw [hc] at h hl
    have hs : c.utf8Size - 1 = xs.length := by simp [← hl]
    rw [List.cons_append] at h ⊢
    rw [signsOfBytes, h]
    simp only [hs, signsOfBytes_append]

/-- Characters are read back from their bytes. -/
theorem signsOfBytes_flatMap : ∀ cs : List Char,
    signsOfBytes 0 (cs.flatMap String.utf8EncodeChar) = cs.map .character
  | [] => rfl
  | c :: cs => by rw [List.flatMap_cons, signsOfBytes_encoded, signsOfBytes_flatMap cs, List.map_cons]

end AccessPlan.Text
