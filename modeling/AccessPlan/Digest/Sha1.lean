import AccessPlan.Text.Quoted

/-!
# The secure hash algorithm SHA-1

The message is padded to blocks of sixteen words of 32 bits. Each block is stretched to eighty words, which drive
eighty rounds over a state of five words.
-/

namespace AccessPlan.Digest

def rotateLeft (w : UInt32) (n : UInt32) : UInt32 := (w <<< n) ||| (w >>> (32 - n))

/-- The state of the algorithm. -/
structure State where
  a : UInt32
  b : UInt32
  c : UInt32
  d : UInt32
  e : UInt32

namespace State

def initial : State := ⟨0x67452301, 0xEFCDAB89, 0x98BADCFE, 0x10325476, 0xC3D2E1F0⟩

def add (s t : State) : State := ⟨s.a + t.a, s.b + t.b, s.c + t.c, s.d + t.d, s.e + t.e⟩

/-- The mixing function and the constant of a round. -/
def mixing (s : State) (round : Nat) : UInt32 × UInt32 :=
  if round < 20 then ((s.b &&& s.c) ||| (~~~s.b &&& s.d), 0x5A827999)
  else if round < 40 then (s.b ^^^ s.c ^^^ s.d, 0x6ED9EBA1)
  else if round < 60 then ((s.b &&& s.c) ||| (s.b &&& s.d) ||| (s.c &&& s.d), 0x8F1BBCDC)
  else (s.b ^^^ s.c ^^^ s.d, 0xCA62C1D6)

/-- One round, driven by one word. -/
def step (s : State) (round : Nat) (word : UInt32) : State :=
  let (mixed, constant) := s.mixing round
  ⟨rotateLeft s.a 5 + mixed + s.e + constant + word, s.a, rotateLeft s.b 30, s.c, s.d⟩

def words (s : State) : List UInt32 := [s.a, s.b, s.c, s.d, s.e]

end State

/-- The next word of a block that is being stretched; its words come last one first. -/
def nextWord (reversed : List UInt32) : UInt32 :=
  rotateLeft (reversed.getD 2 0 ^^^ reversed.getD 7 0 ^^^ reversed.getD 13 0 ^^^ reversed.getD 15 0) 1

/-- The block with `count` words more, last one first. -/
def stretch : (count : Nat) → (reversed : List UInt32) → List UInt32
  | 0, reversed => reversed
  | count + 1, reversed => stretch count (nextWord reversed :: reversed)

/-- The state after the rounds of one block. -/
def absorb (s : State) (block : List UInt32) : State :=
  let words := (stretch 64 block.reverse).reverse
  s.add (words.zipIdx.foldl (fun s w => s.step w.2 w.1) s)

/-- The bytes of a number, `count` of them, the greatest first. -/
def bytesOf (count n : Nat) : List UInt8 :=
  ((List.range count).map fun i => UInt8.ofNat (n >>> (8 * i))).reverse

/-- The message with a one bit, zeros up to a whole number of blocks, and its length in bits. -/
def pad (message : List UInt8) : List UInt8 :=
  message ++ 0x80 :: List.replicate ((119 - message.length % 64) % 64) 0 ++ bytesOf 8 (8 * message.length)

/-- Words of four bytes each. -/
def wordsOf : List UInt8 → List UInt32
  | a :: b :: c :: d :: rest =>
    ((a.toUInt32 <<< 24) ||| (b.toUInt32 <<< 16) ||| (c.toUInt32 <<< 8) ||| d.toUInt32) :: wordsOf rest
  | _ => []

/-- The state after `count` blocks of sixteen words. -/
def absorbAll : (count : Nat) → State → List UInt32 → State
  | 0, s, _ => s
  | count + 1, s, words => absorbAll count (absorb s (words.take 16)) (words.drop 16)

/-- The twenty bytes of the hash of a message. -/
def sha1 (message : List UInt8) : List UInt8 :=
  let words := wordsOf (pad message)
  (absorbAll (words.length / 16) .initial words).words.flatMap fun w => bytesOf 4 w.toNat

end AccessPlan.Digest
