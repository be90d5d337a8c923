import AccessPlan.Digest.Sha1

/-!
# Name-based identifiers

An identifier of 128 bits is derived from a namespace and a name (version 5: by SHA-1), so equal names have equal
identifiers.
-/

namespace AccessPlan.Digest

/-- The sixteen bytes of an identifier from the hash of its namespace and name: the version and the variant are set,
and the rest of the hash is cut off. -/
def identifierBytes (hash : List UInt8) : List UInt8 :=
  (hash.take 16).zipIdx.map fun (byte, i) =>
    if i = 6 then (byte &&& 0x0F) ||| 0x50 else if i = 8 then (byte &&& 0x3F) ||| 0x80 else byte

/-- Bytes as digits to the base sixteen. -/
def hexText (bytes : List UInt8) : List Char := bytes.flatMap fun b => Text.hex 2 b.toNat

/-- The written form: groups of 8, 4, 4, 4 and 12 digits. -/
def identifierText (bytes : List UInt8) : String :=
  let group (start count : Nat) := hexText ((bytes.drop start).take count)
  String.ofList (group 0 4 ++ '-' :: group 4 2 ++ '-' :: group 6 2 ++ '-' :: group 8 2 ++ '-' :: group 10 6)

/-- The identifier of the bytes of a name in a namespace. -/
def nameIdentifier (nameSpace name : List UInt8) : String :=
  identifierText (identifierBytes (sha1 (nameSpace ++ name)))

end AccessPlan.Digest
