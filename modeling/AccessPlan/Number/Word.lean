import AccessPlan.Number.Binary64

/-!
# Integers of 64 bits

Some checks take an integer only if a signed word of 64 bits holds it. A binary number is taken as an integer only
strictly between the bounds, so that the least word, which is also what smaller numbers are cut to, does not count.
-/

namespace AccessPlan

/-- The least integer that is too large for a signed word of 64 bits. -/
def wordLimit : Int := 0x8000000000000000

/-- Whether a signed word of 64 bits holds an integer. -/
def isWord (n : Int) : Bool := decide (-wordLimit ≤ n ∧ n < wordLimit)

/-- Whether an integer that a binary number is lies strictly between the bounds of the signed words. -/
def isInnerWord (n : Int) : Bool := decide (-wordLimit < n ∧ n < wordLimit)

end AccessPlan
