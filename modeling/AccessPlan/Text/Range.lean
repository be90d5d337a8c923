/-!
# Ranges of code points
-/

namespace AccessPlan.Text

/-- Whether a character lies in one of the ranges, each given by its first and last code point. -/
def inRanges (ranges : List (Nat × Nat)) (c : Char) : Bool :=
  ranges.any fun r => decide (r.1 ≤ c.toNat ∧ c.toNat ≤ r.2)

end AccessPlan.Text
