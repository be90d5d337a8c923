import AccessPlan.Text.Range

/-!
# White space and blanks

* `isWhiteSpace` is the property White_Space; it is what may surround a number.
* `isBlank` has the four information separators, code points 28 to 31, as well; a text of blanks only is no owner id.
-/

namespace AccessPlan.Text

/-- The characters with the property White_Space. -/
def whiteSpace : List (Nat × Nat) := [
  (9, 13), (32, 32), (133, 133), (160, 160), (5760, 5760), (8192, 8202), (8232, 8233), (8239, 8239), (8287, 8287),
  (12288, 12288)]

def isWhiteSpace (c : Char) : Bool := inRanges whiteSpace c

def isBlank (c : Char) : Bool := isWhiteSpace c || inRanges [(28, 31)] c

/-- Whether a text has no character other than blanks. -/
def allBlank (s : String) : Bool := s.toList.all isBlank

/-- The text without the white space around it. -/
def trimmed (cs : List Char) : List Char :=
  ((cs.dropWhile isWhiteSpace).reverse.dropWhile isWhiteSpace).reverse

end AccessPlan.Text
