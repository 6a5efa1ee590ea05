import Wwan.Text.Ranges

/-!
# White space

The characters with the property White_Space, and trimming by it.
-/

namespace Wwan.Text

/-- The boundaries of the ranges of white space. -/
def blankBoundaries : List Nat :=
  [0x9, 0xe, 0x20, 0x21, 0x85, 0x86, 0xa0, 0xa1, 0x1680, 0x1681, 0x2000, 0x200b, 0x2028, 0x202a,
   0x202f, 0x2030, 0x205f, 0x2060, 0x3000, 0x3001]

/-- Whether a character is white space. -/
def isBlank (c : Char) : Bool :=
  inRanges blankBoundaries c.toNat

/-- A text without the white space at its two ends. -/
def trimBlank (cs : List Char) : List Char :=
  ((cs.dropWhile isBlank).reverse.dropWhile isBlank).reverse

/-- A text without any white space. -/
def removeBlank (s : String) : String :=
  String.ofList (s.toList.filter fun c => !isBlank c)

end Wwan.Text
