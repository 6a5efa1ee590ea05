/-!
# Sets of characters given by their boundaries

A set of code points is written as the ascending list of the points where membership changes: the
first boundary opens the first range, the second closes it, and so on.
-/

namespace Wwan.Text

/-- Membership in the set with the given boundaries: an odd number of them lies at or below `n`. -/
def inRanges (boundaries : List Nat) (n : Nat) : Bool :=
  boundaries.countP (· ≤ n) % 2 == 1

/-- Whether a character lies between two code points, both included. -/
def isWithin (first last : Nat) (c : Char) : Bool :=
  first ≤ c.toNat && c.toNat ≤ last

end Wwan.Text
