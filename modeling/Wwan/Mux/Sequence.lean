/-!
# Sequence numbers

Frames are numbered by an octet, from 1 on; after 255 comes 0.
-/

namespace Wwan

/-- The number of the last frame; zero before the first. -/
structure Sequence where
  last : UInt8 := 0
  deriving DecidableEq

namespace Sequence

/-- Goes on to the next number, which is then the last one. -/
def advance (s : Sequence) : Sequence :=
  ⟨s.last + 1⟩

/-- Goes on by `n` numbers. -/
def advanceBy : Nat → Sequence → Sequence
  | 0, s => s
  | n + 1, s => advanceBy n s.advance

/-- The number after `n` frames. -/
theorem toNat_advanceBy (n : Nat) (s : Sequence) :
    (advanceBy n s).last.toNat = (s.last.toNat + n) % 256 := by
  induction n generalizing s with
  | zero =>
    have := s.last.toNat_lt
    simp only [advanceBy]
    omega
  | succ n ih =>
    rw [advanceBy, ih]
    simp only [advance, UInt8.toNat_add, UInt8.reduceToNat]
    omega

end Sequence

end Wwan
