import Wwan.Digest.Sha256

/-!
# The FCC lock

A locked modem keeps its radio off until the host answers a challenge: with the first word of the
digest of the challenge and a key.
-/

namespace Wwan.FccLock

/-- How the lock was found. -/
inductive Outcome where
  /-- The modem has no lock. -/
  | notRequired
  | alreadyUnlocked
  /-- The challenge was answered, and the modem accepted it. -/
  | unlocked
  deriving DecidableEq

/-- The key behind the challenge. -/
def key : Bytes := [0x3d, 0xf8, 0xc7, 0x19]

/-- The answer to a challenge. -/
def response (challenge : UInt32) : UInt32 :=
  Bytes.toWordLE ((Sha256.digest (Bytes.ofWordLE challenge ++ key)).take 4)

end Wwan.FccLock
