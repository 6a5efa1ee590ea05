import Wwan.Bytes

/-!
# SHA-256

The digest of a byte string: it is padded to blocks of 64 bytes, and each block is mixed into eight
words in 64 rounds.
-/

namespace Wwan.Sha256

/-- The eight words that a digest is made of. -/
structure Words where
  a : UInt32
  b : UInt32
  c : UInt32
  d : UInt32
  e : UInt32
  f : UInt32
  g : UInt32
  h : UInt32

/-- The words before the first block: the fractional parts of the square roots of the first eight
primes. -/
def initial : Words :=
  ⟨0x6a09e667, 0xbb67ae85, 0x3c6ef372, 0xa54ff53a, 0x510e527f, 0x9b05688c, 0x1f83d9ab, 0x5be0cd19⟩

/-- The words of the 64 rounds: the fractional parts of the cube roots of the first 64 primes. -/
def roundWords : List UInt32 :=
  [0x428a2f98, 0x71374491, 0xb5c0fbcf, 0xe9b5dba5, 0x3956c25b, 0x59f111f1, 0x923f82a4, 0xab1c5ed5,
   0xd807aa98, 0x12835b01, 0x243185be, 0x550c7dc3, 0x72be5d74, 0x80deb1fe, 0x9bdc06a7, 0xc19bf174,
   0xe49b69c1, 0xefbe4786, 0x0fc19dc6, 0x240ca1cc, 0x2de92c6f, 0x4a7484aa, 0x5cb0a9dc, 0x76f988da,
   0x983e5152, 0xa831c66d, 0xb00327c8, 0xbf597fc7, 0xc6e00bf3, 0xd5a79147, 0x06ca6351, 0x14292967,
   0x27b70a85, 0x2e1b2138, 0x4d2c6dfc, 0x53380d13, 0x650a7354, 0x766a0abb, 0x81c2c92e, 0x92722c85,
   0xa2bfe8a1, 0xa81a664b, 0xc24b8b70, 0xc76c51a3, 0xd192e819, 0xd6990624, 0xf40e3585, 0x106aa070,
   0x19a4c116, 0x1e376c08, 0x2748774c, 0x34b0bcb5, 0x391c0cb3, 0x4ed8aa4a, 0x5b9cca4f, 0x682e6ff3,
   0x748f82ee, 0x78a5636f, 0x84c87814, 0x8cc70208, 0x90befffa, 0xa4506ceb, 0xbef9a3f7, 0xc67178f2]

/-- The bits of a word turned to the right by `n` places. -/
def rotate (n x : UInt32) : UInt32 :=
  (x >>> n) ||| (x <<< (32 - n))

/-- The word that follows sixteen words of a block's schedule. -/
def nextWord (window : List UInt32) : UInt32 :=
  let entry (i : Nat) : UInt32 := (window[i]?).getD 0
  let x := entry 1
  let y := entry 14
  let s₀ := rotate 7 x ^^^ rotate 18 x ^^^ (x >>> 3)
  let s₁ := rotate 17 y ^^^ rotate 19 y ^^^ (y >>> 10)
  entry 0 + s₀ + entry 9 + s₁

/-- One round, with the word `k` of the round and the word `w` of the block. -/
def round (s : Words) (k w : UInt32) : Words :=
  let s₁ := rotate 6 s.e ^^^ rotate 11 s.e ^^^ rotate 25 s.e
  let choice := (s.e &&& s.f) ^^^ (~~~s.e &&& s.g)
  let t₁ := s.h + s₁ + choice + k + w
  let s₀ := rotate 2 s.a ^^^ rotate 13 s.a ^^^ rotate 22 s.a
  let majority := (s.a &&& s.b) ^^^ (s.a &&& s.c) ^^^ (s.b &&& s.c)
  let t₂ := s₀ + majority
  ⟨t₁ + t₂, s.a, s.b, s.c, s.d + t₁, s.e, s.f, s.g⟩

/-- Mixes a block, given as sixteen words, into the words of a digest. -/
def mix (s : Words) (block : List UInt32) : Words :=
  let (t, _) := roundWords.foldl
    (fun (t, window) k => (round t k (window.headD 0), window.tail ++ [nextWord window])) (s, block)
  ⟨s.a + t.a, s.b + t.b, s.c + t.c, s.d + t.d, s.e + t.e, s.f + t.f, s.g + t.g, s.h + t.h⟩

/-- The big-endian words of a byte string, four bytes each. -/
def wordsOf : Bytes → List UInt32
  | a :: b :: c :: d :: rest => Bytes.toWordBE [a, b, c, d] :: wordsOf rest
  | _ => []

/-- A byte string with a one bit, zeros, and its length in bits behind it: whole blocks. -/
def pad (bs : Bytes) : Bytes :=
  bs ++ 0x80 :: Bytes.zeros ((119 - bs.length % 64) % 64) ++ Bytes.ofNatBE 8 (8 * bs.length)

/-- Mixes the blocks of sixteen words one after another. -/
def mixAll (s : Words) (ws : List UInt32) : Words :=
  match ws with
  | [] => s
  | w :: rest => mixAll (mix s ((w :: rest).take 16)) (rest.drop 15)
termination_by ws.length
decreasing_by
  simp only [List.length_drop, List.length_cons]
  omega

/-- The digest of a byte string. -/
def digest (bs : Bytes) : Bytes :=
  let s := mixAll initial (wordsOf (pad bs))
  [s.a, s.b, s.c, s.d, s.e, s.f, s.g, s.h].flatMap Bytes.ofWordBE

theorem length_pad (bs : Bytes) : (pad bs).length % 64 = 0 := by
  simp only [pad, List.length_append, List.length_cons, Bytes.length_zeros, Bytes.length_ofNatBE]
  omega

@[simp] theorem length_digest (bs : Bytes) : (digest bs).length = 32 := by
  simp [digest]

end Wwan.Sha256
