import Wwan.Value.Encoding

/-!
# Writing step by step

An encoder adds to a destination, one part behind the other, and what it has added stays there when a later
part is refused.  On the way sizes are reckoned: each of them is a word of the machine, and one that no word
holds stops the program or wraps around, as the program was built.
-/

namespace Wwan

/-- What becomes of a size that no word holds. -/
inductive Overflow where
  /-- The program stops. -/
  | stops
  /-- What the word cannot hold is dropped. -/
  | wraps

/-- Why writing ends early. -/
inductive Halt where
  /-- The value cannot be written. -/
  | refused (e : ValueError)
  /-- A size is reckoned that no word holds. -/
  | overflow
  /-- More room is asked for than a destination can have. -/
  | noRoom
  deriving DecidableEq

/-- A step of writing: adds to the destination, also when it ends early. -/
abbrev Encoder := EStateM Halt Bytes

namespace Encoder

/-- The first number that is no size. -/
def sizeBound : Nat := Bytes.bound 8

/-- The first size that no destination can have: half of them are kept for differences. -/
def roomBound : Nat := sizeBound / 2

/-- The size with this exact value. -/
def size (o : Overflow) (exact : Int) : Encoder Nat :=
  if 0 ≤ exact ∧ exact < sizeBound then return exact.toNat
  else
    match o with
    | .stops => throw .overflow
    | .wraps => return (exact % sizeBound).toNat

/-- The product of two sizes, if it is a size. -/
def product? (m n : Nat) : Option Nat :=
  if m * n < sizeBound then some (m * n) else none

/-- The number of zeros before the first one of the 64 digits of a size in binary. -/
def leadingZeros (n : Nat) : Nat :=
  if n = 0 then 64 else 63 - n.log2

/-- Adds bytes at the end. -/
def put (bs : Bytes) : Encoder Unit :=
  modify (· ++ bs)

/-- Refuses a value. -/
def refuse {α : Type} (e : ValueError) : Encoder α :=
  throw (.refused e)

/-- Writes an integer in `width` octets, if it fits. -/
def int (o : Overflow) (width : Nat) (n : UInt32) : Encoder Unit := do
  if width < 1 ∨ 4 < width then refuse (.invalidWidth width)
  if Bytes.bound width ≤ n.toNat then refuse (.overflow n width)
  put [Value.intTag]
  put [UInt8.ofNat width]
  put ((Bytes.ofWordBE n).drop (← size o (4 - width)))

/-- Writes a length: in one octet below 128, else behind the number of its octets, which leaves out those
that are zero at its top. -/
def length (o : Overflow) (n : Nat) : Encoder Unit := do
  if n < 0x80 then put [UInt8.ofNat n]
  else
    let count ← size o (8 - leadingZeros n / 8)
    put [0x80 ||| UInt8.ofNat count]
    put ((Bytes.ofNatLE 8 n).take count)

/-- Writes a string into a field of `capacity` elements of `width` octets, if it fits.  Nothing is written
before it is known to fit. -/
def string (o : Overflow) (capacity width : Nat) (data : Bytes) : Encoder Unit := do
  match Width.ofNat? width with
  | none => refuse (.invalidWidth width)
  | some w =>
    if data.length % width ≠ 0 then refuse (.unaligned data.length width)
    let elements := data.length / width
    let tooLong := ValueError.tooLong elements capacity
    if capacity < elements then refuse tooLong
    match product? capacity width with
    | none => refuse tooLong
    | some field =>
      let padding ← size o (field - data.length)
      if Bytes.bound 4 ≤ field then refuse tooLong
      let _room ← size o (16 + field)
      put [w.tag]
      length o elements
      int o 4 (UInt32.ofNat field)
      int o 4 (UInt32.ofNat padding)
      put data
      put (Bytes.zeros padding)

/-- What an encoder writes to an empty destination. -/
def run (d : Encoder Unit) : Except Halt Bytes :=
  match d [] with
  | .ok _ bs => .ok bs
  | .error h _ => .error h

/-- Writes a string to a destination of its own.  Room for its field and what stands before it is made first,
whatever becomes of the string. -/
def stringAlone (o : Overflow) (capacity width : Nat) (data : Bytes) : Except Halt Bytes :=
  run do
    let field ← size o (capacity * width)
    let room ← size o (16 + field)
    if roomBound ≤ room then throw .noRoom
    string o capacity width data

end Encoder

end Wwan
