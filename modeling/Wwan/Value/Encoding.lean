import Wwan.Value.Basic

/-!
# Writing values

An integer is its tag, its width and its octets, most significant first.  A string is its tag, the
number of its elements, the octets of its field and of the unused part of it as integers, its data,
and zeros up to the field's end.
-/

namespace Wwan.Value

/-- An integer in `width` octets. -/
def integer (width : Nat) (n : UInt32) : Bytes :=
  intTag :: UInt8.ofNat width :: Bytes.ofNatBE width n.toNat

/-- Writes an integer in `width` octets, if it fits. -/
def encodeInt (width : Nat) (n : UInt32) : Except ValueError Bytes :=
  if width < 1 ∨ 4 < width then .error (.invalidWidth width)
  else if Bytes.bound width ≤ n.toNat then .error (.overflow n width)
  else .ok (integer width n)

/-- The fewest octets of `n`, least significant first; none for zero. -/
def fewestOctets (n : Nat) : Bytes :=
  if n = 0 then [] else UInt8.ofNat n :: fewestOctets (n / 256)
termination_by n
decreasing_by omega

/-- A length: one octet below 128, else the number of the octets that follow, with its top bit set,
and these. -/
def lengthField (n : Nat) : Bytes :=
  if n < 0x80 then [UInt8.ofNat n]
  else
    let octets := fewestOctets n
    (0x80 ||| UInt8.ofNat octets.length) :: octets

/-- A string of `elements` elements whose field has `field` octets. -/
def stringField (w : Width) (elements field : Nat) (data : Bytes) : Bytes :=
  w.tag :: lengthField elements ++ integer 4 (UInt32.ofNat field)
    ++ integer 4 (UInt32.ofNat (field - data.length)) ++ data ++ Bytes.zeros (field - data.length)

/-- An integer of one octet. -/
def byte (n : UInt8) : Bytes :=
  integer 1 n.toUInt32

/-- An integer of two octets. -/
def word (n : UInt16) : Bytes :=
  integer 2 n.toUInt32

/-- An integer of four octets. -/
def dword (n : UInt32) : Bytes :=
  integer 4 n

/-- A string of `n` octets that are all zero, and all valid. -/
def zeros (n : Nat) : Bytes :=
  stringField .one n n (Bytes.zeros n)

/-- Writes a string into a field of `capacity` elements of `width` octets, if it fits. -/
def encodeString (capacity width : Nat) (data : Bytes) : Except ValueError Bytes :=
  match Width.ofNat? width with
  | none => .error (.invalidWidth width)
  | some w =>
    let elements := data.length / w.octets
    if data.length % w.octets ≠ 0 then .error (.unaligned data.length width)
    else if capacity < elements ∨ Bytes.bound 4 ≤ capacity * w.octets then
      .error (.tooLong elements capacity)
    else .ok (stringField w elements (capacity * w.octets) data)

/-! ## Lengths -/

@[simp] theorem length_integer (width : Nat) (n : UInt32) :
    (integer width n).length = width + 2 := by
  simp [integer]

/-- An integer's width is all that can go wrong with four octets. -/
theorem encodeInt_four (n : UInt32) : encodeInt 4 n = .ok (integer 4 n) := by
  have h : ¬ Bytes.bound 4 ≤ n.toNat := by
    have hn : n.toNat < 4294967296 := n.toNat_lt
    rw [Bytes.bound_four]
    omega
  unfold encodeInt
  rw [if_neg (by decide), if_neg h]

end Wwan.Value
