/-!
# Byte strings

Byte strings are lists of octets.  This file holds the fixed-width encodings of numbers, least and
most significant octet first, and the runs of zeros used for padding.
-/

namespace Wwan

/-- A byte string. -/
abbrev Bytes := List UInt8

namespace Bytes

/-- The first number that `w` octets cannot hold. -/
def bound : Nat → Nat
  | 0 => 1
  | w + 1 => 256 * bound w

/-- The `w` octets of `n`, least significant first; what does not fit is dropped. -/
def ofNatLE : Nat → Nat → Bytes
  | 0, _ => []
  | w + 1, n => UInt8.ofNat n :: ofNatLE w (n / 256)

/-- The `w` octets of `n`, most significant first; what does not fit is dropped. -/
def ofNatBE (w n : Nat) : Bytes :=
  (ofNatLE w n).reverse

/-- The number whose octets are given, least significant first. -/
def toNatLE : Bytes → Nat
  | [] => 0
  | b :: bs => b.toNat + 256 * toNatLE bs

/-- The number whose octets are given, most significant first. -/
def toNatBE (bs : Bytes) : Nat :=
  toNatLE bs.reverse

/-- The four octets of a word, least significant first. -/
def ofWordLE (n : UInt32) : Bytes :=
  ofNatLE 4 n.toNat

/-- The four octets of a word, most significant first. -/
def ofWordBE (n : UInt32) : Bytes :=
  ofNatBE 4 n.toNat

/-- The word whose octets are given, least significant first. -/
def toWordLE (bs : Bytes) : UInt32 :=
  UInt32.ofNat bs.toNatLE

/-- The word whose octets are given, most significant first. -/
def toWordBE (bs : Bytes) : UInt32 :=
  UInt32.ofNat bs.toNatBE

/-- A run of `n` zero octets. -/
def zeros (n : Nat) : Bytes :=
  List.replicate n 0

/-- The octets of a text's UTF-8 encoding. -/
def ofText (s : String) : Bytes :=
  s.toUTF8.toList

/-! ## Lengths and round trips -/

@[simp] theorem length_ofNatLE (w n : Nat) : (ofNatLE w n).length = w := by
  induction w generalizing n with
  | zero => rfl
  | succ w ih => simp [ofNatLE, ih]

@[simp] theorem length_ofNatBE (w n : Nat) : (ofNatBE w n).length = w := by
  simp [ofNatBE]

@[simp] theorem length_ofWordLE (n : UInt32) : (ofWordLE n).length = 4 := by
  simp [ofWordLE]

@[simp] theorem length_ofWordBE (n : UInt32) : (ofWordBE n).length = 4 := by
  simp [ofWordBE]

@[simp] theorem length_zeros (n : Nat) : (zeros n).length = n := by
  simp [zeros]

theorem bound_four : bound 4 = 4294967296 := rfl

/-- Reading back `w` octets gives what they can hold of the number. -/
theorem toNatLE_ofNatLE (w n : Nat) : toNatLE (ofNatLE w n) = n % bound w := by
  induction w generalizing n with
  | zero => rw [ofNatLE, toNatLE, bound, Nat.mod_one]
  | succ w ih =>
    have h : (UInt8.ofNat n).toNat = n % 256 := by simp
    rw [ofNatLE, toNatLE, ih, h, bound, Nat.mod_mul]

theorem toNatBE_ofNatBE (w n : Nat) : toNatBE (ofNatBE w n) = n % bound w := by
  rw [toNatBE, ofNatBE, List.reverse_reverse, toNatLE_ofNatLE]

/-- The number of `w` octets is one that they can hold. -/
theorem toNatLE_lt (bs : Bytes) : toNatLE bs < bound bs.length := by
  induction bs with
  | nil => rw [toNatLE, List.length_nil, bound]; omega
  | cons b bs ih =>
    have hb : b.toNat < 256 := b.toNat_lt
    rw [toNatLE, List.length_cons, bound]
    omega

theorem ofNatLE_toNatLE (bs : Bytes) : ofNatLE bs.length (toNatLE bs) = bs := by
  induction bs with
  | nil => rfl
  | cons b bs ih =>
    have hb : b.toNat < 256 := b.toNat_lt
    have hmod : UInt8.ofNat (b.toNat + 256 * toNatLE bs) = b := by
      apply UInt8.toNat_inj.mp
      simp only [UInt8.toNat_ofNat']
      omega
    have hdiv : (b.toNat + 256 * toNatLE bs) / 256 = toNatLE bs := by omega
    rw [List.length_cons, toNatLE, ofNatLE, hmod, hdiv, ih]

end Bytes

end Wwan
