import Wwan.Bytes
import Wwan.Text.Hex

/-!
# Values

The body of a message is a sequence of tagged values: integers of up to four octets, and strings of
elements of one, two or four octets.  This file holds the values, their text, and the errors of
writing and reading them.
-/

namespace Wwan

/-- The width of a string's elements. -/
inductive Width where
  | one
  | two
  | four
  deriving DecidableEq

namespace Width

/-- The number of octets of an element. -/
def octets : Width → Nat
  | one => 1
  | two => 2
  | four => 4

/-- The width of this many octets, if there is one. -/
def ofNat? : Nat → Option Width
  | 1 => some one
  | 2 => some two
  | 4 => some four
  | _ => none

/-- The tag of a string with elements of this width. -/
def tag : Width → UInt8
  | one => 0x55
  | two => 0x56
  | four => 0x57

/-- The width that a string's tag tells. -/
def ofTag? (t : UInt8) : Option Width :=
  if t = 0x55 then some one
  else if t = 0x56 then some two
  else if t = 0x57 then some four
  else none

@[simp] theorem ofNat?_octets (w : Width) : ofNat? w.octets = some w := by
  cases w <;> rfl

@[simp] theorem ofTag?_tag (w : Width) : ofTag? w.tag = some w := by
  cases w <;> rfl

theorem octets_pos (w : Width) : 0 < w.octets := by
  cases w <;> decide

end Width

/-- A decoded value. -/
inductive Value where
  | int (n : UInt32)
  | string (width : Width) (data : Bytes)
  deriving DecidableEq

namespace Value

/-- The tag of an integer. -/
def intTag : UInt8 := 0x02

/-- The number of an integer value. -/
def int? : Value → Option UInt32
  | int n => some n
  | string _ _ => none

/-- The bytes of a string value. -/
def bytes? : Value → Option Bytes
  | int _ => none
  | string _ data => some data

/-- The text of a value: an integer in hexadecimal, a string by its width and its octets. -/
def text : Value → String
  | int n => Text.hex n.toNat
  | string w data => s!"s{w.octets}:" ++ Text.Hex.encode data

end Value

/-- Why a value cannot be written or read. -/
inductive ValueError where
  /-- A string has more elements than its field holds, or its field is too large. -/
  | tooLong (elements capacity : Nat)
  /-- Fewer bytes are left than a field needs. -/
  | truncated (offset needed available : Nat)
  /-- A value starts with a tag that no value has. -/
  | unknownTag (tag : UInt8) (offset : Nat)
  /-- A value of the other kind was expected. -/
  | unexpected (expected : String) (tag : UInt8) (offset : Nat)
  /-- A string's count is not the sum of its parts. -/
  | lengthMismatch (count valid padding : Nat)
  /-- No integer, element or length field has this width. -/
  | invalidWidth (width : Nat)
  /-- An integer needs more octets than it is given. -/
  | overflow (value : UInt32) (width : Nat)
  /-- A string ends in the middle of an element. -/
  | unaligned (length width : Nat)
  deriving DecidableEq

/-- The wording of an error. -/
def ValueError.message : ValueError → String
  | tooLong elements capacity => s!"value too long ({elements} elements, max {capacity})"
  | truncated offset needed available =>
    s!"truncated value at offset {offset}: need {needed} bytes, {available} available"
  | unknownTag tag offset =>
    "unknown value tag " ++ Text.hexPadded 2 tag.toNat ++ s!" at offset {offset}"
  | unexpected expected tag offset =>
    s!"expected {expected} at offset {offset}, found tag " ++ Text.hexPadded 2 tag.toNat
  | lengthMismatch count valid padding =>
    s!"string length mismatch: count {count} != valid {valid} + padding {padding}"
  | invalidWidth width => s!"invalid value width {width}"
  | overflow value width =>
    "integer " ++ Text.hex value.toNat ++ s!" does not fit in {width} bytes"
  | unaligned length width =>
    s!"string of {length} bytes is not a multiple of element width {width}"

end Wwan
