import Wwan.Text.Number
import Wwan.Text.Quoted

/-!
# Hexadecimal text of byte strings

Each octet is written as two lower-case digits.  Reading takes digits of either case and reports an
odd number of them before the first character that is no digit.
-/

namespace Wwan.Text.Hex

/-- The two digits of an octet. -/
def octet (b : UInt8) : List Char :=
  [digitChar (b.toNat / 16), digitChar (b.toNat % 16)]

/-- The digits of a byte string, two for each octet. -/
def encode (bs : Bytes) : String :=
  String.ofList (bs.flatMap octet)

/-- Why a text is no hexadecimal byte string. -/
inductive Failure where
  /-- The number of digits is odd. -/
  | oddLength
  /-- The octet at this index of the text's encoding is no digit. -/
  | badDigit (octet : UInt8) (index : Nat)

/-- The wording of a failure; a bad octet is shown as the character with its code. -/
def Failure.message : Failure → String
  | .oddLength => "Odd number of digits"
  | .badDigit b i =>
    s!"Invalid character {quoteChar (Char.ofNat b.toNat)} at position {i}"

/-- The value of the digit whose character has code `b`. -/
def digit (b : UInt8) (index : Nat) : Except Failure Nat :=
  match digitValue? 16 (Char.ofNat b.toNat) with
  | some v => .ok v
  | none => .error (.badDigit b index)

/-- Reads pairs of digits, the first of them at `index`. -/
def pairs (index : Nat) : Bytes → Except Failure Bytes
  | hi :: lo :: rest => do
    let h ← digit hi index
    let l ← digit lo (index + 1)
    let tail ← pairs (index + 2) rest
    return UInt8.ofNat (16 * h + l) :: tail
  | _ => .ok []

/-- Reads a text of digits as a byte string. -/
def decode (s : String) : Except Failure Bytes :=
  let octets := Bytes.ofText s
  if octets.length % 2 = 1 then .error .oddLength else pairs 0 octets

end Wwan.Text.Hex
