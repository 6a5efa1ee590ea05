import Wwan.Bytes

/-!
# Numbers as text

Hexadecimal and decimal texts of natural numbers, and the reading of unsigned numbers: an optional
plus sign, then at least one digit of the radix, with a value below a bound.
-/

namespace Wwan.Text

/-- The digit of value `n < 36`, letters in lower case. -/
def digitChar (n : Nat) : Char :=
  Nat.digitChar n

/-- The lower-case hexadecimal digits of `n`, without leading zeros. -/
def hexDigits (n : Nat) : String :=
  String.ofList (Nat.toDigits 16 n)

/-- `s` filled up on the left with zeros to a width of `w`. -/
def padZeros (w : Nat) (s : String) : String :=
  String.ofList (List.replicate (w - s.length) '0') ++ s

/-- A number in hexadecimal after `0x`. -/
def hex (n : Nat) : String :=
  "0x" ++ hexDigits n

/-- A number in hexadecimal after `0x`, with at least `w` digits. -/
def hexPadded (w n : Nat) : String :=
  "0x" ++ padZeros w (hexDigits n)

/-- The value of a digit in radix `r`, where letters of either case stand for ten and up. -/
def digitValue? (r : Nat) (c : Char) : Option Nat :=
  let v? :=
    if '0' ≤ c ∧ c ≤ '9' then some (c.toNat - '0'.toNat)
    else if 'a' ≤ c ∧ c ≤ 'z' then some (c.toNat - 'a'.toNat + 10)
    else if 'A' ≤ c ∧ c ≤ 'Z' then some (c.toNat - 'A'.toNat + 10)
    else none
  v?.filter (· < r)

/-- The value of a run of digits in radix `r`; `none` when a character is no digit. -/
def digitsValue? (r : Nat) (cs : List Char) : Option Nat :=
  cs.foldlM (fun n c => (digitValue? r c).map (n * r + ·)) 0

/-- Reads an unsigned number below `bound` in radix `r`: an optional `+`, then at least one digit. -/
def readUnsigned? (r bound : Nat) (cs : List Char) : Option Nat :=
  let digits := match cs with
    | '+' :: rest => rest
    | _ => cs
  if digits.isEmpty then none else (digitsValue? r digits).filter (· < bound)

/-- Reads a signed decimal number, below `bound` if it has no minus sign and at most that far below
zero if it has one. -/
def readSigned? (bound : Nat) (cs : List Char) : Option Int :=
  match cs with
  | '-' :: digits =>
    if digits.isEmpty then none
    else ((digitsValue? 10 digits).filter (· ≤ bound)).map fun n => -(n : Int)
  | _ => (readUnsigned? 10 bound cs).map fun n => (n : Int)

end Wwan.Text
