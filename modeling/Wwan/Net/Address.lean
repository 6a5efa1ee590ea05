import Wwan.Bytes
import Wwan.Text.Number

/-!
# Internet addresses

Addresses are octets of fixed number.  The text of one of version 4 is its octets in decimal; of one
of version 6 its groups of two octets in hexadecimal, where the first of the longest runs of at least
two zero groups is left out, and a version 4 address in it is written as such.
-/

namespace Wwan

/-- An address of version 4. -/
structure Ipv4 where
  octets : Bytes
  length_octets : octets.length = 4
  deriving DecidableEq

namespace Ipv4

/-- The address in the first four octets. -/
def ofBytes? (bs : Bytes) : Option Ipv4 :=
  if h : (bs.take 4).length = 4 then some ⟨bs.take 4, h⟩ else none

/-- The address of no host. -/
def unspecified : Ipv4 :=
  ⟨[0, 0, 0, 0], rfl⟩

/-- The text of an address. -/
def text (a : Ipv4) : String :=
  ".".intercalate (a.octets.map fun b => toString b.toNat)

end Ipv4

/-- An address of version 6. -/
structure Ipv6 where
  octets : Bytes
  length_octets : octets.length = 16
  deriving DecidableEq

namespace Ipv6

/-- The address in the first sixteen octets. -/
def ofBytes? (bs : Bytes) : Option Ipv6 :=
  if h : (bs.take 16).length = 16 then some ⟨bs.take 16, h⟩ else none

/-- The numbers of pairs of octets. -/
def pairs : Bytes → List Nat
  | hi :: lo :: rest => Bytes.toNatBE [hi, lo] :: pairs rest
  | _ => []

/-- The number of zeros in front of a list. -/
def leadingZeros (groups : List Nat) : Nat :=
  (groups.takeWhile (· = 0)).length

/-- The first of the longest runs of zero groups: where it starts and how long it is. -/
def longestRun (groups : List Nat) : Nat × Nat :=
  (List.range groups.length).foldl
    (fun best i =>
      let n := leadingZeros (groups.drop i)
      if best.2 < n then (i, n) else best)
    (0, 0)

/-- Groups with colons between them. -/
def joinGroups (groups : List Nat) : String :=
  ":".intercalate (groups.map Text.hexDigits)

/-- The version 4 address in an address that has ten zero octets and two full ones before it. -/
def mapped? (a : Ipv6) : Option Ipv4 :=
  if a.octets.take 12 = Bytes.zeros 10 ++ [0xff, 0xff] then Ipv4.ofBytes? (a.octets.drop 12) else none

/-- The text of an address. -/
def text (a : Ipv6) : String :=
  match a.mapped? with
  | some v4 => "::ffff:" ++ v4.text
  | none =>
    let groups := pairs a.octets
    let (start, n) := longestRun groups
    if n < 2 then joinGroups groups
    else joinGroups (groups.take start) ++ "::" ++ joinGroups (groups.drop (start + n))

end Ipv6

end Wwan
