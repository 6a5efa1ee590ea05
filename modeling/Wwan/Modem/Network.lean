import Wwan.Modem.Reply
import Wwan.Net.Address

/-!
# The network's configuration

The address and the name servers that the network assigns, as the modem's replies tell them.
-/

namespace Wwan

/-- The addresses that the network assigns. -/
structure Network where
  address : Ipv4
  dnsV4 : List Ipv4
  dnsV6 : List Ipv6
  deriving DecidableEq

/-- The texts of all name servers, those of version 4 first. -/
def Network.dnsServers (n : Network) : List String :=
  n.dnsV4.map Ipv4.text ++ n.dnsV6.map Ipv6.text

namespace Modem

/-- The number of slots for an address that are looked at. -/
def addressSlots : Nat := 3

/-- The first `n` complete slots of four octets. -/
def slots : Nat → Bytes → List Ipv4
  | 0, _ => []
  | n + 1, bs =>
    match Ipv4.ofBytes? bs with
    | some a => a :: slots n (bs.drop 4)
    | none => []

/-- The assigned address: the last one that is specified. -/
def selectAddress (field : Bytes) : Option Ipv4 :=
  (slots addressSlots field).reverse.find? fun a => a ≠ Ipv4.unspecified

/-- The address that a reply tells, if one is assigned. -/
def addressOfReply (values : List Value) : Except ModemError (Option Ipv4) := do
  return selectAddress (← bytesAt .negotiatedAddress values 1)

/-- The number of entries for name servers that are looked at. -/
def dnsSlots : Nat := 16

/-- The entries of a reply: its values in pairs, without a last one that stands alone. -/
def dnsEntries : List Value → List (Value × Value)
  | a :: k :: rest => (a, k) :: dnsEntries rest
  | _ => []

/-- The name server of version 4 in an entry of type 1. -/
def dnsV4? : Value × Value → Option Ipv4
  | (.string _ data, .int 1) => Ipv4.ofBytes? data
  | _ => none

/-- The name server of version 6 in an entry of type 2. -/
def dnsV6? : Value × Value → Option Ipv6
  | (.string _ data, .int 2) => Ipv6.ofBytes? data
  | _ => none

/-- The name servers that a reply tells: a status comes first, and entries that hold none are left
out. -/
def dnsOfReply (values : List Value) : List Ipv4 × List Ipv6 :=
  let entries := (dnsEntries values.tail).take dnsSlots
  (entries.filterMap dnsV4?, entries.filterMap dnsV6?)

end Modem

end Wwan
