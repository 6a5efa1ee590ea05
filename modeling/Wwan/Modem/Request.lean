import Wwan.Modem.Basic
import Wwan.Value.Encoding

/-!
# The bodies of a bring-up's requests

The modem expects every field of a body, also of those that are not used.
-/

namespace Wwan.Modem

open Value (byte word dword zeros)

/-- The mode in which the radio is on. -/
def online : UInt32 := 1

/-- Sets the mode of the radio. -/
def modeSetBody (mode : UInt32) : Bytes :=
  dword 0 ++ dword 15 ++ dword mode

/-- The number of octets in the field of an access point's name. -/
def apnSize : Nat := 101

/-- The field of an access point's name: zeros follow the name, and all of it is valid. -/
def apnField (apn : Bytes) : Bytes :=
  Value.stringField .one apnSize apnSize (apn ++ Bytes.zeros (apnSize - apn.length))

/-- A context without credentials. -/
def blankContext : Bytes :=
  zeros 65 ++ zeros 65 ++ zeros 250 ++ dword 0 ++ zeros 250 ++ dword 0

/-- A context for both versions of the internet protocol that names an access point. -/
def apnContext (apn : Bytes) : Bytes :=
  byte 3 ++ apnField apn ++ dword 0 ++ zeros 20 ++ byte 0 ++ byte 0

/-- The layout of the access point's configuration, for the attach and for the default bearer. -/
def apnLayout (apn : Bytes) : Bytes :=
  byte 0 ++ zeros 257 ++ dword 0 ++ blankContext ++ blankContext
    ++ dword 0x404 ++ dword 1 ++ dword 0 ++ dword 1 ++ dword 0 ++ dword 0 ++ dword 0 ++ dword 0
    ++ zeros 20 ++ apnContext apn ++ apnContext apn ++ dword 0 ++ dword 0

/-- Configures the access point, whose name has to be ASCII and to fit its field. -/
def apnConfigBody (apn : String) : Except ModemError Bytes :=
  let octets := Bytes.ofText apn
  if octets.any fun b => 0x80 ≤ b then .error (.invalidApn (Text.quote apn ++ " is not ASCII"))
  else if apnSize < octets.length then .error (.value (.tooLong octets.length apnSize))
  else .ok (apnLayout octets)

/-- Attaches to the network. -/
def netAttachBody : Bytes :=
  byte 0 ++ dword 0 ++ dword 0 ++ dword 0 ++ dword 0 ++ word 0xffff ++ word 0xffff ++ dword 0
    ++ dword 0

/-- Asks for the address or for the name servers. -/
def queryBody : Bytes :=
  byte 0 ++ dword 0 ++ dword 0

/-- Connects the packet service. -/
def psConnectBody : Bytes :=
  byte 0 ++ dword 0 ++ dword 0 ++ dword 0

/-- Connects to the data channel, named by its path with a NUL behind it. -/
def datachannelBody (path : String) : Except ModemError Bytes :=
  let data := Bytes.ofText path ++ [0]
  (Value.encodeString data.length 1 data).mapError .value

/-- The length of the value that ends the reply to a connect request. -/
def connectTrailerSize : Nat := 6

/-- Sets the connection up: the reply to the connect request without its last value, the reply of the
data channel, and a zero. -/
def connectSetupBody (connect datachannel : Bytes) : Except ModemError Bytes :=
  if connect.length < connectTrailerSize then
    .error (.badReply .psConnect s!"reply of {connect.length} bytes is too short")
  else
    .ok (connect.take (connect.length - connectTrailerSize) ++ datachannel ++ dword 0)

end Wwan.Modem
