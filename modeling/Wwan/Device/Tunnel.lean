import Wwan.Device.Error

/-!
# Names of tunnel interfaces
-/

namespace Wwan.Tunnel

/-- The number of octets that the name of an interface can have. -/
def nameLimit : Nat := 15

/-- Whether a name can be that of an interface. -/
def checkName (name : String) : Except DeviceError Unit :=
  if nameLimit < name.utf8ByteSize then .error (.nameTooLong name.utf8ByteSize nameLimit name)
  else .ok ()

end Wwan.Tunnel
