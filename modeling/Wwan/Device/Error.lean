import Wwan.Fault
import Wwan.Text.Quoted

/-!
# Errors of device endpoints
-/

namespace Wwan

/-- What can go wrong with a device endpoint. -/
inductive DeviceError where
  /-- The device at a path cannot be opened. -/
  | notOpened (path : String) (cause : Fault)
  /-- A tunnel interface cannot be attached or created. -/
  | notAttached (name : Option String) (cause : Fault)
  /-- A name is longer than the names of interfaces can be. -/
  | nameTooLong (length limit : Nat) (name : String)
  /-- Reading or writing fails. -/
  | fault (cause : Fault)
  | unsupported (what : String)
  deriving DecidableEq

namespace DeviceError

/-- The quoted name of an interface, if it has one. -/
def quoteName? : Option String → String
  | some name => "Some(" ++ Text.quote name ++ ")"
  | none => "None"

/-- The wording of an error. -/
def message : DeviceError → String
  | notOpened path cause => s!"failed to open {path}: {cause.text}"
  | notAttached name cause =>
    "failed to attach tun interface " ++ quoteName? name ++ ": " ++ cause.text
  | nameTooLong length limit name =>
    s!"interface name too long ({length} bytes, max {limit}): {name}"
  | fault cause => "transport I/O error: " ++ cause.text
  | unsupported what => s!"unsupported on this platform: {what}"

end DeviceError

end Wwan
