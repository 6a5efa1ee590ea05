import Wwan.Device.Error
import Wwan.Span
import Wwan.Value.Basic

/-!
# Errors of the command channel
-/

namespace Wwan

/-- Why a call, or the reading or writing of a message, fails. -/
inductive CallError where
  /-- The channel has ended. -/
  | channelClosed
  /-- Every transaction number is taken. -/
  | exhausted
  /-- No answer arrived in time. -/
  | timeout (operation : String) (after : Span)
  /-- The peer sent what the protocol does not allow. -/
  | violation (what : String)
  /-- The header of a message cannot be read. -/
  | malformed (reason : String)
  /-- A message is larger than it may be. -/
  | tooLarge (size limit : Nat)
  /-- Reading or writing fails. -/
  | fault (cause : Fault)
  | value (cause : ValueError)
  | device (cause : DeviceError)
  deriving DecidableEq

/-- The wording of an error. -/
def CallError.message : CallError → String
  | channelClosed => "command channel closed"
  | exhausted => "no free transaction id (255 calls outstanding)"
  | timeout operation after => s!"{operation} timed out after " ++ after.text
  | violation what => s!"protocol violation: {what}"
  | malformed reason => s!"malformed message: {reason}"
  | tooLarge size limit => s!"message too large ({size} bytes, max {limit})"
  | fault cause => "rpc I/O error: " ++ cause.text
  | value cause => cause.message
  | device cause => cause.message

end Wwan
