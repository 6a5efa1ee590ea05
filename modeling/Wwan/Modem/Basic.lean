import Wwan.CallError
import Wwan.Client.Basic
import Wwan.Command
import Wwan.Text.Quoted

/-!
# The modem

The settings of a bring-up, and what can go wrong with it.
-/

namespace Wwan

/-- The settings of a bring-up. -/
structure ModemConfig where
  /-- The name of the carrier's access point. -/
  apn : String := ""
  callTimeout : Span := .ofSeconds 30
  /-- How long a rejected attach waits until attaching is allowed. -/
  attachWait : Span := .ofSeconds 60
  /-- The time between two queries for an address. -/
  fetchInterval : Span := .ofSeconds 1
  /-- The number of queries for an address; zero stands for one. -/
  fetchAttempts : Nat := 30
  /-- The channel that carries the packets. -/
  datachannel : String := "/sioscc/PCIE/IOSM/IPS/0"

/-- Why a modem could not be brought up. -/
inductive ModemError where
  | call (cause : CallError)
  | value (cause : ValueError)
  /-- The modem did not accept the answer to its challenge. -/
  | unlockFailed
  | modeSetFailed (requested : UInt32) (reason : String)
  | attachFailed (status : UInt32)
  | noAddress (attempts : Nat)
  /-- A reply is not laid out as that of its call. -/
  | badReply (call : CallId) (reason : String)
  | invalidApn (reason : String)
  deriving DecidableEq

namespace ModemError

/-- The wording of an error. -/
def message : ModemError → String
  | call cause => "rpc error: " ++ cause.message
  | value cause => "value error: " ++ cause.message
  | unlockFailed => "FCC unlock rejected by modem"
  | modeSetFailed requested reason => s!"mode set to {requested.toNat} failed: {reason}"
  | attachFailed status => "network attach failed with status " ++ Text.hex status.toNat
  | noAddress attempts => s!"no IP address after {attempts} attempts"
  | badReply id reason => s!"unexpected reply to {id.name}: {reason}"
  | invalidApn reason => s!"invalid APN: {reason}"

/-- Whether the command channel has ended. -/
def isChannelClosed : ModemError → Bool
  | call .channelClosed => true
  | _ => false

/-- Whether an answer did not arrive in time. -/
def isTimeout : ModemError → Bool
  | call (.timeout _ _) => true
  | _ => false

end ModemError

end Wwan
