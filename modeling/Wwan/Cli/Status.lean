import Wwan.Modem.Basic
import Wwan.Mux.Tag

/-!
# How the program ends

Each end of the program has a status that tells its cause, and a failure a message.
-/

namespace Wwan.Cli

/-- How the program ends. -/
inductive ExitStatus where
  | success
  | failure
  | transportError
  /-- A channel ended underneath the program. -/
  | channelLost
  | unlockFailed
  | attachFailed
  | noAddress
  | permissionDenied
  | dataInvalid
  | usage
  | timeout
  | internal
  deriving DecidableEq

/-- The number of a status. -/
def ExitStatus.code : ExitStatus → Nat
  | success => 0
  | failure => 1
  | transportError => 3
  | channelLost => 4
  | unlockFailed => 10
  | attachFailed => 11
  | noAddress => 12
  | permissionDenied => 50
  | dataInvalid => 60
  | usage => 64
  | timeout => 124
  | internal => 125

/-- An end of the program that it explains. -/
structure Failure where
  status : ExitStatus
  message : String
  deriving DecidableEq

namespace Failure

/-- The status of a fault. -/
def statusOfFault : FaultKind → ExitStatus
  | .permissionDenied => .permissionDenied
  | .timedOut | .wouldBlock => .timeout
  | .notFound => .transportError
  | .brokenPipe | .unexpectedEof => .channelLost
  | _ => .internal

/-- The status of a fault on opening: one without a status of its own is the device's. -/
def statusOfOpening (k : FaultKind) : ExitStatus :=
  match statusOfFault k with
  | .internal => .transportError
  | status => status

/-- A failure of reading or writing. -/
def ofFault (context : String) (f : Fault) : Failure :=
  ⟨statusOfFault f.kind, s!"{context}: {f.text}"⟩

/-- A failure of a device. -/
def ofDevice (context : String) (e : DeviceError) : Failure :=
  let status := match e with
    | .notOpened _ cause | .notAttached _ cause => statusOfOpening cause.kind
    | .fault cause => statusOfFault cause.kind
    | .nameTooLong _ _ _ => .usage
    | .unsupported _ => .transportError
  ⟨status, s!"{context}: {e.message}"⟩

/-- A failure of the mux channel. -/
def ofFrame (context : String) (e : FrameError) : Failure :=
  match e with
  | .fault cause => ofFault context cause
  | .closed => ⟨.channelLost, s!"{context}: {e.message}"⟩
  | .frameTooLarge _ _ | .tooManyPackets _ => ⟨.usage, s!"{context}: {e.message}"⟩
  | _ => ⟨.dataInvalid, s!"{context}: {e.message}"⟩

/-- A failure of the command channel. -/
def ofCall (context : String) (e : CallError) : Failure :=
  match e with
  | .device cause => ofDevice context cause
  | .fault cause => ofFault context cause
  | .channelClosed => ⟨.channelLost, s!"{context}: {e.message}"⟩
  | .timeout _ _ => ⟨.timeout, s!"{context}: {e.message}"⟩
  | .value _ | .tooLarge _ _ => ⟨.dataInvalid, s!"{context}: {e.message}"⟩
  | _ => ⟨.failure, s!"{context}: {e.message}"⟩

/-- A failure of a bring-up. -/
def ofModem (context : String) (e : ModemError) : Failure :=
  match e with
  | .call cause => ofCall context cause
  | .unlockFailed => ⟨.unlockFailed, s!"{context}: {e.message}"⟩
  | .attachFailed _ => ⟨.attachFailed, s!"{context}: {e.message}"⟩
  | .noAddress _ => ⟨.noAddress, s!"{context}: {e.message}"⟩
  | .value _ | .invalidApn _ => ⟨.usage, s!"{context}: {e.message}"⟩
  | .badReply _ _ => ⟨.dataInvalid, s!"{context}: {e.message}"⟩
  | .modeSetFailed _ _ => ⟨.failure, s!"{context}: {e.message}"⟩

end Failure

end Wwan.Cli
