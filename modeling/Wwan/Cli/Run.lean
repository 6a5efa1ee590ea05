import Wwan.Cli.Status
import Wwan.Cli.Usage
import Wwan.Device.Tunnel

/-!
# Carrying invocations out

What each command does, on a host that opens devices and talks on them.  The host is all that is left
open: the commands work on any.
-/

namespace Wwan.Cli

/-- What is known of how the program was built. -/
structure BuildInfo where
  target : String
  system : String
  architecture : String
  revision : String
  hasTunnels : Bool

/-- How a bridge ends. -/
inductive BridgeEnd where
  /-- The data channel could not be opened. -/
  | notOpened (e : FrameError)
  /-- A direction stopped. -/
  | stopped (d : Direction) (e : FrameError) (stats : BridgeStats)
  /-- The user stopped it. -/
  | interrupted (stats : BridgeStats)

/-- What the commands need of the world: devices, sessions on the command channel, tunnels, bridges,
and the time. -/
structure Host (m : Type → Type) where
  Device : Type
  Tunnel : Type
  build : BuildInfo
  openDevice : String → m (Except DeviceError Device)
  openTunnel : String → m (Except DeviceError Tunnel)
  /-- Carries a session out on a device, with a client of these settings. -/
  converse : {α : Type} → ClientConfig → Device → Session α → m α
  /-- Opens the data channel and carries packets until something stops it. -/
  relay : MuxConfig → Device → Tunnel → m BridgeEnd
  /-- The time, in seconds since the beginning of 1970, as it is shown. -/
  timestamp : m String

/-- What the program prints, and how it ends. -/
structure Outcome where
  output : String := ""
  status : ExitStatus := .success
  /-- The reason of a failure. -/
  complaint : Option String := none
  deriving DecidableEq

namespace Outcome

/-- A failure after some output. -/
def ofFailure (f : Failure) (output : String) : Outcome :=
  { output, status := f.status, complaint := some f.message }

/-- What stands on the error output at the end. -/
def errorOutput (o : Outcome) : String :=
  match o.complaint with
  | some message => s!"error: {message}\n"
  | none => ""

end Outcome

/-! ## Reading texts -/

/-- Reads a length of time. -/
def readSpan (s : String) : Except Failure Span :=
  (Span.read s).mapError fun e => ⟨.usage, e.message⟩

/-- Reads bytes in hexadecimal, among which white space may stand. -/
def readHex (s : String) : Except Failure Bytes :=
  (Text.Hex.decode (Text.removeBlank s)).mapError fun e =>
    ⟨.dataInvalid, "invalid hex input: " ++ e.message⟩

/-- The code of a command, given by its name, in hexadecimal or in decimal. -/
def readCommand (s : String) : Except Failure UInt32 :=
  match CallId.ofName? s with
  | some id => .ok id.code
  | none =>
    let code := match s.toList with
      | '0' :: 'x' :: digits | '0' :: 'X' :: digits => Text.readUnsigned? 16 (Bytes.bound 4) digits
      | digits => Text.readUnsigned? 10 (Bytes.bound 4) digits
    match code with
    | some n => .ok (UInt32.ofNat n)
    | none => .error ⟨.usage, s!"unknown command: {s}"⟩

/-! ## Commands -/

/-- Prints the version, and how the program was built. -/
def version (b : BuildInfo) (extended : Bool) : Outcome :=
  let ls :=
    if extended then
      ["name: " ++ programName, "version: " ++ programVersion, "target: " ++ b.target,
       "target_os: " ++ b.system, "target_arch: " ++ b.architecture, "git_hash: " ++ b.revision,
       s!"tun: {b.hasTunnels}"]
    else [versionLine]
  { output := lines ls }

/-- Decodes values; the status tells whether all bytes could be decoded. -/
def decode (hex : String) (format : Format) : Except Failure Outcome := do
  let (values, rest) := Value.decodePrefix (← readHex hex)
  return {
    output := printValues 0 none values rest format
    status := if rest.isSome then .dataInvalid else .success }

/-- What a call needs, read from its settings. -/
def readCall (o : CallOptions) : Except Failure (UInt32 × Bytes × Span) := do
  let command ← readCommand o.command
  let body ← readHex o.body
  return (command, body, ← readSpan o.timeout)

/-- The settings of a bring-up, read from those of the command line. -/
def readConfig (o : UpOptions) : Except Failure ModemConfig := do
  let callTimeout ← readSpan o.timeout
  let attachWait ← readSpan o.attachWait
  let fetchInterval ← readSpan o.fetchInterval
  return {
    apn := o.apn
    callTimeout
    attachWait
    fetchInterval
    fetchAttempts := o.fetchAttempts
    datachannel := o.datachannel }

variable {m : Type → Type} [Monad m]

/-- A device on this host, or the failure of opening it. -/
def openOn (h : Host m) (context path : String) : ExceptT Failure m h.Device :=
  ExceptT.mk do return (← h.openDevice path).mapError (Failure.ofDevice context)

/-- Sends one request and prints the values of the reply. -/
def call (h : Host m) (o : CallOptions) (format : Format) : ExceptT Failure m Outcome := do
  let (command, body, timeout) ← ofExcept (readCall o)
  let device ← openOn h "open failed" o.rpcDevice
  let session := (Procedure.call o.purpose command body timeout).run
  match ← ExceptT.lift (h.converse {} device session) with
  | .error e => throw (.ofModem "call failed" e)
  | .ok reply =>
    if o.purpose = .oneWay then return {}
    let name := (CallId.ofCode? command).map CallId.name
    let (values, rest) := Value.decodePrefix reply
    return { output := printValues command name values rest format }

/-- Brings the modem up and prints its addresses. -/
def up (h : Host m) (o : UpOptions) (format : Format) : ExceptT Failure m Outcome := do
  let config ← ofExcept (readConfig o)
  let device ← openOn h "open failed" o.rpcDevice
  let session := (Modem.bringUp config).run
  match ← ExceptT.lift (h.converse { callTimeout := config.callTimeout } device session) with
  | .error e => throw (.ofModem "bring-up failed" e)
  | .ok report => return { output := printBringUp report o.apn (← ExceptT.lift h.timestamp) format }

/-- Carries packets, and prints the counters at the end. -/
def bridge (h : Host m) (o : BridgeOptions) (format : Format) : ExceptT Failure m Outcome := do
  let device ← openOn h "open mux failed" o.muxDevice
  let tunnelFailure := Failure.ofDevice "open tun failed"
  ofExcept ((Tunnel.checkName o.tunnel).mapError tunnelFailure)
  let tunnel ← ExceptT.mk do return (← h.openTunnel o.tunnel).mapError tunnelFailure
  match ← ExceptT.lift (h.relay { maxFrame := o.maxFrame } device tunnel) with
  | .notOpened e => throw (.ofFrame "mux channel open failed" e)
  | .stopped d e stats =>
    let reason := d.text ++ " stopped"
    let output := printBridgeStats stats (reason ++ ": " ++ e.message) format
    return .ofFailure (.ofFrame reason e) output
  | .interrupted stats => return { output := printBridgeStats stats "interrupted" format }

/-- Carries an invocation out; `format` is that of an invocation that names none. -/
def run (h : Host m) (format : Format) (i : Invocation) : m Outcome := do
  let format := i.format.getD format
  let r : Except Failure Outcome ← match i.command with
    | .up o => (up h o format).run
    | .bridge o => (bridge h o format).run
    | .call o => (call h o format).run
    | .decode hex => pure (decode hex format)
    | .version extended => pure (.ok (version h.build extended))
  match r with
  | .ok o => return o
  | .error f => return .ofFailure f ""

end Wwan.Cli
