import Wwan.Cli.Grammar
import Wwan.Cli.Output

/-!
# Invocations

The commands of the program with their settings, and how they are read from a command line.
-/

namespace Wwan.Cli

/-- Brings the modem up. -/
structure UpOptions where
  apn : String
  rpcDevice : String
  timeout : String
  attachWait : String
  fetchInterval : String
  fetchAttempts : Nat
  datachannel : String

/-- Carries packets between a tunnel and the mux channel. -/
structure BridgeOptions where
  muxDevice : String
  tunnel : String
  maxFrame : Nat

/-- Sends one request. -/
structure CallOptions where
  command : String
  rpcDevice : String
  body : String
  purpose : Purpose
  timeout : String

/-- What the program is to do. -/
inductive Command where
  | up (o : UpOptions)
  | bridge (o : BridgeOptions)
  | call (o : CallOptions)
  | decode (hex : String)
  | version (extended : Bool)

/-- What the program is to do, and in which form it prints. -/
structure Invocation where
  format : Option Format
  command : Command

/-- The settings that the program and each command have. -/
def sharedSettings : List Setting :=
  [{ name := "format", rule := some (.choice ["json", "table", "pretty"]) },
   { name := "log-format", rule := some (.choice ["text", "json"]) },
   { name := "log-level", rule := some (.choice ["error", "warn", "info", "debug", "trace"]) }]

/-- The device of the command channel. -/
def rpcDevice : Setting :=
  { name := "rpc-device", rule := some .path, envName := some "XMMLINK_RPC_DEVICE" }

/-- A setting whose value may be any text. -/
def textSetting (name : String) : Setting :=
  { name, rule := some .any }

/-- The settings of a bring-up. -/
def upForm : Form where
  settings := sharedSettings
    ++ [{ name := "apn", rule := some .any, envName := some "XMMLINK_APN" }, rpcDevice,
      textSetting "timeout", textSetting "attach-wait", textSetting "ip-fetch-interval",
      { name := "ip-fetch-attempts", rule := some .count32 }, textSetting "datachannel"]
  required := ["apn"]

/-- The settings of a bridge. -/
def bridgeForm : Form where
  settings := sharedSettings
    ++ [{ name := "mux-device", rule := some .path, envName := some "XMMLINK_MUX_DEVICE" },
      textSetting "tun", { name := "max-frame-size", rule := some .count64 }]

/-- The settings of a call. -/
def callForm : Form where
  settings := sharedSettings
    ++ [rpcDevice, textSetting "body", { name := "async" }, { name := "no-wait" },
      textSetting "timeout"]
  operand := some "command"
  required := ["command"]
  exclusive := [("async", "no-wait")]

/-- The settings of a decoding. -/
def decodeForm : Form where
  settings := sharedSettings
  operand := some "hex"
  required := ["hex"]

/-- The settings of the version. -/
def versionForm : Form where
  settings := sharedSettings ++ [{ name := "extended" }]

/-- The grammar of the program's command line. -/
def grammar : Grammar where
  program := { settings := sharedSettings, hasVersion := true }
  commands := [("up", upForm), ("bridge", bridgeForm), ("call", callForm), ("decode", decodeForm),
    ("version", versionForm)]

/-- The form of output with a name. -/
def Format.ofName? : String → Option Format
  | "json" => some .json
  | "table" => some .table
  | "pretty" => some .pretty
  | _ => none

namespace Invocation

/-- The value of a setting, or what stands for it if it is not given. -/
def value (m : Matches) (name otherwise : String) : String :=
  (m.lookup name).getD otherwise

/-- The value of a setting that is a number. -/
def count (read? : String → Option Nat) (m : Matches) (name : String) (otherwise : Nat) : Nat :=
  ((m.lookup name).bind read?).getD otherwise

/-- Whether a switch is given. -/
def isOn (m : Matches) (name : String) : Bool :=
  (m.lookup name).isSome

/-- What a call is after. -/
def purpose (m : Matches) : Purpose :=
  if isOn m "no-wait" then .oneWay
  else if isOn m "async" then .transaction
  else .answer

/-- The default device of the command channel. -/
def defaultRpcDevice : String := "/dev/xmm0/rpc"

/-- The default device of the mux channel. -/
def defaultMuxDevice : String := "/dev/xmm0/mux"

/-- A command with its settings. -/
def ofMatches (name : String) (m : Matches) : Option Command :=
  match name with
  | "up" => some (.up {
      apn := value m "apn" ""
      rpcDevice := value m "rpc-device" defaultRpcDevice
      timeout := value m "timeout" "30s"
      attachWait := value m "attach-wait" "60s"
      fetchInterval := value m "ip-fetch-interval" "1s"
      fetchAttempts := count readCount32? m "ip-fetch-attempts" 30
      datachannel := value m "datachannel" "/sioscc/PCIE/IOSM/IPS/0" })
  | "bridge" => some (.bridge {
      muxDevice := value m "mux-device" defaultMuxDevice
      tunnel := value m "tun" "wwan0"
      maxFrame := count readCount64? m "max-frame-size" 4096 })
  | "call" => some (.call {
      command := value m "command" ""
      rpcDevice := value m "rpc-device" defaultRpcDevice
      body := value m "body" ""
      purpose := purpose m
      timeout := value m "timeout" "5s" })
  | "decode" => some (.decode (value m "hex" ""))
  | "version" => some (.version (isOn m "extended"))
  | _ => none

/-- Reads a command line.  Where a setting is given to the program and to the command, the command's
counts. -/
def read (env : String → Option String) (words : List String) : Except Refusal Invocation := do
  let parsed ← grammar.read env words
  match ofMatches parsed.command parsed.settings with
  | none => throw .unknownCommand
  | some command =>
    let format := (parsed.settings ++ parsed.program).lookup "format"
    return { format := format.bind Format.ofName?, command }

end Invocation

end Wwan.Cli
