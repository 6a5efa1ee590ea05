import Wwan.Modem.BringUp
import Wwan.Mux.Bridge
import Wwan.Text.Box
import Wwan.Text.Json

/-!
# What the program prints

Decoded values, the outcome of a bring-up and the counters of a bridge, each as JSON, as a table, or as
plain lines.
-/

namespace Wwan.Cli

open Text (Json)

/-- The forms of output. -/
inductive Format where
  | json
  | table
  | pretty
  deriving DecidableEq

/-- Lines with a line feed behind each. -/
def lines (ls : List String) : String :=
  String.join (ls.map fun l => l ++ "\n")

/-! ## Values -/

/-- A string as it is shown: as text when it is made of visible characters and blanks, with zeros
behind them, else in hexadecimal. -/
def preview (data : Bytes) : String :=
  let kept := (data.reverse.dropWhile (· = 0)).reverse
  if !kept.isEmpty && kept.all fun b => TagId.isGraphic b || b = 0x20 then
    String.ofList (kept.map fun b => Char.ofNat b.toNat)
  else Text.Hex.encode data

/-- The kind of a value, the width of its elements if it is a string, and how it is shown. -/
def describeValue : Value → String × Option Nat × String
  | .int n => ("int", none, Text.hex n.toNat)
  | .string w data => ("string", some w.octets, preview data)

/-- A value as JSON. -/
def valueJson (index : Nat) (v : Value) : Json :=
  let (kind, width, shown) := describeValue v
  .object [("index", .number index), ("kind", .text kind),
    ("width", match width with
      | some w => .number w
      | none => .null),
    ("value", .text shown)]

/-- A value as a row of a table. -/
def valueRow (index : Nat) (v : Value) : List String :=
  match describeValue v with
  | (kind, some w, shown) => [toString index, s!"{kind}/{w}", shown]
  | (kind, none, shown) => [toString index, kind, shown]

/-- The values of a reply to a command, and the bytes behind them that could not be decoded. -/
def printValues (command : UInt32) (name : Option String) (values : List Value)
    (undecoded : Option Bytes) : Format → String
  | .json =>
    let rest := match undecoded with
      | some bs => [("undecoded", Json.text (Text.Hex.encode bs))]
      | none => []
    lines [(Json.object ([("command", .number command.toNat), ("name", .ofText? name),
      ("values", .array (values.mapIdx valueJson))] ++ rest)).render]
  | .table =>
    let table : Text.Box.Table := ⟨["#", "KIND", "VALUE"], values.mapIdx valueRow⟩
    lines (table.render :: (undecoded.map fun bs => "undecoded: " ++ Text.Hex.encode bs).toList)
  | .pretty =>
    lines ((name.map fun n => s!"{n} (" ++ Text.hex command.toNat ++ ")").toList
      ++ values.map (fun v => "  " ++ v.text)
      ++ (undecoded.map fun bs => "  undecoded: " ++ Text.Hex.encode bs).toList)

/-! ## Bring-ups -/

/-- The name of an outcome in JSON. -/
def outcomeKey : FccLock.Outcome → String
  | .notRequired => "not_required"
  | .alreadyUnlocked => "already_unlocked"
  | .unlocked => "unlocked"

/-- The name of an outcome elsewhere. -/
def outcomeText : FccLock.Outcome → String
  | .notRequired => "NotRequired"
  | .alreadyUnlocked => "AlreadyUnlocked"
  | .unlocked => "Unlocked"

/-- The network's configuration as JSON. -/
def networkJson (n : Network) : Json :=
  .object [("address", .text n.address.text),
    ("dns_v4", .array (n.dnsV4.map fun a => .text a.text)),
    ("dns_v6", .array (n.dnsV6.map fun a => .text a.text))]

/-- The outcome of a bring-up at a time. -/
def printBringUp (r : Modem.Report) (apn timestamp : String) : Format → String
  | .json =>
    lines [(Json.object [("apn", .text apn), ("unlock", .text (outcomeKey r.unlock)),
      ("network", networkJson r.network), ("timestamp", .text timestamp)]).render]
  | .table =>
    let row := [apn, r.network.address.text, "\n".intercalate r.network.dnsServers,
      outcomeText r.unlock]
    lines [Text.Box.Table.render ⟨["APN", "ADDRESS", "DNS", "FCC LOCK"], [row]⟩]
  | .pretty =>
    lines [s!"apn={apn} address={r.network.address.text} dns="
      ++ ",".intercalate r.network.dnsServers ++ " fcc=" ++ outcomeText r.unlock]

/-! ## Bridges -/

/-- The counters of a bridge, and why it stopped. -/
def printBridgeStats (s : BridgeStats) (reason : String) : Format → String
  | .json =>
    lines [(Json.object [("bytes_down", .number s.bytesDown), ("bytes_up", .number s.bytesUp),
      ("dropped", .number s.dropped), ("packets_down", .number s.packetsDown),
      ("packets_up", .number s.packetsUp), ("reason", .text reason)]).render]
  | .table =>
    let rows := [["uplink", toString s.packetsUp, toString s.bytesUp],
      ["downlink", toString s.packetsDown, toString s.bytesDown]]
    lines [Text.Box.Table.render ⟨["DIRECTION", "PACKETS", "BYTES"], rows⟩,
      s!"dropped={s.dropped} reason={reason}"]
  | .pretty =>
    lines [s!"up={s.packetsUp}/{s.bytesUp}B down={s.packetsDown}/{s.bytesDown}B "
      ++ s!"dropped={s.dropped} reason={reason}"]

end Wwan.Cli
