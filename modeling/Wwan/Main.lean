import Std.Time.DateTime.Timestamp
import Wwan.Cli.Run
import Wwan.Modem.Station

/-!
# The program

The outer layer: arguments, environment, devices, the clock and the outputs.  A session is carried out
on an open device as it is on a stage, with what is read there in place of what is going to happen.
-/

namespace Wwan.Program

/-- The kind of an error of the system. -/
def faultKind : IO.Error → FaultKind
  | .noFileOrDirectory .. => .notFound
  | .permissionDenied .. => .permissionDenied
  | .timeExpired .. => .timedOut
  | .interrupted .. => .interrupted
  | .resourceVanished .. => .brokenPipe
  | .unexpectedEof => .unexpectedEof
  | .alreadyExists .. => .alreadyExists
  | _ => .other

/-- The number and the text of an error of the system, if it has them. -/
def detail? : IO.Error → Option (UInt32 × String)
  | .noFileOrDirectory _ code text | .interrupted _ code text => some (code, text)
  | .alreadyExists _ code text | .invalidArgument _ code text | .permissionDenied _ code text
  | .resourceExhausted _ code text | .inappropriateType _ code text | .noSuchThing _ code text =>
    some (code, text)
  | .otherError code text | .resourceBusy code text | .resourceVanished code text
  | .unsupportedOperation code text | .hardwareFault code text
  | .unsatisfiedConstraints code text | .illegalOperation code text | .protocolError code text
  | .timeExpired code text => some (code, text)
  | .unexpectedEof | .userError _ => none

/-- The fault that an error of the system is. -/
def faultOf (e : IO.Error) : Fault :=
  match detail? e with
  | some (code, text) => ⟨faultKind e, s!"{text} (os error {code.toNat})"⟩
  | none => ⟨faultKind e, toString e⟩

/-- An open device, with the read that is under way on it. -/
structure Link where
  handle : IO.FS.Handle
  reading : IO.Ref (Option (Task (Except IO.Error ByteArray)))

namespace Link

/-- Opens a device for reading and writing. -/
def openAt (path : String) : IO (Except DeviceError Link) := do
  match ← (IO.FS.Handle.mk path .readWrite).toBaseIO with
  | .ok handle => return .ok { handle, reading := ← IO.mkRef none }
  | .error e => return .error (.notOpened path (faultOf e))

/-- Writes bytes; gives the fault if that fails. -/
def write (link : Link) (data : Bytes) : IO (Option Fault) := do
  let act : IO Unit := do
    link.handle.write (ByteArray.mk data.toArray)
    link.handle.flush
  match ← act.toBaseIO with
  | .ok () => return none
  | .error e => return some (faultOf e)

/-- The number of octets to be read next: up to the end of the message, whose length comes first. -/
def wanted (i : Inbox) : Nat :=
  let present := i.buffer.length
  let total := (Bytes.toWordLE (i.buffer.take 4)).toNat + 4
  if present < 4 then 4 - present
  else if i.limit < total then 1
  else max 1 (total - present)

/-- The read that is under way, begun if there is none. -/
def read (link : Link) (i : Inbox) : IO (Task (Except IO.Error ByteArray)) := do
  match ← link.reading.get with
  | some task => return task
  | none =>
    let task ← IO.asTask (link.handle.read (wanted i).toUSize) .dedicated
    link.reading.set (some task)
    return task

/-- What happens next: a read ends, or time passes up to `deadline`. -/
partial def next (link : Link) (i : Inbox) (deadline : Nat) : IO Happening := do
  let task ← link.read i
  if ← IO.hasFinished task then
    link.reading.set none
    match task.get with
    | .ok data => return .burst [.bytes data.toList]
    | .error e => return .burst [.fault (faultOf e)]
  else if deadline ≤ (← IO.monoNanosNow) then return .lapse
  else
    IO.sleep 1
    link.next i deadline

/-- Waits until `check` finds something.  If time passes instead, `late` says what is found then. -/
partial def await {α : Type} (link : Link) (deadline : Nat)
    (check late : Station → Option α × Station) (s : Station) : IO (Option α × Station) := do
  match check s with
  | (some a, s) => return (some a, s)
  | (none, s) =>
    if s.line.ended then
      IO.sleep ((deadline - (← IO.monoNanosNow)) / 1000000).toUInt32
      return late s
    match ← link.next s.line.inbox deadline with
    | .lapse => return late s
    | .burst supplies => link.await deadline check late (s.receive supplies)

/-- The moment at which a span that begins now is over. -/
def deadline (length : Span) : IO Nat := do
  return (← IO.monoNanosNow) + length.nanos

/-- Sends a request and waits for the answer. -/
def call (link : Link) (purpose : Purpose) (command : UInt32) (body : Bytes) (timeout : Span)
    (s : Station) : IO (Except CallError Bytes × Station) := do
  let place (l : Line NoticeId) := l.place purpose command body timeout
  match place s.line with
  | (.error e, line) => return (.error e, { s with line })
  | (.ok token, line) =>
    match ← link.write line.sink.content with
    | some f =>
      let (r, line) := place { s.line with sink := s.line.sink.plan [.fault f] [] }
      return (r.bind fun _ => .error .channelClosed, { s with line })
    | none =>
      let s := { s with line := { line with sink := line.sink.forget } }
      let (r, s) ← link.await (← deadline timeout) (Stage.collect token) (Stage.collectLate token) s
      return ((r.getD (.error .channelClosed)).map Stage.replyBody, s)

/-- Waits until attaching is allowed, up to `moment`. -/
partial def awaitAllowed (link : Link) (timeout : Span) (moment : Nat) (s : Station) :
    IO (Except CallError Unit × Station) := do
  match Stage.beginWait timeout s with
  | (.inl r, s) => return (r, s)
  | (.inr token, s) =>
    let late (s : Station) := (none, (Stage.collectLate token s).2)
    match ← link.await moment (Stage.collect token) late s with
    | (some (.ok (.summary m)), s) =>
      if Stage.tellsAllowed m then return (.ok (), s) else link.awaitAllowed timeout moment s
    | (some (.error e), s) => return (.error e, s)
    | (_, s) => return (.error (Stage.notAllowedInTime timeout), s)

/-- Carries one act out. -/
def perform (link : Link) (s : Station) : (a : Act) → IO (a.Answer × Station)
  | .call purpose command body timeout => link.call purpose command body timeout s
  | .listen => return ((), s.listen)
  | .unlisten => return ((), s.unlisten)
  | .confirmation timeout => do
    link.await (← deadline timeout) Stage.takeConfirmation Stage.takeConfirmation s
  | .attachAllowed timeout => do link.awaitAllowed timeout (← deadline timeout) s
  | .pause length => do
    let nothing (s : Station) : Option Unit × Station := (none, s)
    return ((), (← link.await (← deadline length) nothing nothing s).2)

/-- Carries a session out. -/
def converse {α : Type} (link : Link) (s : Station) : Session α → IO α
  | .pure a => return a
  | .act a next => do
    let (r, s) ← link.perform s a
    link.converse s (next r)

end Link

/-- The host that the program runs on.  It opens no tunnels. -/
def host : Cli.Host IO where
  Device := Link
  Tunnel := Empty
  build := {
    target := "unknown"
    system := "unknown"
    architecture := "unknown"
    revision := "unknown"
    hasTunnels := false }
  openDevice := Link.openAt
  openTunnel _ := return .error (.unsupported "tun interfaces require Linux")
  converse config link session := link.converse (.start config) session
  relay _ _ tunnel := nomatch tunnel
  timestamp := return toString (← Std.Time.Timestamp.now).toSecondsSinceUnixEpoch.val

/-- The variables of the environment that settings may come from. -/
def environment : IO (List (String × String)) := do
  let names := Cli.grammar.commands.flatMap fun (_, f) => f.settings.filterMap (·.envName)
  names.eraseDups.filterMapM fun name => do return (← IO.getEnv name).map fun value => (name, value)

/-- Carries a command line out; gives the status. -/
def run (words : List String) : IO Nat := do
  let env ← environment
  match Cli.Invocation.read (fun name => env.lookup name) words with
  | .error refusal =>
    IO.print refusal.output
    IO.eprint refusal.errorOutput
    return refusal.code
  | .ok invocation =>
    let stdout ← IO.getStdout
    let format := if ← stdout.isTty then Cli.Format.table else Cli.Format.json
    let outcome ← Cli.run host format invocation
    IO.print outcome.output
    IO.eprint outcome.errorOutput
    return outcome.status.code

end Wwan.Program

/-- The program. -/
def main (words : List String) : IO UInt32 := do
  return (← Wwan.Program.run words).toUInt32
