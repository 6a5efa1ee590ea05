import Wwan.Client.Call

/-!
# The client of a command channel

The client matches what arrives with the calls that wait for it, and hands notices to the handlers
registered for them.  Each of its steps is one that cannot be interrupted: a call begins, has been sent
or could not be sent, its time passes, it withdraws, it returns; a message is dispatched; a notice is
handled; the channel ends.
-/

namespace Wwan

/-- The settings of a client. -/
structure ClientConfig where
  /-- How long a call waits that does not say so itself. -/
  callTimeout : Span := .ofSeconds 30
  /-- The command from which on messages are notices whatever their word. -/
  threshold : UInt32 := 2000
  /-- The size of the largest message. -/
  maxMessage : Nat := 65536
  deriving DecidableEq

/-- A client; `H` tells its handlers apart. -/
structure Client (H : Type) where
  config : ClientConfig := {}
  table : Table := {}
  /-- The calls that have begun and not returned. -/
  calls : List Call := []
  /-- The handler of each command that has one. -/
  handlers : List (UInt32 × H) := []
  /-- The notices that no handler has seen yet, oldest first. -/
  notices : List Message := []
  /-- What the handlers have been called with, oldest first. -/
  handled : List (H × Message) := []

namespace Client

variable {H : Type}

/-- The call with a token. -/
def call? (token : Nat) (c : Client H) : Option Call :=
  c.calls.find? fun k => k.token = token

/-- Changes the call with a token. -/
def update (token : Nat) (f : Call → Call) (c : Client H) : Client H :=
  { c with calls := c.calls.map fun k => if k.token = token then f k else k }

/-- Leaves a call out. -/
def drop (token : Nat) (c : Client H) : Client H :=
  { c with calls := c.calls.filter fun k => k.token ≠ token }

/-- Enters a call into the table: its ticket and token. -/
def enter (p : Purpose) (t : Table) : Except CallError (Ticket × Nat) × Table :=
  if t.closed then (.error .channelClosed, t)
  else match p with
    | .answer => let (token, t) := t.issue; (.ok (.answer, token), t.enqueue token true)
    | .oneWay => let (token, t) := t.issue; (.ok (.oneWay, token), t.enqueue token false)
    | .transaction =>
      match t.allocate with
      | (none, t) => (.error .exhausted, t)
      | (some id, t) =>
        let (token, t) := t.issue
        (.ok (.transaction id, token), t.start id token)

/-- Begins a call, which is then being sent. -/
def begin (p : Purpose) (command : UInt32) (timeout : Span) (c : Client H) :
    Except CallError Call × Client H :=
  match enter p c.table with
  | (.error e, table) => (.error e, { c with table })
  | (.ok (ticket, token), table) =>
    let k : Call := { token, ticket, command, timeout, phase := .sending }
    (.ok k, { c with table, calls := c.calls ++ [k] })

/-- The request of a call has been sent. -/
def sent (token : Nat) (c : Client H) : Client H :=
  c.update token fun k => { k with phase := .waiting }

/-- The request of a call could not be sent: the call returns at once. -/
def unsent (token : Nat) (c : Client H) : Client H :=
  match c.call? token with
  | some k => { c with table := k.retract c.table }.drop token
  | none => c

/-- Begins to wait for the next message. -/
def observe (timeout : Span) (c : Client H) : Except CallError Call × Client H :=
  if c.table.closed then (.error .channelClosed, c)
  else
    let (token, t) := c.table.issue
    let k : Call := { token, ticket := .observation, command := 0, timeout, phase := .waiting }
    (.ok k, { c with table := t.observe token, calls := c.calls ++ [k] })

/-- The time of a call passes while nothing is decided about it. -/
def expire (token : Nat) (c : Client H) : Client H :=
  match c.call? token with
  | some k =>
    if k.phase = .waiting ∧ (k.outcome? c.table).isNone then
      c.update token fun k => { k with phase := .expired }
    else c
  | none => c

/-- A call whose time has passed withdraws. -/
def settle (token : Nat) (c : Client H) : Client H :=
  match c.call? token with
  | some k =>
    if k.phase = .expired then
      { c with table := k.withdraw c.table }.update token fun k => { k with phase := .settled }
    else c
  | none => c

/-- What a call returns, once that is decided; it is over then. -/
def collect (token : Nat) (c : Client H) : Option (Except CallError Reply) × Client H :=
  match (c.call? token).bind fun k => k.outcome? c.table with
  | some r => (some r, c.drop token)
  | none => (none, c)

/-- Who receives a message of this kind. -/
def route : Message.Kind → Table → Option Nat × Table
  | .response, t => t.answer
  | .transaction id, t => t.advance id
  | .notice, t => (none, t)

/-- A message arrives: the call that waits for it receives it, a notice is kept for its handler, and
whoever waits for the next message is told. -/
def dispatch (m : Message) (c : Client H) : Client H :=
  let s := m.summary c.config.threshold
  let (receiver, t) := route s.kind c.table
  let isTold (k : Call) : Bool := receiver = some k.token || t.observers.contains k.token
  { c with
    table := { t with observers := [] }
    calls := c.calls.map fun k => if isTold k then k.receive s else k
    notices := if s.kind = .notice then c.notices ++ [m] else c.notices }

/-- The channel has ended: nobody is waited for any more. -/
def close (c : Client H) : Client H :=
  { c with table := c.table.close }

/-! ## Handlers -/

/-- The handler of a command. -/
def handler? (command : UInt32) (c : Client H) : Option H :=
  (c.handlers.find? fun h => h.1 = command).map Prod.snd

/-- Takes the handler of a command away, and tells which it was. -/
def unregister (command : UInt32) (c : Client H) : Option H × Client H :=
  (c.handler? command, { c with handlers := c.handlers.filter fun h => h.1 ≠ command })

/-- Registers the handler of a command, and tells which it replaces. -/
def register (command : UInt32) (h : H) (c : Client H) : Option H × Client H :=
  let (old, c) := c.unregister command
  (old, { c with handlers := (command, h) :: c.handlers })

/-- Hands a notice to the handler that its command has now, if it has one. -/
def handle (m : Message) (c : Client H) : Client H :=
  match c.handler? m.command with
  | some h => { c with handled := c.handled ++ [(h, m)] }
  | none => c

/-- Handles the oldest notice. -/
def handleNext (c : Client H) : Client H :=
  match c.notices with
  | [] => c
  | m :: rest => { c with notices := rest }.handle m

/-- Handles all notices. -/
def handleAll (c : Client H) : Client H :=
  c.notices.foldl (fun c m => c.handle m) { c with notices := [] }

/-! ## Text -/

/-- A description of a client: its settings and whether its channel has ended. -/
def describe (c : Client H) : String :=
  let config := "RpcConfig \x7b call_timeout: " ++ c.config.callTimeout.text
    ++ s!", ack_code_threshold: {c.config.threshold.toNat}"
    ++ s!", max_message_size: {c.config.maxMessage} \x7d"
  "RpcClient \x7b config: " ++ config ++ s!", closed: {c.table.closed} \x7d"

end Client

end Wwan
