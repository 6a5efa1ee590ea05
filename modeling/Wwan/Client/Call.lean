import Wwan.Client.Table
import Wwan.Message.Basic

/-!
# Calls

A call is sent, waits, and is given what it waits for through its slot; or it stops waiting when its
time has passed, and then withdraws from the table of outstanding calls.
-/

namespace Wwan

/-- What is told of a message: what it was for, and what was in it. -/
structure Summary where
  kind : Message.Kind
  command : UInt32
  word : UInt32
  body : Bytes
  deriving DecidableEq

/-- What is told of a message. -/
def Message.summary (threshold : UInt32) (m : Message) : Summary :=
  ⟨m.classify threshold, m.command, m.word, m.body⟩

/-- What a call is after. -/
inductive Purpose where
  /-- The next answer. -/
  | answer
  /-- Nothing: the answer is dropped. -/
  | oneWay
  /-- The result of a transaction. -/
  | transaction
  deriving DecidableEq

/-- The place of a call in the table. -/
inductive Ticket where
  | answer
  | oneWay
  | transaction (id : UInt8)
  /-- Waits for the next message, whatever it is. -/
  | observation
  deriving DecidableEq

/-- How far a call has got. -/
inductive Phase where
  /-- Its request is being written. -/
  | sending
  | waiting
  /-- Its time has passed, and the table does not know yet. -/
  | expired
  /-- Its time has passed, and it has withdrawn from the table. -/
  | settled
  deriving DecidableEq

/-- A call in progress. -/
structure Call where
  token : Nat
  ticket : Ticket
  command : UInt32
  timeout : Span
  phase : Phase
  /-- The message that was handed to this call. -/
  slot : Option Summary := none

/-- What a call returns. -/
inductive Reply where
  | nothing
  | body (content : Bytes)
  | summary (s : Summary)
  deriving DecidableEq

namespace Call

/-- What a call is doing, as its timeout names it. -/
def operation (k : Call) : String :=
  let call := "call " ++ Text.hexPadded 4 k.command.toNat
  match k.ticket with
  | .answer | .oneWay => call
  | .transaction id => s!"transaction {id.toNat} ({call})"
  | .observation => "pump"

/-- What a call makes of the message in its slot.  The result of a transaction starts with the
transaction's number, which is taken off, whatever it is. -/
def conclude (k : Call) (s : Summary) : Except CallError Reply :=
  match k.ticket with
  | .oneWay => .ok .nothing
  | .answer => .ok (.body s.body)
  | .observation => .ok (.summary s)
  | .transaction id =>
    match Message.stripId s.body with
    | some (_, result) => .ok (.body result)
    | none => .error (.violation s!"result of transaction {id.toNat} lacks the echoed id")

/-- Whether the table still has the entry that a call was given. -/
def isHeld (t : Table) (k : Call) : Bool :=
  match k.ticket with
  | .answer | .oneWay => t.waiters.any fun w => w.token = k.token
  | .transaction _ => t.pending.any fun p => p.token = k.token
  | .observation => t.observers.any fun o => o = k.token

/-- What a call returns, once that is decided.  A waiting call returns what is in its slot; if nothing
is and its entry is gone, the channel has ended.  Of the calls whose time has passed, only one that
waits for the next answer looks into its slot again. -/
def outcome? (t : Table) (k : Call) : Option (Except CallError Reply) :=
  match k.phase with
  | .sending | .expired => none
  | .waiting =>
    if k.ticket = .oneWay then some (.ok .nothing)
    else match k.slot with
      | some s => some (k.conclude s)
      | none => if k.isHeld t then none else some (.error .channelClosed)
  | .settled =>
    match k.ticket, k.slot with
    | .answer, some s => some (k.conclude s)
    | _, _ => some (.error (.timeout k.operation k.timeout))

/-- Takes a call's entry out of the table because its request was not sent. -/
def retract (k : Call) (t : Table) : Table :=
  match k.ticket with
  | .answer | .oneWay => t.forget k.token
  | .transaction id => t.release id k.token
  | .observation => t.unobserve k.token

/-- Withdraws a call whose time has passed: its place in the queue stays, so that the late answer is
not taken for another one. -/
def withdraw (k : Call) (t : Table) : Table :=
  match k.ticket with
  | .answer | .oneWay => t.abandon k.token
  | .transaction id => t.release id k.token
  | .observation => t.unobserve k.token

/-- Hands a message to a call, if its slot is empty. -/
def receive (s : Summary) (k : Call) : Call :=
  { k with slot := k.slot <|> some s }

end Call

end Wwan
