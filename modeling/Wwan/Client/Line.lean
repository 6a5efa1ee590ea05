import Wwan.Client.Basic
import Wwan.Message.Inbox
import Wwan.Message.Outbox

/-!
# A client on its channel

A line joins a client to the two directions of its channel: calls are written to a sink, and what is
read passes through an inbox.  When reading ends, so does the channel; a client that was closed before
goes on reading.
-/

namespace Wwan

/-- A client with the channel that it talks on. -/
structure Line (H : Type) where
  client : Client H
  sink : Sink := {}
  inbox : Inbox := {}
  /-- Whether reading has ended. -/
  ended : Bool := false

namespace Line

variable {H : Type}

/-- A line that has not been used. -/
def ofConfig (config : ClientConfig) : Line H :=
  { client := { config }, inbox := { limit := config.maxMessage } }

/-- Begins a call and sends its request. -/
def place (p : Purpose) (command : UInt32) (body : Bytes) (timeout : Span) (l : Line H) :
    Except CallError Nat × Line H :=
  match l.client.begin p command timeout with
  | (.error e, client) => (.error e, { l with client })
  | (.ok k, client) =>
    let transaction := match k.ticket with
      | .transaction id => some id
      | _ => none
    match Outbox.send client.config.maxMessage { command, transaction, body } l.sink with
    | (.ok (), sink) => (.ok k.token, { l with client := client.sent k.token, sink })
    | (.error e, sink) => (.error e, { l with client := client.unsent k.token, sink })

/-- Begins to wait for the next message. -/
def observe (timeout : Span) (l : Line H) : Except CallError Nat × Line H :=
  match l.client.observe timeout with
  | (.ok k, client) => (.ok k.token, { l with client })
  | (.error e, client) => (.error e, { l with client })

/-- The time of a call passes, and it withdraws. -/
def lapse (token : Nat) (l : Line H) : Line H :=
  { l with client := (l.client.expire token).settle token }

/-- What a call returns, once that is decided. -/
def collect (token : Nat) (l : Line H) : Option (Except CallError Reply) × Line H :=
  let (r, client) := l.client.collect token
  (r, { l with client })

/-- One read gives bytes: the messages that are complete now are dispatched in their order. -/
def receive (chunk : Bytes) (l : Line H) : Line H :=
  let (messages, inbox) := (l.inbox.feed chunk).drain
  { l with client := messages.foldl (fun c m => c.dispatch m) l.client, inbox }

/-- Reading ends, and the channel with it. -/
def finish (l : Line H) : Line H :=
  { l with client := l.client.close, ended := true }

/-- Bytes arrive, and are taken by as many reads as they need. -/
def receiveAll (data : Bytes) (l : Line H) : Line H :=
  match data with
  | [] => l
  | b :: bs =>
    receiveAll (bs.drop (Inbox.chunkSize - 1)) (l.receive ((b :: bs).take Inbox.chunkSize))
termination_by data.length
decreasing_by
  simp only [List.length_drop, List.length_cons]
  omega

/-- The channel supplies bytes or a fault.  Reading ends when it supplies no bytes, or with a fault
that is not an interruption. -/
def arrive (s : Supply) (l : Line H) : Line H :=
  if l.ended then l
  else match s with
    | .bytes [] => l.finish
    | .bytes data => l.receiveAll data
    | .fault f => if f.kind = .interrupted then l else l.finish

/-- Changes the client only. -/
def mapClient (f : Client H → Client H) (l : Line H) : Line H :=
  { l with client := f l.client }

end Line

end Wwan
