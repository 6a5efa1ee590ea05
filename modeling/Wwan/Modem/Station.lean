import Wwan.Client.Line
import Wwan.Modem.Reply
import Wwan.Modem.Session

/-!
# Carrying sessions out

A station is a client on its channel with what it has heard from the modem.  A session is carried out
there, against a peer: after each request the peer says what is going to happen, in bursts that are
received at once, or in time passing.  When nothing is going to happen, time passes.
-/

namespace Wwan

/-- Something that happens while the host waits. -/
inductive Happening where
  /-- The channel supplies these, one directly after the other. -/
  | burst (supplies : List Supply)
  /-- The time of what is being waited for passes. -/
  | lapse

/-- What happens after each request, told by its number and its bytes. -/
abbrev Peer := Nat → Bytes → List Happening

/-- A client with what its handlers have heard. -/
structure Station where
  line : Line NoticeId
  /-- Whether the network last told that attaching is allowed. -/
  allowed : Bool := false
  /-- The confirmations of the mode that were kept and not looked at yet. -/
  confirmations : List Bytes := []

namespace Station

/-- A station that listens to what the network tells about attaching. -/
def start (config : ClientConfig) : Station :=
  { line := (Line.ofConfig config).mapClient fun c =>
      (c.register NoticeId.attachAllowed.code .attachAllowed).2 }

/-- A handler is called with a message. -/
def hear (s : Station) : NoticeId × Message → Station
  | (.attachAllowed, m) =>
    match Modem.attachAllowed? m.body with
    | some allowed => { s with allowed }
    | none => s
  | (.modeSet, m) => { s with confirmations := s.confirmations ++ [m.body] }
  | _ => s

/-- Handles all notices. -/
def handle (s : Station) : Station :=
  let client := s.line.client.handleAll
  client.handled.foldl hear { s with line := { s.line with client := { client with handled := [] } } }

/-- The channel supplies something, and the notices in it are handled. -/
def receive (supplies : List Supply) (s : Station) : Station :=
  handle { s with line := supplies.foldl (fun l x => l.arrive x) s.line }

/-- Begins to keep the confirmations of the mode. -/
def listen (s : Station) : Station :=
  { s with
    confirmations := []
    line := s.line.mapClient fun c => (c.register NoticeId.modeSet.code .modeSet).2 }

/-- Keeps no more confirmations of the mode. -/
def unlisten (s : Station) : Station :=
  { s with line := s.line.mapClient fun c => (c.unregister NoticeId.modeSet.code).2 }

end Station

/-- A station with a session going on. -/
structure Stage where
  station : Station
  peer : Peer
  /-- The number of requests sent so far. -/
  asked : Nat := 0
  /-- What is going to happen. -/
  ahead : List Happening := []

namespace Stage

variable {α : Type}

/-- Waits until `check` finds something, through what is going to happen.  If time passes instead, or
nothing is going to happen any more, `late` says what is found then. -/
def await (check late : Station → Option α × Station) (s : Station) :
    List Happening → Option α × Station × List Happening
  | [] =>
    match check s with
    | (some a, s) => (some a, s, [])
    | (none, s) => let (r, s) := late s; (r, s, [])
  | h :: ahead =>
    match check s with
    | (some a, s) => (some a, s, h :: ahead)
    | (none, s) =>
      match h with
      | .lapse => let (r, s) := late s; (r, s, ahead)
      | .burst supplies => await check late (s.receive supplies) ahead

/-- The body that a reply gives; empty for those that give none. -/
def replyBody : Reply → Bytes
  | .body content => content
  | _ => []

/-- What a call returns at a station, if that is decided. -/
def collect (token : Nat) (s : Station) : Option (Except CallError Reply) × Station :=
  let (r, line) := s.line.collect token
  (r, { s with line })

/-- What a call returns when its time has passed. -/
def collectLate (token : Nat) (s : Station) : Option (Except CallError Reply) × Station :=
  collect token { s with line := s.line.lapse token }

/-- Sends a request, asks the peer what is going to happen, and waits for the answer. -/
def call (p : Purpose) (command : UInt32) (body : Bytes) (timeout : Span) (w : Stage) :
    Except CallError Bytes × Stage :=
  match w.station.line.place p command body timeout with
  | (.error e, line) => (.error e, { w with station := { w.station with line } })
  | (.ok token, line) =>
    let request := (line.sink.taken.drop w.station.line.sink.taken.length).flatten
    let (r, station, ahead) := await (collect token) (collectLate token)
      { w.station with line } (w.ahead ++ w.peer w.asked request)
    let r := (r.getD (.error .channelClosed)).map replyBody
    (r, { w with station, ahead, asked := w.asked + 1 })

/-- Takes the oldest confirmation that was kept. -/
def takeConfirmation (s : Station) : Option Bytes × Station :=
  match s.confirmations with
  | [] => (none, s)
  | body :: rest => (some body, { s with confirmations := rest })

/-- Whether a message is a notice that attaching is allowed. -/
def tellsAllowed (m : Summary) : Bool :=
  m.command = NoticeId.attachAllowed.code ∧ Modem.attachAllowed? m.body = some true

/-- The error of waiting in vain for the notice that attaching is allowed. -/
def notAllowedInTime (timeout : Span) : CallError :=
  .timeout "attach-allowed indication" timeout

/-- Begins to wait for the next message, unless attaching is allowed already.  A wait of no length is
over before it begins. -/
def beginWait (timeout : Span) (s : Station) : (Except CallError Unit ⊕ Nat) × Station :=
  if s.allowed then (.inl (.ok ()), s)
  else if timeout.nanos = 0 then (.inl (.error (notAllowedInTime timeout)), s)
  else match s.line.observe timeout with
    | (.error e, line) => (.inl (.error e), { s with line })
    | (.ok token, line) => (.inr token, { s with line })

/-- Waits until attaching is allowed: the handler may hear it, or the next message may tell it. -/
def awaitAllowed (timeout : Span) (s : Station) :
    List Happening → Except CallError Unit × Station × List Happening
  | [] =>
    match beginWait timeout s with
    | (.inl r, s) => (r, s, [])
    | (.inr token, s) => (.error (notAllowedInTime timeout), (collectLate token s).2, [])
  | h :: ahead =>
    match beginWait timeout s with
    | (.inl r, s) => (r, s, h :: ahead)
    | (.inr token, s) =>
      match h with
      | .lapse => (.error (notAllowedInTime timeout), (collectLate token s).2, ahead)
      | .burst supplies =>
        match collect token (s.receive supplies) with
        | (some (.ok (.summary m)), s) =>
          if tellsAllowed m then (.ok (), s, ahead) else awaitAllowed timeout s ahead
        | (some (.error e), s) => (.error e, s, ahead)
        | (_, s) => awaitAllowed timeout (collectLate token s).2 ahead

/-- Lets time pass, with what happens meanwhile. -/
def pause (s : Station) : List Happening → Station × List Happening
  | [] => (s, [])
  | .lapse :: ahead => (s, ahead)
  | .burst supplies :: ahead => pause (s.receive supplies) ahead

/-- Carries one act out. -/
def perform (w : Stage) : (a : Act) → a.Answer × Stage
  | .call p command body timeout => w.call p command body timeout
  | .listen => ((), { w with station := w.station.listen })
  | .unlisten => ((), { w with station := w.station.unlisten })
  | .confirmation _ =>
    let (r, station, ahead) := await takeConfirmation takeConfirmation w.station w.ahead
    (r, { w with station, ahead })
  | .attachAllowed timeout =>
    let (r, station, ahead) := awaitAllowed timeout w.station w.ahead
    (r, { w with station, ahead })
  | .pause _ =>
    let (station, ahead) := pause w.station w.ahead
    ((), { w with station, ahead })

/-- Carries a session out. -/
def run (w : Stage) : Session α → α × Stage
  | .pure a => (a, w)
  | .act a next =>
    let (r, w) := w.perform a
    w.run (next r)

end Stage

end Wwan
