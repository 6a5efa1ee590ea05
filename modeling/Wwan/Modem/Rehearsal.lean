import Wwan.Modem.Station

/-!
# Rehearsals

A rehearsed modem answers the requests of a session by a script: the first request by its first entry,
and so on.  An entry is sent as one piece, and a request for which there is none ends the channel.
-/

namespace Wwan

/-- A part of a script's entry. -/
inductive Cue where
  /-- An answer. -/
  | sync (command : Option UInt32) (body : Bytes)
  /-- The acknowledgement of a transaction. -/
  | acknowledge (command id : Option UInt32)
  /-- The result of a transaction. -/
  | result (command id : Option UInt32) (body : Bytes)
  /-- A message that has nothing to do with the request. -/
  | push (command word : UInt32) (body : Bytes)
  | raw (data : Bytes)
  /-- The end of the channel. -/
  | close

namespace Cue

/-- A message as the modem sends it. -/
def messageBytes (command word : UInt32) (body : Bytes) : Bytes :=
  let length := UInt32.ofNat (body.length + 16)
  Bytes.ofWordLE length ++ Value.dword length ++ Value.dword command ++ Bytes.ofWordBE word ++ body

/-- The bytes of a cue, as the answer to a request.  A transaction's messages start with its number,
which is the low octet of the request's word. -/
def bytes (request : Message) : Cue → Bytes
  | sync command body => messageBytes (command.getD request.command) syncWord body
  | acknowledge command id =>
    messageBytes (command.getD request.command) request.word (Value.dword (id.getD (number request)))
  | result command id body =>
    messageBytes (command.getD request.command) request.word
      (Value.dword (id.getD (number request)) ++ body)
  | push command word body => messageBytes command word body
  | raw data => data
  | close => []
where
  /-- The low octet of a message's word. -/
  number (m : Message) : UInt32 := m.word.toUInt8.toUInt32

/-- Whether a cue ends the channel. -/
def isClose : Cue → Bool
  | close => true
  | _ => false

/-- What an entry supplies: its bytes up to the end of the channel, as one piece. -/
def supplies (request : Message) (entry : List Cue) : List Supply :=
  let data := (entry.takeWhile fun c => !c.isClose).flatMap (bytes request)
  (if data.isEmpty then [] else [.bytes data]) ++ (if entry.any isClose then [.bytes []] else [])

end Cue

/-- The modem that answers by a script. -/
def Peer.ofScript (script : List (List Cue)) : Peer := fun k request =>
  match script[k]?, Message.ofUnit request with
  | some entry, .ok m => [.burst (Cue.supplies m entry)]
  | _, _ => [.burst [.bytes []]]

end Wwan
