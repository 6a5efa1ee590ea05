import Wwan.Bytes
import Wwan.Fault
import Wwan.Text.Quoted

/-!
# Endpoints

An endpoint is an open device, or one of two that are connected to each other.  Connected endpoints
exchange units, which a read never joins: what does not fit into a read is lost.  A file has one
position for reading and writing, whoever uses it.
-/

namespace Wwan

/-- One of two connected endpoints. -/
inductive Side where
  | left
  | right
  deriving DecidableEq

/-- The other endpoint. -/
def Side.other : Side → Side
  | left => right
  | right => left

/-- The receiving part of an endpoint. -/
structure Receiver where
  /-- The units sent to it and not read yet. -/
  queue : List Bytes := []
  /-- Whether it was shut down; then it takes no more units. -/
  isShut : Bool := false
  deriving DecidableEq

/-- Two endpoints that are connected to each other. -/
structure Pair where
  left : Receiver := {}
  right : Receiver := {}
  deriving DecidableEq

namespace Pair

/-- The receiving part of a side. -/
def receiver : Side → Pair → Receiver
  | .left, p => p.left
  | .right, p => p.right

/-- Changes the receiving part of a side. -/
def update (f : Receiver → Receiver) : Side → Pair → Pair
  | .left, p => { p with left := f p.left }
  | .right, p => { p with right := f p.right }

/-- The size of the largest unit that can be sent. -/
def unitLimit : Nat := 212960

/-- Sends a unit to the other side.  Neither side may be shut down. -/
def write (s : Side) (data : Bytes) (p : Pair) : Except Fault Nat × Pair :=
  if unitLimit < data.length then (.error .messageTooLong, p)
  else if (p.receiver s).isShut ∨ (p.receiver s.other).isShut then (.error .brokenPipe, p)
  else (.ok data.length, p.update (fun r => { r with queue := r.queue ++ [data] }) s.other)

/-- Reads the next unit, of which at most `size` bytes are kept. -/
def read (s : Side) (size : Nat) (p : Pair) : Bytes × Pair :=
  match (p.receiver s).queue with
  | [] => ([], p)
  | data :: rest => (data.take size, p.update (fun r => { r with queue := rest }) s)

/-- Shuts a side down: it sends and takes no more units, but keeps those it has. -/
def shutdown (s : Side) (p : Pair) : Pair :=
  p.update (fun r => { r with isShut := true }) s

end Pair

/-- An open file. -/
structure OpenFile where
  content : Bytes
  position : Nat := 0
  deriving DecidableEq

namespace OpenFile

/-- Writes at the position, over what stands there. -/
def write (data : Bytes) (f : OpenFile) : OpenFile where
  content := f.content.take f.position ++ data ++ f.content.drop (f.position + data.length)
  position := f.position + data.length

/-- Reads at most `size` bytes from the position on. -/
def read (size : Nat) (f : OpenFile) : Bytes × OpenFile :=
  let data := (f.content.drop f.position).take size
  (data, { f with position := f.position + data.length })

end OpenFile

/-- What an endpoint is a part of. -/
inductive Medium where
  | pair (p : Pair)
  | file (f : OpenFile)

namespace Medium

/-- What kind of endpoint it is. -/
def kind : Medium → String
  | pair _ => "datagram"
  | file _ => "device"

/-- A description of an endpoint. -/
def describe (m : Medium) : String :=
  "DeviceStream \x7b type: " ++ Text.quote m.kind ++ " \x7d"

/-- Writes at an endpoint; gives the number of bytes written. -/
def write (s : Side) (data : Bytes) : Medium → Except Fault Nat × Medium
  | pair p => let (r, p) := p.write s data; (r, pair p)
  | file f => (.ok data.length, file (f.write data))

/-- Reads at an endpoint. -/
def read (s : Side) (size : Nat) : Medium → Bytes × Medium
  | pair p => let (data, p) := p.read s size; (data, pair p)
  | file f => let (data, f) := f.read size; (data, file f)

/-- Shuts an endpoint down; a file cannot be shut down, and nothing happens. -/
def shutdown (s : Side) : Medium → Medium
  | pair p => pair (p.shutdown s)
  | file f => file f

end Medium

end Wwan
