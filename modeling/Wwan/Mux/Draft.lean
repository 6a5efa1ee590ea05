import Wwan.Mux.Frame

/-!
# Writing frames

A draft collects the tags of a frame.  When it is finished, each tag gets its place, a multiple of
four, and the pointer to the next one, and the first one the frame's length.
-/

namespace Wwan

/-- A tag that has no place yet. -/
structure DraftTag where
  id : TagId
  extra : UInt16
  payload : Bytes
  deriving DecidableEq

/-- A frame under construction. -/
structure Draft where
  sequence : UInt16
  tags : List DraftTag := []
  deriving DecidableEq

namespace Draft

/-- The least multiple of four that is not less. -/
def align (n : Nat) : Nat :=
  (n + 3) / 4 * 4

/-- The length of the longest payload behind the first tag. -/
def payloadLimit : Nat := 65535 - Frame.headerSize

/-- Where the tags end of which the first starts at a place. -/
def stopFrom (offset : Nat) : List DraftTag → Nat
  | [] => offset
  | t :: rest => stopFrom (align offset + Frame.headerSize + t.payload.length) rest

/-- The number of bytes that the tags take so far. -/
def size (d : Draft) : Nat :=
  match d.tags with
  | [] => 0
  | t :: rest => stopFrom (Frame.firstHeaderSize + t.payload.length) rest

/-- A draft whose first tag is in place. -/
def withFirstTag (sequence : UInt16) (id : TagId) (payload : Bytes) (extra : UInt16) : Draft :=
  { sequence, tags := [{ id, extra, payload }] }

/-- Adds a tag.  The payload of the first one may have any length. -/
def append (id : TagId) (payload : Bytes) (extra : UInt16) (d : Draft) :
    Except FrameError Unit × Draft :=
  if d.tags ≠ [] ∧ payloadLimit < payload.length then
    (.error (.tagTooLarge payload.length payloadLimit), d)
  else if d.tags ≠ [] ∧ Bytes.bound 4 ≤ align d.size then
    (.error (.frameTooLarge (align d.size) (Bytes.bound 4 - 1)), d)
  else (.ok (), { d with tags := d.tags ++ [{ id, extra, payload }] })

/-- Adds bytes to the payload of the last tag. -/
def extend (data : Bytes) (d : Draft) : Except FrameError Unit × Draft :=
  match d.tags.getLast? with
  | none => (.error .empty, d)
  | some t =>
    let payload := t.payload ++ data
    if d.tags.length ≠ 1 ∧ payloadLimit < payload.length then
      (.error (.tagTooLarge payload.length payloadLimit), d)
    else (.ok (), { d with tags := d.tags.dropLast ++ [{ t with payload }] })

/-- The pointer to the tags that follow: where they start, or zero if there are none. -/
def pointer (rest : List DraftTag) (next : Nat) : Nat :=
  if rest.isEmpty then 0 else next

/-- The zeros before the tags that follow, if there are any. -/
def padding (rest : List DraftTag) (offset : Nat) : Bytes :=
  if rest.isEmpty then [] else Bytes.zeros (align offset - offset)

/-- The bytes of the tags behind the first one, of which the first starts at a place. -/
def renderRest (offset : Nat) : List DraftTag → Bytes
  | [] => []
  | t :: rest =>
    let stop := offset + Frame.headerSize + t.payload.length
    t.id.toBytes ++ Bytes.ofNatLE 2 (Frame.headerSize + t.payload.length)
      ++ Bytes.ofNatLE 2 t.extra.toNat ++ Bytes.ofNatLE 4 (pointer rest (align stop)) ++ t.payload
      ++ padding rest stop ++ renderRest (align stop) rest

/-- The bytes of a frame whose first tag is `t`. -/
def render (sequence : UInt16) (total : Nat) (t : DraftTag) (rest : List DraftTag) : Bytes :=
  let stop := Frame.firstHeaderSize + t.payload.length
  t.id.toBytes ++ Bytes.zeros 2 ++ Bytes.ofNatLE 2 sequence.toNat ++ Bytes.ofNatLE 4 total
    ++ Bytes.ofNatLE 4 (pointer rest (align stop)) ++ t.payload ++ padding rest stop
    ++ renderRest (align stop) rest

/-- The bytes of a finished frame. -/
def finish (d : Draft) : Except FrameError Bytes :=
  match d.tags with
  | [] => .error .empty
  | t :: rest =>
    if Bytes.bound 4 ≤ d.size then .error (.frameTooLarge d.size (Bytes.bound 4 - 1))
    else .ok (render d.sequence d.size t rest)

end Draft

end Wwan
