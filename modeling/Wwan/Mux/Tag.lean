import Wwan.Fault
import Wwan.Text.Number
import Wwan.Bytes

/-!
# Tags

Frames of the mux channel are chains of tags.  This file holds the names of tags, and the errors of
writing and reading frames.
-/

namespace Wwan

/-- The name of a tag: four octets. -/
structure TagId where
  a : UInt8
  b : UInt8
  c : UInt8
  d : UInt8
  deriving DecidableEq

namespace TagId

/-- Holds packets. -/
def adbh : TagId := ⟨0x41, 0x44, 0x42, 0x48⟩

/-- Tells where the packets are. -/
def adth : TagId := ⟨0x41, 0x44, 0x54, 0x48⟩

/-- Starts a control frame. -/
def acbh : TagId := ⟨0x41, 0x43, 0x42, 0x48⟩

/-- Opens the data channel. -/
def cmdh : TagId := ⟨0x43, 0x4d, 0x44, 0x48⟩

/-- The octets of a name. -/
def toBytes (t : TagId) : Bytes :=
  [t.a, t.b, t.c, t.d]

/-- The name of four octets; other byte strings stand for no name but four zeros. -/
def ofBytes : Bytes → TagId
  | [a, b, c, d] => ⟨a, b, c, d⟩
  | _ => ⟨0, 0, 0, 0⟩

/-- Whether an octet is the code of a character that can be seen. -/
def isGraphic (b : UInt8) : Bool :=
  0x21 ≤ b && b ≤ 0x7e

/-- The text of a name: its characters if all can be seen, else its octets in hexadecimal. -/
def text (t : TagId) : String :=
  if t.toBytes.all isGraphic then String.ofList (t.toBytes.map fun b => Char.ofNat b.toNat)
  else Text.hexPadded 8 (Bytes.toNatBE t.toBytes)

/-- The text of a name that says what it is. -/
def describe (t : TagId) : String :=
  s!"TagId({t.text})"

@[simp] theorem length_toBytes (t : TagId) : t.toBytes.length = 4 := rfl

@[simp] theorem ofBytes_toBytes (t : TagId) : ofBytes t.toBytes = t := rfl

end TagId

/-- Why a frame cannot be written, read or carried. -/
inductive FrameError where
  /-- A length or pointer of a frame leads out of it. -/
  | malformed (offset length : Nat) (reason : String)
  /-- A tag stands where another one has to. -/
  | unexpectedTag (expected found : TagId) (offset : Nat)
  | missingTag (expected : TagId)
  /-- A payload is longer than a tag can tell. -/
  | tagTooLarge (size limit : Nat)
  | frameTooLarge (size limit : Nat)
  | tooManyPackets (limit : Nat)
  /-- A frame has no tags. -/
  | empty
  /-- Reading or writing fails. -/
  | fault (cause : Fault)
  /-- The stream has ended. -/
  | closed
  deriving DecidableEq

/-- The wording of an error. -/
def FrameError.message : FrameError → String
  | malformed offset length reason =>
    s!"malformed frame at offset {offset}: {reason} (buffer is {length} bytes)"
  | unexpectedTag expected found offset =>
    s!"unexpected tag {found.text} at offset {offset} (expected {expected.text})"
  | missingTag expected => s!"missing {expected.text} tag"
  | tagTooLarge size limit => s!"tag too large ({size} bytes, max {limit})"
  | frameTooLarge size limit => s!"frame too large ({size} bytes, max {limit})"
  | tooManyPackets limit => s!"frame already carries {limit} packets"
  | empty => "frame has no tags"
  | fault cause => "frame I/O error: " ++ cause.text
  | closed => "connection closed"

end Wwan
