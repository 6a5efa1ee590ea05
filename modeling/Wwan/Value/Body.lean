import Wwan.Value.Encoding

/-!
# Building bodies

A body is put together from fields, one behind the other.  A field that cannot be written leaves the
body as it was.
-/

namespace Wwan

/-- A part of a body. -/
inductive Field where
  | byte (n : UInt8)
  | word (n : UInt16)
  | dword (n : UInt32)
  /-- A string of this many zero octets, all of them valid. -/
  | zeros (n : Nat)
  /-- Bytes that are encoded already. -/
  | raw (data : Bytes)
  /-- A string in a field of `capacity` elements of `width` octets. -/
  | string (capacity width : Nat) (data : Bytes)

namespace Field

/-- The bytes of a field. -/
def encode : Field → Except ValueError Bytes
  | byte n => .ok (Value.byte n)
  | word n => .ok (Value.word n)
  | dword n => .ok (Value.dword n)
  | zeros n => .ok (Value.zeros n)
  | raw data => .ok data
  | string capacity width data => Value.encodeString capacity width data

end Field

/-- A body under construction. -/
structure Body where
  content : Bytes := []

namespace Body

/-- The body without any field. -/
def empty : Body := {}

/-- The number of bytes written so far. -/
def size (b : Body) : Nat :=
  b.content.length

/-- Adds a field at the end. -/
def add (f : Field) (b : Body) : Except ValueError Unit × Body :=
  match f.encode with
  | .ok bs => (.ok (), ⟨b.content ++ bs⟩)
  | .error e => (.error e, b)

/-- Takes the bytes written so far and starts anew. -/
def finish (b : Body) : Bytes × Body :=
  (b.content, empty)

end Body

end Wwan
