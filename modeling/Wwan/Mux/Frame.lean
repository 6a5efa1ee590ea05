import Wwan.Mux.Tag

/-!
# Reading frames

A frame starts with the header of its first tag, which holds the frame's sequence number and length.
Each header points to the next tag; the last one's pointer is zero.  Nothing that a frame tells about
itself is trusted: every place and length is held against the frame's length, and that against the
buffer.
-/

namespace Wwan

/-- A tag of a frame. -/
structure Tag where
  id : TagId
  /-- A number beside the length; the first tag has no room for it, and it is zero there. -/
  extra : UInt16
  /-- Where the tag starts in its frame. -/
  offset : Nat
  payload : Bytes
  deriving DecidableEq

/-- A frame that was read. -/
structure Frame where
  sequence : UInt16
  tags : List Tag
  /-- The length that the frame tells. -/
  wireLength : Nat
  deriving DecidableEq

namespace Frame

/-- The size of the first tag's header: its name, a reserved word, the sequence number, the frame's
length, and the pointer. -/
def firstHeaderSize : Nat := 16

/-- The size of the other tags' headers: a name, the tag's length, the number beside it, and the
pointer. -/
def headerSize : Nat := 12

/-- The bytes at a place of a buffer. -/
def slice (buffer : Bytes) (offset length : Nat) : Except FrameError Bytes :=
  if buffer.length < offset + length then
    .error (.malformed offset buffer.length "read past end of buffer")
  else .ok ((buffer.drop offset).take length)

/-- The number of `width` octets at a place of a buffer. -/
def number (buffer : Bytes) (offset width : Nat) : Except FrameError Nat := do
  return Bytes.toNatLE (← slice buffer offset width)

/-- The name at a place of a buffer. -/
def tagId (buffer : Bytes) (offset : Nat) : Except FrameError TagId := do
  return TagId.ofBytes (← slice buffer offset 4)

/-- The tag at a place of a frame, and the pointer in it.  It must not start before the end of the tag
before it. -/
def tagAt (frame : Bytes) (previousEnd offset : Nat) : Except FrameError (Tag × Nat) := do
  if offset < previousEnd then
    throw (.malformed offset frame.length "forward pointer goes backwards")
  let id ← tagId frame offset
  let length ← number frame (offset + 4) 2
  let extra ← number frame (offset + 6) 2
  let next ← number frame (offset + 8) 4
  if length < headerSize then
    throw (.malformed (offset + 4) frame.length "tag length shorter than its header")
  let payload ← slice frame (offset + headerSize) (length - headerSize)
  return ({ id, extra := UInt16.ofNat extra, offset, payload }, next)

/-- Where a tag behind the first one ends. -/
def stop (t : Tag) : Nat :=
  t.offset + headerSize + t.payload.length

theorem slice_eq_ok {buffer bs : Bytes} {offset length : Nat}
    (h : slice buffer offset length = .ok bs) :
    offset + length ≤ buffer.length ∧ bs = (buffer.drop offset).take length := by
  unfold slice at h
  split at h
  · cases h
  · cases h
    exact ⟨by omega, rfl⟩

theorem length_of_slice {buffer bs : Bytes} {offset length : Nat}
    (h : slice buffer offset length = .ok bs) : bs.length = length := by
  obtain ⟨hle, rfl⟩ := slice_eq_ok h
  simp only [List.length_take, List.length_drop]
  omega

theorem except_bind_eq_ok {ε α β : Type} {x : Except ε α} {f : α → Except ε β} {b : β}
    (h : (x >>= f) = .ok b) : ∃ a, x = .ok a ∧ f a = .ok b := by
  cases x with
  | error e => cases h
  | ok a => exact ⟨a, rfl, h⟩

/-- A tag ends behind the tag before it, with room for its header, and within the frame. -/
theorem stop_of_tagAt {frame : Bytes} {previousEnd offset next : Nat} {t : Tag}
    (h : tagAt frame previousEnd offset = .ok (t, next)) :
    previousEnd + headerSize ≤ stop t ∧ stop t ≤ frame.length := by
  unfold tagAt at h
  split at h
  · cases h
  · obtain ⟨-, -, h⟩ := except_bind_eq_ok h
    obtain ⟨id, -, h⟩ := except_bind_eq_ok h
    obtain ⟨length, -, h⟩ := except_bind_eq_ok h
    obtain ⟨extra, -, h⟩ := except_bind_eq_ok h
    obtain ⟨next', -, h⟩ := except_bind_eq_ok h
    split at h
    · cases h
    · obtain ⟨-, -, h⟩ := except_bind_eq_ok h
      obtain ⟨payload, hp, h⟩ := except_bind_eq_ok h
      cases h
      have h₁ := (slice_eq_ok hp).1
      have h₂ := length_of_slice hp
      simp only [stop, headerSize] at *
      omega

/-- The tags from a pointer on, along the pointers. -/
def chain (frame : Bytes) (previousEnd next : Nat) : Except FrameError (List Tag) :=
  if next = 0 then .ok []
  else match _h : tagAt frame previousEnd next with
    | .error e => .error e
    | .ok (t, following) => do return t :: (← chain frame (stop t) following)
termination_by frame.length - previousEnd
decreasing_by
  have hsize : headerSize = 12 := rfl
  have := stop_of_tagAt _h
  omega

/-- Reads a frame, of which nothing stands behind its length. -/
def parseExact (frame : Bytes) : Except FrameError Frame := do
  let sequence ← number frame 6 2
  let next ← number frame 12 4
  let firstEnd := if next = 0 then frame.length else next
  if firstEnd < firstHeaderSize then
    throw (.malformed 12 frame.length "forward pointer inside first tag header")
  let id ← tagId frame 0
  let payload ← slice frame firstHeaderSize (firstEnd - firstHeaderSize)
  let rest ← chain frame firstEnd next
  return {
    sequence := UInt16.ofNat sequence
    tags := { id, extra := 0, offset := 0, payload } :: rest
    wireLength := frame.length }

/-- Reads the frame at the start of a buffer.  The first tag has no length of its own: its payload
reaches to the next tag, with the zeros that fill it up. -/
def parse (buffer : Bytes) : Except FrameError Frame := do
  let _ ← slice buffer 0 firstHeaderSize
  let length ← number buffer 8 4
  if length < firstHeaderSize ∨ buffer.length < length then
    throw (.malformed 8 buffer.length "frame length out of range")
  parseExact (buffer.take length)

/-- The first tag with a name. -/
def tag? (id : TagId) (f : Frame) : Option Tag :=
  f.tags.find? fun t => t.id = id

/-- The tag at an index, which has to have the given name. -/
def expectTag (i : Nat) (id : TagId) (f : Frame) : Except FrameError Tag :=
  match f.tags[i]? with
  | none => .error (.missingTag id)
  | some t => if t.id = id then .ok t else .error (.unexpectedTag id t.id t.offset)

end Frame

end Wwan
