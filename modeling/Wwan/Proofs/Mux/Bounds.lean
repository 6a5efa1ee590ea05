import Wwan.Mux.Frame
import Wwan.Proofs.Message.Bounds

/-!
# The bounds of reading frames

`Frame.parseChecked` is `Frame.parse` with everything checked that can go wrong with a place in a buffer: an
octet and a part that are not there, a difference below zero, a place behind the end, and more tags than there is
room for each end the reading in a way of their own (`Mishap`).  None of them comes up, whatever is in the buffer
and wherever its pointers lead (`parseChecked_eq`).
-/

namespace Wwan

namespace Frame

/-- Why a checked reading ends early. -/
inductive Mishap where
  /-- An error is reported. -/
  | reported (e : FrameError)
  /-- A difference is taken that is below zero. -/
  | underflow (minuend subtrahend : Nat)
  /-- A place is computed that lies behind the end. -/
  | behind (place : Nat)
  /-- Octets are taken that are not there. -/
  | outside (first last : Nat)
  /-- There is a tag more than there is room for. -/
  | endless

/-- A checked reading. -/
abbrev Checked := Except Mishap

/-! ## Places, octets and parts -/

namespace Checked

/-- Reports an error. -/
def report {α : Type} (e : FrameError) : Checked α :=
  .error (.reported e)

def difference (m n : Nat) : Checked Nat :=
  if n ≤ m then .ok (m - n) else .error (.underflow m n)

/-- The place that lies so many octets behind another one. -/
def place (b : Bytes) (offset n : Nat) : Checked Nat :=
  if offset + n ≤ b.length then .ok (offset + n) else .error (.behind (offset + n))

def octet (b : Bytes) (i : Nat) : Checked UInt8 :=
  match b[i]? with
  | some x => .ok x
  | none => .error (.outside i (i + 1))

/-- The octets from one place up to another, which have to be there. -/
def part (b : Bytes) (i j : Nat) : Checked Bytes :=
  match b.slice? i j with
  | some bs => .ok bs
  | none => .error (.outside i j)

/-- The octets at a place of a buffer; it is reported if they are not there. -/
def slice (buffer : Bytes) (offset length : Nat) : Checked Bytes :=
  match buffer.slice? offset (offset + length) with
  | some bs => .ok bs
  | none => report (.malformed offset buffer.length "read past end of buffer")

/-- The number of two octets at a place. -/
def short (buffer : Bytes) (offset : Nat) : Checked Nat := do
  let bs ← slice buffer offset 2
  return Bytes.toNatLE [← octet bs 0, ← octet bs 1]

/-- The number of four octets at a place. -/
def word (buffer : Bytes) (offset : Nat) : Checked Nat := do
  let bs ← slice buffer offset 4
  return Bytes.toNatLE [← octet bs 0, ← octet bs 1, ← octet bs 2, ← octet bs 3]

def tagId (buffer : Bytes) (offset : Nat) : Checked TagId := do
  return TagId.ofBytes (← slice buffer offset 4)

/-- The tag at a place of a frame, where it ends, and the pointer in it. -/
def tagAt (frame : Bytes) (previousEnd offset : Nat) : Checked (Tag × Nat × Nat) := do
  if offset < previousEnd then
    report (.malformed offset frame.length "forward pointer goes backwards")
  let id ← tagId frame offset
  let length ← short frame (← place frame offset 4)
  let extra ← short frame (← place frame offset 6)
  let next ← word frame (← place frame offset 8)
  if length < headerSize then
    report (.malformed (offset + 4) frame.length "tag length shorter than its header")
  let payload ← slice frame (← place frame offset headerSize) (← difference length headerSize)
  let stop ← place frame offset length
  return ({ id, extra := UInt16.ofNat extra, offset, payload }, stop, next)

/-- The tags from a pointer on, so many of them at most. -/
def chain (frame : Bytes) : (most previousEnd next : Nat) → Checked (List Tag)
  | most, previousEnd, next =>
    if next = 0 then .ok []
    else match most with
      | 0 => .error .endless
      | most + 1 => do
        let (t, stop, following) ← tagAt frame previousEnd next
        return t :: (← chain frame most stop following)

end Checked

/-- Reads the frame at the start of a buffer.  Behind the first tag there is room for a tag in every twelve
octets. -/
def parseChecked (buffer : Bytes) : Checked Frame := do
  let _ ← Checked.slice buffer 0 firstHeaderSize
  let length ← Checked.word buffer 8
  if length < firstHeaderSize ∨ buffer.length < length then
    Checked.report (.malformed 8 buffer.length "frame length out of range")
  let frame ← Checked.part buffer 0 length
  let sequence ← Checked.short frame 6
  let next ← Checked.word frame 12
  let firstEnd := if next = 0 then length else next
  if firstEnd < firstHeaderSize then
    Checked.report (.malformed 12 length "forward pointer inside first tag header")
  let id ← Checked.tagId frame 0
  let payload ← Checked.slice frame firstHeaderSize (← Checked.difference firstEnd firstHeaderSize)
  let rest ← Checked.chain frame (frame.length / headerSize) firstEnd next
  return {
    sequence := UInt16.ofNat sequence
    tags := { id, extra := 0, offset := 0, payload } :: rest
    wireLength := length }

/-! ## What comes up -/

/-- A checked reading comes to what another reading comes to: its errors are reported, and what they read is in
this relation. -/
inductive Follows {α β : Type} (R : α → β → Prop) : Checked α → Except FrameError β → Prop
  | ok {a : α} {b : β} (related : R a b) : Follows R (.ok a) (.ok b)
  | error (e : FrameError) : Follows R (.error (.reported e)) (.error e)

namespace Follows

variable {α β γ δ : Type} {R : α → β → Prop} {S : γ → δ → Prop}

theorem bind {x : Checked α} {y : Except FrameError β} {f : α → Checked γ} {g : β → Except FrameError δ}
    (h : Follows R x y) (hbehind : ∀ a b, R a b → y = .ok b → Follows S (f a) (g b)) :
    Follows S (x >>= f) (y >>= g) := by
  cases h with
  | ok related => exact hbehind _ _ related rfl
  | error e => exact .error e

/-- What is read is the same. -/
theorem bind_eq {x : Checked α} {y : Except FrameError α} {f : α → Checked γ} {g : α → Except FrameError δ}
    (h : Follows Eq x y) (hbehind : ∀ a, y = .ok a → Follows S (f a) (g a)) :
    Follows S (x >>= f) (y >>= g) :=
  h.bind fun a _ heq hy => heq ▸ hbehind a (heq ▸ hy)

theorem eq_mapError {x : Checked α} {y : Except FrameError α} (h : Follows Eq x y) :
    x = y.mapError .reported := by
  cases h with
  | ok related => exact congrArg _ related
  | error e => rfl

end Follows

section Reads

variable {buffer : Bytes} {offset width : Nat}

theorem place_of_le (h : offset + width ≤ buffer.length) : Checked.place buffer offset width = .ok (offset + width) :=
  if_pos h

theorem difference_of_le {m n : Nat} (h : n ≤ m) : Checked.difference m n = .ok (m - n) :=
  if_pos h

theorem part_of_le {i j : Nat} (hij : i ≤ j) (hj : j ≤ buffer.length) :
    Checked.part buffer i j = .ok ((buffer.drop i).take (j - i)) := by
  rw [Checked.part, Bytes.slice?_eq hij hj]

theorem follows_slice (buffer : Bytes) (offset length : Nat) :
    Follows Eq (Checked.slice buffer offset length) (slice buffer offset length) := by
  rw [Checked.slice, slice]
  by_cases hlt : buffer.length < offset + length
  · have hnone : buffer.slice? offset (offset + length) = none :=
      if_neg fun h => Nat.not_lt.mpr h.2 hlt
    rw [hnone, if_pos hlt]
    exact .error _
  · rw [Bytes.slice?_eq (Nat.le_add_right offset length) (Nat.le_of_not_lt hlt), if_neg hlt, Nat.add_sub_cancel_left]
    exact .ok rfl

/-- The octets of a number are there once its part of the buffer is. -/
theorem follows_short (buffer : Bytes) (offset : Nat) :
    Follows Eq (Checked.short buffer offset) (number buffer offset 2) := by
  refine (follows_slice buffer offset 2).bind_eq fun bs hslice => ?_
  have hlength := length_of_slice hslice
  obtain ⟨x, y, rfl⟩ := List.length_eq_two.mp hlength
  exact .ok rfl

theorem follows_word (buffer : Bytes) (offset : Nat) :
    Follows Eq (Checked.word buffer offset) (number buffer offset 4) := by
  refine (follows_slice buffer offset 4).bind_eq fun bs hslice => ?_
  have hlength := length_of_slice hslice
  obtain ⟨x, y, z, w, rfl⟩ : ∃ x y z w, bs = [x, y, z, w] := by
    match bs, hlength with
    | [x, y, z, w], _ => exact ⟨x, y, z, w, rfl⟩
  exact .ok rfl

theorem follows_tagId (buffer : Bytes) (offset : Nat) :
    Follows Eq (Checked.tagId buffer offset) (tagId buffer offset) :=
  (follows_slice buffer offset 4).bind_eq fun _ _ => .ok rfl

theorem le_of_number {n : Nat} (h : number buffer offset width = .ok n) : offset + width ≤ buffer.length := by
  obtain ⟨bs, hslice, -⟩ := except_bind_eq_ok h
  exact (slice_eq_ok hslice).1

theorem le_of_tagId {id : TagId} (h : tagId buffer offset = .ok id) : offset + 4 ≤ buffer.length := by
  obtain ⟨bs, hslice, -⟩ := except_bind_eq_ok h
  exact (slice_eq_ok hslice).1

end Reads

/-- Each place in a tag is known to lie within the frame, since what stands before it was there. -/
theorem follows_tagAt (frame : Bytes) (previousEnd offset : Nat) :
    Follows (fun x y => x = (y.1, stop y.1, y.2)) (Checked.tagAt frame previousEnd offset)
      (tagAt frame previousEnd offset) := by
  rw [Checked.tagAt, tagAt]
  by_cases hback : offset < previousEnd
  · rw [if_pos hback, if_pos hback]
    exact .error _
  rw [if_neg hback, if_neg hback]
  refine (follows_tagId frame offset).bind_eq fun id hid => ?_
  -- the number at one place tells that the next place is there
  rw [place_of_le (le_of_tagId hid)]
  refine (follows_short frame (offset + 4)).bind_eq fun length hlength => ?_
  have hfour := le_of_number hlength
  have hsix : offset + 6 ≤ frame.length := hfour
  rw [place_of_le hsix]
  refine (follows_short frame (offset + 6)).bind_eq fun extra hextra => ?_
  have hsix := le_of_number hextra
  have height : offset + 8 ≤ frame.length := hsix
  rw [place_of_le height]
  refine (follows_word frame (offset + 8)).bind_eq fun next hnext => ?_
  have height := le_of_number hnext
  have hheader : offset + headerSize ≤ frame.length := height
  by_cases hshort : length < headerSize
  · rw [if_pos hshort, if_pos hshort]
    exact .error _
  have hle : headerSize ≤ length := Nat.le_of_not_lt hshort
  rw [if_neg hshort, if_neg hshort]
  dsimp only
  rw [place_of_le hheader, difference_of_le hle]
  refine (follows_slice frame (offset + headerSize) (length - headerSize)).bind_eq fun payload hpayload => ?_
  have hpayload_le := (slice_eq_ok hpayload).1
  have hstop : offset + length ≤ frame.length := by omega
  rw [place_of_le hstop]
  refine .ok ?_
  rw [stop, length_of_slice hpayload]
  dsimp only
  rw [Nat.add_assoc, Nat.add_sub_cancel' hle]

/-- As many tags are read as there is room for, wherever the pointers lead: each of them takes twelve octets at
least. -/
theorem follows_chain (frame : Bytes) (most : Nat) {previousEnd : Nat} (next : Nat)
    (hle : previousEnd ≤ frame.length) (hroom : frame.length < previousEnd + headerSize * most) :
    Follows Eq (Checked.chain frame most previousEnd next) (chain frame previousEnd next) := by
  have hsize : headerSize = 12 := rfl
  -- each tag that is read ends twelve octets or more behind the one before, so the room is enough for the rest
  induction most generalizing previousEnd next with
  | zero => omega
  | succ most ih =>
    rw [Checked.chain, chain]
    by_cases hzero : next = 0
    · rw [if_pos hzero, if_pos hzero]
      exact .ok rfl
    rw [if_neg hzero, if_neg hzero]
    have htag := follows_tagAt frame previousEnd next
    split
    · next e hread =>
      rw [hread] at htag
      generalize Checked.tagAt frame previousEnd next = read at htag
      cases htag
      exact .error e
    · next t following hread =>
      obtain ⟨hbehind, hstop⟩ := stop_of_tagAt hread
      rw [Nat.mul_succ] at hroom
      rw [hread] at htag
      generalize Checked.tagAt frame previousEnd next = read at htag
      cases htag with
      | ok related =>
        subst related
        exact (ih following hstop (by omega)).bind_eq fun rest _ => .ok rfl

/-- Nothing goes wrong when a frame is read, whatever is in the buffer. -/
theorem parseChecked_eq (buffer : Bytes) : parseChecked buffer = (parse buffer).mapError .reported := by
  refine Follows.eq_mapError ?_
  rw [parseChecked, parse]
  refine (follows_slice buffer 0 firstHeaderSize).bind_eq fun _ _ => ?_
  refine (follows_word buffer 8).bind_eq fun length _ => ?_
  by_cases hrange : length < firstHeaderSize ∨ buffer.length < length
  · rw [if_pos hrange, if_pos hrange]
    exact .error _
  obtain ⟨hheader, hlength⟩ := not_or.mp hrange
  have hframe := part_of_le (Nat.zero_le length) (Nat.le_of_not_lt hlength)
  have htake := List.length_take_of_le (Nat.le_of_not_lt hlength)
  rw [if_neg hrange, if_neg hrange]
  dsimp only
  rw [hframe, List.drop_zero, Nat.sub_zero, parseExact]
  generalize buffer.take length = frame at htake
  subst htake
  refine (follows_short frame 6).bind_eq fun sequence _ => ?_
  refine (follows_word frame 12).bind_eq fun next _ => ?_
  dsimp only
  generalize (if next = 0 then frame.length else next) = firstEnd
  by_cases hshort : firstEnd < firstHeaderSize
  · rw [if_pos hshort, if_pos hshort]
    exact .error _
  have hle : firstHeaderSize ≤ firstEnd := Nat.le_of_not_lt hshort
  rw [if_neg hshort, if_neg hshort, difference_of_le hle]
  refine (follows_tagId frame 0).bind_eq fun id _ => ?_
  refine (follows_slice frame firstHeaderSize (firstEnd - firstHeaderSize)).bind_eq fun payload hpayload => ?_
  have hpayload_le := (slice_eq_ok hpayload).1
  have hend : firstEnd ≤ frame.length := by omega
  have hroom : frame.length < firstEnd + headerSize * (frame.length / headerSize) := by
    have hfirst : firstHeaderSize = 16 := rfl
    have hsize : headerSize = 12 := rfl
    rw [hsize]
    omega
  refine (follows_chain frame (frame.length / headerSize) next hend hroom).bind_eq fun rest _ => ?_
  exact .ok rfl

end Frame

end Wwan
