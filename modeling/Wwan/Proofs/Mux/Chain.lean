import Mathlib.Order.Interval.Finset.Nat
import Wwan.Proofs.Mux.Bounds

/-!
# The tags of a frame

Which byte strings are frames follows from their bytes alone: the pointers, read one after the other, lead
from tag to tag until one is zero, and every tag lies within the frame and behind the one before it
(`Chain`, `WellFormed`).  Frames are read by this rule (`parse_eq_ok_iff`), and whatever is refused is
called malformed (`parse_malformed`).

`parse_accepts_chains` says what is read of a frame, that nothing behind its length matters, and that nothing out
of range is asked for on the way.
-/

namespace Wwan

namespace Frame

/-! ## What stands in a frame -/

/-- The number at a place of a frame. -/
def field (frame : Bytes) (offset width : Nat) : Nat :=
  Bytes.toNatLE ((frame.drop offset).take width)

/-- The length that the tag at a place tells, with its header. -/
def declared (frame : Bytes) (place : Nat) : Nat :=
  field frame (place + 4) 2

/-- The pointer in the tag at a place. -/
def following (frame : Bytes) (place : Nat) : Nat :=
  field frame (place + 8) 4

/-- The tag at a place behind the first one. -/
def tagOf (frame : Bytes) (place : Nat) : Tag where
  id := TagId.ofBytes ((frame.drop place).take 4)
  extra := UInt16.ofNat (field frame (place + 6) 2)
  offset := place
  payload := (frame.drop (place + headerSize)).take (declared frame place - headerSize)

/-- Whether a tag at a place lies within its frame, with its header and as long as it tells. -/
structure Holds (frame : Bytes) (place : Nat) : Prop where
  header_le : place + headerSize ≤ frame.length
  le_declared : headerSize ≤ declared frame place
  declared_le : place + declared frame place ≤ frame.length

instance (frame : Bytes) : DecidablePred (Holds frame) := fun place =>
  decidable_of_iff (place + headerSize ≤ frame.length ∧ headerSize ≤ declared frame place ∧
      place + declared frame place ≤ frame.length)
    ⟨fun h => ⟨h.1, h.2.1, h.2.2⟩, fun h => ⟨h.1, h.2, h.3⟩⟩

/-- The places of the tags to which a pointer leads, and then the pointers in these tags.  The first of
them does not lie before `previousEnd`, and each other one not before the end of the tag before it. -/
inductive Chain (frame : Bytes) : (previousEnd pointer : Nat) → List Nat → Prop
  | nil (previousEnd : Nat) : Chain frame previousEnd 0 []
  | cons {previousEnd place : Nat} {places : List Nat} (ne_zero : place ≠ 0)
      (le_place : previousEnd ≤ place) (holds : Holds frame place)
      (rest : Chain frame (place + declared frame place) (following frame place) places) :
      Chain frame previousEnd place (place :: places)

/-! ## Reading tags -/

section Tags

variable {frame : Bytes} {previousEnd place : Nat}

theorem slice_of_le {buffer : Bytes} {offset length : Nat} (h : offset + length ≤ buffer.length) :
    slice buffer offset length = .ok ((buffer.drop offset).take length) :=
  if_neg (Nat.not_lt.mpr h)

theorem number_of_le {buffer : Bytes} {offset width : Nat} (h : offset + width ≤ buffer.length) :
    number buffer offset width = .ok (field buffer offset width) := by
  rw [number, slice_of_le h]
  rfl

theorem tagId_of_le {buffer : Bytes} {offset : Nat} (h : offset + 4 ≤ buffer.length) :
    tagId buffer offset = .ok (TagId.ofBytes ((buffer.drop offset).take 4)) := by
  rw [tagId, slice_of_le h]
  rfl

/-- A tag that lies within its frame, and behind the one before it, is read. -/
theorem tagAt_of_holds (hle : previousEnd ≤ place) (h : Holds frame place) :
    tagAt frame previousEnd place = .ok (tagOf frame place, following frame place) := by
  obtain ⟨hheader, hlength, hdeclared⟩ := h
  have hsize : headerSize = 12 := rfl
  unfold declared at hlength hdeclared
  have hpayload : place + headerSize + (field frame (place + 4) 2 - headerSize) ≤ frame.length := by
    omega
  rw [tagAt, if_neg (Nat.not_lt.mpr hle), tagId_of_le (by omega), number_of_le (by omega),
    number_of_le (by omega), number_of_le (by omega)]
  simp only [bind, Except.bind, if_neg (Nat.not_lt.mpr hlength), slice_of_le hpayload]
  rfl

/-- A tag that is read lies within its frame, and behind the one before it. -/
theorem holds_of_tagAt {t : Tag} {next : Nat} (h : tagAt frame previousEnd place = .ok (t, next)) :
    previousEnd ≤ place ∧ Holds frame place := by
  unfold tagAt at h
  split at h
  · cases h
  next hle =>
    obtain ⟨-, -, h⟩ := except_bind_eq_ok h
    obtain ⟨id, -, h⟩ := except_bind_eq_ok h
    obtain ⟨length, hlength, h⟩ := except_bind_eq_ok h
    obtain ⟨extra, -, h⟩ := except_bind_eq_ok h
    obtain ⟨next', hnext, h⟩ := except_bind_eq_ok h
    -- the pointer is the last thing in the header, so the header lies within the frame
    obtain ⟨cs, hslice', -⟩ := except_bind_eq_ok hnext
    obtain ⟨bs, hslice, hbs⟩ := except_bind_eq_ok hlength
    have heq : length = declared frame place := by
      rw [(slice_eq_ok hslice).2] at hbs
      cases hbs
      rfl
    have hheader := (slice_eq_ok hslice').1
    split at h
    · cases h
    next hdeclared =>
      obtain ⟨-, -, h⟩ := except_bind_eq_ok h
      obtain ⟨payload, hpayload, -⟩ := except_bind_eq_ok h
      have hstop := (slice_eq_ok hpayload).1
      have hsize : headerSize = 12 := rfl
      exact ⟨Nat.le_of_not_lt hle, by omega, by omega, by omega⟩

theorem tagAt_eq_ok_iff {t : Tag} {next : Nat} : tagAt frame previousEnd place = .ok (t, next) ↔
    previousEnd ≤ place ∧ Holds frame place ∧ t = tagOf frame place ∧ next = following frame place := by
  constructor
  · intro h
    obtain ⟨hle, hholds⟩ := holds_of_tagAt h
    rw [tagAt_of_holds hle hholds] at h
    cases h
    exact ⟨hle, hholds, rfl, rfl⟩
  · rintro ⟨hle, hholds, rfl, rfl⟩
    exact tagAt_of_holds hle hholds

theorem stop_tagOf (h : Holds frame place) :
    stop (tagOf frame place) = place + declared frame place := by
  obtain ⟨-, hlength, hdeclared⟩ := h
  have hsize : headerSize = 12 := rfl
  show place + headerSize
    + ((frame.drop (place + headerSize)).take (declared frame place - headerSize)).length = _
  rw [List.length_take, List.length_drop]
  omega

/-- The tags that are read along the pointers are those at the places to which they lead. -/
theorem chain_eq_ok_iff {pointer : Nat} {ts : List Tag} : chain frame previousEnd pointer = .ok ts ↔
    ∃ places, Chain frame previousEnd pointer places ∧ ts = places.map (tagOf frame) := by
  -- along the pointers: none left, a tag that cannot be read, or a tag and those behind it
  fun_induction chain frame previousEnd pointer generalizing ts with
  | case1 previousEnd =>
    constructor
    · intro h
      cases h
      exact ⟨[], .nil _, rfl⟩
    · rintro ⟨places, hchain, rfl⟩
      cases hchain with
      | nil => rfl
      | cons hne => exact absurd rfl hne
  | case2 previousEnd pointer hne e htag =>
    refine iff_of_false (fun h => nomatch h) ?_
    rintro ⟨places, hchain, -⟩
    cases hchain with
    | nil => exact hne rfl
    | cons _ hle hholds _ =>
      rw [tagAt_of_holds hle hholds] at htag
      cases htag
  | case3 previousEnd pointer hne t following htag ih =>
    obtain ⟨hle, hholds, rfl, rfl⟩ := tagAt_eq_ok_iff.mp htag
    rw [stop_tagOf hholds] at ih ⊢
    constructor
    · intro h
      obtain ⟨rest, hrest, h⟩ := except_bind_eq_ok h
      cases h
      obtain ⟨places, hchain, rfl⟩ := ih.mp hrest
      exact ⟨pointer :: places, .cons hne hle hholds hchain, rfl⟩
    · rintro ⟨places, hchain, rfl⟩
      cases hchain with
      | nil => exact absurd rfl hne
      | cons _ _ _ hrest =>
        rw [ih.mpr ⟨_, hrest, rfl⟩]
        rfl

end Tags

/-! ## Reading frames -/

/-- The length that a frame tells. -/
def lengthOf (buffer : Bytes) : Nat :=
  field buffer 8 4

/-- The pointer in the first tag of a frame. -/
def pointerOf (frame : Bytes) : Nat :=
  field frame 12 4

/-- Where the first tag of a frame ends: where the next one starts, or with the frame. -/
def firstEnd (frame : Bytes) : Nat :=
  if pointerOf frame = 0 then frame.length else pointerOf frame

/-- The first tag of a frame. -/
def firstTag (frame : Bytes) : Tag where
  id := TagId.ofBytes (frame.take 4)
  extra := 0
  offset := 0
  payload := (frame.drop firstHeaderSize).take (firstEnd frame - firstHeaderSize)

/-- What a frame holds, with tags behind the first one at the given places. -/
def contents (frame : Bytes) (places : List Nat) : Frame where
  sequence := UInt16.ofNat (field frame 6 2)
  tags := firstTag frame :: places.map (tagOf frame)
  wireLength := frame.length

/-- Whether a byte string starts with a frame whose tags behind the first one are at the given places. -/
structure WellFormed (buffer : Bytes) (places : List Nat) : Prop where
  header_le : firstHeaderSize ≤ buffer.length
  le_length : firstHeaderSize ≤ lengthOf buffer
  length_le : lengthOf buffer ≤ buffer.length
  pointer : pointerOf buffer = 0 ∨ firstHeaderSize ≤ pointerOf buffer
  chain : Chain (buffer.take (lengthOf buffer)) (firstEnd (buffer.take (lengthOf buffer)))
    (pointerOf buffer) places

section Frames

variable {buffer frame : Bytes} {f : Frame}

theorem Chain.pointer_le {previousEnd pointer : Nat} {places : List Nat}
    (h : Chain frame previousEnd pointer places) : pointer ≤ frame.length := by
  cases h with
  | nil => exact Nat.zero_le _
  | cons _ _ hholds _ =>
    have := hholds.header_le
    omega

/-- The first tag of a frame lies within it if its pointer leads neither into the header nor out of the
frame. -/
theorem firstEnd_bounds (hsize : firstHeaderSize ≤ frame.length)
    (hpointer : pointerOf frame = 0 ∨ firstHeaderSize ≤ pointerOf frame)
    (hle : pointerOf frame ≤ frame.length) :
    firstHeaderSize ≤ firstEnd frame ∧ firstEnd frame ≤ frame.length := by
  have hfirst : firstHeaderSize = 16 := rfl
  unfold firstEnd
  split <;> omega

/-- A frame is read along its pointers once its first tag lies within it. -/
theorem parseExact_of_le (hle : firstHeaderSize ≤ firstEnd frame) (hend : firstEnd frame ≤ frame.length) :
    parseExact frame = do
      let ts ← chain frame (firstEnd frame) (pointerOf frame)
      return ⟨UInt16.ofNat (field frame 6 2), firstTag frame :: ts, frame.length⟩ := by
  have hsize : firstHeaderSize = 16 := rfl
  rw [parseExact, number_of_le (by omega), number_of_le (by omega)]
  show (if firstEnd frame < firstHeaderSize then _ else _) = _
  rw [if_neg (Nat.not_lt.mpr hle), tagId_of_le (by omega)]
  show slice frame firstHeaderSize (firstEnd frame - firstHeaderSize) >>= _ = _
  rw [slice_of_le (by omega)]
  rfl

/-- The first tag of a frame that is read lies within it. -/
theorem firstEnd_of_parseExact (h : parseExact frame = .ok f) :
    firstHeaderSize ≤ firstEnd frame ∧ firstEnd frame ≤ frame.length := by
  obtain ⟨sequence, -, h⟩ := except_bind_eq_ok h
  obtain ⟨next, hnext, h⟩ := except_bind_eq_ok h
  obtain ⟨bs, hslice, hbs⟩ := except_bind_eq_ok hnext
  rw [(slice_eq_ok hslice).2] at hbs
  cases hbs
  have hfirst : (if Bytes.toNatLE ((frame.drop 12).take 4) = 0 then frame.length
    else Bytes.toNatLE ((frame.drop 12).take 4)) = firstEnd frame := rfl
  simp only [hfirst] at h
  split at h
  · cases h
  next hle =>
    obtain ⟨id, -, h⟩ := except_bind_eq_ok h
    obtain ⟨payload, hpayload, -⟩ := except_bind_eq_ok h
    have hend := (slice_eq_ok hpayload).1
    exact ⟨Nat.le_of_not_lt hle, by omega⟩

/-- Reading a frame of which nothing stands behind its length. -/
theorem parseExact_eq_ok_iff (h : firstHeaderSize ≤ frame.length) : parseExact frame = .ok f ↔
    (pointerOf frame = 0 ∨ firstHeaderSize ≤ pointerOf frame) ∧
      ∃ places, Chain frame (firstEnd frame) (pointerOf frame) places ∧ f = contents frame places := by
  constructor
  · intro hparse
    obtain ⟨hle, hend⟩ := firstEnd_of_parseExact hparse
    rw [parseExact_of_le hle hend] at hparse
    obtain ⟨ts, hts, hf⟩ := except_bind_eq_ok hparse
    obtain ⟨places, hchain, rfl⟩ := chain_eq_ok_iff.mp hts
    cases hf
    refine ⟨?_, places, hchain, rfl⟩
    unfold firstEnd at hle
    split at hle
    · next hzero => exact .inl hzero
    · exact .inr hle
  · -- a chain starts within the frame, so that the first tag ends there
    rintro ⟨hpointer, places, hchain, rfl⟩
    obtain ⟨hle, hend⟩ := firstEnd_bounds h hpointer hchain.pointer_le
    rw [parseExact_of_le hle hend, chain_eq_ok_iff.mpr ⟨places, hchain, rfl⟩]
    rfl

theorem slice_take {n offset length : Nat} (h : offset + length ≤ n) :
    ((buffer.take n).drop offset).take length = (buffer.drop offset).take length := by
  rw [List.drop_take, List.take_take, Nat.min_eq_left (by omega)]

/-- Numbers before an end are the same when the byte string ends there. -/
theorem field_take {n offset width : Nat} (h : offset + width ≤ n) :
    field (buffer.take n) offset width = field buffer offset width := by
  rw [field, field, slice_take h]

theorem pointerOf_take {n : Nat} (h : firstHeaderSize ≤ n) :
    pointerOf (buffer.take n) = pointerOf buffer :=
  field_take h

/-- A byte string whose length is in range is read up to it. -/
theorem parse_eq_parseExact (hle : firstHeaderSize ≤ lengthOf buffer)
    (hlength : lengthOf buffer ≤ buffer.length) :
    parse buffer = parseExact (buffer.take (lengthOf buffer)) := by
  have hsize : firstHeaderSize = 16 := rfl
  rw [parse, slice_of_le (by omega), number_of_le (by omega)]
  show (if lengthOf buffer < firstHeaderSize ∨ buffer.length < lengthOf buffer then _ else _) = _
  rw [if_neg (by omega)]
  rfl

/-- The length of a byte string that is read is in range. -/
theorem length_of_parse (h : parse buffer = .ok f) : firstHeaderSize ≤ buffer.length ∧
    firstHeaderSize ≤ lengthOf buffer ∧ lengthOf buffer ≤ buffer.length := by
  obtain ⟨header, hheader, h⟩ := except_bind_eq_ok h
  obtain ⟨length, hlength, h⟩ := except_bind_eq_ok h
  obtain ⟨bs, hslice, hbs⟩ := except_bind_eq_ok hlength
  rw [(slice_eq_ok hslice).2] at hbs
  cases hbs
  have hle := (slice_eq_ok hheader).1
  split at h
  · cases h
  next hrange =>
    have hlength : Bytes.toNatLE ((buffer.drop 8).take 4) = lengthOf buffer := rfl
    rw [hlength] at hrange
    omega

/-- The frames that are read are those that are well-formed. -/
theorem parse_eq_ok_iff : parse buffer = .ok f ↔
    ∃ places, WellFormed buffer places ∧ f = contents (buffer.take (lengthOf buffer)) places := by
  by_cases hrange : firstHeaderSize ≤ buffer.length ∧
    firstHeaderSize ≤ lengthOf buffer ∧ lengthOf buffer ≤ buffer.length
  · obtain ⟨hheader, hle, hlength⟩ := hrange
    have htake : (buffer.take (lengthOf buffer)).length = lengthOf buffer :=
      List.length_take_of_le hlength
    rw [parse_eq_parseExact hle hlength, parseExact_eq_ok_iff (by omega), pointerOf_take hle]
    constructor
    · rintro ⟨hfirst, places, hchain, hf⟩
      exact ⟨places, ⟨hheader, hle, hlength, hfirst, hchain⟩, hf⟩
    · rintro ⟨places, hwf, hf⟩
      exact ⟨hwf.pointer, places, hwf.chain, hf⟩
  · -- neither is a frame read, nor is there a well-formed one
    exact iff_of_false (fun h => hrange (length_of_parse h))
      fun ⟨places, hwf, _⟩ => hrange ⟨hwf.header_le, hwf.le_length, hwf.length_le⟩

/-- What stands at and behind the length that a byte string tells makes no difference. -/
theorem parse_congr {other : Bytes} (hle : firstHeaderSize ≤ lengthOf buffer)
    (hlength : lengthOf buffer ≤ buffer.length)
    (hsame : other.take (lengthOf buffer) = buffer.take (lengthOf buffer)) :
    parse other = parse buffer := by
  have hsize : firstHeaderSize = 16 := rfl
  have hother : lengthOf other = lengthOf buffer := by
    have hfield : field (other.take (lengthOf buffer)) 8 4 = field (buffer.take (lengthOf buffer)) 8 4 :=
      congrArg (field · 8 4) hsame
    rwa [field_take (by omega), field_take (by omega)] at hfield
  have hlength' : lengthOf other ≤ other.length := by
    have := congrArg List.length hsame
    rw [List.length_take, List.length_take] at this
    omega
  rw [parse_eq_parseExact hle hlength, parse_eq_parseExact (by omega) hlength', hother, hsame]

end Frames

/-! ## Refusals -/

/-- Whether a reading that fails says that the frame is malformed. -/
def Refuses {α : Type} (x : Except FrameError α) : Prop :=
  ∀ e, x = .error e → ∃ offset length reason, e = .malformed offset length reason

namespace Refuses

variable {α β : Type}

theorem ok (a : α) : Refuses (.ok a) :=
  fun _ h => nomatch h

theorem malformed (offset length : Nat) (reason : String) :
    Refuses (.error (.malformed offset length reason) : Except FrameError α) := by
  rintro e h
  cases h
  exact ⟨offset, length, reason, rfl⟩

theorem bind {x : Except FrameError α} {k : α → Except FrameError β} (hx : Refuses x)
    (hk : ∀ a, Refuses (k a)) : Refuses (x >>= k) := by
  intro e h
  rcases x with e' | a
  · cases h
    exact hx e rfl
  · exact hk a e h

theorem ite {p : Prop} [Decidable p] {x y : Except FrameError α} (hx : Refuses x) (hy : Refuses y) :
    Refuses (if p then x else y) := by
  split
  · exact hx
  · exact hy

theorem slice (buffer : Bytes) (offset length : Nat) : Refuses (Frame.slice buffer offset length) :=
  ite (malformed _ _ _) (ok _)

theorem number (buffer : Bytes) (offset width : Nat) : Refuses (Frame.number buffer offset width) :=
  bind (slice _ _ _) fun _ => ok _

theorem tagId (buffer : Bytes) (offset : Nat) : Refuses (Frame.tagId buffer offset) :=
  bind (slice _ _ _) fun _ => ok _

theorem tagAt (frame : Bytes) (previousEnd offset : Nat) :
    Refuses (Frame.tagAt frame previousEnd offset) := by
  refine ite (bind (malformed _ _ _) fun _ => bind (tagId _ _) ?_) (bind (tagId _ _) ?_)
  all_goals
    exact fun _ => bind (number _ _ _) fun _ => bind (number _ _ _) fun _ => bind (number _ _ _) fun _ =>
      ite (bind (malformed _ _ _) fun _ => bind (slice _ _ _) fun _ => ok _) (bind (slice _ _ _) fun _ => ok _)

theorem chain (frame : Bytes) (previousEnd pointer : Nat) :
    Refuses (Frame.chain frame previousEnd pointer) := by
  fun_induction Frame.chain frame previousEnd pointer with
  | case1 => exact ok _
  | case2 previousEnd pointer hne e htag =>
    intro e' h
    cases h
    exact tagAt frame previousEnd pointer e htag
  | case3 previousEnd pointer hne t following htag ih => exact bind ih fun _ => ok _

theorem parseExact (frame : Bytes) : Refuses (Frame.parseExact frame) := by
  refine bind (number _ _ _) fun _ => bind (number _ _ _) fun _ => ite (bind (malformed _ _ _) ?_) ?_
  · exact fun _ => bind (tagId _ _) fun _ => bind (slice _ _ _) fun _ => bind (chain _ _ _) fun _ => ok _
  · exact bind (tagId _ _) fun _ => bind (slice _ _ _) fun _ => bind (chain _ _ _) fun _ => ok _

theorem parse (buffer : Bytes) : Refuses (Frame.parse buffer) :=
  bind (slice _ _ _) fun _ => bind (number _ _ _) fun _ =>
    ite (bind (malformed _ _ _) fun _ => parseExact _) (parseExact _)

end Refuses

/-! ## Where tags lie -/

/-- Where the payload of a tag starts. -/
def payloadStart (t : Tag) : Nat :=
  t.offset + if t.offset = 0 then firstHeaderSize else headerSize

/-- Where the payload of a tag ends. -/
def payloadEnd (t : Tag) : Nat :=
  payloadStart t + t.payload.length

/-- The places that a tag takes, from its header to the end of its payload. -/
def extent (t : Tag) : Finset Nat :=
  Finset.Ico t.offset (payloadEnd t)

theorem offset_lt_payloadEnd (t : Tag) : t.offset < payloadEnd t := by
  have hfirst : firstHeaderSize = 16 := rfl
  have hsize : headerSize = 12 := rfl
  unfold payloadEnd payloadStart
  split <;> omega

/-- Tags of which the second starts behind the first have no place in common. -/
theorem apart_of_le {t u : Tag} (h : payloadEnd t ≤ u.offset) :
    t.offset < u.offset ∧ Disjoint (extent t) (extent u) := by
  refine ⟨Nat.lt_of_lt_of_le (offset_lt_payloadEnd t) h, Finset.disjoint_left.mpr fun i ht hu => ?_⟩
  have := (Finset.mem_Ico.mp ht).2
  have := (Finset.mem_Ico.mp hu).1
  omega

section Extents

variable {buffer frame : Bytes}

/-- The tags along a chain lie one behind the other. -/
theorem Chain.spaced {previousEnd pointer : Nat} {places : List Nat}
    (h : Chain frame previousEnd pointer places) :
    (∀ place ∈ places, previousEnd ≤ place ∧ place ≠ 0 ∧ Holds frame place) ∧
      places.Pairwise fun place next => place + declared frame place ≤ next := by
  induction h with
  | nil => exact ⟨by simp, .nil⟩
  | cons hne hle hholds _ ih =>
    obtain ⟨hall, hpairs⟩ := ih
    refine ⟨fun q hq => ?_, .cons (fun q hq => (hall q hq).1) hpairs⟩
    obtain rfl | hq := List.mem_cons.mp hq
    · exact ⟨hle, hne, hholds⟩
    · obtain ⟨hbehind, hq⟩ := hall q hq
      exact ⟨by omega, hq⟩

theorem payloadStart_tagOf {place : Nat} (hne : place ≠ 0) :
    payloadStart (tagOf frame place) = place + headerSize := by
  show place + (if place = 0 then firstHeaderSize else headerSize) = _
  rw [if_neg hne]

theorem payloadEnd_tagOf {place : Nat} (hne : place ≠ 0) (h : Holds frame place) :
    payloadEnd (tagOf frame place) = place + declared frame place := by
  rw [payloadEnd, payloadStart_tagOf hne, ← stop_tagOf h]
  rfl

theorem payloadEnd_firstTag (hle : firstHeaderSize ≤ firstEnd frame)
    (hend : firstEnd frame ≤ frame.length) : payloadEnd (firstTag frame) = firstEnd frame := by
  show 0 + firstHeaderSize + ((frame.drop firstHeaderSize).take (firstEnd frame - firstHeaderSize)).length
    = firstEnd frame
  rw [List.length_take, List.length_drop]
  omega

/-- The first tag of a well-formed frame lies within it. -/
theorem WellFormed.firstEnd_bounds {places : List Nat} (h : WellFormed buffer places) :
    firstHeaderSize ≤ firstEnd (buffer.take (lengthOf buffer)) ∧
      firstEnd (buffer.take (lengthOf buffer)) ≤ (buffer.take (lengthOf buffer)).length := by
  have hsize : firstHeaderSize ≤ (buffer.take (lengthOf buffer)).length := by
    rw [List.length_take_of_le h.length_le]
    exact h.le_length
  have hpointer := h.pointer
  have hpointer_le := h.chain.pointer_le
  rw [← pointerOf_take h.le_length] at hpointer hpointer_le
  exact Frame.firstEnd_bounds hsize hpointer hpointer_le

/-- The tags of a well-formed frame lie one behind the other. -/
theorem WellFormed.pairwise {places : List Nat} (h : WellFormed buffer places) :
    (contents (buffer.take (lengthOf buffer)) places).tags.Pairwise fun t u =>
      t.offset < u.offset ∧ Disjoint (extent t) (extent u) := by
  obtain ⟨hall, hpairs⟩ := h.chain.spaced
  obtain ⟨hle, hend⟩ := h.firstEnd_bounds
  refine .cons (fun u hu => ?_) (List.pairwise_map.mpr ?_)
  · obtain ⟨place, hplace, rfl⟩ := List.mem_map.mp hu
    apply apart_of_le
    rw [payloadEnd_firstTag hle hend]
    exact (hall place hplace).1
  · refine hpairs.imp_of_mem fun hplace _ hbehind => ?_
    obtain ⟨-, hne, hholds⟩ := hall _ hplace
    apply apart_of_le
    rw [payloadEnd_tagOf hne hholds]
    exact hbehind

/-- A part of the start of a byte string is a part of it of the same length. -/
theorem part_eq {n offset length : Nat} (h : offset + length ≤ n) (hn : n ≤ buffer.length) :
    ((buffer.take n).drop offset).take length
      = (buffer.drop offset).take (((buffer.take n).drop offset).take length).length := by
  have hlength : (((buffer.take n).drop offset).take length).length = length := by
    rw [List.length_take, List.length_drop, List.length_take]
    omega
  rw [hlength, slice_take h]

/-- The payload of a tag of a well-formed frame is the part of it where it lies. -/
theorem WellFormed.payload_eq {places : List Nat} (h : WellFormed buffer places) {t : Tag}
    (ht : t ∈ (contents (buffer.take (lengthOf buffer)) places).tags) :
    payloadEnd t ≤ lengthOf buffer ∧
      t.payload = (buffer.drop (payloadStart t)).take t.payload.length := by
  have hlength := List.length_take_of_le h.length_le
  obtain rfl | ht := List.mem_cons.mp ht
  · obtain ⟨hle, hend⟩ := h.firstEnd_bounds
    have hpayload := payloadEnd_firstTag hle hend
    rw [hlength] at hend
    have hpart : firstHeaderSize + (firstEnd (buffer.take (lengthOf buffer)) - firstHeaderSize)
        ≤ lengthOf buffer := by omega
    exact ⟨by omega, part_eq hpart h.length_le⟩
  · obtain ⟨place, hplace, rfl⟩ := List.mem_map.mp ht
    obtain ⟨-, hne, hholds⟩ := h.chain.spaced.1 place hplace
    have hpayload := payloadEnd_tagOf hne hholds
    have hdeclared := hholds.declared_le
    have hle := hholds.le_declared
    rw [hlength] at hdeclared
    refine ⟨by omega, ?_⟩
    rw [payloadStart_tagOf hne]
    exact part_eq (by omega) h.length_le

end Extents

/-! ## The frames that are read -/

/-- A byte string is read as a frame exactly if it starts with a well-formed one, and then its tags are
those at the places to which the pointers lead; any other byte string is malformed.  The tags start with
one at the beginning and lie one behind the other within the length, and their payloads are parts of the
byte string.  What stands at and behind the length makes no difference.  Wherever the pointers lead, no octet and
no part is asked for that is not there, no place is computed that lies behind the end, and no more tags are read
than there is room for: the reading in which all this is checked comes to the same, and its only errors are those
that are reported. -/
theorem parse_accepts_chains (buffer : Bytes) :
    (∀ f, parse buffer = .ok f ↔
      ∃ places, WellFormed buffer places ∧ f = contents (buffer.take (lengthOf buffer)) places) ∧
    ((¬∃ places, WellFormed buffer places) →
      ∃ offset length reason, parse buffer = .error (.malformed offset length reason)) ∧
    (∀ f, parse buffer = .ok f →
      (∃ t ts, f.tags = t :: ts ∧ t.offset = 0) ∧
      f.tags.Pairwise (fun t u => t.offset < u.offset ∧ Disjoint (extent t) (extent u)) ∧
      ∀ t ∈ f.tags, payloadEnd t ≤ lengthOf buffer ∧
        t.payload = (buffer.drop (payloadStart t)).take t.payload.length) ∧
    (∀ other, firstHeaderSize ≤ lengthOf buffer → lengthOf buffer ≤ buffer.length →
      other.take (lengthOf buffer) = buffer.take (lengthOf buffer) → parse other = parse buffer) ∧
    parseChecked buffer = (parse buffer).mapError .reported := by
  refine ⟨fun f => parse_eq_ok_iff, fun hnot => ?_, fun f hf => ?_,
    fun other hle hlength hsame => parse_congr hle hlength hsame, parseChecked_eq buffer⟩
  · rcases hparse : parse buffer with e | f
    · obtain ⟨offset, length, reason, rfl⟩ := Refuses.parse buffer e hparse
      exact ⟨offset, length, reason, rfl⟩
    · obtain ⟨places, hwf, -⟩ := parse_eq_ok_iff.mp hparse
      exact absurd ⟨places, hwf⟩ hnot
  · obtain ⟨places, hwf, rfl⟩ := parse_eq_ok_iff.mp hf
    exact ⟨⟨_, _, rfl, rfl⟩, hwf.pairwise, fun t ht => hwf.payload_eq ht⟩

/-- A frame whose second tag points back to itself is malformed. -/
example : parse (TagId.acbh.toBytes ++ Bytes.zeros 4 ++ Bytes.ofNatLE 4 28 ++ Bytes.ofNatLE 4 16
    ++ TagId.cmdh.toBytes ++ Bytes.ofNatLE 2 12 ++ Bytes.zeros 2 ++ Bytes.ofNatLE 4 16)
      = .error (.malformed 16 28 "forward pointer goes backwards") := by
  decide +kernel

end Frame

end Wwan
