import Wwan.Proofs.Mux.Edits

/-!
# A draft in a buffer

A draft can be kept as the bytes that its frame will have.  Then the last tag's length, sixteen bits, is read
back and overwritten when the tag is extended, its pointer is overwritten when another tag follows, and the
first tag's length, which saturates, gives way to the frame's length in the end.  Every draft has such a sheet;
edits lead from sheet to sheet as they lead from draft to draft (`sheet_after`), and a sheet becomes the frame
of its draft (`finish_sheet`).
-/

namespace Wwan

/-- A frame under construction in a buffer. -/
structure Sheet where
  sequence : UInt16
  bytes : Bytes := []
  /-- The number of tags. -/
  count : Nat := 0
  /-- Where the length of the last tag stands. -/
  lengthSlot : Option Nat := none
  /-- Where the pointer of the last tag stands. -/
  nextSlot : Option Nat := none

namespace Sheet

/-- Overwrites bytes from a place on. -/
def patch (slot : Nat) (field bytes : Bytes) : Bytes :=
  bytes.take slot ++ (field ++ bytes.drop (slot + field.length))

theorem patch_eq {a b c field : Bytes} {slot : Nat} (ha : a.length = slot) (hb : b.length = field.length) :
    patch slot field (a ++ (b ++ c)) = a ++ (field ++ c) := by
  rw [patch, ← ha, List.take_left, ← hb, ← List.length_append, ← List.append_assoc a b, List.drop_left]

/-- The longest tag whose length sixteen bits can tell. -/
def lengthLimit : Nat := 65535

/-- The place of the frame's length, where the first tag's length stands before. -/
def frameLengthSlot : Nat := 8

/-- Puts the header of the first tag, with its own length. -/
def putFirstHeader (id : TagId) (length : Nat) (extra : UInt16) (s : Sheet) : Sheet :=
  { s with
    bytes := s.bytes ++ (id.toBytes ++ Bytes.zeros 2 ++ Bytes.ofNatLE 2 s.sequence.toNat
      ++ Bytes.ofNatLE 2 (min (Frame.firstHeaderSize + length) lengthLimit) ++ Bytes.ofNatLE 2 extra.toNat
      ++ Bytes.ofNatLE 4 0)
    lengthSlot := some frameLengthSlot
    nextSlot := some 12 }

/-- Puts the payload of a tag behind its header. -/
def putPayload (payload : Bytes) (s : Sheet) : Sheet :=
  { s with bytes := s.bytes ++ payload, count := s.count + 1 }

/-- A sheet without tags, or with its first tag in place. -/
def opened (sequence : UInt16) : Option DraftTag → Sheet
  | none => { sequence }
  | some t => (putFirstHeader t.id t.payload.length t.extra { sequence }).putPayload t.payload

/-- Lets the last tag point to a place. -/
def patchNext (place : Nat) (s : Sheet) : Except FrameError Unit × Sheet :=
  match s.nextSlot with
  | none => (.ok (), s)
  | some slot =>
    if Bytes.bound 4 ≤ place then (.error (.frameTooLarge place (Bytes.bound 4 - 1)), s)
    else (.ok (), { s with bytes := patch slot (Bytes.ofNatLE 4 place) s.bytes })

/-- Puts the header of another tag. -/
def putHeader (id : TagId) (length : Nat) (extra : UInt16) (s : Sheet) : Sheet :=
  { s with
    bytes := s.bytes ++ (id.toBytes ++ Bytes.ofNatLE 2 (Frame.headerSize + length)
      ++ Bytes.ofNatLE 2 extra.toNat ++ Bytes.ofNatLE 4 0)
    lengthSlot := some (s.bytes.length + 4)
    nextSlot := some (s.bytes.length + 8) }

/-- Puts zeros up to a multiple of four. -/
def pad (s : Sheet) : Sheet :=
  { s with bytes := s.bytes ++ Bytes.zeros ((4 - s.bytes.length % 4) % 4) }

/-- Adds a tag. -/
def append (id : TagId) (payload : Bytes) (extra : UInt16) (s : Sheet) : Except FrameError Unit × Sheet :=
  if s.count = 0 then (.ok (), (s.putFirstHeader id payload.length extra).putPayload payload)
  else if lengthLimit < Frame.headerSize + payload.length then
    (.error (.tagTooLarge payload.length (lengthLimit - Frame.headerSize)), s)
  else
    match s.pad.patchNext s.pad.bytes.length with
    | (.error e, s) => (.error e, s)
    | (.ok (), s) => (.ok (), (s.putHeader id payload.length extra).putPayload payload)

/-- Adds bytes to the payload of the last tag, whose length is read back. -/
def extend (data : Bytes) (s : Sheet) : Except FrameError Unit × Sheet :=
  match s.lengthSlot with
  | none => (.error .empty, s)
  | some slot =>
    let grown := Frame.field s.bytes slot 2 + data.length
    if s.count ≠ 1 ∧ lengthLimit < grown then
      (.error (.tagTooLarge (grown - Frame.headerSize) (lengthLimit - Frame.headerSize)), s)
    else
      (.ok (), { s with bytes := patch slot (Bytes.ofNatLE 2 (min grown lengthLimit)) s.bytes ++ data })

/-- Makes an edit. -/
def edit (e : Edit) (s : Sheet) : Except FrameError Unit × Sheet :=
  match e with
  | .append id payload extra => s.append id payload extra
  | .extend data => s.extend data

/-- Makes edits one after the other. -/
def after (edits : List Edit) (s : Sheet) : Sheet :=
  edits.foldl (fun s e => (s.edit e).2) s

/-- The bytes of the frame, with its length. -/
def finish (s : Sheet) : Except FrameError Bytes :=
  if s.count = 0 then .error .empty
  else if Bytes.bound 4 ≤ s.bytes.length then .error (.frameTooLarge s.bytes.length (Bytes.bound 4 - 1))
  else .ok (patch frameLengthSlot (Bytes.ofNatLE 4 s.bytes.length) s.bytes)

end Sheet

/-- There is room for a payload: behind other tags it is not too large, and the last one of them reaches it. -/
structure Room (behind reached : Prop) (payload : Bytes) : Prop where
  payload_le : behind → payload.length ≤ Draft.payloadLimit
  reached : behind → reached

/-- The bytes of a tag from its length on. -/
def DraftTag.fromLength (length last : Nat) (t : DraftTag) : Bytes :=
  Bytes.ofNatLE 2 length ++ (Bytes.ofNatLE 2 t.extra.toNat ++ (Bytes.ofNatLE 4 last ++ t.payload))

namespace Sheet

open Draft (payloadLimit)

/-! ## Overwriting the last tag -/

section FromLength

variable (before : Bytes) (t : DraftTag) (length last : Nat)

theorem field_fromLength (h : length < Bytes.bound 2) :
    Frame.field (before ++ t.fromLength length last) before.length 2 = length :=
  Frame.field_ofNatLE rfl h

theorem patch_length (value : Nat) (data : Bytes) :
    patch before.length (Bytes.ofNatLE 2 value) (before ++ t.fromLength length last) ++ data
      = before ++ DraftTag.fromLength value last { t with payload := t.payload ++ data } := by
  unfold DraftTag.fromLength
  rw [patch_eq rfl (by simp)]
  simp only [List.append_assoc]

theorem patch_next (value : Nat) (behind : Bytes) :
    patch (before.length + 4) (Bytes.ofNatLE 4 value) (before ++ t.fromLength length last ++ behind)
      = before ++ t.fromLength length value ++ behind := by
  have hsplit : ∀ last, before ++ t.fromLength length last ++ behind
      = (before ++ Bytes.ofNatLE 2 length ++ Bytes.ofNatLE 2 t.extra.toNat)
        ++ (Bytes.ofNatLE 4 last ++ (t.payload ++ behind)) := by
    intro last
    simp only [DraftTag.fromLength, List.append_assoc]
  rw [hsplit last, hsplit value]
  exact patch_eq (by simp) (by simp)

end FromLength

/-! ## The length of the last tag -/

/-- The length of a tag behind others, as far as sixteen bits tell it. -/
def tagLength (behind size : Nat) : Nat :=
  if behind = 0 then min (Frame.firstHeaderSize + size) lengthLimit else Frame.headerSize + size

/-- A sheet whose last tag stands behind others. -/
def ending (sequence : UInt16) (before : Bytes) (behind : Nat) (t : DraftTag) : Sheet where
  sequence := sequence
  bytes := before ++ t.fromLength (tagLength behind t.payload.length) 0
  count := behind + 1
  lengthSlot := some before.length
  nextSlot := some (before.length + 4)

theorem tagLength_zero (size : Nat) : tagLength 0 size = min (Frame.firstHeaderSize + size) lengthLimit :=
  if_pos rfl

theorem tagLength_of_ne_zero {behind : Nat} (h : behind ≠ 0) (size : Nat) :
    tagLength behind size = Frame.headerSize + size :=
  if_neg h

/-- The limit of payloads is that of lengths. -/
theorem lengthLimit_lt_iff {size : Nat} : lengthLimit < Frame.headerSize + size ↔ payloadLimit < size := by
  unfold lengthLimit payloadLimit Frame.headerSize
  omega

/-- Two octets can tell the length. -/
theorem tagLength_lt {behind size : Nat} (h : behind ≠ 0 → size ≤ payloadLimit) :
    tagLength behind size < Bytes.bound 2 := by
  refine Nat.lt_succ_of_le (m := 65535) ?_
  by_cases hb : behind = 0
  · rw [hb, tagLength_zero]
    exact Nat.min_le_right _ _
  · rw [tagLength_of_ne_zero hb]
    exact Nat.le_of_not_lt fun hlt => Nat.not_lt_of_le (h hb) (lengthLimit_lt_iff.mp hlt)

/-- What is read back, and the bytes that are added, make up the new length. -/
theorem tagLength_add {behind size more : Nat} (h : behind ≠ 0 → size + more ≤ payloadLimit) :
    tagLength behind (size + more) = min (tagLength behind size + more) lengthLimit := by
  by_cases hb : behind = 0
  · rw [hb, tagLength_zero, tagLength_zero]
    omega
  · have hle : ¬lengthLimit < Frame.headerSize + (size + more) :=
      fun hlt => Nat.not_lt_of_le (h hb) (lengthLimit_lt_iff.mp hlt)
    rw [tagLength_of_ne_zero hb, tagLength_of_ne_zero hb, Nat.add_assoc]
    exact (Nat.min_eq_left (Nat.le_of_not_lt hle)).symm

/-- Bytes are added to the last tag unless they make it too large, which the first one never is. -/
theorem extend_ending (sequence : UInt16) (before : Bytes) {behind : Nat} {t : DraftTag}
    (h : behind ≠ 0 → t.payload.length ≤ payloadLimit) (data : Bytes) :
    (ending sequence before behind t).extend data
      = if behind ≠ 0 ∧ payloadLimit < (t.payload ++ data).length then
          (.error (.tagTooLarge (t.payload ++ data).length payloadLimit), ending sequence before behind t)
        else (.ok (), ending sequence before behind { t with payload := t.payload ++ data }) := by
  have hslot : (ending sequence before behind t).lengthSlot = some before.length := rfl
  have hfield : Frame.field (ending sequence before behind t).bytes before.length 2
      = tagLength behind t.payload.length :=
    field_fromLength before t _ 0 (tagLength_lt h)
  have hcount : (ending sequence before behind t).count ≠ 1 ↔ behind ≠ 0 :=
    not_congr Nat.succ_inj
  have hgrown : behind ≠ 0 →
      tagLength behind t.payload.length + data.length = Frame.headerSize + (t.payload ++ data).length := by
    intro hb
    rw [tagLength_of_ne_zero hb, List.length_append, Nat.add_assoc]
  rw [extend, hslot]
  dsimp only
  rw [hfield]
  by_cases hlarge : behind ≠ 0 ∧ payloadLimit < (t.payload ++ data).length
  · rw [if_pos hlarge, hgrown hlarge.1, if_pos ⟨hcount.mpr hlarge.1, lengthLimit_lt_iff.mpr hlarge.2⟩,
      Nat.add_sub_cancel_left]
    rfl
  · have hfits : ¬((ending sequence before behind t).count ≠ 1
        ∧ lengthLimit < tagLength behind t.payload.length + data.length) := by
      rintro ⟨hc, hlt⟩
      have hb := hcount.mp hc
      rw [hgrown hb] at hlt
      exact hlarge ⟨hb, lengthLimit_lt_iff.mp hlt⟩
    have hlength : tagLength behind (t.payload ++ data).length
        = min (tagLength behind t.payload.length + data.length) lengthLimit := by
      rw [List.length_append]
      refine tagLength_add fun hb => Nat.le_of_not_lt fun hlt => hlarge ⟨hb, ?_⟩
      rwa [List.length_append]
    rw [if_neg hlarge, if_neg hfits]
    simp only [ending, patch_length, hlength]

/-! ## Another tag -/

/-- A sheet without tags has nothing on it. -/
def Sound (s : Sheet) : Prop :=
  s.count = 0 → s = { sequence := s.sequence }

/-- There is room for a tag with this payload. -/
abbrev HasRoom (s : Sheet) : Bytes → Prop :=
  Room (s.count ≠ 0) ((s.pad.patchNext s.pad.bytes.length).1 = .ok ())

/-- The bytes before the length of a tag that is added. -/
def front (id : TagId) (s : Sheet) : Bytes :=
  if s.count = 0 then id.toBytes ++ Bytes.zeros 2 ++ Bytes.ofNatLE 2 s.sequence.toNat
  else (s.pad.patchNext s.pad.bytes.length).2.bytes ++ id.toBytes

/-- A pointer changes nothing but bytes. -/
theorem snd_patchNext (place : Nat) (s : Sheet) :
    (s.patchNext place).2 = { s with bytes := (s.patchNext place).2.bytes } := by
  unfold patchNext
  split
  · rfl
  · split <;> rfl

section Append

variable {s : Sheet} {id : TagId} {payload : Bytes} {extra : UInt16}

theorem append_of_room (hs : s.Sound) (h : s.HasRoom payload) :
    s.append id payload extra
      = (.ok (), ending s.sequence (s.front id) s.count ⟨id, extra, payload⟩) := by
  by_cases hc : s.count = 0
  · rw [hs hc, append, if_pos rfl]
    simp only [putFirstHeader, putPayload, ending, front, DraftTag.fromLength, tagLength_zero, if_pos,
      List.append_assoc, List.nil_append]
    rfl
  · have hlarge : ¬lengthLimit < Frame.headerSize + payload.length :=
      fun hlt => Nat.not_lt_of_le (h.payload_le hc) (lengthLimit_lt_iff.mp hlt)
    have hpatched := h.reached hc
    have hfields := snd_patchNext s.pad.bytes.length s.pad
    rw [append, if_neg hc, if_neg hlarge, front, if_neg hc]
    generalize s.pad.patchNext s.pad.bytes.length = r at hpatched hfields
    obtain ⟨outcome, patched⟩ := r
    obtain rfl : outcome = .ok () := hpatched
    dsimp only at hfields ⊢
    rw [hfields]
    simp only [putHeader, putPayload, ending, DraftTag.fromLength, tagLength_of_ne_zero hc, pad,
      List.append_assoc, List.length_append, TagId.length_toBytes]

theorem append_ok_iff (hs : s.Sound) : (s.append id payload extra).1 = .ok () ↔ s.HasRoom payload := by
  constructor
  · intro h
    refine ⟨fun hc => ?_, fun hc => ?_⟩ <;> rw [append, if_neg hc] at h <;> split at h
    · cases h
    · next hlarge => exact Nat.le_of_not_lt fun hlt => hlarge (lengthLimit_lt_iff.mpr hlt)
    · cases h
    · split at h
      · cases h
      · next hpatch => rw [hpatch]
  · intro h
    rw [append_of_room hs h]

end Append

end Sheet

namespace Draft

/-! ## Where the last tag stands -/

/-- The bytes of tags behind a place, of which the last one points to `last`. -/
def linked (place last : Nat) : List DraftTag → Bytes
  | [] => []
  | t :: rest =>
    let next := if rest.isEmpty then last else align (stop place t)
    Bytes.zeros (align place - place) ++ (t.bytes next ++ linked (stop place t) last rest)

/-- The bytes of a draft that starts with a tag, of which the last one points to `last`. -/
def linkedFrom (sequence : UInt16) (total last : Nat) (t : DraftTag) (rest : List DraftTag) : Bytes :=
  let next := if rest.isEmpty then last else align (firstStop t)
  header sequence total next t.id ++ (t.payload ++ linked (firstStop t) last rest)

theorem linked_zero (place : Nat) (tags : List DraftTag) : linked place 0 tags = rendered place tags := by
  induction tags generalizing place with
  | nil => rfl
  | cons t rest ih =>
    rw [linked, rendered_cons, ih]
    rfl

/-- The last tag of a frame points nowhere. -/
theorem linkedFrom_zero (sequence : UInt16) (total : Nat) (t : DraftTag) (rest : List DraftTag) :
    linkedFrom sequence total 0 t rest = render sequence total t rest := by
  rw [linkedFrom, linked_zero, render_eq]
  rfl

/-- Another tag is the last one, and the one before it points to it. -/
theorem linked_concat (place last : Nat) (tags : List DraftTag) (u : DraftTag) :
    linked place last (tags ++ [u])
      = linked place (align (stopFrom place tags)) tags
        ++ (Bytes.zeros (align (stopFrom place tags) - stopFrom place tags) ++ u.bytes last) := by
  induction tags generalizing place with
  | nil =>
    simp only [List.nil_append, linked, List.append_nil]
    rfl
  | cons t rest ih =>
    rw [List.cons_append, linked, linked, ih, stopFrom_cons]
    simp only [List.append_assoc]
    cases rest <;> rfl

theorem linkedFrom_concat (sequence : UInt16) (total last : Nat) (t : DraftTag) (rest : List DraftTag)
    (u : DraftTag) :
    linkedFrom sequence total last t (rest ++ [u])
      = linkedFrom sequence total (align (stopFrom (firstStop t) rest)) t rest
        ++ (Bytes.zeros (align (stopFrom (firstStop t) rest) - stopFrom (firstStop t) rest)
          ++ u.bytes last) := by
  rw [linkedFrom, linkedFrom, linked_concat]
  simp only [List.append_assoc]
  cases rest <;> rfl

theorem length_linked (place last : Nat) (tags : List DraftTag) :
    place + (linked place last tags).length = stopFrom place tags := by
  induction tags generalizing place with
  | nil => rfl
  | cons t rest ih =>
    have hle := le_align place
    rw [linked, stopFrom_cons, ← ih (stop place t), List.length_append, List.length_append,
      Bytes.length_zeros, DraftTag.length_bytes]
    unfold stop
    omega

theorem length_linkedFrom (sequence : UInt16) (total last : Nat) (t : DraftTag) (rest : List DraftTag) :
    (linkedFrom sequence total last t rest).length = stopFrom (firstStop t) rest := by
  rw [linkedFrom, ← length_linked (firstStop t) last rest, List.length_append, length_header,
    List.length_append, firstStop, Nat.add_assoc]

/-! ## The sheet of a draft -/

/-- What stands in the place of the frame's length before that is known: the first tag's length, and the number
beside it. -/
def provisional (t : DraftTag) : Nat :=
  Sheet.tagLength 0 t.payload.length + Bytes.bound 2 * t.extra.toNat

/-- The bytes of tags, of which the last one points to `last`. -/
def laid (sequence : UInt16) (last : Nat) : List DraftTag → Bytes
  | [] => []
  | t :: rest => linkedFrom sequence (provisional t) last t rest

/-- The zeros between tags and one more behind them. -/
def gap (sequence : UInt16) (tags : List DraftTag) : Bytes :=
  Bytes.zeros (align (size ⟨sequence, tags⟩) - size ⟨sequence, tags⟩)

/-- The bytes before the length of a tag behind others. -/
def lead (sequence : UInt16) (id : TagId) : List DraftTag → Bytes
  | [] => id.toBytes ++ Bytes.zeros 2 ++ Bytes.ofNatLE 2 sequence.toNat
  | t :: rest =>
    laid sequence (align (size ⟨sequence, t :: rest⟩)) (t :: rest)
      ++ (gap sequence (t :: rest) ++ id.toBytes)

/-- The octets of a number come behind those of what is left of it. -/
theorem ofNatLE_add (v w : Nat) {a : Nat} (ha : a < Bytes.bound v) (b : Nat) :
    Bytes.ofNatLE (v + w) (a + Bytes.bound v * b) = Bytes.ofNatLE v a ++ Bytes.ofNatLE w b := by
  induction v generalizing a with
  | zero =>
    obtain rfl : a = 0 := Nat.lt_one_iff.mp ha
    rw [Nat.zero_add, Nat.zero_add, Bytes.bound, Nat.one_mul]
    rfl
  | succ v ih =>
    rw [Bytes.bound, Nat.mul_assoc]
    rw [Bytes.bound] at ha
    have hoctet : UInt8.ofNat (a + 256 * (Bytes.bound v * b)) = UInt8.ofNat a := by
      apply UInt8.toNat_inj.mp
      simp only [UInt8.toNat_ofNat']
      omega
    have hrest : (a + 256 * (Bytes.bound v * b)) / 256 = a / 256 + Bytes.bound v * b := by omega
    rw [Nat.succ_add, Bytes.ofNatLE, Bytes.ofNatLE, hoctet, hrest, ih (by omega), List.cons_append]

/-- The last tag stands behind its lead. -/
theorem laid_concat (sequence : UInt16) (last : Nat) (tags : List DraftTag) (t : DraftTag) :
    laid sequence last (tags ++ [t])
      = lead sequence t.id tags ++ t.fromLength (Sheet.tagLength tags.length t.payload.length) last := by
  rcases tags with _ | ⟨u, rest⟩
  · have hlength : Sheet.tagLength 0 t.payload.length < Bytes.bound 2 := Sheet.tagLength_lt (absurd rfl)
    have hword := ofNatLE_add 2 2 hlength t.extra.toNat
    rw [List.nil_append, laid, linkedFrom, header, provisional, hword]
    simp only [lead, DraftTag.fromLength, linked, List.append_assoc, List.append_nil]
    rfl
  · rw [List.cons_append, laid, linkedFrom_concat]
    simp only [lead, laid, DraftTag.fromLength, DraftTag.bytes, List.append_assoc,
      Sheet.tagLength_of_ne_zero (Nat.succ_ne_zero rest.length), List.length_cons]
    rfl

theorem lead_of_ne_nil (sequence : UInt16) (id : TagId) {tags : List DraftTag} (h : tags ≠ []) :
    lead sequence id tags
      = laid sequence (align (size ⟨sequence, tags⟩)) tags ++ (gap sequence tags ++ id.toBytes) := by
  cases tags with
  | nil => exact absurd rfl h
  | cons => rfl

theorem length_laid (sequence : UInt16) (last : Nat) (tags : List DraftTag) :
    (laid sequence last tags).length = size ⟨sequence, tags⟩ := by
  cases tags with
  | nil => rfl
  | cons t rest => exact length_linkedFrom sequence _ last t rest

/-- The sheet of tags and one more behind them. -/
def sheetOf (sequence : UInt16) (tags : List DraftTag) (t : DraftTag) : Sheet :=
  .ending sequence (lead sequence t.id tags) tags.length t

/-- The sheet of a draft. -/
def sheet (d : Draft) : Sheet :=
  match d.tags.getLast? with
  | none => { sequence := d.sequence }
  | some t => sheetOf d.sequence d.tags.dropLast t

theorem sheet_concat (sequence : UInt16) (tags : List DraftTag) (t : DraftTag) :
    sheet ⟨sequence, tags ++ [t]⟩ = sheetOf sequence tags t := by
  rw [sheet, List.getLast?_concat, List.dropLast_concat]

end Draft

namespace Sheet

open Draft

/-! ## Edits of a sheet -/

section Edits

variable (sequence : UInt16) (tags : List DraftTag) (t : DraftTag)

theorem bytes_sheetOf : (sheetOf sequence tags t).bytes = laid sequence 0 (tags ++ [t]) :=
  (laid_concat sequence 0 tags t).symm

theorem sound_sheetOf : (sheetOf sequence tags t).Sound :=
  fun h => absurd h (Nat.succ_ne_zero _)

theorem bytes_pad : (sheetOf sequence tags t).pad.bytes
    = lead sequence t.id tags ++ t.fromLength (tagLength tags.length t.payload.length) 0
      ++ gap sequence (tags ++ [t]) := by
  have hzeros : ∀ n, (4 - n % 4) % 4 = align n - n := by
    intro n
    unfold align
    omega
  rw [pad, bytes_sheetOf, length_laid, hzeros, laid_concat, gap]

theorem length_pad : (sheetOf sequence tags t).pad.bytes.length = align (size ⟨sequence, tags ++ [t]⟩) := by
  have hle := le_align (size ⟨sequence, tags ++ [t]⟩)
  rw [bytes_pad, ← laid_concat, List.length_append, length_laid, gap, Bytes.length_zeros]
  omega

variable {sequence tags t}

/-- The last tag points behind the zeros. -/
theorem patchNext_pad {place : Nat} (h : place < Bytes.bound 4) :
    (sheetOf sequence tags t).pad.patchNext place
      = (.ok (), { (sheetOf sequence tags t).pad with
          bytes := laid sequence place (tags ++ [t]) ++ gap sequence (tags ++ [t]) }) := by
  have hslot : (sheetOf sequence tags t).pad.nextSlot = some ((lead sequence t.id tags).length + 4) := rfl
  rw [patchNext, hslot]
  dsimp only
  rw [if_neg (Nat.not_le_of_lt h), bytes_pad, patch_next, laid_concat]
  rfl

theorem append_first (sequence : UInt16) (id : TagId) (payload : Bytes) (extra : UInt16) :
    ({ sequence } : Sheet).append id payload extra = (.ok (), sheetOf sequence [] ⟨id, extra, payload⟩) :=
  append_of_room (fun _ => rfl) ⟨absurd rfl, absurd rfl⟩

theorem append_sheetOf {id : TagId} {payload : Bytes} {extra : UInt16} (hpayload : payload.length ≤ payloadLimit)
    (hplace : align (size ⟨sequence, tags ++ [t]⟩) < Bytes.bound 4) :
    (sheetOf sequence tags t).append id payload extra
      = (.ok (), sheetOf sequence (tags ++ [t]) ⟨id, extra, payload⟩) := by
  have hroom : (sheetOf sequence tags t).HasRoom payload := by
    refine ⟨fun _ => hpayload, fun _ => ?_⟩
    rw [length_pad, patchNext_pad hplace]
  have hfront : (sheetOf sequence tags t).front id = lead sequence id (tags ++ [t]) := by
    have hcount : ¬(sheetOf sequence tags t).count = 0 := Nat.succ_ne_zero _
    rw [front, if_neg hcount, length_pad, patchNext_pad hplace, lead_of_ne_nil sequence id (by simp),
      ← List.append_assoc]
  rw [append_of_room (sound_sheetOf sequence tags t) hroom, hfront]
  simp only [sheetOf, List.length_append, List.length_singleton]
  rfl

theorem append_sheetOf_tooLarge {id : TagId} {payload : Bytes} {extra : UInt16}
    (hpayload : payloadLimit < payload.length) : (sheetOf sequence tags t).append id payload extra
      = (.error (.tagTooLarge payload.length payloadLimit), sheetOf sequence tags t) := by
  have hcount : ¬(sheetOf sequence tags t).count = 0 := Nat.succ_ne_zero _
  rw [append, if_neg hcount, if_pos (lengthLimit_lt_iff.mpr hpayload)]
  rfl

end Edits

theorem patch_header (sequence : UInt16) (total value next : Nat) (id : TagId) (behind : Bytes) :
    patch frameLengthSlot (Bytes.ofNatLE 4 value) (header sequence total next id ++ behind)
      = header sequence value next id ++ behind := by
  have hsplit : ∀ total, header sequence total next id ++ behind
      = (id.toBytes ++ Bytes.zeros 2 ++ Bytes.ofNatLE 2 sequence.toNat)
        ++ (Bytes.ofNatLE 4 total ++ (Bytes.ofNatLE 4 next ++ behind)) := by
    intro total
    simp only [header, List.append_assoc]
  rw [hsplit total, hsplit value]
  exact patch_eq (by simp [frameLengthSlot]) (by simp)

/-- The frame of a draft is what its sheet becomes with the frame's length. -/
theorem finish_sheet (d : Draft) : d.sheet.finish = d.finish := by
  obtain ⟨sequence, tags⟩ := d
  rcases List.eq_nil_or_concat tags with rfl | ⟨ts, t, htags⟩
  · rfl
  · rw [List.concat_eq_append] at htags
    obtain ⟨u, rest, hcons⟩ := List.exists_cons_of_ne_nil (show tags ≠ [] by simp [htags])
    have hbytes : (sheetOf sequence ts t).bytes = render sequence (provisional u) u rest := by
      rw [bytes_sheetOf, ← htags, hcons]
      exact linkedFrom_zero sequence (provisional u) u rest
    have hlength : (sheetOf sequence ts t).bytes.length = size ⟨sequence, tags⟩ := by
      rw [bytes_sheetOf, length_laid, htags]
    have hcount : ¬(sheetOf sequence ts t).count = 0 := Nat.succ_ne_zero _
    have hsheet : sheet ⟨sequence, tags⟩ = sheetOf sequence ts t := by rw [htags, sheet_concat]
    rw [hsheet, finish, if_neg hcount, hlength, hbytes, render_eq, patch_header, ← render_eq, hcons]
    rfl

end Sheet

namespace Draft

/-- A tag is added to a sheet as it is to the draft, while four octets can tell its place. -/
theorem append_sheet {d : Draft} (hsize : d.size < 4294967292) (id : TagId) (payload : Bytes) (extra : UInt16) :
    d.sheet.append id payload extra
      = ((d.edit (.append id payload extra)).1, (d.edit (.append id payload extra)).2.sheet) := by
  obtain ⟨sequence, tags⟩ := d
  have halign : align (size ⟨sequence, tags⟩) < Bytes.bound 4 := by
    have hlt := align_lt (size ⟨sequence, tags⟩)
    rw [Bytes.bound_four]
    unfold align at hlt ⊢
    omega
  have hedited := edited (.append id payload extra) ⟨sequence, tags⟩
  generalize Draft.edit _ ⟨sequence, tags⟩ = r at hedited
  cases hedited with
  | appended hle =>
    rcases List.eq_nil_or_concat tags with rfl | ⟨ts, t, htags⟩
    · exact Sheet.append_first sequence id payload extra
    · rw [List.concat_eq_append] at htags
      subst htags
      rw [sheet_concat, sheet_concat]
      exact Sheet.append_sheetOf (hle (by simp)) halign
  | tagTooLarge hne hlt =>
    obtain ⟨ts, t, htags⟩ := (List.eq_nil_or_concat tags).resolve_left hne
    rw [List.concat_eq_append] at htags
    subst htags
    rw [sheet_concat]
    exact Sheet.append_sheetOf_tooLarge hlt
  | frameTooLarge hle => exact absurd hle (Nat.not_le_of_lt halign)

/-- Bytes are added to the last tag of a sheet as they are to that of the draft. -/
theorem extend_sheet {d : Draft} (hpayload : ∀ t ∈ d.tags.tail, t.payload.length ≤ payloadLimit) (data : Bytes) :
    d.sheet.extend data = ((d.edit (.extend data)).1, (d.edit (.extend data)).2.sheet) := by
  obtain ⟨sequence, tags⟩ := d
  have hedited := edited (.extend data) ⟨sequence, tags⟩
  generalize Draft.edit _ ⟨sequence, tags⟩ = r at hedited
  have hbehind : ∀ {ts : List DraftTag}, ts.length ≠ 0 ↔ ts ≠ [] := not_congr List.length_eq_zero_iff
  cases hedited with
  | @extended ts t _ htags hle =>
    obtain rfl : tags = ts ++ [t] := htags
    have hpayload_le : ts.length ≠ 0 → t.payload.length ≤ payloadLimit :=
      fun hb => hpayload t (mem_tail_concat.mpr (.inr ⟨hbehind.mp hb, rfl⟩))
    rw [sheet_concat, sheet_concat, sheetOf, Sheet.extend_ending _ _ hpayload_le,
      if_neg fun h => Nat.not_lt_of_le (hle (hbehind.mp h.1)) h.2]
    rfl
  | @extendedTooLarge ts t _ htags hne hlt =>
    obtain rfl : tags = ts ++ [t] := htags
    have hpayload_le : ts.length ≠ 0 → t.payload.length ≤ payloadLimit :=
      fun hb => hpayload t (mem_tail_concat.mpr (.inr ⟨hbehind.mp hb, rfl⟩))
    rw [sheet_concat, sheetOf, Sheet.extend_ending _ _ hpayload_le, if_pos ⟨hbehind.mpr hne, hlt⟩]
  | empty htags =>
    obtain rfl : tags = [] := htags
    rfl

theorem edit_sheet {d : Draft} (hpayload : ∀ t ∈ d.tags.tail, t.payload.length ≤ payloadLimit)
    (hsize : d.size < 4294967292) (e : Edit) : d.sheet.edit e = ((d.edit e).1, (d.edit e).2.sheet) := by
  cases e with
  | append id payload extra => exact append_sheet hsize id payload extra
  | extend data => exact extend_sheet hpayload data

theorem sheet_opened (sequence : UInt16) (first : Option DraftTag) :
    (opened sequence first).sheet = Sheet.opened sequence first := by
  cases first with
  | none => rfl
  | some t =>
    have happend := Sheet.append_first sequence t.id t.payload t.extra
    exact (Prod.mk.inj happend).2.symm

/-- The sheet that comes out of edits is that of the draft that comes out of them. -/
theorem sheet_after {sequence : UInt16} {made : List Edit} {d : Draft} (h : Built sequence made d)
    (es : List Edit) (hsize : (after es d).size < 4294967292) : d.sheet.after es = (after es d).sheet := by
  induction es generalizing made d with
  | nil => rfl
  | cons e rest ih =>
    have hbuilt : Built sequence (made ++ accepted [e] d) (d.edit e).2 := h.after [e]
    have hedit := edit_sheet h.payload_le (Nat.lt_of_le_of_lt (size_le_after (e :: rest) d) hsize) e
    show Sheet.after rest (d.sheet.edit e).2 = (after rest (d.edit e).2).sheet
    rw [hedit]
    exact ih hbuilt hsize

end Draft

end Wwan
