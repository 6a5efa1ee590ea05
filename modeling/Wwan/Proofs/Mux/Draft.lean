import Wwan.Mux.Draft
import Wwan.Proofs.Mux.Chain

/-!
# Reading what was written

The bytes of a draft are a well-formed frame, whatever stands behind them: each pointer leads to the place
where the next tag was put, and each length reaches to the end of the payload.  `parse_render` says which
frame is read of them.
-/

namespace Wwan

namespace Frame

/-! ## Reading a part of joined byte strings -/

theorem drop_add (a x : Bytes) (offset : Nat) : (a ++ x).drop (a.length + offset) = x.drop offset := by
  rw [← List.drop_drop, List.drop_left]

theorem field_add (a x : Bytes) (offset width : Nat) :
    field (a ++ x) (a.length + offset) width = field x offset width := by
  rw [field, field, drop_add]

theorem part_at {a b c : Bytes} {offset length : Nat} (ha : a.length = offset) (hb : b.length = length) :
    ((a ++ (b ++ c)).drop offset).take length = b := by
  rw [← ha, ← hb, List.drop_left, List.take_left]

/-- A number is read where it was written. -/
theorem field_ofNatLE {a c : Bytes} {offset width n : Nat} (ha : a.length = offset)
    (hn : n < Bytes.bound width) : field (a ++ (Bytes.ofNatLE width n ++ c)) offset width = n := by
  rw [field, part_at ha (Bytes.length_ofNatLE width n), Bytes.toNatLE_ofNatLE, Nat.mod_eq_of_lt hn]

end Frame

/-! ## Reading a tag where it was written -/

namespace DraftTag

/-- The bytes of a tag behind the first one, with its pointer. -/
def bytes (next : Nat) (t : DraftTag) : Bytes :=
  t.id.toBytes ++ Bytes.ofNatLE 2 (Frame.headerSize + t.payload.length) ++ Bytes.ofNatLE 2 t.extra.toNat
    ++ Bytes.ofNatLE 4 next ++ t.payload

variable (t : DraftTag) (next : Nat) (behind : Bytes)

theorem length_bytes : (t.bytes next).length = Frame.headerSize + t.payload.length := by
  simp only [bytes, List.length_append, TagId.length_toBytes, Bytes.length_ofNatLE, Frame.headerSize]

theorem id_bytes : (t.bytes next ++ behind).take 4 = t.id.toBytes := by
  simp only [bytes, List.append_assoc]
  exact List.take_left' t.id.length_toBytes

variable {t} in
theorem declared_bytes (h : t.payload.length ≤ Draft.payloadLimit) :
    Frame.field (t.bytes next ++ behind) 4 2 = Frame.headerSize + t.payload.length := by
  have hlt : Frame.headerSize + t.payload.length < 65536 := by
    unfold Draft.payloadLimit at h
    unfold Frame.headerSize at h ⊢
    omega
  simp only [bytes, List.append_assoc]
  exact Frame.field_ofNatLE t.id.length_toBytes hlt

theorem extra_bytes : Frame.field (t.bytes next ++ behind) 6 2 = t.extra.toNat := by
  simp only [bytes, List.append_assoc]
  rw [← List.append_assoc t.id.toBytes]
  exact Frame.field_ofNatLE (by simp) t.extra.toNat_lt

variable {next} in
theorem following_bytes (h : next < Bytes.bound 4) :
    Frame.field (t.bytes next ++ behind) 8 4 = next := by
  simp only [bytes, List.append_assoc]
  rw [← List.append_assoc t.id.toBytes, ← List.append_assoc (t.id.toBytes ++ _)]
  exact Frame.field_ofNatLE (by simp) h

theorem payload_bytes :
    ((t.bytes next ++ behind).drop Frame.headerSize).take t.payload.length = t.payload := by
  rw [bytes, List.append_assoc _ t.payload]
  exact Frame.part_at (by simp [Frame.headerSize]) rfl

variable {t next behind} in
/-- A tag is read where it was written. -/
theorem read_bytes {frame before : Bytes} {place : Nat}
    (hframe : frame = before ++ (t.bytes next ++ behind)) (hplace : before.length = place)
    (hpayload : t.payload.length ≤ Draft.payloadLimit) (hnext : next < Bytes.bound 4) :
    Frame.Holds frame place ∧ Frame.declared frame place = Frame.headerSize + t.payload.length ∧
      Frame.following frame place = next ∧
      Frame.tagOf frame place = ⟨t.id, t.extra, place, t.payload⟩ := by
  subst hframe hplace
  have hlength : (before ++ (t.bytes next ++ behind)).length
      = before.length + (Frame.headerSize + t.payload.length + behind.length) := by
    rw [List.length_append, List.length_append, length_bytes]
  have hdeclared : Frame.declared (before ++ (t.bytes next ++ behind)) before.length
      = Frame.headerSize + t.payload.length :=
    (Frame.field_add before _ 4 2).trans (declared_bytes next behind hpayload)
  refine ⟨⟨by omega, by omega, by omega⟩, hdeclared,
    (Frame.field_add before _ 8 4).trans (following_bytes t behind hnext), ?_⟩
  rw [Frame.tagOf, hdeclared, Nat.add_sub_cancel_left, List.drop_left, id_bytes, Frame.field_add,
    extra_bytes, Frame.drop_add, payload_bytes, TagId.ofBytes_toBytes, UInt16.ofNat_toNat]

end DraftTag

namespace Draft

/-! ## Where tags are put -/

theorem le_align (n : Nat) : n ≤ align n := by
  unfold align
  omega

theorem align_lt (n : Nat) : align n < n + 4 := by
  unfold align
  omega

theorem four_dvd_align (n : Nat) : 4 ∣ align n :=
  Nat.dvd_mul_left 4 _

/-- Where a tag ends that is put behind a place. -/
def stop (place : Nat) (t : DraftTag) : Nat :=
  align place + Frame.headerSize + t.payload.length

/-- The tags behind a place, each where it is put. -/
def placed (place : Nat) : List DraftTag → List Tag
  | [] => []
  | t :: rest => ⟨t.id, t.extra, align place, t.payload⟩ :: placed (stop place t) rest

theorem four_dvd_of_placed {place : Nat} {tags : List DraftTag} {t : Tag}
    (h : t ∈ placed place tags) : 4 ∣ t.offset := by
  induction tags generalizing place with
  | nil => cases h
  | cons u rest ih =>
    obtain rfl | h := List.mem_cons.mp h
    · exact four_dvd_align place
    · exact ih h

/-- The bytes of tags behind a place, with the zeros before them. -/
def rendered (place : Nat) (tags : List DraftTag) : Bytes :=
  padding tags place ++ renderRest (align place) tags

theorem rendered_cons (place : Nat) (t : DraftTag) (rest : List DraftTag) :
    rendered place (t :: rest) = Bytes.zeros (align place - place)
      ++ (t.bytes (pointer rest (align (stop place t))) ++ rendered (stop place t) rest) := by
  simp only [rendered, renderRest, DraftTag.bytes, List.append_assoc]
  rfl

theorem stopFrom_cons (place : Nat) (t : DraftTag) (rest : List DraftTag) :
    stopFrom place (t :: rest) = stopFrom (stop place t) rest := rfl

theorem le_stop (place : Nat) (t : DraftTag) : align place ≤ stop place t := by
  unfold stop
  omega

theorem le_stopFrom (place : Nat) (tags : List DraftTag) : place ≤ stopFrom place tags := by
  induction tags generalizing place with
  | nil => exact Nat.le_refl place
  | cons t rest ih =>
    exact Nat.le_trans (le_align place) (Nat.le_trans (le_stop place t) (ih (stop place t)))

theorem length_rendered (place : Nat) (tags : List DraftTag) :
    place + (rendered place tags).length = stopFrom place tags := by
  induction tags generalizing place with
  | nil => rfl
  | cons t rest ih =>
    have hle := le_align place
    rw [rendered_cons, stopFrom_cons, ← ih (stop place t), List.length_append, List.length_append,
      Bytes.length_zeros, DraftTag.length_bytes]
    unfold stop
    omega

theorem pointer_le_stopFrom (place : Nat) (tags : List DraftTag) :
    pointer tags (align place) ≤ stopFrom place tags := by
  rcases tags with _ | ⟨t, rest⟩
  · exact Nat.zero_le _
  · exact Nat.le_trans (le_stop place t) (le_stopFrom (stop place t) rest)

/-- Tags are read behind a place where they were put. -/
theorem chain_rendered {frame before : Bytes} {place previousEnd : Nat} {tags : List DraftTag}
    (hframe : frame = before ++ rendered place tags) (hplace : before.length = place) (hpos : 0 < place)
    (hprevious : previousEnd ≤ align place) (hlimit : ∀ t ∈ tags, t.payload.length ≤ payloadLimit)
    (hsize : stopFrom place tags < Bytes.bound 4) :
    ∃ places, Frame.Chain frame previousEnd (pointer tags (align place)) places ∧
      places.map (Frame.tagOf frame) = placed place tags := by
  induction tags generalizing before place previousEnd with
  | nil => exact ⟨[], .nil _, rfl⟩
  | cons t rest ih =>
    have hle := le_align place
    have hlt : pointer rest (align (stop place t)) < Bytes.bound 4 :=
      Nat.lt_of_le_of_lt (pointer_le_stopFrom _ rest) hsize
    -- the tag stands behind the zeros, and the others behind the tag
    rw [rendered_cons, ← List.append_assoc] at hframe
    have hzeros : (before ++ Bytes.zeros (align place - place)).length = align place := by
      rw [List.length_append, Bytes.length_zeros]
      omega
    obtain ⟨hholds, hdeclared, hfollowing, htag⟩ :=
      DraftTag.read_bytes hframe hzeros (hlimit t List.mem_cons_self) hlt
    rw [← List.append_assoc] at hframe
    have hstop := le_stop place t
    have hlength : (before ++ Bytes.zeros (align place - place)
        ++ t.bytes (pointer rest (align (stop place t)))).length = stop place t := by
      rw [List.length_append, hzeros, DraftTag.length_bytes, stop, Nat.add_assoc]
    obtain ⟨places, hchain, hplaces⟩ := ih hframe hlength (by omega) (le_align (stop place t))
      (fun u hu => hlimit u (List.mem_cons_of_mem t hu)) hsize
    have hpointer : pointer (t :: rest) (align place) = align place := rfl
    rw [hpointer]
    refine ⟨align place :: places, .cons (by omega) hprevious hholds ?_, ?_⟩
    · rw [hdeclared, hfollowing, ← Nat.add_assoc]
      exact hchain
    · rw [List.map_cons, htag, hplaces]
      rfl

/-! ## Where the first tag is put -/

/-- The bytes before the payload of the first tag. -/
def header (sequence : UInt16) (total next : Nat) (id : TagId) : Bytes :=
  id.toBytes ++ Bytes.zeros 2 ++ Bytes.ofNatLE 2 sequence.toNat ++ Bytes.ofNatLE 4 total
    ++ Bytes.ofNatLE 4 next

section Header

variable (sequence : UInt16) (total next : Nat) (id : TagId) (behind : Bytes)

theorem length_header : (header sequence total next id).length = Frame.firstHeaderSize := by
  simp [header, Frame.firstHeaderSize]

theorem id_header : (header sequence total next id ++ behind).take 4 = id.toBytes := by
  simp only [header, List.append_assoc]
  exact List.take_left' id.length_toBytes

theorem sequence_header :
    Frame.field (header sequence total next id ++ behind) 6 2 = sequence.toNat := by
  simp only [header, List.append_assoc]
  rw [← List.append_assoc id.toBytes]
  exact Frame.field_ofNatLE (by simp) sequence.toNat_lt

variable {total} in
theorem length_of_header (h : total < Bytes.bound 4) :
    Frame.lengthOf (header sequence total next id ++ behind) = total := by
  simp only [header, List.append_assoc, Frame.lengthOf]
  rw [← List.append_assoc id.toBytes, ← List.append_assoc (id.toBytes ++ _)]
  exact Frame.field_ofNatLE (by simp) h

variable {next} in
theorem pointer_of_header (h : next < Bytes.bound 4) :
    Frame.pointerOf (header sequence total next id ++ behind) = next := by
  rw [Frame.pointerOf, header, List.append_assoc _ (Bytes.ofNatLE 4 next)]
  exact Frame.field_ofNatLE (by simp) h

end Header

/-- Where the payload of the first tag ends. -/
def firstStop (t : DraftTag) : Nat :=
  Frame.firstHeaderSize + t.payload.length

/-- The frame that is read of tags: the payload of the first one has got the zeros that fill it up. -/
def frameOf (sequence : UInt16) (t : DraftTag) (rest : List DraftTag) : Frame where
  sequence := sequence
  tags := ⟨t.id, 0, 0, t.payload ++ padding rest (firstStop t)⟩ :: placed (firstStop t) rest
  wireLength := stopFrom (firstStop t) rest

theorem render_eq (sequence : UInt16) (total : Nat) (t : DraftTag) (rest : List DraftTag) :
    render sequence total t rest
      = header sequence total (pointer rest (align (firstStop t))) t.id
        ++ (t.payload ++ rendered (firstStop t) rest) := by
  simp only [render, header, rendered, firstStop, List.append_assoc]

theorem length_render (sequence : UInt16) (total : Nat) (t : DraftTag) (rest : List DraftTag) :
    (render sequence total t rest).length = stopFrom (firstStop t) rest := by
  rw [render_eq, ← length_rendered, List.length_append, length_header, List.length_append, firstStop,
    Nat.add_assoc]

section Render

variable {sequence : UInt16} {t : DraftTag} {rest : List DraftTag} {frame : Bytes}
  (hframe : frame = render sequence (stopFrom (firstStop t) rest) t rest)
  (hsize : stopFrom (firstStop t) rest < Bytes.bound 4)
include hframe hsize

theorem pointerOf_render (trailing : Bytes) :
    Frame.pointerOf (frame ++ trailing) = pointer rest (align (firstStop t)) := by
  rw [hframe, render_eq, List.append_assoc]
  exact pointer_of_header _ _ _ _ (Nat.lt_of_le_of_lt (pointer_le_stopFrom (firstStop t) rest) hsize)

/-- The first tag ends behind the zeros that fill it up. -/
theorem firstEnd_render : Frame.firstEnd frame = firstStop t + (padding rest (firstStop t)).length := by
  have hlength : frame.length = stopFrom (firstStop t) rest := by
    rw [hframe, length_render]
  have hpointer := pointerOf_render hframe hsize []
  rw [List.append_nil] at hpointer
  rcases rest with _ | ⟨u, rest⟩
  · have hzero : Frame.pointerOf frame = 0 := hpointer
    rw [Frame.firstEnd, if_pos hzero, hlength]
    rfl
  · have hle := le_align (firstStop t)
    have hpos : 0 < firstStop t := Nat.lt_of_lt_of_le (by decide) (Nat.le_add_right _ _)
    have halign : pointer (u :: rest) (align (firstStop t)) = align (firstStop t) := rfl
    have hpadding : (padding (u :: rest) (firstStop t)).length = align (firstStop t) - firstStop t :=
      Bytes.length_zeros _
    rw [Frame.firstEnd, hpointer, halign, if_neg (by omega), hpadding]
    omega

/-- The first tag is read as it was written, with the zeros behind it. -/
theorem firstTag_render : Frame.firstTag frame
    = ⟨t.id, 0, 0, t.payload ++ padding rest (firstStop t)⟩ := by
  have hpayload : Frame.firstEnd frame - Frame.firstHeaderSize
      = (t.payload ++ padding rest (firstStop t)).length := by
    rw [firstEnd_render hframe hsize, List.length_append, firstStop, Nat.add_assoc,
      Nat.add_sub_cancel_left]
  rw [Frame.firstTag, hpayload, hframe, render_eq, id_header, rendered, ← List.append_assoc t.payload,
    Frame.part_at (length_header ..) rfl, TagId.ofBytes_toBytes]

/-- The pointers lead to the tags behind the first one, each as it was written. -/
theorem chain_render (hlimit : ∀ u ∈ rest, u.payload.length ≤ payloadLimit) :
    ∃ places, Frame.Chain frame (Frame.firstEnd frame) (pointer rest (align (firstStop t))) places ∧
      places.map (Frame.tagOf frame) = placed (firstStop t) rest := by
  rcases rest with _ | ⟨u, rest⟩
  · exact ⟨[], .nil _, rfl⟩
  · have hend : Frame.firstEnd frame = align (firstStop t) := by
      have hle := le_align (firstStop t)
      rw [firstEnd_render hframe hsize, padding, if_neg (by simp), Bytes.length_zeros]
      omega
    have hpos : 0 < firstStop t := Nat.lt_of_lt_of_le (by decide) (Nat.le_add_right _ _)
    -- the others stand behind the header and the payload of the first one
    rw [render_eq, ← List.append_assoc] at hframe
    refine chain_rendered hframe ?_ hpos (Nat.le_of_eq hend) hlimit hsize
    rw [List.length_append, length_header, firstStop]

/-- Tags are read as they were written, whatever stands behind them. -/
theorem parse_render (hlimit : ∀ u ∈ rest, u.payload.length ≤ payloadLimit) (trailing : Bytes) :
    Frame.parse (frame ++ trailing) = .ok (frameOf sequence t rest) := by
  have hlength : frame.length = stopFrom (firstStop t) rest := by
    rw [hframe, length_render]
  have hfirst : Frame.firstHeaderSize ≤ firstStop t := Nat.le_add_right _ _
  have hstop := le_stopFrom (firstStop t) rest
  have hlengthOf : Frame.lengthOf (frame ++ trailing) = frame.length := by
    rw [hlength, hframe, render_eq, List.append_assoc, length_of_header _ _ _ _ hsize]
  have hpointer := pointerOf_render hframe hsize trailing
  have hsequence : Frame.field frame 6 2 = sequence.toNat := by
    rw [hframe, render_eq, sequence_header]
  obtain ⟨places, hchain, hplaces⟩ := chain_render hframe hsize hlimit
  refine Frame.parse_eq_ok_iff.mpr ⟨places, ⟨?_, ?_, ?_, ?_, ?_⟩, ?_⟩
  · rw [List.length_append]
    omega
  · omega
  · rw [hlengthOf, List.length_append]
    omega
  · rw [hpointer]
    rcases rest with _ | ⟨u, rest⟩
    · exact .inl rfl
    · exact .inr (Nat.le_trans hfirst (le_align (firstStop t)))
  · rw [hlengthOf, List.take_left, hpointer]
    exact hchain
  · rw [hlengthOf, List.take_left, Frame.contents, hplaces, hsequence, UInt16.ofNat_toNat,
      firstTag_render hframe hsize, hlength, frameOf]

end Render

end Draft

end Wwan
