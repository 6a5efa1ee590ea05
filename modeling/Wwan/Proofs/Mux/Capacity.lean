import Wwan.Proofs.Mux.BackToBack

/-!
# What a batch has room for

A push looks at the number of packets and at the size that the frame would have, so that the frame of a
batch never gets larger than it may (`Kept`).  The trailer has a limit that no push looks at: its length
is told by two octets, and so it has room for `rowLimit` rows.  `finishes_iff_rows_fit` says that this is
all that can go wrong: a batch that took packets is finished exactly when it took no more than that.
-/

namespace Wwan.Batch

/-! ## Sizes -/

/-- The largest number of rows that a trailer has room for. -/
def rowLimit : Nat :=
  (Draft.payloadLimit - reserved) / boundSize

example : rowLimit = 8189 := rfl

theorem length_places (offset : Nat) (packets : List Bytes) :
    (places offset packets).length = packets.length := by
  induction packets generalizing offset with
  | nil => rfl
  | cons packet rest ih => simp [places, ih]

/-- A trailer is a reserved word and a row for each packet. -/
theorem length_trailer (bounds : List (Nat × Nat)) :
    (trailer bounds).length = reserved + boundSize * bounds.length := by
  induction bounds with
  | nil => rfl
  | cons bound rest ih =>
    simp only [trailer, List.length_append, List.flatMap_cons, Bytes.length_ofNatLE, List.length_cons]
      at ih ⊢
    unfold boundSize at ih ⊢
    omega

theorem length_trailerTag (packets : List Bytes) :
    (trailerTag packets).payload.length = reserved + boundSize * packets.length := by
  show (trailer (places Frame.firstHeaderSize packets)).length = _
  rw [length_trailer, length_places]

theorem rows_fit_iff (packets : List Bytes) :
    (trailerTag packets).payload.length ≤ Draft.payloadLimit ↔ packets.length ≤ rowLimit := by
  rw [length_trailerTag]
  have hlimit : Draft.payloadLimit = 65523 := rfl
  unfold rowLimit reserved boundSize
  omega

theorem frameSize_eq (packets : List Bytes) : frameSize packets
    = Draft.align (Frame.firstHeaderSize + (regions packets).length) + Frame.headerSize
      + (reserved + boundSize * packets.length) := by
  rw [← length_trailerTag]
  rfl

theorem length_regions_concat (packets : List Bytes) (packet : Bytes) :
    (regions (packets ++ [packet])).length = (regions packets).length + (preamble + packet.length) := by
  rw [regions_concat, List.length_append, List.length_append, Bytes.length_zeros]

/-- Empty packets take their zeros only. -/
theorem length_regions_replicate (n : Nat) : (regions (List.replicate n [])).length = preamble * n := by
  induction n with
  | zero => rfl
  | succ n ih =>
    rw [List.replicate_succ', length_regions_concat, ih]
    rfl

/-- The size that a push looks at is that of the frame with the packet. -/
theorem Holds.sizeWith_eq {sequence : UInt16} {packets : List Bytes} {b : Batch}
    (h : Holds sequence packets b) (packet : Bytes) :
    b.sizeWith packet.length = frameSize (packets ++ [packet]) := by
  have hsize : b.draft.size = Frame.firstHeaderSize + (regions packets).length := by
    rw [h.draft_eq]
    rfl
  have hcount : b.count = packets.length := by
    rw [count, h.bounds_eq, length_places]
  rw [sizeWith, hsize, hcount, frameSize_eq, length_regions_concat, List.length_append,
    List.length_singleton, Nat.mul_comm boundSize, Nat.add_assoc (_ + _) preamble, Nat.add_assoc _ reserved,
    Nat.add_assoc Frame.firstHeaderSize]

/-! ## What pushes keep -/

/-- A batch that holds packets, in a frame that is not too large. -/
structure Kept (sequence : UInt16) (config : MuxConfig) (packets : List Bytes) (b : Batch) : Prop where
  holds : Holds sequence packets b
  maxFrame_eq : b.maxFrame = config.maxFrame
  size_le : packets ≠ [] → frameSize packets ≤ config.maxFrame

theorem kept_start (sequence : UInt8) (config : MuxConfig) :
    Kept sequence.toUInt16 config [] (start sequence config) where
  holds := holds_start sequence config
  maxFrame_eq := rfl
  size_le h := absurd rfl h

/-- A packet that fits is taken. -/
theorem Holds.push_of_fits {sequence : UInt16} {packets : List Bytes} {b : Batch}
    (h : Holds sequence packets b) {packet : Bytes} (hfits : b.fits packet.length) :
    ∃ b', b.push packet = (.ok (), b') ∧ Holds sequence (packets ++ [packet]) b' ∧
      b'.maxFrame = b.maxFrame ∧ b'.maxPackets = b.maxPackets := by
  obtain ⟨hcount, hsize⟩ := Bool.and_eq_true_iff.mp hfits
  have hroom : ¬b.maxPackets ≤ b.count := Nat.not_le_of_lt (of_decide_eq_true hcount)
  have hsmall : ¬b.maxFrame < b.sizeWith packet.length := Nat.not_lt_of_le (of_decide_eq_true hsize)
  obtain ⟨e, hpush⟩ | ⟨b', hpush, hholds⟩ := h.push packet
  · rw [Batch.push, if_neg hroom, if_neg hsmall, h.draft_eq, extend_dataTag] at hpush
    cases hpush
  · refine ⟨b', hpush, hholds, ?_⟩
    rw [Batch.push, if_neg hroom, if_neg hsmall, h.draft_eq, extend_dataTag] at hpush
    cases hpush
    exact ⟨rfl, rfl⟩

/-- Another packet is refused. -/
theorem push_of_not_fits {packet : Bytes} {b : Batch} (hfits : ¬b.fits packet.length) :
    ∃ e, b.push packet = (.error e, b) := by
  rw [push]
  by_cases hcount : b.maxPackets ≤ b.count
  · exact ⟨_, if_pos hcount⟩
  · rw [if_neg hcount]
    have hsize : b.maxFrame < b.sizeWith packet.length := by
      have hroom : b.count < b.maxPackets := Nat.lt_of_not_le hcount
      simpa [fits, hroom] using hfits
    exact ⟨_, if_pos hsize⟩

/-- A batch keeps within its frame, whatever is pushed. -/
theorem Kept.after {sequence : UInt16} {config : MuxConfig} {packets : List Bytes} {b : Batch}
    (h : Kept sequence config packets b) (pushes : List Bytes) :
    Kept sequence config (packets ++ taken pushes b) (after pushes b) := by
  refine after_induction (fun packets packet b b' h hpush => ?_)
    (fun packets packet b b' e h hpush => ?_) h pushes
  · by_cases hfits : b.fits packet.length
    · obtain ⟨c, heq, hholds, hframe, -⟩ := h.holds.push_of_fits hfits
      have hsize : b.sizeWith packet.length ≤ b.maxFrame :=
        of_decide_eq_true (Bool.and_eq_true_iff.mp hfits).2
      rw [h.holds.sizeWith_eq, h.maxFrame_eq] at hsize
      cases hpush.symm.trans heq
      exact ⟨hholds, hframe.trans h.maxFrame_eq, fun _ => hsize⟩
    · obtain ⟨e, heq⟩ := push_of_not_fits hfits
      cases hpush.symm.trans heq
  · by_cases hfits : b.fits packet.length
    · obtain ⟨c, heq, -⟩ := h.holds.push_of_fits hfits
      cases hpush.symm.trans heq
    · obtain ⟨e, heq⟩ := push_of_not_fits hfits
      cases hpush.symm.trans heq
      exact h

/-- The frame of some packets is no larger than that of those and more. -/
theorem frameSize_le_append (packets more : List Bytes) :
    frameSize packets ≤ frameSize (packets ++ more) := by
  have hregions : (regions (packets ++ more)).length = (regions packets).length + (regions more).length := by
    simp [regions]
  rw [frameSize_eq, frameSize_eq, hregions, List.length_append]
  unfold Draft.align boundSize
  omega

/-- Packets are all taken when there is room for all of them. -/
theorem Holds.taken_eq {sequence : UInt16} {packets pushes : List Bytes} {b : Batch}
    (h : Holds sequence packets b) (hcount : packets.length + pushes.length ≤ b.maxPackets)
    (hsize : frameSize (packets ++ pushes) ≤ b.maxFrame) : taken pushes b = pushes := by
  induction pushes generalizing packets b with
  | nil => rfl
  | cons packet rest ih =>
    rw [List.length_cons] at hcount
    rw [List.append_cons] at hsize
    have hroom : b.count < b.maxPackets := by
      rw [count, h.bounds_eq, length_places]
      omega
    have hsmall : b.sizeWith packet.length ≤ b.maxFrame := by
      rw [h.sizeWith_eq]
      exact Nat.le_trans (frameSize_le_append _ rest) hsize
    have hfits : b.fits packet.length := by
      rw [fits, decide_eq_true hroom, decide_eq_true hsmall]
      rfl
    obtain ⟨b', hpush, hholds, hframe, hpackets⟩ := h.push_of_fits hfits
    rw [taken, hpush]
    dsimp only
    rw [ih hholds (by rw [hpackets, List.length_append, List.length_singleton]; omega) (hframe ▸ hsize)]

/-! ## Finishing -/

/-- A trailer with too many rows is refused. -/
theorem Holds.finish_long {sequence : UInt16} {packets : List Bytes} {b : Batch}
    (h : Holds sequence packets b) {n : Nat} (hn : packets.length = n) (hlong : rowLimit < n) :
    b.finish = .error (.tagTooLarge (reserved + boundSize * n) Draft.payloadLimit) := by
  subst hn
  have hpayload : Draft.payloadLimit < (trailer (places Frame.firstHeaderSize packets)).length := by
    have hfit := rows_fit_iff packets
    show Draft.payloadLimit < (trailerTag packets).payload.length
    omega
  have happend : Draft.append .adth (trailer (places Frame.firstHeaderSize packets)) 0
      ⟨sequence, [dataTag packets]⟩
        = (.error (.tagTooLarge (reserved + boundSize * packets.length) Draft.payloadLimit),
          ⟨sequence, [dataTag packets]⟩) := by
    rw [Draft.append, if_pos ⟨List.cons_ne_nil _ _, hpayload⟩, length_trailer, length_places]
  rw [Batch.finish, h.draft_eq, h.bounds_eq, happend]

/-- A batch that took packets is finished, by a frame that is not too large, exactly when it took no more
than `rowLimit` of them; otherwise its trailer is refused, and with it every packet. -/
theorem finishes_iff_rows_fit (sequence : UInt8) {config : MuxConfig}
    (hconfig : config.maxFrame < Bytes.bound 4) {pushes : List Bytes}
    (hsome : taken pushes (start sequence config) ≠ []) :
    ((∃ frame, (after pushes (start sequence config)).finish = .ok frame ∧
        frame.length ≤ config.maxFrame) ↔
      (taken pushes (start sequence config)).length ≤ rowLimit) ∧
    (rowLimit < (taken pushes (start sequence config)).length →
      (after pushes (start sequence config)).finish = .error (.tagTooLarge
        (reserved + boundSize * (taken pushes (start sequence config)).length) Draft.payloadLimit)) := by
  -- of the pushes nothing counts but what was taken, and that the frame kept within its size
  have hkept := (kept_start sequence config).after pushes
  rw [List.nil_append] at hkept
  generalize taken pushes (start sequence config) = packets at hkept hsome ⊢
  refine ⟨⟨?_, ?_⟩, hkept.holds.finish_long rfl⟩
  · rintro ⟨frame, hfinish, -⟩
    exact (rows_fit_iff packets).mp (hkept.holds.finish hfinish).1
  · intro hrows
    have hsize := hkept.size_le hsome
    refine ⟨_, hkept.holds.finish_eq ((rows_fit_iff packets).mpr hrows) (by omega), ?_⟩
    rw [Draft.length_render]
    exact hsize

/-- Two packets take all the room that the frame has, and a third one is refused. -/
theorem finishes_iff_rows_fit_twoPackets :
    (84 : Nat) < Bytes.bound 4 ∧ taken [[5], [6, 7], [8]] (start 1 ⟨84, 4⟩) = [[5], [6, 7]] ∧
      ∃ frame, (after [[5], [6, 7], [8]] (start 1 ⟨84, 4⟩)).finish = .ok frame ∧ frame.length ≤ 84 := by
  have hconfig : (84 : Nat) < Bytes.bound 4 := by decide
  have htaken : taken [[5], [6, 7], [8]] (start 1 ⟨84, 4⟩) = [[5], [6, 7]] := by decide
  have hsome : taken [[5], [6, 7], [8]] (start 1 ⟨84, 4⟩) ≠ [] := by
    rw [htaken]
    exact List.cons_ne_nil _ _
  have hfinishes := finishes_iff_rows_fit 1 hconfig hsome
  rw [htaken] at hfinishes
  exact ⟨hconfig, htaken, hfinishes.1.mpr (by decide)⟩

/-- One row too many: all packets are taken, empty as they are, and none of them can be sent. -/
theorem long_trailer_loses_batch :
    (200000 : Nat) < Bytes.bound 4 ∧ List.replicate 8190 [] ≠ ([] : List Bytes) ∧
      taken (List.replicate 8190 []) (start 0 ⟨200000, 8190⟩) = List.replicate 8190 [] ∧
      (after (List.replicate 8190 []) (start 0 ⟨200000, 8190⟩)).finish
        = .error (.tagTooLarge 65524 65523) := by
  have hsize : frameSize (List.replicate 8190 []) = 196592 := by
    rw [frameSize_eq, length_regions_replicate, List.length_replicate]
    rfl
  have htaken : taken (List.replicate 8190 []) (start 0 ⟨200000, 8190⟩) = List.replicate 8190 [] := by
    refine (holds_start 0 ⟨200000, 8190⟩).taken_eq (Nat.le_of_eq ?_) ?_
    · rw [List.length_replicate]
      rfl
    · rw [List.nil_append, hsize]
      exact Nat.le_of_ble_eq_true rfl
  have hholds := (holds_start 0 ⟨200000, 8190⟩).after (List.replicate 8190 [])
  rw [List.nil_append, htaken] at hholds
  have hlength : (List.replicate 8190 ([] : Bytes)).length = 8190 := List.length_replicate
  have hfinish := hholds.finish_long hlength (by decide)
  exact ⟨by decide, List.ne_nil_of_length_pos (by rw [hlength]; exact Nat.succ_pos _), htaken, hfinish⟩

end Wwan.Batch
