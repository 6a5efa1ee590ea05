import Wwan.Proofs.Mux.Capacity

/-!
# What a push goes by

A push comes to one of three things: the batch is full, or its frame would get too large, or the packet is
added (`Pushed`).  Which one it is depends on the number of packets and on the size that the frame would
have.  `push_follows_estimate` says so of every batch that pushes lead to, and that the frame has just that
size when the batch is finished after the push.
-/

namespace Wwan.Batch

/-- What a push can do to a batch that holds packets. -/
inductive Pushed (sequence : UInt16) (packets : List Bytes) (packet : Bytes) (b : Batch) :
    Except FrameError Unit × Batch → Prop
  | full (le_count : b.maxPackets ≤ b.count) :
      Pushed sequence packets packet b (.error (.tooManyPackets b.maxPackets), b)
  | tooLarge (count_lt : b.count < b.maxPackets) (lt_size : b.maxFrame < b.sizeWith packet.length) :
      Pushed sequence packets packet b
        (.error (.frameTooLarge (b.sizeWith packet.length) b.maxFrame), b)
  | added {b' : Batch} (count_lt : b.count < b.maxPackets)
      (size_le : b.sizeWith packet.length ≤ b.maxFrame)
      (holds : Holds sequence (packets ++ [packet]) b') (maxFrame_eq : b'.maxFrame = b.maxFrame)
      (maxPackets_eq : b'.maxPackets = b.maxPackets) :
      Pushed sequence packets packet b (.ok (), b')

theorem fits_iff {b : Batch} {n : Nat} : b.fits n ↔ b.count < b.maxPackets ∧ b.sizeWith n ≤ b.maxFrame := by
  simp [fits]

theorem Holds.pushed {sequence : UInt16} {packets : List Bytes} {b : Batch} (h : Holds sequence packets b)
    (packet : Bytes) : Pushed sequence packets packet b (b.push packet) := by
  by_cases hcount : b.maxPackets ≤ b.count
  · rw [Batch.push, if_pos hcount]
    exact .full hcount
  · by_cases hsize : b.maxFrame < b.sizeWith packet.length
    · rw [Batch.push, if_neg hcount]
      dsimp only
      rw [if_pos hsize]
      exact .tooLarge (Nat.lt_of_not_le hcount) hsize
    · have hfits := fits_iff.mpr ⟨Nat.lt_of_not_le hcount, Nat.le_of_not_lt hsize⟩
      obtain ⟨b', hpush, hholds, hframe, hpackets⟩ := h.push_of_fits hfits
      rw [hpush]
      exact .added (Nat.lt_of_not_le hcount) (Nat.le_of_not_lt hsize) hholds hframe hpackets

namespace Pushed

variable {sequence : UInt16} {packets : List Bytes} {packet : Bytes} {b : Batch}
  {r : Except FrameError Unit × Batch} (h : Pushed sequence packets packet b r)
include h

theorem ok_iff : r.1 = .ok () ↔ b.fits packet.length := by
  rw [fits_iff]
  cases h with
  | full le_count => exact iff_of_false nofun fun hfits => Nat.not_lt_of_le le_count hfits.1
  | tooLarge _ lt_size => exact iff_of_false nofun fun hfits => Nat.not_lt_of_le hfits.2 lt_size
  | added count_lt size_le => exact iff_of_true rfl ⟨count_lt, size_le⟩

theorem tooManyPackets_iff {n : Nat} :
    r.1 = .error (.tooManyPackets n) ↔ b.maxPackets ≤ b.count ∧ n = b.maxPackets := by
  cases h with
  | full le_count =>
    refine ⟨fun heq => ?_, fun ⟨_, hn⟩ => by rw [hn]⟩
    cases heq
    exact ⟨le_count, rfl⟩
  | tooLarge count_lt => exact iff_of_false nofun fun hfull => Nat.not_lt_of_le hfull.1 count_lt
  | added count_lt => exact iff_of_false nofun fun hfull => Nat.not_lt_of_le hfull.1 count_lt

theorem frameTooLarge_iff : r.1 = .error (.frameTooLarge (b.sizeWith packet.length) b.maxFrame) ↔
    b.count < b.maxPackets ∧ b.maxFrame < b.sizeWith packet.length := by
  cases h with
  | full le_count => exact iff_of_false nofun fun hlarge => Nat.not_lt_of_le le_count hlarge.1
  | tooLarge count_lt lt_size => exact iff_of_true rfl ⟨count_lt, lt_size⟩
  | added _ size_le => exact iff_of_false nofun fun hlarge => Nat.not_lt_of_le size_le hlarge.2

/-- A push fails for one of two reasons, and leaves no trace then. -/
theorem of_error {e : FrameError} (he : r.1 = .error e) :
    (e = .tooManyPackets b.maxPackets ∨ e = .frameTooLarge (b.sizeWith packet.length) b.maxFrame) ∧
      r.2 = b := by
  cases h with
  | full =>
    cases he
    exact ⟨.inl rfl, rfl⟩
  | tooLarge =>
    cases he
    exact ⟨.inr rfl, rfl⟩
  | added => cases he

theorem of_ok (hok : r.1 = .ok ()) : Holds sequence (packets ++ [packet]) r.2 := by
  cases h with
  | full => cases hok
  | tooLarge => cases hok
  | added _ _ holds => exact holds

end Pushed

theorem Holds.count_eq {sequence : UInt16} {packets : List Bytes} {b : Batch}
    (h : Holds sequence packets b) : b.count = packets.length := by
  rw [count, h.bounds_eq, length_places]

/-- A batch with its settings, which holds no more packets than it may. -/
structure Filled (sequence : UInt16) (config : MuxConfig) (packets : List Bytes) (b : Batch) : Prop where
  holds : Holds sequence packets b
  maxFrame_eq : b.maxFrame = config.maxFrame
  maxPackets_eq : b.maxPackets = max config.maxPackets 1
  length_le : packets.length ≤ max config.maxPackets 1

theorem filled_start (sequence : UInt8) (config : MuxConfig) :
    Filled sequence.toUInt16 config [] (start sequence config) where
  holds := holds_start sequence config
  maxFrame_eq := rfl
  maxPackets_eq := rfl
  length_le := Nat.zero_le _

/-- Pushes never lead beyond the largest number of packets. -/
theorem Filled.after {sequence : UInt16} {config : MuxConfig} {packets : List Bytes} {b : Batch}
    (h : Filled sequence config packets b) (pushes : List Bytes) :
    Filled sequence config (packets ++ taken pushes b) (after pushes b) := by
  refine after_induction (fun packets packet b b' h hpush => ?_)
    (fun packets packet b b' e h hpush => ?_) h pushes
  · have hpushed : Pushed sequence packets packet b (.ok (), b') := hpush ▸ h.holds.pushed packet
    cases hpushed with
    | added hcount _ hholds hframe hpackets =>
      rw [h.holds.count_eq, h.maxPackets_eq] at hcount
      refine ⟨hholds, hframe.trans h.maxFrame_eq, hpackets.trans h.maxPackets_eq, ?_⟩
      rw [List.length_append, List.length_singleton]
      exact hcount
  · have hpushed : Pushed sequence packets packet b (.error e, b') := hpush ▸ h.holds.pushed packet
    cases hpushed with
    | full => exact h
    | tooLarge => exact h

/-- A batch is finished exactly when its trailer has room for its rows and four octets can tell its size,
and then the frame has that size. -/
theorem Holds.finish_iff {sequence : UInt16} {packets : List Bytes} {b : Batch}
    (h : Holds sequence packets b) :
    ((∃ frame, b.finish = .ok frame) ↔ packets.length ≤ rowLimit ∧ frameSize packets < Bytes.bound 4) ∧
    ∀ frame, b.finish = .ok frame → frame.length = frameSize packets := by
  refine ⟨⟨?_, ?_⟩, ?_⟩
  · rintro ⟨frame, hfinish⟩
    obtain ⟨hrows, hsize, -⟩ := h.finish hfinish
    exact ⟨(rows_fit_iff packets).mp hrows, hsize⟩
  · rintro ⟨hrows, hsize⟩
    exact ⟨_, h.finish_eq ((rows_fit_iff packets).mpr hrows) hsize⟩
  · intro frame hfinish
    obtain ⟨-, -, rfl⟩ := h.finish hfinish
    exact Draft.length_render _ _ _ _

/-- Every packet takes its zeros. -/
theorem le_length_regions (packets : List Bytes) : preamble * packets.length ≤ (regions packets).length := by
  induction packets with
  | nil => exact Nat.zero_le _
  | cons packet rest ih =>
    rw [regions_cons, List.length_append, List.length_append, Bytes.length_zeros, List.length_cons]
    unfold preamble at ih ⊢
    omega

/-- The number of packets is bounded by the size. -/
theorem Holds.count_le_size {sequence : UInt16} {packets : List Bytes} {b : Batch}
    (h : Holds sequence packets b) : preamble * b.count ≤ b.draft.size := by
  have hsize : b.draft.size = Frame.firstHeaderSize + (regions packets).length := by
    rw [h.draft_eq]
    rfl
  have hregions := le_length_regions packets
  rw [h.count_eq, hsize]
  omega

/-- What becomes of a push depends on the number of packets and on the estimated size alone, and a push that
fails leaves the batch as it is.  The estimate is exact: it is the size of the frame if the batch is finished
after the push, which is possible when the trailer has room for the rows and four octets can tell the size. -/
theorem push_follows_estimate (sequence : UInt8) (config : MuxConfig) (pushes : List Bytes)
    (packet : Bytes) :
    let b := after pushes (start sequence config)
    let limit := max config.maxPackets 1
    let size := b.sizeWith packet.length
    b.count = (taken pushes (start sequence config)).length ∧ b.count ≤ limit ∧
    (b.fits packet.length ↔ (b.push packet).1 = .ok ()) ∧
    (∀ n, (b.push packet).1 = .error (.tooManyPackets n) ↔ b.count = limit ∧ n = limit) ∧
    (b.count < limit →
      ((b.push packet).1 = .error (.frameTooLarge size config.maxFrame) ↔ config.maxFrame < size)) ∧
    (∀ e, (b.push packet).1 = .error e →
      (e = .tooManyPackets limit ∨ e = .frameTooLarge size config.maxFrame) ∧ (b.push packet).2 = b) ∧
    (∀ b', b.push packet = (.ok (), b') →
      ((∃ frame, b'.finish = .ok frame) ↔ b'.count ≤ rowLimit ∧ size < Bytes.bound 4) ∧
      ∀ frame, b'.finish = .ok frame → frame.length = size) ∧
    (packet.length < 2 ^ 62 → b.draft.size < 2 ^ 62 → size < 2 ^ 64) := by
  intro b limit size
  have hfilled : Filled sequence.toUInt16 config (taken pushes (start sequence config)) b :=
    (filled_start sequence config).after pushes
  have hholds := hfilled.holds
  have hframe : b.maxFrame = config.maxFrame := hfilled.maxFrame_eq
  have hpackets : b.maxPackets = limit := hfilled.maxPackets_eq
  have hcount := hholds.count_eq
  have hle : b.count ≤ limit := hcount ▸ hfilled.length_le
  have hpushed := hholds.pushed packet
  refine ⟨hcount, hle, hpushed.ok_iff.symm, fun n => ?_, fun hlt => ?_, fun e he => ?_, fun b' hok => ?_,
    fun hlength hsize => ?_⟩
  · rw [hpushed.tooManyPackets_iff, hpackets]
    exact and_congr_left' ⟨Nat.le_antisymm hle, Nat.le_of_eq ∘ Eq.symm⟩
  · rw [← hframe, hpushed.frameTooLarge_iff, hpackets]
    exact and_iff_right hlt
  · rw [← hframe, ← hpackets]
    exact hpushed.of_error he
  · rw [hok] at hpushed
    have hheld := hpushed.of_ok rfl
    have hestimate : size = frameSize (taken pushes (start sequence config) ++ [packet]) :=
      hholds.sizeWith_eq packet
    rw [hestimate, hheld.count_eq]
    exact hheld.finish_iff
  · have hrows := hholds.count_le_size
    show b.sizeWith packet.length < 2 ^ 64
    unfold preamble at hrows
    unfold sizeWith Draft.align preamble reserved boundSize Frame.headerSize
    omega

end Wwan.Batch
