import Mathlib.Data.List.Basic
import Wwan.Proofs.Mux.Uplink

/-!
# The numbers of the frames

The uplink takes a number for every unit that it reads, before it is known whether the unit fits into a frame.
So a frame is numbered by the units that were read up to it, not by the frames (`framed_getElem`), and what the
mux channel gets is numbered without a gap just as far as nothing was dropped (`numbers_consecutive_iff`).
-/

namespace Wwan.Bridge

section Framed

variable {config : MuxConfig} (sequence : Sequence) {unit : Bytes}

/-- The frame of one packet that a read can give has a size that four octets can tell. -/
theorem frameSize_lt (h : unit.length ≤ readSize) : Batch.frameSize [unit] < Bytes.bound 4 := by
  have hbound : Bytes.bound 4 = 4294967296 := rfl
  rw [Batch.frameSize_singleton]
  unfold readSize at h
  unfold Draft.align
  omega

/-- A unit that fits gets a frame. -/
theorem framed_fits (hlength : unit.length ≤ readSize) (hfits : config.fits unit) (rest : List Bytes) :
    ∃ frame, Frame.ofPacket config sequence.advance.last unit = .ok frame ∧
      framed config sequence (unit :: rest) = (unit, frame) :: framed config sequence.advance rest := by
  have hframe := ofPacket_eq sequence.advance.last hfits (frameSize_lt hlength)
  exact ⟨_, hframe, by rw [framed, hframe]⟩

/-- Another unit takes a number all the same. -/
theorem framed_large (hlarge : ¬config.fits unit) (rest : List Bytes) :
    framed config sequence (unit :: rest) = framed config sequence.advance rest := by
  obtain ⟨e, hframe⟩ := ofPacket_large sequence.advance.last hlarge
  rw [framed, hframe]

/-- There are as many frames as units that fit. -/
theorem length_framed {units : List Bytes} (hlength : ∀ unit ∈ units, unit.length ≤ readSize) :
    (framed config sequence units).length = (units.filter config.fits).length := by
  induction units generalizing sequence with
  | nil => rfl
  | cons unit rest ih =>
    obtain ⟨hunit, hrest⟩ := List.forall_mem_cons.mp hlength
    by_cases hfits : config.fits unit
    · obtain ⟨first, -, hframed⟩ := framed_fits sequence hunit hfits rest
      rw [hframed, List.filter_cons_of_pos hfits, List.length_cons, List.length_cons,
        ih sequence.advance hrest]
    · rw [framed_large sequence hfits, List.filter_cons_of_neg hfits, ih sequence.advance hrest]

/-- Each frame is that of a unit that fits, with the number that the unit has got by its place. -/
theorem framed_getElem {units : List Bytes} (hlength : ∀ unit ∈ units, unit.length ≤ readSize) {i : Nat}
    {packet frame : Bytes} (h : (framed config sequence units)[i]? = some (packet, frame)) :
    ∃ before behind, units = before ++ packet :: behind ∧ (before.filter config.fits).length = i ∧
      Frame.ofPacket config (Sequence.advanceBy (before.length + 1) sequence).last packet = .ok frame := by
  -- on the units, for all numbers: the others are numbered from the next one on
  induction units generalizing sequence i with
  | nil => cases h
  | cons unit rest ih =>
    obtain ⟨hunit, hrest⟩ := List.forall_mem_cons.mp hlength
    by_cases hfits : config.fits unit
    · obtain ⟨first, hfirst, hframed⟩ := framed_fits sequence hunit hfits rest
      rw [hframed] at h
      cases i with
      | zero =>
        cases h
        exact ⟨[], rest, rfl, rfl, hfirst⟩
      | succ i =>
        obtain ⟨before, behind, hunits, hcount, hframe⟩ := ih sequence.advance hrest h
        refine ⟨unit :: before, behind, congrArg (unit :: ·) hunits, ?_, hframe⟩
        rw [List.filter_cons_of_pos hfits, List.length_cons, hcount]
    · rw [framed_large sequence hfits] at h
      obtain ⟨before, behind, hunits, hcount, hframe⟩ := ih sequence.advance hrest h
      refine ⟨unit :: before, behind, congrArg (unit :: ·) hunits, ?_, hframe⟩
      rw [List.filter_cons_of_neg hfits, hcount]

end Framed

/-- Every unit that fits gets a frame, and the frame has the number that would be next among the frames exactly
when the number of units dropped before it is a multiple of the number of numbers. -/
theorem numbers_consecutive_iff (b : Bridge) :
    ∃ (units : List Bytes) (source : Source) (sink : Sink) (frames : List Bytes) (last piece : Option Bytes),
      Gives b.fromTunnel units source ∧
      Ends source sink last b.drainUp.1 b.drainUp.2.fromTunnel b.drainUp.2.toMux ∧
      b.drainUp.2.toMux.taken = b.toMux.taken ++ frames ++ piece.toList ∧
      (∀ p ∈ piece, ∃ frame ∈ last, p <+: frame) ∧
      (frames ++ last.toList).length = (units.filter b.config.fits).length ∧
      ∀ i frame, (frames ++ last.toList)[i]? = some frame →
        ∃ before packet behind f, units = before ++ packet :: behind ∧
          (before.filter b.config.fits).length = i ∧
          Frame.parse frame = .ok f ∧ Frame.packetsIfAny frame = .ok [packet] ∧
          f.sequence.toNat = (b.sequence.last.toNat + before.length + 1) % 256 ∧
          (f.sequence.toNat = (b.sequence.last.toNat + i + 1) % 256 ↔
            256 ∣ (before.filter (!b.config.fits ·)).length) := by
  obtain ⟨units, carried, failed, dropped, hup⟩ := carriedUp_drainUp b
  obtain ⟨source, sink, hgives, -, hends⟩ := hup.passed
  obtain ⟨-, piece, htaken, hpiece⟩ := hup.taken_eq
  have hlength := fun unit hmem => (hgives.size_of_mem unit hmem).2
  have hframes : carried.map Prod.snd ++ (failed.map Prod.snd).toList
      = (framed b.config b.sequence units).map Prod.snd := by
    rw [hup.framed_eq, List.map_append]
    cases failed <;> rfl
  refine ⟨units, source, sink, carried.map Prod.snd, failed.map Prod.snd, piece, hgives, hends, htaken,
    fun p hp => ?_, ?_, fun i frame hframe => ?_⟩
  · obtain ⟨packet, hpacket, hprefix⟩ := hpiece p hp
    exact ⟨packet.2, Option.mem_map_of_mem Prod.snd hpacket, hprefix⟩
  · rw [hframes, List.length_map, length_framed _ hlength]
  · rw [hframes, List.getElem?_map] at hframe
    obtain ⟨⟨packet, _⟩, hget, rfl⟩ := Option.map_eq_some_iff.mp hframe
    obtain ⟨before, behind, hunits, hcount, hpacket⟩ := framed_getElem _ hlength hget
    obtain ⟨⟨f, hparse, hnumber⟩, hpackets⟩ := of_ofPacket _ hpacket
    have hsequence : f.sequence.toNat = (b.sequence.last.toNat + before.length + 1) % 256 := by
      rw [hnumber, UInt8.toNat_toUInt16, Sequence.toNat_advanceBy, Nat.add_assoc]
    refine ⟨before, packet, behind, f, hunits, hcount, hparse, hpackets, hsequence, ?_⟩
    -- the units before the frame are the `i` that got frames, and those dropped
    have hsplit := List.length_eq_length_filter_add (l := before) b.config.fits
    rw [hcount] at hsplit
    rw [hsequence]
    omega

theorem ne_nil_of_ofPacket {config : MuxConfig} {sequence : UInt8} {packet frame : Bytes}
    (h : Frame.ofPacket config sequence packet = .ok frame) : frame ≠ [] := by
  rintro rfl
  cases (of_ofPacket sequence h).2

/-- Of packets that are read one by one all frames get to a mux channel that takes every unit. -/
theorem taken_drainUp {b : Bridge} {packets : List Bytes}
    (hpackets : ∀ packet ∈ packets, packet ≠ [] ∧ packet.length ≤ readSize)
    (hsource : b.fromTunnel = .ofReads packets) (haccepts : b.toMux.Accepts) :
    b.drainUp.2.toMux.taken = b.toMux.taken ++ (framed b.config b.sequence packets).map Prod.snd := by
  induction packets generalizing b with
  | nil =>
    rw [drainUp_dry (by rw [hsource]; rfl)]
    exact (List.append_nil _).symm
  | cons packet rest ih =>
    obtain ⟨⟨hne, hle⟩, hrest⟩ := List.forall_mem_cons.mp hpackets
    have hread := hsource ▸ readUnit_ofReads hne hle rest
    have hdry : ¬b.fromTunnel.isDry := hsource ▸ not_isDry_ofReads packet rest
    have hstepped := steppedUp_stepUp b
    generalize hstep : b.stepUp = r at hstepped
    cases hstepped with
    | stopped read => cases hread.symm.trans read
    | again read => cases hread.symm.trans read
    | dropped read unframed =>
      cases hread.symm.trans read
      have hnext := ih
        (b := Bridge.drop { b with fromTunnel := .ofReads rest, sequence := b.sequence.advance })
        hrest rfl haccepts
      rw [drainUp_next hdry hstep, framed, unframed]
      exact hnext
    | @carried _ frame _ toMux read hframe write =>
      cases hread.symm.trans read
      obtain ⟨s', hwrite, hleft, htaken⟩ := writeUnit_of_ne_nil haccepts (ne_nil_of_ofPacket hframe)
      cases write.symm.trans hwrite
      have hnext := ih
        (b := Bridge.countUp packet.length
          { b with fromTunnel := .ofReads rest, sequence := b.sequence.advance, toMux := toMux })
        hrest rfl hleft
      rw [drainUp_next hdry hstep, framed, hframe]
      refine hnext.trans ?_
      show toMux.taken ++ _ = _
      rw [htaken, List.append_assoc]
      rfl
    | refused read hframe write =>
      obtain ⟨s', hwrite, -, -⟩ := writeUnit_of_ne_nil haccepts (ne_nil_of_ofPacket hframe)
      cases write.symm.trans hwrite

/-- The second of three packets is dropped, and its number is missing among the frames. -/
theorem dropped_packet_takes_number : ∃ first second f g,
    nearBridge.drainUp.2.toMux.taken = [first, second] ∧
      Frame.parse first = .ok f ∧ f.sequence = 1 ∧ Frame.parse second = .ok g ∧ g.sequence = 3 := by
  have hpackets : ∀ packet ∈ threePackets, packet ≠ [] ∧ packet.length ≤ readSize := by decide
  obtain ⟨first, hfirst⟩ : ∃ frame, Frame.ofPacket nearBridge.config 1 [0x45, 1] = .ok frame := ⟨_, rfl⟩
  obtain ⟨second, hsecond⟩ : ∃ frame, Frame.ofPacket nearBridge.config 3 [0x60] = .ok frame := ⟨_, rfl⟩
  have hlarge : ¬nearBridge.config.fits (Bytes.zeros 20) := by decide
  have hframed : framed nearBridge.config {} threePackets = [([0x45, 1], first), ([0x60], second)] := by
    have hone : Frame.ofPacket nearBridge.config (Sequence.advance {}).last [0x45, 1] = .ok first := hfirst
    have hthree : Frame.ofPacket nearBridge.config
        (Sequence.advance (Sequence.advance (Sequence.advance {}))).last [0x60] = .ok second := hsecond
    rw [threePackets, framed, hone]
    dsimp only
    rw [framed_large _ hlarge, framed, hthree]
    rfl
  have htaken := taken_drainUp (b := nearBridge) hpackets rfl Sink.accepts_empty
  obtain ⟨⟨f, hf, hone⟩, -⟩ := of_ofPacket 1 hfirst
  obtain ⟨⟨g, hg, hthree⟩, -⟩ := of_ofPacket 3 hsecond
  exact ⟨first, second, f, g, htaken.trans (congrArg (List.map Prod.snd) hframed), hf, hone, hg, hthree⟩

end Wwan.Bridge
