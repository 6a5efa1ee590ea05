import Wwan.Proofs.Mux.Traffic
import Wwan.Proofs.Mux.BackToBack

/-!
# The uplink, unit by unit

A step of the uplink reads from the tunnel: a unit gets the next number, and then a frame of its own, which is
written to the mux channel, or it is dropped (`SteppedUp`).  So of the units that were read those that have a
frame were carried, up to the one whose write stopped the uplink, and the others were dropped (`CarriedUp`).
-/

namespace Wwan.Bridge

/-- The packets among units that get a frame, each with its frame.  Every unit takes a number. -/
def framed (config : MuxConfig) : Sequence → List Bytes → List (Bytes × Bytes)
  | _, [] => []
  | sequence, unit :: rest =>
    match Frame.ofPacket config sequence.advance.last unit with
    | .ok frame => (unit, frame) :: framed config sequence.advance rest
    | .error _ => framed config sequence.advance rest

/-! ## One step -/

/-- What a step of the uplink can do. -/
inductive SteppedUp (b : Bridge) : Option FrameError × Bridge → Prop
  | stopped {e : FrameError} {s : Source} (read : readUnit b.fromTunnel = (.stop e, s)) :
      SteppedUp b (some e, { b with fromTunnel := s })
  | again {s : Source} (read : readUnit b.fromTunnel = (.again, s)) :
      SteppedUp b (none, { b with fromTunnel := s })
  | dropped {unit : Bytes} {s : Source} {e : FrameError} (read : readUnit b.fromTunnel = (.unit unit, s))
      (unframed : Frame.ofPacket b.config b.sequence.advance.last unit = .error e) :
      SteppedUp b (none, { b with fromTunnel := s, sequence := b.sequence.advance }.drop)
  | carried {unit frame : Bytes} {s : Source} {toMux : Sink}
      (read : readUnit b.fromTunnel = (.unit unit, s))
      (framed : Frame.ofPacket b.config b.sequence.advance.last unit = .ok frame)
      (write : writeUnit frame b.toMux = (.ok (), toMux)) :
      SteppedUp b (none,
        { b with fromTunnel := s, sequence := b.sequence.advance, toMux := toMux }.countUp unit.length)
  | refused {unit frame : Bytes} {e : FrameError} {s : Source} {toMux : Sink}
      (read : readUnit b.fromTunnel = (.unit unit, s))
      (framed : Frame.ofPacket b.config b.sequence.advance.last unit = .ok frame)
      (write : writeUnit frame b.toMux = (.error e, toMux)) :
      SteppedUp b
        (some e, { b with fromTunnel := s, sequence := b.sequence.advance, toMux := toMux })

theorem steppedUp_stepUp (b : Bridge) : SteppedUp b b.stepUp := by
  rcases hread : readUnit b.fromTunnel with ⟨a, s⟩
  rw [stepUp_eq hread]
  cases a with
  | stop e => exact .stopped hread
  | again => exact .again hread
  | unit unit =>
    rcases hframe : Frame.ofPacket b.config b.sequence.advance.last unit with e | frame
    · simp only [proceedUp, carryUp, hframe]
      exact .dropped hread hframe
    · rcases hwrite : writeUnit frame b.toMux with ⟨e | ⟨⟩, toMux⟩
      · simp only [proceedUp, carryUp, hframe, hwrite]
        exact .refused hread hframe hwrite
      · simp only [proceedUp, carryUp, hframe, hwrite]
        exact .carried hread hframe hwrite

/-! ## The whole uplink -/

/-- What the uplink has made of the units that it has read: some packets have been carried in their frames, one
may have failed, and the other units have been dropped. -/
structure CarriedUp (b : Bridge) (units : List Bytes) (carried : List (Bytes × Bytes))
    (failed : Option (Bytes × Bytes)) (dropped : Nat) (r : Option FrameError × Bridge) : Prop where
  framed_eq : framed b.config b.sequence units = carried ++ failed.toList
  length_eq : units.length = carried.length + dropped + failed.toList.length
  /-- Nothing is read behind a packet whose frame is not taken. -/
  failed_last : ∀ packet ∈ failed, units.getLast? = some packet.1
  stats_eq : r.2.stats = { b.stats with
    packetsUp := b.stats.packetsUp + carried.length
    bytesUp := b.stats.bytesUp + (carried.map Prod.fst).flatten.length
    dropped := b.stats.dropped + dropped }
  passed : ∃ source sink, Gives b.fromTunnel units source ∧
    Offered b.toMux (carried.map (.taken ∘ Prod.snd)) sink ∧
    Ends source sink (failed.map Prod.snd) r.1 r.2.fromTunnel r.2.toMux

/-- Just the frames of the packets carried have been flushed, and at most a part of one more is left. -/
theorem CarriedUp.taken_eq {b : Bridge} {units : List Bytes} {carried : List (Bytes × Bytes)}
    {failed : Option (Bytes × Bytes)} {dropped : Nat} {r : Option FrameError × Bridge}
    (h : CarriedUp b units carried failed dropped r) :
    r.2.toMux.flushed = b.toMux.flushed + carried.length ∧
      ∃ piece : Option Bytes, r.2.toMux.taken = b.toMux.taken ++ carried.map Prod.snd ++ piece.toList ∧
        ∀ p ∈ piece, ∃ packet ∈ failed, p <+: packet.2 := by
  obtain ⟨source, sink, -, hoffered, hends⟩ := h.passed
  rw [← List.map_map] at hoffered
  obtain ⟨htaken, hflushed⟩ := hoffered.taken_eq
  obtain ⟨hkept, piece, hpiece, hmem⟩ := hends.taken_eq
  rw [List.length_map] at hflushed
  refine ⟨hkept.trans hflushed, piece, htaken ▸ hpiece, fun p hp => ?_⟩
  obtain ⟨frame, hframe, hprefix⟩ := hmem p hp
  obtain ⟨packet, hpacket, rfl⟩ := Option.mem_map.mp hframe
  exact ⟨packet, hpacket, hprefix⟩

section Cons

variable {b : Bridge} {unit frame : Bytes} {s : Source} {toMux : Sink} {units : List Bytes}
  {carried : List (Bytes × Bytes)} {failed : Option (Bytes × Bytes)} {dropped : Nat}
  {r : Option FrameError × Bridge}

/-- Nothing has been read. -/
theorem CarriedUp.nil (hstats : r.2.stats = b.stats)
    (hends : Ends b.fromTunnel b.toMux none r.1 r.2.fromTunnel r.2.toMux) : CarriedUp b [] [] none 0 r where
  framed_eq := rfl
  length_eq := rfl
  failed_last := nofun
  stats_eq := hstats
  passed := ⟨_, _, .nil _, .nil _, hends⟩

theorem CarriedUp.again (read : readUnit b.fromTunnel = (.again, s))
    (h : CarriedUp { b with fromTunnel := s } units carried failed dropped r) :
    CarriedUp b units carried failed dropped r := by
  obtain ⟨hframed, hlength, hlast, hstats, source, sink, hgives, hrest⟩ := h
  exact ⟨hframed, hlength, hlast, hstats, source, sink, .again read hgives, hrest⟩

/-- A unit without a frame stands before the others. -/
theorem CarriedUp.drop {e : FrameError} (read : readUnit b.fromTunnel = (.unit unit, s))
    (unframed : Frame.ofPacket b.config b.sequence.advance.last unit = .error e)
    (h : CarriedUp (Bridge.drop { b with fromTunnel := s, sequence := b.sequence.advance })
      units carried failed dropped r) :
    CarriedUp b (unit :: units) carried failed (dropped + 1) r := by
  obtain ⟨hframed, hlength, hlast, hstats, source, sink, hgives, hrest⟩ := h
  refine ⟨?_, ?_, fun packet hmem => ?_, ?_, source, sink, .unit read hgives, hrest⟩
  · rw [framed, unframed]
    exact hframed
  · rw [List.length_cons, hlength]
    omega
  · rw [List.getLast?_cons, hlast packet hmem]
    rfl
  · rw [hstats]
    simp only [Bridge.drop, Nat.add_assoc, Nat.add_comm 1]

/-- A packet that has been carried stands before the others. -/
theorem CarriedUp.carry (read : readUnit b.fromTunnel = (.unit unit, s))
    (hframe : Frame.ofPacket b.config b.sequence.advance.last unit = .ok frame)
    (write : writeUnit frame b.toMux = (.ok (), toMux))
    (h : CarriedUp
      (Bridge.countUp unit.length { b with fromTunnel := s, sequence := b.sequence.advance, toMux := toMux })
      units carried failed dropped r) :
    CarriedUp b (unit :: units) ((unit, frame) :: carried) failed dropped r := by
  obtain ⟨hframed, hlength, hlast, hstats, source, sink, hgives, hoffered, hends⟩ := h
  refine ⟨?_, ?_, fun packet hmem => ?_, ?_, source, sink, .unit read hgives, .cons write hoffered, hends⟩
  · rw [framed, hframe]
    exact congrArg ((unit, frame) :: ·) hframed
  · rw [List.length_cons, List.length_cons, hlength]
    omega
  · rw [List.getLast?_cons, hlast packet hmem]
    rfl
  · rw [hstats]
    simp only [Bridge.countUp, List.length_cons, List.map_cons, List.flatten_cons, List.length_append,
      Nat.add_assoc, Nat.add_comm 1]

/-- A packet whose frame is not taken is the last. -/
theorem CarriedUp.refuse {e : FrameError} (read : readUnit b.fromTunnel = (.unit unit, s))
    (hframe : Frame.ofPacket b.config b.sequence.advance.last unit = .ok frame)
    (write : writeUnit frame b.toMux = (.error e, toMux)) :
    CarriedUp b [unit] [] (some (unit, frame)) 0
      (some e, { b with fromTunnel := s, sequence := b.sequence.advance, toMux := toMux }) where
  framed_eq := by
    rw [framed, hframe]
    rfl
  length_eq := rfl
  failed_last := fun packet hmem => Option.mem_some.mp hmem ▸ rfl
  stats_eq := rfl
  passed := ⟨s, b.toMux, .unit read (.nil s), .nil _, .refused write⟩

end Cons

/-- The uplink does one step after the other until it stops. -/
theorem carriedUp_drainUp (b : Bridge) :
    ∃ units carried failed dropped, CarriedUp b units carried failed dropped b.drainUp := by
  -- a step that is not the last leaves a bridge from which the rest is carried
  fun_induction drainUp with
  | case1 b hdry => exact ⟨[], [], none, 0, .nil rfl (.dry hdry)⟩
  | case2 b _ b' hstep ih =>
    have hstepped : SteppedUp b (none, b') := hstep ▸ steppedUp_stepUp b
    obtain ⟨units, carried, failed, dropped, hrest⟩ := ih
    cases hstepped with
    | again read => exact ⟨_, _, _, _, hrest.again read⟩
    | dropped read unframed => exact ⟨_, _, _, _, hrest.drop read unframed⟩
    | carried read framed write => exact ⟨_, _, _, _, hrest.carry read framed write⟩
  | case3 b _ e b' hstep =>
    have hstepped : SteppedUp b (some e, b') := hstep ▸ steppedUp_stepUp b
    cases hstepped with
    | stopped read => exact ⟨[], [], none, 0, .nil rfl (.stop read)⟩
    | refused read framed write => exact ⟨_, _, _, _, .refuse read framed write⟩

end Wwan.Bridge
