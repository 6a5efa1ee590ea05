import Wwan.Proofs.Mux.Batch
import Wwan.Proofs.Mux.Downlink

/-!
# Two bridges back to back

A packet that fits is carried up in a frame of its own, and of that frame just this packet is read on the
far side (`ofPacket_fits`).  So the units that the uplink writes stand for the packets that fit, in their
order (`ascends_drainUp`), and the downlink of the far bridge carries down what such units stand for
(`descends_drainDown`).  Between two tunnels the bridges are the identity on packets that fit, and every
other packet is counted where it is dropped (`drainDown_undoes_drainUp`).
-/

namespace Wwan

/-- Whether a packet fits into a frame of its own, which has two headers, the zeros before the packet and
behind it, and a trailer with one row. -/
def MuxConfig.fits (config : MuxConfig) (packet : Bytes) : Bool :=
  Draft.align (32 + packet.length) + 24 ≤ config.maxFrame

/-! ## The frame of a packet -/

namespace Batch

/-- A batch is finished if its trailer and its frame are not too long. -/
theorem Holds.finish_eq {sequence : UInt16} {packets : List Bytes} {b : Batch}
    (h : Holds sequence packets b) (htrailer : (trailerTag packets).payload.length ≤ Draft.payloadLimit)
    (hsize : frameSize packets < Bytes.bound 4) :
    b.finish = .ok (Draft.render sequence (frameSize packets) (dataTag packets) [trailerTag packets]) := by
  have hplace : Draft.align (Draft.firstStop (dataTag packets)) ≤ frameSize packets :=
    Draft.le_stop (Draft.firstStop (dataTag packets)) (trailerTag packets)
  have hdraft : Draft.size ⟨sequence, [dataTag packets]⟩ = Draft.firstStop (dataTag packets) := rfl
  have happend : Draft.append .adth (trailer (places Frame.firstHeaderSize packets)) 0
      ⟨sequence, [dataTag packets]⟩
        = (.ok (), ⟨sequence, [dataTag packets, trailerTag packets]⟩) := by
    rw [Draft.append, if_neg fun hlong => Nat.not_lt_of_le htrailer hlong.2, hdraft,
      if_neg fun hfar => Nat.not_lt_of_le hfar.2 (Nat.lt_of_le_of_lt hplace hsize)]
    rfl
  rw [Batch.finish, h.draft_eq, h.bounds_eq, happend]
  exact if_neg (Nat.not_le_of_lt hsize)

theorem frameSize_singleton (packet : Bytes) :
    frameSize [packet] = Draft.align (32 + packet.length) + 24 := by
  have hregions : (regions [packet]).length = 16 + packet.length := by
    rw [regions_cons, List.length_append, List.length_append, Bytes.length_zeros]
    rfl
  have hstop : Draft.firstStop (dataTag [packet]) = 32 + packet.length := by
    rw [Draft.firstStop, dataTag, hregions, ← Nat.add_assoc]
    rfl
  rw [frameSize, hstop]
  rfl

section Start

variable (sequence : UInt8) {config : MuxConfig} {packet : Bytes}

theorem count_start_lt : ¬(start sequence config).maxPackets ≤ (start sequence config).count :=
  Nat.not_le_of_lt (Nat.lt_of_lt_of_le Nat.one_pos (Nat.le_max_right config.maxPackets 1))

/-- A packet that fits is taken. -/
theorem push_start (h : config.fits packet) :
    ∃ b, (start sequence config).push packet = (.ok (), b) ∧ Holds sequence.toUInt16 [packet] b := by
  have hfits : ¬(start sequence config).maxFrame < (start sequence config).sizeWith packet.length :=
    Nat.not_lt_of_le (of_decide_eq_true h)
  have hdraft : (start sequence config).draft = ⟨sequence.toUInt16, [dataTag []]⟩ := rfl
  obtain ⟨e, hpush⟩ | hpush := (holds_start sequence config).push packet
  · rw [push, if_neg (count_start_lt sequence), if_neg hfits, hdraft, extend_dataTag] at hpush
    cases hpush
  · exact hpush

/-- Another packet is refused. -/
theorem push_start_large (h : ¬config.fits packet) :
    ∃ e, (start sequence config).push packet = (.error e, start sequence config) := by
  have hlarge : config.maxFrame < Draft.align (32 + packet.length) + 24 := by
    simpa [MuxConfig.fits] using h
  rw [push, if_neg (count_start_lt sequence)]
  exact ⟨_, if_pos hlarge⟩

end Start

end Batch

namespace Bridge

/-- A unit that is read whole by one read, and of which one packet is read. -/
structure Bears (unit packet : Bytes) : Prop where
  ne_nil : unit ≠ []
  length_le : unit.length ≤ readSize
  packets_eq : Frame.packetsIfAny unit = .ok [packet]

section Frames

variable {config : MuxConfig} (sequence : UInt8) {packet : Bytes}

/-- A packet that fits gets a frame, whose size four octets can tell. -/
theorem ofPacket_eq (h : config.fits packet) (hsize : Batch.frameSize [packet] < Bytes.bound 4) :
    Frame.ofPacket config sequence packet = .ok (Draft.render sequence.toUInt16 (Batch.frameSize [packet])
      (Batch.dataTag [packet]) [Batch.trailerTag [packet]]) := by
  obtain ⟨b, hpush, hholds⟩ := Batch.push_start sequence h
  have htrailer : (Batch.trailerTag [packet]).payload.length ≤ Draft.payloadLimit := by
    show 12 ≤ Draft.payloadLimit
    decide
  rw [Frame.ofPacket, hpush]
  exact hholds.finish_eq htrailer hsize

/-- The frame of a packet holds that packet, behind its number. -/
theorem of_ofPacket {frame : Bytes} (h : Frame.ofPacket config sequence packet = .ok frame) :
    (∃ f, Frame.parse frame = .ok f ∧ f.sequence = sequence.toUInt16) ∧
      Frame.packetsIfAny frame = .ok [packet] := by
  rw [Frame.ofPacket] at h
  obtain ⟨e, hpush⟩ | ⟨b, hpush, hholds⟩ := (Batch.holds_start sequence config).push packet
  · rw [hpush] at h
    cases h
  · rw [hpush] at h
    have hparse := hholds.parse_eq h []
    have hpackets := hholds.packets_eq h []
    rw [List.append_nil] at hparse hpackets
    refine ⟨⟨_, hparse, rfl⟩, ?_⟩
    rw [Frame.packetsIfAny, hpackets]
    rfl

/-- A packet that fits gets a frame that bears it. -/
theorem ofPacket_fits (hconfig : config.maxFrame ≤ readSize) (h : config.fits packet) :
    ∃ frame, Frame.ofPacket config sequence packet = .ok frame ∧ Bears frame packet := by
  have hsize : Batch.frameSize [packet] ≤ readSize := by
    rw [Batch.frameSize_singleton]
    exact Nat.le_trans (of_decide_eq_true h) hconfig
  have hframe := ofPacket_eq sequence h (Nat.lt_of_le_of_lt hsize (by decide))
  have hlength : (Draft.render sequence.toUInt16 (Batch.frameSize [packet]) (Batch.dataTag [packet])
      [Batch.trailerTag [packet]]).length = Batch.frameSize [packet] := Draft.length_render _ _ _ _
  refine ⟨_, hframe, ?_, Nat.le_trans (Nat.le_of_eq hlength) hsize, (of_ofPacket sequence hframe).2⟩
  refine List.ne_nil_of_length_pos ?_
  rw [hlength, Batch.frameSize_singleton]
  exact Nat.succ_pos _

theorem ofPacket_large (h : ¬config.fits packet) :
    ∃ e, Frame.ofPacket config sequence packet = .error e := by
  obtain ⟨e, hpush⟩ := Batch.push_start_large sequence h
  exact ⟨e, by rw [Frame.ofPacket, hpush]⟩

end Frames

/-! ## One unit after the other -/

theorem readUnit_ofReads {unit : Bytes} (hne : unit ≠ []) (hle : unit.length ≤ readSize)
    (units : List Bytes) : readUnit (.ofReads (unit :: units)) = (.unit unit, .ofReads units) := by
  have hread := Source.read_ofReads hle units
  obtain ⟨b, bs, rfl⟩ := List.exists_cons_of_ne_nil hne
  rw [readUnit, hread]

theorem not_isDry_ofReads (unit : Bytes) (units : List Bytes) :
    ¬(Source.ofReads (unit :: units)).isDry := by
  simp [Source.ofReads, Source.isDry]

/-! ## The uplink -/

/-- What follows from a read from the tunnel. -/
def proceedUp (b : Bridge) : Arrival → Option FrameError × Bridge
  | .unit data => b.carryUp data
  | .again => (none, b)
  | .stop e => (some e, b)

theorem stepUp_eq {b : Bridge} {a : Arrival} {s' : Source} (h : readUnit b.fromTunnel = (a, s')) :
    b.stepUp = proceedUp { b with fromTunnel := s' } a := by
  rw [stepUp, h]
  cases a <;> rfl

theorem drainUp_dry {b : Bridge} (h : b.fromTunnel.isDry) : b.drainUp = (none, b) := by
  rw [drainUp.eq_def, if_pos h]

theorem drainUp_next {b b' : Bridge} (hdry : ¬b.fromTunnel.isDry) (h : b.stepUp = (none, b')) :
    b.drainUp = b'.drainUp := by
  rw [drainUp.eq_def, if_neg hdry]
  split <;> simp_all

theorem writeUnit_of_ne_nil {s : Sink} (h : s.Accepts) {unit : Bytes} (hne : unit ≠ []) :
    ∃ s', writeUnit unit s = (.ok (), s') ∧ s'.Accepts ∧ s'.taken = s.taken ++ [unit] := by
  obtain ⟨x, xs, rfl⟩ := List.exists_cons_of_ne_nil hne
  exact writeUnit_cons h x xs

section CarryUp

variable {b : Bridge} {packet : Bytes}

/-- A packet that fits goes up. -/
theorem carryUp_fits (hconfig : b.config.maxFrame ≤ readSize) (haccepts : b.toMux.Accepts)
    (h : b.config.fits packet) :
    ∃ frame toMux, Bears frame packet ∧ toMux.Accepts ∧ toMux.taken = b.toMux.taken ++ [frame] ∧
      b.carryUp packet
        = (none, { b with sequence := b.sequence.advance, toMux := toMux }.countUp packet.length) := by
  obtain ⟨frame, hframe, hbears⟩ := ofPacket_fits b.sequence.advance.last hconfig h
  obtain ⟨toMux, hwrite, haccepts, htaken⟩ := writeUnit_of_ne_nil haccepts hbears.ne_nil
  refine ⟨frame, toMux, hbears, haccepts, htaken, ?_⟩
  simp only [carryUp, hframe, hwrite]

/-- Another packet is dropped. -/
theorem carryUp_large (h : ¬b.config.fits packet) :
    b.carryUp packet = (none, { b with sequence := b.sequence.advance }.drop) := by
  obtain ⟨e, hframe⟩ := ofPacket_large b.sequence.advance.last h
  simp only [carryUp, hframe]

end CarryUp

/-- What the uplink has made of packets: each that fits is counted and has got a frame, and each other one
is counted as dropped. -/
structure Ascends (b : Bridge) (packets : List Bytes) (r : Option FrameError × Bridge) : Prop where
  stop_eq : r.1 = none
  taken_eq : ∃ units, r.2.toMux.taken = b.toMux.taken ++ units ∧
    List.Forall₂ Bears units (packets.filter b.config.fits)
  stats_eq : r.2.stats = { b.stats with
    packetsUp := b.stats.packetsUp + (packets.filter b.config.fits).length
    bytesUp := b.stats.bytesUp + (packets.filter b.config.fits).flatten.length
    dropped := b.stats.dropped + (packets.filter (!b.config.fits ·)).length }

section Cons

variable {b b' : Bridge} {packet : Bytes} {rest : List Bytes} {r : Option FrameError × Bridge}
  (h : Ascends b' rest r) (hconfig : b'.config = b.config)
include h hconfig

/-- A packet that fits stands before the others. -/
theorem Ascends.cons_fits {frame : Bytes} (hfits : b.config.fits packet) (hbears : Bears frame packet)
    (htaken : b'.toMux.taken = b.toMux.taken ++ [frame])
    (hstats : b'.stats = (b.countUp packet.length).stats) : Ascends b (packet :: rest) r := by
  obtain ⟨hstop, ⟨units, hunits, hall⟩, hfinal⟩ := h
  rw [hconfig] at hall hfinal
  have hkept : (packet :: rest).filter b.config.fits = packet :: rest.filter b.config.fits :=
    List.filter_cons_of_pos hfits
  have hothers : (packet :: rest).filter (!b.config.fits ·) = rest.filter (!b.config.fits ·) :=
    List.filter_cons_of_neg (by simp [hfits])
  refine ⟨hstop, ⟨frame :: units, ?_, hkept ▸ hall.cons hbears⟩, ?_⟩
  · rw [hunits, htaken, List.append_assoc]
    rfl
  · rw [hfinal, hstats, hkept, hothers]
    simp only [countUp, List.length_cons, List.flatten_cons, List.length_append, Nat.add_assoc,
      Nat.add_comm 1]

/-- Another packet leaves nothing but its count. -/
theorem Ascends.cons_large (hlarge : ¬b.config.fits packet) (htaken : b'.toMux.taken = b.toMux.taken)
    (hstats : b'.stats = b.drop.stats) : Ascends b (packet :: rest) r := by
  obtain ⟨hstop, ⟨units, hunits, hall⟩, hfinal⟩ := h
  rw [hconfig] at hall hfinal
  have hkept : (packet :: rest).filter b.config.fits = rest.filter b.config.fits :=
    List.filter_cons_of_neg hlarge
  have hothers : (packet :: rest).filter (!b.config.fits ·) = packet :: rest.filter (!b.config.fits ·) :=
    List.filter_cons_of_pos (by simp [hlarge])
  refine ⟨hstop, ⟨units, ?_, hkept ▸ hall⟩, ?_⟩
  · rw [hunits, htaken]
  · rw [hfinal, hstats, hkept, hothers]
    simp only [drop, List.length_cons, Nat.add_assoc, Nat.add_comm 1]

end Cons

/-- The uplink reads one packet after the other. -/
theorem ascends_drainUp {b : Bridge} {packets : List Bytes} (hconfig : b.config.maxFrame ≤ readSize)
    (hpackets : ∀ packet ∈ packets, packet ≠ [] ∧ packet.length ≤ readSize)
    (hsource : b.fromTunnel = .ofReads packets) (haccepts : b.toMux.Accepts) :
    Ascends b packets b.drainUp := by
  -- on the packets, for all bridges: a step leaves a bridge that reads the rest
  induction packets generalizing b with
  | nil =>
    rw [drainUp_dry (by rw [hsource]; rfl)]
    exact ⟨rfl, ⟨[], (List.append_nil _).symm, .nil⟩, rfl⟩
  | cons packet rest ih =>
    obtain ⟨⟨hne, hle⟩, hrest⟩ := List.forall_mem_cons.mp hpackets
    have hstep := stepUp_eq (hsource ▸ readUnit_ofReads hne hle rest)
    have hdry : ¬b.fromTunnel.isDry := hsource ▸ not_isDry_ofReads packet rest
    by_cases hfits : b.config.fits packet
    · obtain ⟨frame, toMux, hbears, haccepts, htaken, hcarry⟩ :=
        carryUp_fits (b := { b with fromTunnel := .ofReads rest }) hconfig haccepts hfits
      have hnext := ih
        (b := Bridge.countUp packet.length
          { b with fromTunnel := .ofReads rest, sequence := b.sequence.advance, toMux := toMux })
        hconfig hrest rfl haccepts
      rw [drainUp_next hdry (hstep.trans hcarry)]
      exact hnext.cons_fits rfl hfits hbears htaken rfl
    · have hcarry := carryUp_large (b := { b with fromTunnel := .ofReads rest }) hfits
      have hnext := ih
        (b := Bridge.drop { b with fromTunnel := .ofReads rest, sequence := b.sequence.advance })
        hconfig hrest rfl haccepts
      rw [drainUp_next hdry (hstep.trans hcarry)]
      exact hnext.cons_large rfl hfits rfl rfl

/-! ## The downlink -/

/-- What the downlink has made of units that bear packets: each packet has reached the tunnel, and is
counted. -/
structure Descends (b : Bridge) (packets : List Bytes) (r : Option FrameError × Bridge) : Prop where
  stop_eq : r.1 = none
  taken_eq : r.2.toTunnel.taken = b.toTunnel.taken ++ packets
  stats_eq : r.2.stats = { b.stats with
    packetsDown := b.stats.packetsDown + packets.length
    bytesDown := b.stats.bytesDown + packets.flatten.length }

/-- The packet that a unit bears reaches the tunnel. -/
theorem carryUnitDown_bears {b : Bridge} {unit packet : Bytes} (hbears : Bears unit packet)
    (hne : packet ≠ []) (haccepts : b.toTunnel.Accepts) :
    ∃ toTunnel, toTunnel.Accepts ∧ toTunnel.taken = b.toTunnel.taken ++ [packet] ∧
      b.carryUnitDown unit = (none, { b with toTunnel := toTunnel }.countDown packet.length) := by
  obtain ⟨toTunnel, hwrite, haccepts, htaken⟩ := writeUnit_of_ne_nil haccepts hne
  refine ⟨toTunnel, haccepts, htaken, ?_⟩
  simp only [carryUnitDown, hbears.packets_eq, carryDown, hwrite]

/-- The downlink reads one unit after the other. -/
theorem descends_drainDown {b : Bridge} {units packets : List Bytes}
    (hbears : List.Forall₂ Bears units packets) (hne : ∀ packet ∈ packets, packet ≠ [])
    (hsource : b.fromMux = .ofReads units) (haccepts : b.toTunnel.Accepts) :
    Descends b packets b.drainDown := by
  -- on the units and the packets that they bear, side by side
  induction hbears generalizing b with
  | nil =>
    rw [drainDown_dry (by rw [hsource]; rfl)]
    exact ⟨rfl, (List.append_nil _).symm, rfl⟩
  | @cons unit packet units packets hunit _ ih =>
    obtain ⟨hpacket, hrest⟩ := List.forall_mem_cons.mp hne
    have hstep := stepDown_eq (hsource ▸ readUnit_ofReads hunit.ne_nil hunit.length_le units)
    have hdry : ¬b.fromMux.isDry := hsource ▸ not_isDry_ofReads unit units
    obtain ⟨toTunnel, haccepts, htaken, hcarry⟩ :=
      carryUnitDown_bears (b := { b with fromMux := .ofReads units }) hunit hpacket haccepts
    rw [drainDown_next hdry (hstep.trans hcarry)]
    obtain ⟨hstop, hfinal, hstats⟩ := ih
      (b := Bridge.countDown packet.length { b with fromMux := .ofReads units, toTunnel := toTunnel })
      hrest rfl haccepts
    refine ⟨hstop, ?_, ?_⟩
    · rw [hfinal]
      show toTunnel.taken ++ packets = _
      rw [htaken, List.append_assoc]
      rfl
    · rw [hstats]
      simp only [countDown, List.length_cons, List.flatten_cons, List.length_append, Nat.add_assoc,
        Nat.add_comm 1]

/-! ## Back to back -/

/-- When the units that a bridge writes to its mux channel are read, one by one, from the mux channel of
another, then just the packets that fit come out of the far tunnel, unchanged, in their order and each
once.  The near bridge counts every other packet as dropped, and both bridges count the packets that fit;
the far bridge drops nothing. -/
theorem drainDown_undoes_drainUp {near : Bridge} {packets : List Bytes}
    (hconfig : near.config.maxFrame ≤ readSize)
    (hpackets : ∀ packet ∈ packets, packet ≠ [] ∧ packet.length ≤ readSize)
    (hsource : near.fromTunnel = .ofReads packets) (hmux : near.toMux.Accepts) :
    ∃ units, near.drainUp.1 = none ∧ near.drainUp.2.toMux.taken = near.toMux.taken ++ units ∧
      near.drainUp.2.stats = { near.stats with
        packetsUp := near.stats.packetsUp + (packets.filter near.config.fits).length
        bytesUp := near.stats.bytesUp + (packets.filter near.config.fits).flatten.length
        dropped := near.stats.dropped + (packets.filter (!near.config.fits ·)).length } ∧
      ∀ far : Bridge, far.fromMux = .ofReads units → far.toTunnel.Accepts →
        far.drainDown.1 = none ∧
        far.drainDown.2.toTunnel.taken = far.toTunnel.taken ++ packets.filter near.config.fits ∧
        far.drainDown.2.stats = { far.stats with
          packetsDown := far.stats.packetsDown + (packets.filter near.config.fits).length
          bytesDown := far.stats.bytesDown + (packets.filter near.config.fits).flatten.length } := by
  obtain ⟨hstop, ⟨units, hunits, hbears⟩, hstats⟩ := ascends_drainUp hconfig hpackets hsource hmux
  refine ⟨units, hstop, hunits, hstats, fun far hfar htunnel => ?_⟩
  have hne : ∀ packet ∈ packets.filter near.config.fits, packet ≠ [] := fun packet hmem =>
    (hpackets packet (List.mem_of_mem_filter hmem)).1
  obtain ⟨hdown, htaken, hcounted⟩ := descends_drainDown hbears hne hfar htunnel
  exact ⟨hdown, htaken, hcounted⟩

/-- Three packets, of which the second one is too long for frames of sixty bytes. -/
def threePackets : List Bytes :=
  [[0x45, 1], Bytes.zeros 20, [0x60]]

/-- A bridge with small frames that has three packets to carry up. -/
def nearBridge : Bridge :=
  { config := { maxFrame := 60 }, fromTunnel := .ofReads threePackets }

theorem drainDown_undoes_drainUp_three :
    nearBridge.config.maxFrame ≤ readSize ∧
      (∀ packet ∈ threePackets, packet ≠ [] ∧ packet.length ≤ readSize) ∧
      nearBridge.fromTunnel = .ofReads threePackets ∧ nearBridge.toMux.Accepts ∧
      nearBridge.drainUp.2.stats = { packetsUp := 2, bytesUp := 3, dropped := 1 } ∧
      ∃ far : Bridge, far.fromMux = .ofReads nearBridge.drainUp.2.toMux.taken ∧ far.toTunnel.Accepts ∧
        far.drainDown.2.toTunnel.taken = [[0x45, 1], [0x60]] ∧
        far.drainDown.2.stats = { packetsDown := 2, bytesDown := 3 } := by
  have hconfig : nearBridge.config.maxFrame ≤ readSize := by decide
  have hpackets : ∀ packet ∈ threePackets, packet ≠ [] ∧ packet.length ≤ readSize := by decide
  have haccepts : Sink.Accepts {} := Sink.accepts_empty
  have hkept : threePackets.filter nearBridge.config.fits = [[0x45, 1], [0x60]] := by decide
  have hothers : (threePackets.filter (!nearBridge.config.fits ·)).length = 1 := by decide
  obtain ⟨units, -, hunits, hstats, hfar⟩ := drainDown_undoes_drainUp hconfig hpackets rfl haccepts
  rw [hkept, hothers] at hstats
  rw [show nearBridge.toMux.taken = [] from rfl, List.nil_append] at hunits
  obtain ⟨-, htaken, hcounted⟩ := hfar { fromMux := .ofReads units } rfl haccepts
  rw [hkept] at htaken hcounted
  exact ⟨hconfig, hpackets, rfl, haccepts, hstats, _, hunits ▸ rfl, haccepts, htaken, hcounted⟩

end Bridge

end Wwan
