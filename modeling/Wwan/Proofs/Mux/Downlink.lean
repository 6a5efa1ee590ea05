import Wwan.Mux.Bridge

/-!
# When the downlink stops

A tunnel that takes every unit in full reports for an empty unit the number of bytes that tells that it
is gone.  So a packet that is empty stops the downlink, and nothing else in a frame does: the downlink
goes on to where the mux channel stops if and only if no packet of its frames is empty, and the packets
before the first empty one reach the tunnel (`drainDown_stops_with_source_iff`).
-/

namespace Wwan

/-- A sink that takes everything and fails never. -/
structure Sink.Accepts (s : Sink) : Prop where
  writes_eq : s.writes = []
  not_mem_flushes : ∀ f, some f ∉ s.flushes

theorem Sink.accepts_empty : Sink.Accepts {} :=
  ⟨rfl, fun _ => List.not_mem_nil⟩

/-- A flush succeeds, and the next one will. -/
theorem Sink.Accepts.flush {s : Sink} (h : s.Accepts) :
    ∃ s', s.flush = (.ok (), s') ∧ s'.Accepts ∧ s'.taken = s.taken := by
  obtain ⟨writes, flushes, taken, flushed⟩ := s
  obtain ⟨hwrites, hflushes⟩ := h
  rcases flushes with _ | ⟨_ | f, rest⟩
  · exact ⟨_, rfl, ⟨hwrites, hflushes⟩, rfl⟩
  · exact ⟨_, rfl, ⟨hwrites, fun f hf => hflushes f (List.mem_cons_of_mem _ hf)⟩, rfl⟩
  · exact absurd List.mem_cons_self (hflushes f)

namespace Bridge

/-! ## What the mux channel gives -/

/-- What a source gives until it stops. -/
structure Intake where
  /-- The units that are read, oldest first. -/
  units : List Bytes
  /-- Why the source stops; none while it merely has nothing more to give. -/
  stop : Option FrameError
  /-- What is left of the source then. -/
  left : Source

/-- Reads a source until it stops, or has nothing more to give. -/
def intake (s : Source) : Intake :=
  if s.isDry then ⟨[], none, s⟩
  else match _h : readUnit s with
    | (.unit data, s') => { intake s' with units := data :: (intake s').units }
    | (.again, s') => intake s'
    | (.stop e, s') => ⟨[], some e, s'⟩
termination_by s.load
decreasing_by
  · exact load_readUnit _h (by simp)
  · exact load_readUnit _h (by simp)

/-- The end of a stream is an item of its own, while the source has something to give. -/
theorem load_read_nil {s s' : Source} (hdry : ¬s.isDry) (h : s.read readSize = (.ok [], s')) :
    s'.load < s.load := by
  obtain ⟨current, items⟩ := s
  cases current with
  | cons b bs => simp [Source.read, readSize] at h
  | nil =>
    cases items with
    | nil => simp [Source.isDry] at hdry
    | cons item rest =>
      cases item with
      | fault f => simp [Source.read] at h
      | bytes data =>
        simp only [Source.read, Prod.mk.injEq] at h
        rw [← h.2]
        simp only [Source.load, Source.loadOf, List.length_drop, List.length_nil]
        omega

theorem intake_dry {s : Source} (h : s.isDry) : intake s = ⟨[], none, s⟩ := by
  rw [intake.eq_def, if_pos h]

theorem intake_unit {s s' : Source} {data : Bytes} (hdry : ¬s.isDry)
    (h : readUnit s = (.unit data, s')) :
    intake s = { intake s' with units := data :: (intake s').units } := by
  rw [intake.eq_def, if_neg hdry]
  split <;> simp_all

theorem intake_again {s s' : Source} (hdry : ¬s.isDry) (h : readUnit s = (.again, s')) :
    intake s = intake s' := by
  rw [intake.eq_def, if_neg hdry]
  split <;> simp_all

theorem intake_stop {s s' : Source} {e : FrameError} (hdry : ¬s.isDry)
    (h : readUnit s = (.stop e, s')) : intake s = ⟨[], some e, s'⟩ := by
  rw [intake.eq_def, if_neg hdry]
  split <;> simp_all

/-- A source that has something to give is shorter after a read. -/
theorem load_readUnit_lt {s s' : Source} {a : Arrival} (hdry : ¬s.isDry) (h : readUnit s = (a, s')) :
    s'.load < s.load := by
  rw [readUnit] at h
  split at h
  · next heq =>
    cases h
    exact load_read_nil hdry heq
  · next heq =>
    cases h
    exact Source.load_read_ok heq
  · next heq =>
    cases h
    exact Source.load_read_error heq

/-- A source that stops is shorter then. -/
theorem load_left_lt (s : Source) (h : (intake s).stop.isSome) : (intake s).left.load < s.load := by
  by_cases hdry : s.isDry
  · rw [intake_dry hdry] at h
    cases h
  · rcases hread : readUnit s with ⟨a, s'⟩
    have hlt := load_readUnit_lt hdry hread
    cases a with
    | unit data =>
      rw [intake_unit hdry hread] at h ⊢
      exact Nat.lt_trans (load_left_lt s' h) hlt
    | again =>
      rw [intake_again hdry hread] at h ⊢
      exact Nat.lt_trans (load_left_lt s' h) hlt
    | stop e =>
      rw [intake_stop hdry hread]
      exact hlt
termination_by s.load

/-! ## What reaches the tunnel -/

/-- The packets of a unit that is a frame; none if it is malformed. -/
def packetsIn (unit : Bytes) : List Bytes :=
  (Frame.packetsIfAny unit).toOption.getD []

/-- The packets before the first empty one. -/
def untilEmpty (packets : List Bytes) : List Bytes :=
  packets.takeWhile fun p => !p.isEmpty

/-- What the first empty packet is taken for, if there is one: a tunnel that is gone. -/
def stopOf (packets : List Bytes) : Option FrameError :=
  if [] ∈ packets then some .closed else none

theorem untilEmpty_append_of_mem {packets : List Bytes} (h : [] ∈ packets) (more : List Bytes) :
    untilEmpty (packets ++ more) = untilEmpty packets := by
  induction packets with
  | nil => cases h
  | cons packet rest ih =>
    cases packet with
    | nil => rfl
    | cons x xs =>
      have hrest : [] ∈ rest := by simpa using h
      exact congrArg ((x :: xs) :: ·) (ih hrest)

theorem untilEmpty_append_of_not_mem {packets : List Bytes} (h : [] ∉ packets) (more : List Bytes) :
    untilEmpty (packets ++ more) = packets ++ untilEmpty more := by
  induction packets with
  | nil => rfl
  | cons packet rest ih =>
    cases packet with
    | nil => exact absurd List.mem_cons_self h
    | cons x xs =>
      have hrest : [] ∉ rest := fun hmem => h (List.mem_cons_of_mem _ hmem)
      exact congrArg ((x :: xs) :: ·) (ih hrest)

theorem untilEmpty_of_not_mem {packets : List Bytes} (h : [] ∉ packets) :
    untilEmpty packets = packets := by
  have hall := untilEmpty_append_of_not_mem h []
  rw [List.append_nil] at hall
  exact hall.trans (List.append_nil packets)

/-- An empty unit is taken for the end of the sink, although the sink takes it. -/
theorem writeUnit_nil {s : Sink} (h : s.Accepts) : writeUnit [] s = (.error .closed, s) := by
  have hwrite : s.write [] = (.ok 0, s) := by
    rw [Sink.write.eq_def, h.writes_eq]
    rfl
  rw [writeUnit]
  split
  · next n s' heq =>
    cases hwrite.symm.trans heq
    rfl
  · next f s' heq => cases hwrite.symm.trans heq

/-- Any other unit is taken. -/
theorem writeUnit_cons {s : Sink} (h : s.Accepts) (b : UInt8) (bs : Bytes) :
    ∃ s', writeUnit (b :: bs) s = (.ok (), s') ∧ s'.Accepts ∧ s'.taken = s.taken ++ [b :: bs] := by
  have hwrite : s.write (b :: bs) = (.ok (bs.length + 1), { s with taken := s.taken ++ [b :: bs] }) := by
    obtain ⟨writes, flushes, taken, flushed⟩ := s
    obtain rfl : writes = [] := h.writes_eq
    rfl
  obtain ⟨s', hflush, haccepts, htaken⟩ :=
    Sink.Accepts.flush (s := { s with taken := s.taken ++ [b :: bs] }) ⟨h.writes_eq, h.not_mem_flushes⟩
  refine ⟨s', ?_, haccepts, htaken⟩
  rw [writeUnit]
  split
  · next n s'' heq =>
    cases hwrite.symm.trans heq
    rw [if_neg (Nat.succ_ne_zero _), if_pos List.length_cons.symm]
    dsimp only
    rw [hflush]
    rfl
  · next f s'' heq => cases hwrite.symm.trans heq

/-- What becomes of packets that are carried down: those before the first empty one reach the tunnel, and
that one stops the downlink. -/
structure Delivers (b : Bridge) (packets : List Bytes) (r : Option FrameError × Bridge) : Prop where
  stop_eq : r.1 = stopOf packets
  accepts : r.2.toTunnel.Accepts
  taken_eq : r.2.toTunnel.taken = b.toTunnel.taken ++ untilEmpty packets
  fromMux_eq : r.2.fromMux = b.fromMux

theorem delivers_carryDown (packets : List Bytes) {b : Bridge} (h : b.toTunnel.Accepts) :
    Delivers b packets (carryDown packets b) := by
  induction packets generalizing b with
  | nil => exact ⟨rfl, h, (List.append_nil _).symm, rfl⟩
  | cons packet rest ih =>
    cases packet with
    | nil =>
      rw [carryDown, writeUnit_nil h]
      exact ⟨rfl, h, (List.append_nil _).symm, rfl⟩
    | cons x xs =>
      obtain ⟨s', hwrite, haccepts, htaken⟩ := writeUnit_cons h x xs
      have hrest := ih (b := Bridge.countDown (x :: xs).length { b with toTunnel := s' }) haccepts
      rw [carryDown, hwrite]
      refine ⟨?_, hrest.accepts, ?_, hrest.fromMux_eq⟩
      · rw [hrest.stop_eq, stopOf, stopOf]
        simp
      · rw [hrest.taken_eq]
        show s'.taken ++ untilEmpty rest = _
        rw [htaken, List.append_assoc]
        rfl

/-- A malformed frame is dropped. -/
theorem delivers_carryUnitDown (unit : Bytes) {b : Bridge} (h : b.toTunnel.Accepts) :
    Delivers b (packetsIn unit) (b.carryUnitDown unit) := by
  rw [carryUnitDown, packetsIn]
  cases Frame.packetsIfAny unit with
  | error e => exact ⟨rfl, h, (List.append_nil _).symm, rfl⟩
  | ok packets => exact delivers_carryDown packets h

/-! ## The whole downlink -/

/-- What follows from a read from the mux channel. -/
def proceedDown (b : Bridge) : Arrival → Option FrameError × Bridge
  | .unit data => b.carryUnitDown data
  | .again => (none, b)
  | .stop e => (some e, b)

theorem stepDown_eq {b : Bridge} {a : Arrival} {s' : Source} (h : readUnit b.fromMux = (a, s')) :
    b.stepDown = proceedDown { b with fromMux := s' } a := by
  rw [stepDown, h]
  cases a <;> rfl

theorem drainDown_dry {b : Bridge} (h : b.fromMux.isDry) : b.drainDown = (none, b) := by
  rw [drainDown.eq_def, if_pos h]

theorem drainDown_next {b b' : Bridge} (hdry : ¬b.fromMux.isDry) (h : b.stepDown = (none, b')) :
    b.drainDown = b'.drainDown := by
  rw [drainDown.eq_def, if_neg hdry]
  split <;> simp_all

theorem drainDown_stop {b b' : Bridge} {e : FrameError} (hdry : ¬b.fromMux.isDry)
    (h : b.stepDown = (some e, b')) : b.drainDown = (some e, b') := by
  rw [drainDown.eq_def, if_neg hdry]
  split <;> simp_all

/-- What the downlink comes to, of which the tunnel has taken some packets before, with what the mux
channel gives. -/
structure Relays (before : List Bytes) (i : Intake) (r : Option FrameError × Bridge) : Prop where
  taken_eq : r.2.toTunnel.taken = before ++ untilEmpty (i.units.flatMap packetsIn)
  /-- Without an empty packet it goes on to where its source stops. -/
  of_not_mem : [] ∉ i.units.flatMap packetsIn → r.1 = i.stop ∧ r.2.fromMux = i.left
  /-- With one it stops, and does not come to where its source stops. -/
  of_mem : [] ∈ i.units.flatMap packetsIn →
    r.1 = some .closed ∧ (i.stop.isSome → r.2.fromMux ≠ i.left)

theorem Relays.nil (b : Bridge) (stop : Option FrameError) :
    Relays b.toTunnel.taken ⟨[], stop, b.fromMux⟩ (stop, b) :=
  ⟨(List.append_nil _).symm, fun _ => ⟨rfl, rfl⟩, fun hmem => absurd hmem List.not_mem_nil⟩

/-- A unit whose packets are all carried down stands before the others. -/
theorem Relays.cons {before : List Bytes} {unit : Bytes} {i : Intake} {r : Option FrameError × Bridge}
    (hne : [] ∉ packetsIn unit) (h : Relays (before ++ untilEmpty (packetsIn unit)) i r) :
    Relays before { i with units := unit :: i.units } r := by
  obtain ⟨htaken, hnot, hmem⟩ := h
  have hiff : [] ∈ packetsIn unit ++ i.units.flatMap packetsIn ↔ [] ∈ i.units.flatMap packetsIn := by
    rw [List.mem_append]
    exact or_iff_right hne
  constructor
  · rw [List.flatMap_cons, untilEmpty_append_of_not_mem hne, htaken, untilEmpty_of_not_mem hne,
      List.append_assoc]
  · rw [List.flatMap_cons, hiff]
    exact hnot
  · rw [List.flatMap_cons, hiff]
    exact hmem

/-- A unit with an empty packet is the last. -/
theorem Relays.stop {before : List Bytes} {unit : Bytes} {i : Intake} {b : Bridge}
    (hmem : [] ∈ packetsIn unit)
    (htaken : b.toTunnel.taken = before ++ untilEmpty (packetsIn unit))
    (hleft : i.stop.isSome → b.fromMux ≠ i.left) :
    Relays before { i with units := unit :: i.units } (some .closed, b) := by
  constructor
  · rw [List.flatMap_cons, untilEmpty_append_of_mem hmem]
    exact htaken
  · intro hnot
    rw [List.flatMap_cons] at hnot
    exact absurd (List.mem_append_left _ hmem) hnot
  · exact fun _ => ⟨rfl, hleft⟩

/-- The induction is on what is left of the source: each read leaves less. -/
theorem relays_drainDown (b : Bridge) (h : b.toTunnel.Accepts) :
    Relays b.toTunnel.taken (intake b.fromMux) b.drainDown := by
  by_cases hdry : b.fromMux.isDry
  · rw [intake_dry hdry, drainDown_dry hdry]
    exact Relays.nil b none
  · rcases hread : readUnit b.fromMux with ⟨a, s'⟩
    have hlt : s'.load < b.fromMux.load := load_readUnit_lt hdry hread
    cases a with
    | stop e =>
      rw [intake_stop hdry hread, drainDown_stop hdry (stepDown_eq hread)]
      exact Relays.nil { b with fromMux := s' } (some e)
    | again =>
      rw [intake_again hdry hread, drainDown_next hdry (stepDown_eq hread)]
      exact relays_drainDown { b with fromMux := s' } h
    | unit data =>
      have hstep : b.stepDown = Bridge.carryUnitDown data { b with fromMux := s' } := stepDown_eq hread
      obtain ⟨hstop, haccepts, htaken, hsource⟩ :=
        delivers_carryUnitDown data (b := { b with fromMux := s' }) h
      rw [← hstep] at hstop haccepts htaken hsource
      rw [intake_unit hdry hread]
      by_cases hempty : [] ∈ packetsIn data
      · rw [stopOf, if_pos hempty] at hstop
        rw [drainDown_stop hdry (Prod.ext hstop rfl)]
        refine Relays.stop hempty htaken fun hsome heq => ?_
        have hshorter := load_left_lt s' hsome
        rw [hsource] at heq
        rw [← heq] at hshorter
        exact Nat.lt_irrefl _ hshorter
      · rw [stopOf, if_neg hempty] at hstop
        rw [drainDown_next hdry (Prod.ext hstop rfl)]
        have hrest := relays_drainDown b.stepDown.2 haccepts
        rw [hsource, htaken] at hrest
        exact Relays.cons hempty hrest
termination_by b.fromMux.load
decreasing_by
  · rw [hstep, hsource]
    exact hlt
  · exact hlt

/-- A downlink whose tunnel takes every unit goes on to where the mux channel stops, and with its reason,
if and only if no frame holds an empty packet.  The packets before the first empty one reach the tunnel, in
their order; that one stops the downlink as if the tunnel were gone. -/
theorem drainDown_stops_with_source_iff (b : Bridge) (h : b.toTunnel.Accepts) :
    b.drainDown.2.toTunnel.taken
      = b.toTunnel.taken ++ untilEmpty ((intake b.fromMux).units.flatMap packetsIn) ∧
    ((b.drainDown.1 = (intake b.fromMux).stop ∧ b.drainDown.2.fromMux = (intake b.fromMux).left) ↔
      [] ∉ (intake b.fromMux).units.flatMap packetsIn) ∧
    ([] ∈ (intake b.fromMux).units.flatMap packetsIn → b.drainDown.1 = some .closed) := by
  obtain ⟨htaken, hnot, hmem⟩ := relays_drainDown b h
  refine ⟨htaken, ⟨?_, hnot⟩, fun hempty => (hmem hempty).1⟩
  rintro ⟨hstop, hleft⟩ hempty
  obtain ⟨hclosed, hne⟩ := hmem hempty
  rw [hclosed] at hstop
  exact hne (hstop ▸ rfl) hleft

/-- A frame whose one packet is empty. -/
def emptyPacketFrame : Bytes :=
  [0x41, 0x44, 0x42, 0x48, 0, 0, 1, 0, 56, 0, 0, 0, 32, 0, 0, 0] ++ Bytes.zeros 16
    ++ [0x41, 0x44, 0x54, 0x48, 24, 0, 0, 0, 0, 0, 0, 0, 0, 0, 0, 0, 16, 0, 0, 0, 16, 0, 0, 0]

/-- A frame with a packet of two octets. -/
def packetFrame : Bytes :=
  [0x41, 0x44, 0x42, 0x48, 0, 0, 2, 0, 60, 0, 0, 0, 36, 0, 0, 0] ++ Bytes.zeros 16 ++ [0x45, 1, 0, 0]
    ++ [0x41, 0x44, 0x54, 0x48, 24, 0, 0, 0, 0, 0, 0, 0, 0, 0, 0, 0, 16, 0, 0, 0, 18, 0, 0, 0]

/-- A malformed unit and two frames with a packet, an interrupted read between them, then the end. -/
def goodSource : Source :=
  { items := [.bytes [1, 2, 3], .bytes packetFrame, .fault ⟨.interrupted, ""⟩, .bytes packetFrame,
      .bytes []] }

theorem drainDown_stops_with_source_iff_good :
    Sink.Accepts {} ∧
      (intake goodSource).units.flatMap packetsIn = [[0x45, 1], [0x45, 1]] ∧
      (intake goodSource).stop = some .closed ∧
      (Bridge.drainDown { fromMux := goodSource }).1 = some .closed ∧
      (Bridge.drainDown { fromMux := goodSource }).2.fromMux = (intake goodSource).left ∧
      (Bridge.drainDown { fromMux := goodSource }).2.toTunnel.taken = [[0x45, 1], [0x45, 1]] := by
  have haccepts : Sink.Accepts {} := Sink.accepts_empty
  have hpackets : (intake goodSource).units.flatMap packetsIn = [[0x45, 1], [0x45, 1]] := by
    decide +kernel
  have hstop : (intake goodSource).stop = some .closed := by
    decide +kernel
  obtain ⟨htaken, hiff, -⟩ := drainDown_stops_with_source_iff { fromMux := goodSource } haccepts
  obtain ⟨hreason, hleft⟩ := hiff.mpr (by rw [hpackets]; decide)
  rw [hpackets] at htaken
  exact ⟨haccepts, hpackets, hstop, hreason.trans hstop, hleft, htaken⟩

/-- A frame with an empty packet, and one with another packet behind it. -/
def emptyPacketSource : Source :=
  { items := [.bytes emptyPacketFrame, .bytes packetFrame] }

/-- An empty packet stops the downlink, although its source has not stopped and the tunnel takes
everything; the packet behind it does not arrive. -/
theorem empty_packet_stops_downlink :
    Sink.Accepts {} ∧ (intake emptyPacketSource).stop = none ∧
      (intake emptyPacketSource).units.flatMap packetsIn = [[], [0x45, 1]] ∧
      (Bridge.drainDown { fromMux := emptyPacketSource }).1 = some .closed ∧
      (Bridge.drainDown { fromMux := emptyPacketSource }).2.toTunnel.taken = [] :=
  ⟨Sink.accepts_empty, by decide +kernel⟩

end Bridge

end Wwan
