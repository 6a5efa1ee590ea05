import Mathlib.Data.List.Basic
import Wwan.Proofs.Mux.Uplink

/-!
# What the counters of a bridge tell

A packet that goes down is offered to the tunnel, which takes it, or refuses it, or is gone (`isGone`).  The
packets of a unit are offered one after the other until the tunnel is gone (`Handed`), and so are those of all
units that the downlink reads (`CarriedDown`).  With what the uplink does (`CarriedUp`) this tells what the
counters stand for when a direction has stopped: `counters_account_for_units`.
-/

namespace Wwan.Bridge

/-! ## Counting -/

/-- Whether an error of the tunnel tells that it is gone; with any other one it has only refused a packet. -/
def isGone : FrameError → Bool
  | .fault f => f.kind = .brokenPipe
  | _ => true

/-- Whether a unit is a frame that is rejected. -/
def isMalformed (unit : Bytes) : Bool :=
  !(Frame.packetsIfAny unit).isOk

/-- Whether a unit has been taken in whole. -/
def Offer.isTaken (offer : Offer) : Bool :=
  offer.result.isOk

/-- Whether the downlink goes on after an offer: the tunnel is not gone. -/
def Offer.GoesOn (offer : Offer) : Prop :=
  ∀ e, offer.result = .error e → ¬isGone e

/-- Counts units that have been read from the mux channel, and packets that have been offered to the tunnel. -/
def tally (units : List Bytes) (offers : List Offer) (stats : BridgeStats) : BridgeStats :=
  { stats with
    packetsDown := stats.packetsDown + (offers.filter Offer.isTaken).length
    bytesDown := stats.bytesDown + ((offers.filter Offer.isTaken).map Offer.unit).flatten.length
    dropped := stats.dropped + ((units.filter isMalformed).length + (offers.filter (!·.isTaken)).length) }

theorem tally_tally (units more : List Bytes) (offers others : List Offer) (stats : BridgeStats) :
    tally more others (tally units offers stats) = tally (units ++ more) (offers ++ others) stats := by
  simp only [tally, List.filter_append, List.length_append, List.map_append, List.flatten_append,
    Nat.add_assoc, Nat.add_left_comm]

theorem countDown_eq (packet : Bytes) (b : Bridge) :
    b.countDown packet.length = { b with stats := tally [] [.taken packet] b.stats } := by
  have hbytes : [packet].flatten.length = packet.length := by rw [List.flatten_singleton]
  rw [countDown, ← hbytes]
  rfl

theorem tally_malformed {unit : Bytes} (h : isMalformed unit) (stats : BridgeStats) :
    tally [unit] [] stats = { stats with dropped := stats.dropped + 1 } := by
  rw [tally, List.filter_cons_of_pos h]
  rfl

theorem tally_wellFormed {unit : Bytes} (h : ¬isMalformed unit) (offers : List Offer) (stats : BridgeStats) :
    tally [unit] offers stats = tally [] offers stats := by
  rw [tally, List.filter_cons_of_neg h]
  rfl

/-! ## The packets of one unit -/

/-- What becomes of packets on their way down: all are offered to the tunnel, or it is gone before. -/
inductive Handed (b : Bridge) (units packets : List Bytes) : Option FrameError × Bridge → Prop
  | all {offers : List Offer} {toTunnel : Sink} (packets_eq : packets = offers.map Offer.unit)
      (kept : ∀ offer ∈ offers, offer.GoesOn) (offered : Offered b.toTunnel offers toTunnel) :
      Handed b units packets (none, { b with toTunnel := toTunnel, stats := tally units offers b.stats })
  | cut {offers : List Offer} {packet : Bytes} {rest : List Bytes} {e : FrameError} {sink toTunnel : Sink}
      (packets_eq : packets = offers.map Offer.unit ++ packet :: rest)
      (kept : ∀ offer ∈ offers, offer.GoesOn) (offered : Offered b.toTunnel offers sink)
      (write : writeUnit packet sink = (.error e, toTunnel)) (gone : isGone e) :
      Handed b units packets (some e, { b with toTunnel := toTunnel, stats := tally units offers b.stats })

theorem Handed.nil (b : Bridge) (units : List Bytes) :
    Handed b units [] (none, { b with stats := tally units [] b.stats }) := by
  have hpackets : [] = [].map Offer.unit := rfl
  exact .all hpackets nofun (.nil b.toTunnel)

/-- The tunnel is gone at the first packet. -/
theorem Handed.gone {b : Bridge} {packet : Bytes} {rest : List Bytes} {e : FrameError} {toTunnel : Sink}
    (write : writeUnit packet b.toTunnel = (.error e, toTunnel)) (hgone : isGone e) :
    Handed b [] (packet :: rest) (some e, { b with toTunnel := toTunnel }) := by
  have hpackets : packet :: rest = [].map Offer.unit ++ packet :: rest := rfl
  exact .cut hpackets nofun (.nil b.toTunnel) write hgone

/-- A packet that the tunnel has taken or refused stands before the others. -/
theorem Handed.cons {b : Bridge} {units rest : List Bytes} (offer : Offer) {toTunnel : Sink}
    {r : Option FrameError × Bridge} (write : writeUnit offer.unit b.toTunnel = (offer.result, toTunnel))
    (hkept : offer.GoesOn)
    (h : Handed { b with toTunnel := toTunnel, stats := tally [] [offer] b.stats } units rest r) :
    Handed b units (offer.unit :: rest) r := by
  cases h with
  | all packets_eq kept offered =>
    dsimp only
    rw [tally_tally]
    exact .all (congrArg (offer.unit :: ·) packets_eq) (List.forall_mem_cons.mpr ⟨hkept, kept⟩)
      (.cons write offered)
  | cut packets_eq kept offered hwrite gone =>
    dsimp only
    rw [tally_tally]
    exact .cut (congrArg (offer.unit :: ·) packets_eq) (List.forall_mem_cons.mpr ⟨hkept, kept⟩)
      (.cons write offered) hwrite gone

theorem handed_carryDown (packets : List Bytes) (b : Bridge) : Handed b [] packets (carryDown packets b) := by
  fun_induction carryDown with
  | case1 b => exact .nil b []
  | case2 packet rest b toTunnel hwrite ih =>
    rw [countDown_eq] at ih ⊢
    exact .cons (.taken packet) hwrite nofun ih
  -- a broken pipe tells that the tunnel is gone, any other fault that it has refused the packet
  | case3 packet rest b f toTunnel hwrite _ hgone =>
    exact .gone hwrite (decide_eq_true hgone)
  | case4 packet rest b f toTunnel hwrite _ hkept ih =>
    refine .cons ⟨packet, .error (.fault f)⟩ hwrite (fun e he => ?_) ih
    cases he
    exact fun hgone => hkept (of_decide_eq_true hgone)
  | case5 packet rest b e toTunnel hother hwrite =>
    refine .gone hwrite ?_
    cases e with
    | fault f => exact absurd rfl (hother f)
    | _ => rfl

/-- The packets of a unit that is rejected are none. -/
theorem handed_carryUnitDown (unit : Bytes) (b : Bridge) :
    Handed b [unit] (packetsIn unit) (b.carryUnitDown unit) := by
  rw [carryUnitDown, packetsIn]
  rcases hunit : Frame.packetsIfAny unit with e | packets
  · have hmalformed : isMalformed unit := by rw [isMalformed, hunit]; rfl
    dsimp only
    rw [drop, ← tally_malformed hmalformed]
    exact .nil b [unit]
  · have hfine : ¬isMalformed unit := by rw [isMalformed, hunit]; exact Bool.false_ne_true
    have hhanded := handed_carryDown packets b
    dsimp only
    generalize carryDown packets b = r at hhanded
    cases hhanded with
    | all packets_eq kept offered =>
      rw [← tally_wellFormed hfine]
      exact .all packets_eq kept offered
    | cut packets_eq kept offered write gone =>
      rw [← tally_wellFormed hfine]
      exact .cut packets_eq kept offered write gone

/-! ## The whole downlink -/

/-- What the downlink has made of the units that it has read: packets have been offered to the tunnel, and some
may be left, of which the first one found the tunnel gone. -/
structure CarriedDown (b : Bridge) (units : List Bytes) (offers : List Offer) (left : List Bytes)
    (r : Option FrameError × Bridge) : Prop where
  packets_eq : units.flatMap packetsIn = offers.map Offer.unit ++ left
  /-- The packets that are left are the last ones of the last unit. -/
  left_last : left ≠ [] → ∃ before last, units = before ++ [last] ∧ left <:+ packetsIn last
  kept : ∀ offer ∈ offers, offer.GoesOn
  gone : left ≠ [] → ∃ e, r.1 = some e ∧ isGone e
  stats_eq : r.2.stats = tally units offers b.stats
  passed : ∃ source sink, Gives b.fromMux units source ∧ Offered b.toTunnel offers sink ∧
    Ends source sink left.head? r.1 r.2.fromMux r.2.toTunnel

section Units

variable {b : Bridge} {unit : Bytes} {s : Source} {units : List Bytes} {offers : List Offer}
  {left : List Bytes} {r : Option FrameError × Bridge}

/-- Nothing has been read. -/
theorem CarriedDown.nil (hstats : r.2.stats = b.stats)
    (hends : Ends b.fromMux b.toTunnel none r.1 r.2.fromMux r.2.toTunnel) : CarriedDown b [] [] [] r where
  packets_eq := rfl
  left_last := absurd rfl
  kept := nofun
  gone := absurd rfl
  stats_eq := hstats
  passed := ⟨_, _, .nil _, .nil _, hends⟩

theorem CarriedDown.again (read : readUnit b.fromMux = (.again, s))
    (h : CarriedDown { b with fromMux := s } units offers left r) : CarriedDown b units offers left r := by
  obtain ⟨hpackets, hlast, hkept, hgone, hstats, source, sink, hgives, hrest⟩ := h
  exact ⟨hpackets, hlast, hkept, hgone, hstats, source, sink, .again read hgives, hrest⟩

/-- A unit whose packets have all been offered stands before the others. -/
theorem CarriedDown.cons {handed : List Offer} {toTunnel : Sink}
    (read : readUnit b.fromMux = (.unit unit, s)) (hpackets : packetsIn unit = handed.map Offer.unit)
    (hkept : ∀ offer ∈ handed, offer.GoesOn)
    (hoffered : Offered b.toTunnel handed toTunnel)
    (h : CarriedDown { b with fromMux := s, toTunnel := toTunnel, stats := tally [unit] handed b.stats }
      units offers left r) :
    CarriedDown b (unit :: units) (handed ++ offers) left r := by
  obtain ⟨hmore, hlast, hrest, hgone, hstats, source, sink, hgives, hoffers, hends⟩ := h
  refine ⟨?_, fun hleft => ?_, ?_, hgone, ?_, source, sink, .unit read hgives, hoffered.append hoffers, hends⟩
  · rw [List.flatMap_cons, hpackets, hmore, List.map_append, List.append_assoc]
  · obtain ⟨before, last, hunits, hsuffix⟩ := hlast hleft
    exact ⟨unit :: before, last, congrArg (unit :: ·) hunits, hsuffix⟩
  · exact List.forall_mem_append.mpr ⟨hkept, hrest⟩
  · rw [hstats, tally_tally]
    rfl

/-- A unit at one of whose packets the tunnel is gone is the last. -/
theorem CarriedDown.cut {packet : Bytes} {rest : List Bytes} {e : FrameError} {sink toTunnel : Sink}
    (read : readUnit b.fromMux = (.unit unit, s))
    (hpackets : packetsIn unit = offers.map Offer.unit ++ packet :: rest)
    (hkept : ∀ offer ∈ offers, offer.GoesOn)
    (hoffered : Offered b.toTunnel offers sink) (write : writeUnit packet sink = (.error e, toTunnel))
    (hgone : isGone e) :
    CarriedDown b [unit] offers (packet :: rest)
      (some e, { b with fromMux := s, toTunnel := toTunnel, stats := tally [unit] offers b.stats }) where
  packets_eq := by rw [List.flatMap_singleton, hpackets]
  left_last := fun _ => ⟨[], unit, rfl, hpackets ▸ List.suffix_append _ _⟩
  kept := hkept
  gone := fun _ => ⟨e, rfl, hgone⟩
  stats_eq := rfl
  passed := ⟨s, sink, .unit read (.nil s), hoffered, .refused write⟩

end Units

/-- What a step of the downlink can do. -/
inductive SteppedDown (b : Bridge) : Option FrameError × Bridge → Prop
  | stopped {e : FrameError} {s : Source} (read : readUnit b.fromMux = (.stop e, s)) :
      SteppedDown b (some e, { b with fromMux := s })
  | again {s : Source} (read : readUnit b.fromMux = (.again, s)) :
      SteppedDown b (none, { b with fromMux := s })
  | handed {unit : Bytes} {s : Source} {r : Option FrameError × Bridge}
      (read : readUnit b.fromMux = (.unit unit, s))
      (handed : Handed { b with fromMux := s } [unit] (packetsIn unit) r) : SteppedDown b r

theorem steppedDown_stepDown (b : Bridge) : SteppedDown b b.stepDown := by
  rcases hread : readUnit b.fromMux with ⟨a, s⟩
  rw [stepDown_eq hread]
  cases a with
  | stop e => exact .stopped hread
  | again => exact .again hread
  | unit unit => exact .handed hread (handed_carryUnitDown unit _)

/-- The downlink does one step after the other until it stops. -/
theorem carriedDown_drainDown (b : Bridge) :
    ∃ units offers left, CarriedDown b units offers left b.drainDown := by
  fun_induction drainDown with
  | case1 b hdry => exact ⟨[], [], [], .nil rfl (.dry hdry)⟩
  | case2 b _ b' hstep ih =>
    have hstepped : SteppedDown b (none, b') := hstep ▸ steppedDown_stepDown b
    obtain ⟨units, offers, left, hrest⟩ := ih
    cases hstepped with
    | again read => exact ⟨_, _, _, hrest.again read⟩
    | handed read handed =>
      cases handed with
      | all hpackets hkept hoffered => exact ⟨_, _, _, hrest.cons read hpackets hkept hoffered⟩
  | case3 b _ e b' hstep =>
    have hstepped : SteppedDown b (some e, b') := hstep ▸ steppedDown_stepDown b
    cases hstepped with
    | stopped read => exact ⟨[], [], [], .nil rfl (.stop read)⟩
    | handed read handed =>
      cases handed with
      | cut hpackets hkept hoffered hwrite hgone =>
        exact ⟨_, _, _, .cut read hpackets hkept hoffered hwrite hgone⟩

/-! ## Both directions -/

/-- When a direction of a bridge has stopped, its counters account for all that it has read.

The uplink has carried some packets, has failed to write the frame of one if it stopped for that, and has
dropped every other unit.  Just the frames of the packets carried have been taken in whole and flushed, in their
order.  The downlink has dropped the frames that are malformed and the packets that the tunnel refused, and has
carried every other packet, up to the one at which it found the tunnel gone. -/
theorem counters_account_for_units (b : Bridge) :
    (∃ (units : List Bytes) (carried : List (Bytes × Bytes)) (failed : Option (Bytes × Bytes))
        (dropped : Nat) (source : Source) (sink : Sink) (piece : Option Bytes),
      Gives b.fromTunnel units source ∧
      framed b.config b.sequence units = carried ++ failed.toList ∧
      (∀ packet ∈ failed, units.getLast? = some packet.1) ∧
      Offered b.toMux (carried.map (.taken ∘ Prod.snd)) sink ∧
      Ends source sink (failed.map Prod.snd) b.drainUp.1 b.drainUp.2.fromTunnel b.drainUp.2.toMux ∧
      b.drainUp.2.toMux.flushed = b.toMux.flushed + carried.length ∧
      b.drainUp.2.toMux.taken = b.toMux.taken ++ carried.map Prod.snd ++ piece.toList ∧
      (∀ p ∈ piece, ∃ packet ∈ failed, p <+: packet.2) ∧
      units.length = carried.length + dropped + failed.toList.length ∧
      b.drainUp.2.stats = { b.stats with
        packetsUp := b.stats.packetsUp + carried.length
        bytesUp := b.stats.bytesUp + (carried.map Prod.fst).flatten.length
        dropped := b.stats.dropped + dropped }) ∧
    (∃ (units : List Bytes) (offers : List Offer) (left : List Bytes) (source : Source) (sink : Sink),
      Gives b.fromMux units source ∧
      units.flatMap packetsIn = offers.map Offer.unit ++ left ∧
      (left ≠ [] → ∃ before last, units = before ++ [last] ∧ left <:+ packetsIn last) ∧
      Offered b.toTunnel offers sink ∧
      (∀ offer ∈ offers, offer.GoesOn) ∧
      Ends source sink left.head? b.drainDown.1 b.drainDown.2.fromMux b.drainDown.2.toTunnel ∧
      (left ≠ [] → ∃ e, b.drainDown.1 = some e ∧ isGone e) ∧
      b.drainDown.2.stats.packetsDown + b.drainDown.2.stats.dropped
        = b.stats.packetsDown + b.stats.dropped + (units.filter isMalformed).length + offers.length ∧
      b.drainDown.2.stats = { b.stats with
        packetsDown := b.stats.packetsDown + (offers.filter Offer.isTaken).length
        bytesDown := b.stats.bytesDown + ((offers.filter Offer.isTaken).map Offer.unit).flatten.length
        dropped := b.stats.dropped
          + ((units.filter isMalformed).length + (offers.filter (!·.isTaken)).length) }) := by
  constructor
  · obtain ⟨units, carried, failed, dropped, hup⟩ := carriedUp_drainUp b
    obtain ⟨source, sink, hgives, hoffered, hends⟩ := hup.passed
    obtain ⟨hflushed, piece, htaken, hpiece⟩ := hup.taken_eq
    exact ⟨units, carried, failed, dropped, source, sink, piece, hgives, hup.framed_eq, hup.failed_last,
      hoffered, hends, hflushed, htaken, hpiece, hup.length_eq, hup.stats_eq⟩
  · obtain ⟨units, offers, left, hdown⟩ := carriedDown_drainDown b
    obtain ⟨source, sink, hgives, hoffered, hends⟩ := hdown.passed
    refine ⟨units, offers, left, source, sink, hgives, hdown.packets_eq, hdown.left_last, hoffered, hdown.kept,
      hends, hdown.gone, ?_, hdown.stats_eq⟩
    rw [hdown.stats_eq, tally, List.length_eq_length_filter_add (l := offers) Offer.isTaken]
    dsimp only
    omega

end Wwan.Bridge
