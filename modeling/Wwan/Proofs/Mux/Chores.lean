import Wwan.Proofs.Mux.Counters

/-!
# The chores of a direction

What a direction of a bridge does follows from what it reads: each unit leaves chores behind, and the
chores are done one after the other at the sink (`work`).  The uplink stops at the first write that fails
(`workedUp_drainUp`), the downlink at the first that tells that the tunnel is gone (`workedDown_drainDown`).
-/

namespace Wwan

/-- The counters of one direction. -/
structure Score where
  packets : Nat
  bytes : Nat
  dropped : Nat
  deriving DecidableEq

namespace Score

/-- Counts a packet of `n` bytes that was carried. -/
def count (n : Nat) (s : Score) : Score :=
  { s with packets := s.packets + 1, bytes := s.bytes + n }

/-- Counts something that was dropped. -/
def drop (s : Score) : Score :=
  { s with dropped := s.dropped + 1 }

end Score

namespace BridgeStats

/-- The counters of the uplink. -/
def up (s : BridgeStats) : Score :=
  ⟨s.packetsUp, s.bytesUp, s.dropped⟩

/-- The counters of the downlink. -/
def down (s : BridgeStats) : Score :=
  ⟨s.packetsDown, s.bytesDown, s.dropped⟩

def setUp (score : Score) (s : BridgeStats) : BridgeStats :=
  { s with packetsUp := score.packets, bytesUp := score.bytes, dropped := score.dropped }

def setDown (score : Score) (s : BridgeStats) : BridgeStats :=
  { s with packetsDown := score.packets, bytesDown := score.bytes, dropped := score.dropped }

@[simp] theorem setUp_inj {score score' : Score} {s : BridgeStats} :
    s.setUp score = s.setUp score' ↔ score = score' := by
  constructor
  · intro h
    have hup : (s.setUp score).up = (s.setUp score').up := congrArg up h
    exact hup
  · exact congrArg (setUp · s)

@[simp] theorem setDown_inj {score score' : Score} {s : BridgeStats} :
    s.setDown score = s.setDown score' ↔ score = score' := by
  constructor
  · intro h
    have hdown : (s.setDown score).down = (s.setDown score').down := congrArg down h
    exact hdown
  · exact congrArg (setDown · s)

end BridgeStats

/-! ## Chores -/

/-- What is left to do for what a direction has read. -/
inductive Chore where
  /-- Counts a unit that cannot be carried. -/
  | drop
  /-- Writes a unit for a packet of this size. -/
  | write (unit : Bytes) (size : Nat)
  /-- The source stops. -/
  | stop (e : FrameError)

/-- What chores come to. -/
structure Done where
  stop : Option FrameError
  sink : Sink
  score : Score

/-- Does chores one after the other, until one is to stop or a write fails with an error that ends the
direction; after any other error the unit counts as dropped. -/
def work (ends : FrameError → Bool) : List Chore → Sink → Score → Done
  | [], sink, score => ⟨none, sink, score⟩
  | .drop :: rest, sink, score => work ends rest sink score.drop
  | .stop e :: _, sink, score => ⟨some e, sink, score⟩
  | .write unit size :: rest, sink, score =>
    match Bridge.writeUnit unit sink with
    | (.ok (), sink) => work ends rest sink (score.count size)
    | (.error e, sink) => if ends e then ⟨some e, sink, score⟩ else work ends rest sink score.drop

section Work

variable {ends : FrameError → Bool} {chores more : List Chore} {sink sink' : Sink} {score : Score}
  {unit : Bytes} {size : Nat}

theorem work_write_ok (h : Bridge.writeUnit unit sink = (.ok (), sink')) :
    work ends (.write unit size :: more) sink score = work ends more sink' (score.count size) := by
  rw [work, h]

theorem work_write_ends {e : FrameError} (h : Bridge.writeUnit unit sink = (.error e, sink'))
    (hends : ends e) : work ends (.write unit size :: more) sink score = ⟨some e, sink', score⟩ := by
  rw [work, h]
  exact if_pos hends

theorem work_write_drops {e : FrameError} (h : Bridge.writeUnit unit sink = (.error e, sink'))
    (hends : ¬ends e) :
    work ends (.write unit size :: more) sink score = work ends more sink' score.drop := by
  rw [work, h]
  exact if_neg hends

/-- Chores behind those that stop the direction are left, and other ones are done after them. -/
theorem work_append :
    work ends (chores ++ more) sink score =
      match work ends chores sink score with
      | ⟨some e, sink, score⟩ => ⟨some e, sink, score⟩
      | ⟨none, sink, score⟩ => work ends more sink score := by
  induction chores generalizing sink score with
  | nil => rfl
  | cons chore rest ih =>
    cases chore with
    | drop => exact ih
    | stop e => rfl
    | write unit size =>
      rw [List.cons_append]
      rcases hwrite : Bridge.writeUnit unit sink with ⟨e | ⟨⟩, sink'⟩
      · by_cases hends : ends e
        · rw [work_write_ends hwrite hends, work_write_ends hwrite hends]
        · rw [work_write_drops hwrite hends, work_write_drops hwrite hends]
          exact ih
      · rw [work_write_ok hwrite, work_write_ok hwrite]
        exact ih

end Work

namespace Bridge

/-- The chores of an intake, of which the units leave these. -/
def Intake.chores (i : Intake) (ofUnits : List Bytes → List Chore) : List Chore :=
  ofUnits i.units ++ (i.stop.map .stop).toList

/-! ## The uplink -/

/-- The chores of the uplink: each unit takes a number, and its frame is to be written if it has one. -/
def choresUp (config : MuxConfig) : Sequence → List Bytes → List Chore
  | _, [] => []
  | sequence, unit :: rest =>
    (match Frame.ofPacket config sequence.advance.last unit with
      | .ok frame => .write frame unit.length
      | .error _ => .drop) :: choresUp config sequence.advance rest

/-- All chores of the uplink of a bridge. -/
def todoUp (b : Bridge) : List Chore :=
  (intake b.fromTunnel).chores (choresUp b.config b.sequence)

/-- The uplink of a bridge has come to what chores come to. -/
structure WorkedUp (b : Bridge) (d : Done) (r : Option FrameError × Bridge) : Prop where
  stop_eq : r.1 = d.stop
  toMux_eq : r.2.toMux = d.sink
  toTunnel_eq : r.2.toTunnel = b.toTunnel
  stats_eq : r.2.stats = b.stats.setUp d.score

section TodoUp

variable {b : Bridge} {s : Source}

theorem todoUp_unit {unit : Bytes} (hdry : ¬b.fromTunnel.isDry)
    (hread : readUnit b.fromTunnel = (.unit unit, s)) :
    b.todoUp = (match Frame.ofPacket b.config b.sequence.advance.last unit with
      | .ok frame => .write frame unit.length
      | .error _ => .drop) :: todoUp { b with fromTunnel := s, sequence := b.sequence.advance } := by
  rw [todoUp, intake_unit hdry hread]
  rfl

theorem todoUp_again (hdry : ¬b.fromTunnel.isDry) (hread : readUnit b.fromTunnel = (.again, s)) :
    b.todoUp = todoUp { b with fromTunnel := s } := by
  rw [todoUp, intake_again hdry hread]
  rfl

theorem todoUp_stop {e : FrameError} (hdry : ¬b.fromTunnel.isDry)
    (hread : readUnit b.fromTunnel = (.stop e, s)) : b.todoUp = [.stop e] := by
  rw [todoUp, intake_stop hdry hread]
  rfl

end TodoUp

theorem workedUp_drainUp (b : Bridge) :
    WorkedUp b (work (fun _ => true) b.todoUp b.toMux b.stats.up) b.drainUp := by
  -- a step does the first chore
  fun_induction drainUp with
  | case1 b hdry =>
    rw [todoUp, intake_dry hdry]
    exact ⟨rfl, rfl, rfl, rfl⟩
  | case2 b hdry b' hstep ih =>
    have hstepped : SteppedUp b (none, b') := hstep ▸ steppedUp_stepUp b
    cases hstepped with
    | again read =>
      rw [todoUp_again hdry read]
      exact ⟨ih.stop_eq, ih.toMux_eq, ih.toTunnel_eq, ih.stats_eq⟩
    | dropped read unframed =>
      rw [todoUp_unit hdry read, unframed]
      exact ⟨ih.stop_eq, ih.toMux_eq, ih.toTunnel_eq, ih.stats_eq⟩
    | carried read framed write =>
      rw [todoUp_unit hdry read, framed]
      dsimp only
      rw [work_write_ok write]
      exact ⟨ih.stop_eq, ih.toMux_eq, ih.toTunnel_eq, ih.stats_eq⟩
  | case3 b hdry e b' hstep =>
    have hstepped : SteppedUp b (some e, b') := hstep ▸ steppedUp_stepUp b
    cases hstepped with
    | stopped read =>
      rw [todoUp_stop hdry read]
      exact ⟨rfl, rfl, rfl, rfl⟩
    | refused read framed write =>
      rw [todoUp_unit hdry read, framed]
      dsimp only
      rw [work_write_ends write rfl]
      exact ⟨rfl, rfl, rfl, rfl⟩

/-! ## The downlink -/

/-- The chores that a unit leaves to the downlink: its packets are to be written. -/
def choresDown (unit : Bytes) : List Chore :=
  match Frame.packetsIfAny unit with
  | .ok packets => packets.map fun packet => .write packet packet.length
  | .error _ => [.drop]

/-- All chores that a source leaves to the downlink. -/
def todoDown (s : Source) : List Chore :=
  (intake s).chores (·.flatMap choresDown)

/-- The downlink of a bridge has come to what chores come to. -/
structure WorkedDown (b : Bridge) (d : Done) (r : Option FrameError × Bridge) : Prop where
  stop_eq : r.1 = d.stop
  toTunnel_eq : r.2.toTunnel = d.sink
  toMux_eq : r.2.toMux = b.toMux
  stats_eq : r.2.stats = b.stats.setDown d.score

theorem workedDown_carryDown (packets : List Bytes) (b : Bridge) :
    WorkedDown b (work isGone (packets.map fun packet => .write packet packet.length) b.toTunnel b.stats.down)
      (carryDown packets b) := by
  fun_induction carryDown with
  | case1 b => exact ⟨rfl, rfl, rfl, rfl⟩
  | case2 packet rest b toTunnel hwrite ih =>
    rw [List.map_cons, work_write_ok hwrite]
    exact ⟨ih.stop_eq, ih.toTunnel_eq, ih.toMux_eq, ih.stats_eq⟩
  | case3 packet rest b f toTunnel hwrite _ hgone =>
    rw [List.map_cons, work_write_ends hwrite (decide_eq_true hgone)]
    exact ⟨rfl, rfl, rfl, rfl⟩
  | case4 packet rest b f toTunnel hwrite _ hkept ih =>
    rw [List.map_cons, work_write_drops hwrite (fun hgone => hkept (of_decide_eq_true hgone))]
    exact ⟨ih.stop_eq, ih.toTunnel_eq, ih.toMux_eq, ih.stats_eq⟩
  | case5 packet rest b e toTunnel hother hwrite =>
    have hgone : isGone e := by
      cases e with
      | fault f => exact absurd rfl (hother f)
      | _ => rfl
    rw [List.map_cons, work_write_ends hwrite hgone]
    exact ⟨rfl, rfl, rfl, rfl⟩

theorem workedDown_carryUnitDown (unit : Bytes) (b : Bridge) :
    WorkedDown b (work isGone (choresDown unit) b.toTunnel b.stats.down) (b.carryUnitDown unit) := by
  rw [carryUnitDown, choresDown]
  cases Frame.packetsIfAny unit with
  | error e => exact ⟨rfl, rfl, rfl, rfl⟩
  | ok packets => exact workedDown_carryDown packets b

theorem fromMux_carryUnitDown (unit : Bytes) (b : Bridge) : (b.carryUnitDown unit).2.fromMux = b.fromMux := by
  rw [carryUnitDown]
  cases Frame.packetsIfAny unit with
  | error e => rfl
  | ok packets => exact fromMux_carryDown packets b

section TodoDown

variable {s s' : Source}

theorem todoDown_unit {unit : Bytes} (hdry : ¬s.isDry) (hread : readUnit s = (.unit unit, s')) :
    todoDown s = choresDown unit ++ todoDown s' := by
  rw [todoDown, intake_unit hdry hread, Intake.chores, List.flatMap_cons, List.append_assoc]
  rfl

theorem todoDown_again (hdry : ¬s.isDry) (hread : readUnit s = (.again, s')) :
    todoDown s = todoDown s' := by
  rw [todoDown, intake_again hdry hread]
  rfl

theorem todoDown_stop {e : FrameError} (hdry : ¬s.isDry) (hread : readUnit s = (.stop e, s')) :
    todoDown s = [.stop e] := by
  rw [todoDown, intake_stop hdry hread]
  rfl

end TodoDown

theorem workedDown_drainDown (b : Bridge) :
    WorkedDown b (work isGone (todoDown b.fromMux) b.toTunnel b.stats.down) b.drainDown := by
  -- a step does the chores of the unit that it reads
  fun_induction drainDown with
  | case1 b hdry =>
    rw [todoDown, intake_dry hdry]
    exact ⟨rfl, rfl, rfl, rfl⟩
  | case2 b hdry b' hstep ih =>
    rcases hread : readUnit b.fromMux with ⟨a, s⟩
    rw [stepDown_eq hread] at hstep
    cases a with
    | stop e => cases hstep
    | again =>
      cases hstep
      rw [todoDown_again hdry hread]
      exact ⟨ih.stop_eq, ih.toTunnel_eq, ih.toMux_eq, ih.stats_eq⟩
    | unit unit =>
      replace hstep : carryUnitDown unit { b with fromMux := s } = (none, b') := hstep
      have hfrom := fromMux_carryUnitDown unit { b with fromMux := s }
      obtain ⟨hstop, htunnel, hmux, hstats⟩ := workedDown_carryUnitDown unit { b with fromMux := s }
      rw [hstep] at hfrom hstop htunnel hmux hstats
      rw [todoDown_unit hdry hread, work_append]
      generalize work isGone (choresDown unit) b.toTunnel b.stats.down = d at hstop htunnel hmux hstats
      obtain ⟨stop, sink, score⟩ := d
      obtain rfl : stop = none := hstop.symm
      have hdown : b'.stats.down = score := congrArg BridgeStats.down hstats
      rw [hfrom, htunnel, hdown] at ih
      exact ⟨ih.stop_eq, ih.toTunnel_eq, ih.toMux_eq.trans hmux, ih.stats_eq.trans (hstats ▸ rfl)⟩
  | case3 b hdry e b' hstep =>
    rcases hread : readUnit b.fromMux with ⟨a, s⟩
    rw [stepDown_eq hread] at hstep
    cases a with
    | stop e =>
      cases hstep
      rw [todoDown_stop hdry hread]
      exact ⟨rfl, rfl, rfl, rfl⟩
    | again => cases hstep
    | unit unit =>
      replace hstep : carryUnitDown unit { b with fromMux := s } = (some e, b') := hstep
      obtain ⟨hstop, htunnel, hmux, hstats⟩ := workedDown_carryUnitDown unit { b with fromMux := s }
      rw [hstep] at hstop htunnel hmux hstats
      rw [todoDown_unit hdry hread, work_append]
      generalize work isGone (choresDown unit) b.toTunnel b.stats.down = d at hstop htunnel hmux hstats
      obtain ⟨stop, sink, score⟩ := d
      obtain rfl : stop = some e := hstop.symm
      exact ⟨rfl, htunnel, hmux, hstats⟩

end Bridge

end Wwan
