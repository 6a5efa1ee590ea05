import Wwan.Mux.Batch
import Wwan.Mux.Sequence
import Wwan.Stream.Sink
import Wwan.Stream.Source

/-!
# The bridge

The bridge carries packets between a tunnel and the mux channel: packets that it reads from the tunnel
go out in a frame each, and the packets of the frames that it reads from the mux channel go to the
tunnel.  A direction stops when its source has ended or its sink is gone; what cannot be carried is
dropped.
-/

namespace Wwan

/-- The counters of a bridge. -/
structure BridgeStats where
  packetsUp : Nat := 0
  bytesUp : Nat := 0
  packetsDown : Nat := 0
  bytesDown : Nat := 0
  /-- What was dropped in either direction. -/
  dropped : Nat := 0
  deriving DecidableEq

/-- The directions of a bridge. -/
inductive Direction where
  /-- From the tunnel to the mux channel. -/
  | uplink
  /-- From the mux channel to the tunnel. -/
  | downlink
  deriving DecidableEq

/-- The text of a direction. -/
def Direction.text : Direction → String
  | uplink => "uplink"
  | downlink => "downlink"

/-- A bridge between its four ends. -/
structure Bridge where
  config : MuxConfig := {}
  /-- The sequence number of the last frame. -/
  sequence : Sequence := {}
  stats : BridgeStats := {}
  fromTunnel : Source := {}
  toTunnel : Sink := {}
  fromMux : Source := {}
  toMux : Sink := {}

namespace Bridge

/-- The number of bytes asked for by one read. -/
def readSize : Nat := 65536

/-- Writes a unit, which has to be taken by a single write, and flushes.  An interrupted write is made
again. -/
def writeUnit (data : Bytes) (s : Sink) : Except FrameError Unit × Sink :=
  match _h : s.write data with
  | (.ok n, s') =>
    if n = 0 then (.error .closed, s')
    else if n = data.length then
      let (r, s'') := s'.flush
      (r.mapError .fault, s'')
    else (.error (.fault ⟨.other, s!"short write: {n} of {data.length} bytes"⟩), s')
  | (.error f, s') =>
    if f.kind = .interrupted then writeUnit data s' else (.error (.fault f), s')
termination_by s.writes.length
decreasing_by exact Sink.writes_write_error _h

/-- What a read gives. -/
inductive Arrival where
  | unit (data : Bytes)
  /-- The read was interrupted and is to be made again. -/
  | again
  | stop (e : FrameError)

/-- One read. -/
def readUnit (s : Source) : Arrival × Source :=
  match s.read readSize with
  | (.ok [], s) => (.stop .closed, s)
  | (.ok (x :: xs), s) => (.unit (x :: xs), s)
  | (.error f, s) => (if f.kind = .interrupted then .again else .stop (.fault f), s)

/-- Opens the data channel. -/
def openChannel (b : Bridge) : Except FrameError Unit × Bridge :=
  match Frame.openChannel with
  | .error e => (.error e, b)
  | .ok frame =>
    let (r, toMux) := writeUnit frame b.toMux
    (r, { b with toMux })

/-- Counts something that is dropped. -/
def drop (b : Bridge) : Bridge :=
  { b with stats := { b.stats with dropped := b.stats.dropped + 1 } }

/-- Counts a packet of `n` bytes that went up. -/
def countUp (n : Nat) (b : Bridge) : Bridge :=
  { b with stats := { b.stats with
      packetsUp := b.stats.packetsUp + 1, bytesUp := b.stats.bytesUp + n } }

/-- Counts a packet of `n` bytes that went down. -/
def countDown (n : Nat) (b : Bridge) : Bridge :=
  { b with stats := { b.stats with
      packetsDown := b.stats.packetsDown + 1, bytesDown := b.stats.bytesDown + n } }

/-- Carries a packet up, in a frame with the next sequence number.  The error is that for which the
direction stops. -/
def carryUp (packet : Bytes) (b : Bridge) : Option FrameError × Bridge :=
  let b := { b with sequence := b.sequence.advance }
  match Frame.ofPacket b.config b.sequence.last packet with
  | .error _ => (none, b.drop)
  | .ok frame =>
    match writeUnit frame b.toMux with
    | (.error e, toMux) => (some e, { b with toMux })
    | (.ok (), toMux) => (none, { b with toMux }.countUp packet.length)

/-- Carries packets down.  A packet that the tunnel refuses is dropped; when the tunnel is gone the
direction stops. -/
def carryDown : List Bytes → Bridge → Option FrameError × Bridge
  | [], b => (none, b)
  | packet :: rest, b =>
    match writeUnit packet b.toTunnel with
    | (.ok (), toTunnel) => carryDown rest ({ b with toTunnel }.countDown packet.length)
    | (.error (.fault f), toTunnel) =>
      let b := { b with toTunnel }
      if f.kind = .brokenPipe then (some (.fault f), b) else carryDown rest b.drop
    | (.error e, toTunnel) => (some e, { b with toTunnel })

/-- Carries the packets of a unit down; a malformed frame is dropped. -/
def carryUnitDown (unit : Bytes) (b : Bridge) : Option FrameError × Bridge :=
  match Frame.packetsIfAny unit with
  | .error _ => (none, b.drop)
  | .ok packets => carryDown packets b

/-- One read from the tunnel, and what follows from it. -/
def stepUp (b : Bridge) : Option FrameError × Bridge :=
  let (arrival, fromTunnel) := readUnit b.fromTunnel
  let b := { b with fromTunnel }
  match arrival with
  | .unit data => b.carryUp data
  | .again => (none, b)
  | .stop e => (some e, b)

/-- One read from the mux channel, and what follows from it. -/
def stepDown (b : Bridge) : Option FrameError × Bridge :=
  let (arrival, fromMux) := readUnit b.fromMux
  let b := { b with fromMux }
  match arrival with
  | .unit data => b.carryUnitDown data
  | .again => (none, b)
  | .stop e => (some e, b)

/-! ## Running -/

/-- A read that is not the last takes something from the source. -/
theorem load_readUnit {s s' : Source} {a : Arrival} (h : readUnit s = (a, s'))
    (ha : ∀ e, a ≠ .stop e) : s'.load < s.load := by
  unfold readUnit at h
  split at h
  · next heq =>
    cases h
    exact absurd rfl (ha .closed)
  · next heq =>
    cases h
    exact Source.load_read_ok heq
  · next heq =>
    cases h
    exact Source.load_read_error heq

theorem fromTunnel_carryUp (packet : Bytes) (b : Bridge) :
    (b.carryUp packet).2.fromTunnel = b.fromTunnel := by
  simp only [carryUp]
  split
  · rfl
  · split <;> rfl

theorem fromMux_carryDown (packets : List Bytes) (b : Bridge) :
    (carryDown packets b).2.fromMux = b.fromMux := by
  induction packets generalizing b with
  | nil => rfl
  | cons p ps ih =>
    unfold carryDown
    split
    · rw [ih]; rfl
    · dsimp only
      split
      · rfl
      · rw [ih]; rfl
    · rfl

theorem load_stepUp {b b' : Bridge} (h : b.stepUp = (none, b')) :
    b'.fromTunnel.load < b.fromTunnel.load := by
  unfold stepUp at h
  generalize hr : readUnit b.fromTunnel = r at h
  obtain ⟨a, s⟩ := r
  cases a with
  | stop e => cases h
  | again =>
    cases h
    exact load_readUnit hr (by simp)
  | unit data =>
    have hs := load_readUnit hr (by simp)
    have := fromTunnel_carryUp data { b with fromTunnel := s }
    simp only at h
    rw [h] at this
    rw [this]
    exact hs

theorem load_stepDown {b b' : Bridge} (h : b.stepDown = (none, b')) :
    b'.fromMux.load < b.fromMux.load := by
  unfold stepDown at h
  generalize hr : readUnit b.fromMux = r at h
  obtain ⟨a, s⟩ := r
  cases a with
  | stop e => cases h
  | again =>
    cases h
    exact load_readUnit hr (by simp)
  | unit data =>
    have hs := load_readUnit hr (by simp)
    simp only [carryUnitDown] at h
    split at h
    · cases h
      exact hs
    · next packets _ =>
      have := fromMux_carryDown packets { b with fromMux := s }
      rw [h] at this
      rw [this]
      exact hs

/-- Carries up what the tunnel has to give, until it has nothing or the direction stops. -/
def drainUp (b : Bridge) : Option FrameError × Bridge :=
  if b.fromTunnel.isDry then (none, b)
  else match _h : b.stepUp with
    | (none, b') => drainUp b'
    | (some e, b') => (some e, b')
termination_by b.fromTunnel.load
decreasing_by exact load_stepUp _h

/-- Carries down what the mux channel has to give, until it has nothing or the direction stops. -/
def drainDown (b : Bridge) : Option FrameError × Bridge :=
  if b.fromMux.isDry then (none, b)
  else match _h : b.stepDown with
    | (none, b') => drainDown b'
    | (some e, b') => (some e, b')
termination_by b.fromMux.load
decreasing_by exact load_stepDown _h

/-- Carries in both directions until there is nothing to carry, or until one direction stops. -/
def drain (b : Bridge) : Option (Direction × FrameError) × Bridge :=
  match b.drainUp with
  | (some e, b) => (some (.uplink, e), b)
  | (none, b) =>
    match b.drainDown with
    | (some e, b) => (some (.downlink, e), b)
    | (none, b) => (none, b)

end Bridge

end Wwan
