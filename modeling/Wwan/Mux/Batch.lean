import Wwan.Mux.Draft

/-!
# Packets in frames

A data frame holds packets, each behind sixteen zeros, and a trailer that tells where they are: a
reserved word, and the place and the length of each, with its zeros.  A control frame opens the data
channel.
-/

namespace Wwan

/-- The settings of the mux channel. -/
structure MuxConfig where
  /-- The size of the largest frame. -/
  maxFrame : Nat := 4096
  /-- The largest number of packets in one frame; zero stands for one. -/
  maxPackets : Nat := 4
  deriving DecidableEq

/-- Packets that are to be sent in one frame. -/
structure Batch where
  draft : Draft
  /-- The place and the length of each packet with its zeros. -/
  bounds : List (Nat × Nat)
  maxFrame : Nat
  maxPackets : Nat

namespace Batch

/-- The number of zeros before a packet. -/
def preamble : Nat := 16

/-- The size of the trailer's reserved word. -/
def reserved : Nat := 4

/-- The size of what the trailer tells about one packet. -/
def boundSize : Nat := 8

/-- A batch without packets. -/
def start (sequence : UInt8) (config : MuxConfig) : Batch where
  draft := .withFirstTag sequence.toUInt16 .adbh [] 0
  bounds := []
  maxFrame := config.maxFrame
  maxPackets := max config.maxPackets 1

/-- The number of packets. -/
def count (b : Batch) : Nat :=
  b.bounds.length

/-- The size of the finished frame with one more packet of `n` bytes. -/
def sizeWith (n : Nat) (b : Batch) : Nat :=
  Draft.align (b.draft.size + preamble + n) + Frame.headerSize + reserved
    + (b.count + 1) * boundSize

/-- Whether one more packet of `n` bytes can be added. -/
def fits (n : Nat) (b : Batch) : Bool :=
  b.count < b.maxPackets && b.sizeWith n ≤ b.maxFrame

/-- Adds a packet. -/
def push (packet : Bytes) (b : Batch) : Except FrameError Unit × Batch :=
  if b.maxPackets ≤ b.count then (.error (.tooManyPackets b.maxPackets), b)
  else
    let size := b.sizeWith packet.length
    if b.maxFrame < size then (.error (.frameTooLarge size b.maxFrame), b)
    else
      match b.draft.extend (Bytes.zeros preamble ++ packet) with
      | (.error e, draft) => (.error e, { b with draft })
      | (.ok (), draft) =>
        let bound := (b.draft.size, preamble + packet.length)
        (.ok (), { b with draft, bounds := b.bounds ++ [bound] })

/-- The trailer that tells where the packets are. -/
def trailer (bounds : List (Nat × Nat)) : Bytes :=
  Bytes.zeros reserved
    ++ bounds.flatMap fun (offset, length) => Bytes.ofNatLE 4 offset ++ Bytes.ofNatLE 4 length

/-- The bytes of the finished frame. -/
def finish (b : Batch) : Except FrameError Bytes :=
  match b.draft.append .adth (trailer b.bounds) 0 with
  | (.ok (), draft) => draft.finish
  | (.error e, _) => .error e

end Batch

namespace Frame

/-- The frame of a single packet. -/
def ofPacket (config : MuxConfig) (sequence : UInt8) (packet : Bytes) : Except FrameError Bytes :=
  match (Batch.start sequence config).push packet with
  | (.ok (), b) => b.finish
  | (.error e, _) => .error e

/-- The frame that opens the data channel. -/
def openChannel : Except FrameError Bytes :=
  let draft := Draft.withFirstTag 0 .acbh [] 0
  match draft.append .cmdh ([1, 0, 0, 0].flatMap Bytes.ofWordLE) 0 with
  | (.ok (), draft) => draft.finish
  | (.error e, _) => .error e

/-- A packet without the zeros before it: no packet starts with that many. -/
def stripPreamble (region : Bytes) : Bytes :=
  if region.take Batch.preamble = Bytes.zeros Batch.preamble then region.drop Batch.preamble
  else region

/-- The places and lengths in a trailer, behind its reserved word. -/
def boundsOf : Bytes → List (Nat × Nat)
  | a :: b :: c :: d :: e :: f :: g :: h :: rest =>
    (Bytes.toNatLE [a, b, c, d], Bytes.toNatLE [e, f, g, h]) :: boundsOf rest
  | _ => []

/-- The packets of a data frame, as its trailer lists them.  They may lie anywhere in the buffer. -/
def packets (buffer : Bytes) : Except FrameError (List Bytes) := do
  let frame ← parse buffer
  let _ ← frame.expectTag 0 .adbh
  let trailer ← frame.expectTag 1 .adth
  if trailer.payload.length < Batch.reserved then
    throw (.malformed (trailer.offset + headerSize) buffer.length
      "trailer shorter than its reserved word")
  (boundsOf (trailer.payload.drop Batch.reserved)).mapM fun (offset, length) => do
    return stripPreamble (← slice buffer offset length)

/-- The packets of a frame; none if it is no data frame. -/
def packetsIfAny (buffer : Bytes) : Except FrameError (List Bytes) :=
  match packets buffer with
  | .error (.unexpectedTag _ _ _) => .ok []
  | .error (.missingTag _) => .ok []
  | r => r

end Frame

end Wwan
