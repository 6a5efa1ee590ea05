import Wwan.Mux.Batch
import Wwan.Proofs.Mux.Edits

/-!
# Packets come out of frames as they went in

The data tag of a batch holds the packets that were taken, each behind its zeros, and the table of the
trailer says where they are (`Holds`).  A push either leaves the batch as it is or adds a packet to both.
Of the finished frame the table is read as it was written, and each of its rows leads to a packet with the
zeros before it, of which just those are stripped: `packets_undoes_pushes`.
-/

namespace Wwan

namespace Batch

/-! ## What a batch holds -/

/-- The bytes of packets, each behind its zeros. -/
def regions (packets : List Bytes) : Bytes :=
  packets.flatMap fun packet => Bytes.zeros preamble ++ packet

/-- Where packets are that start at a place, and how long they are with their zeros. -/
def places (offset : Nat) : List Bytes → List (Nat × Nat)
  | [] => []
  | packet :: rest =>
    (offset, preamble + packet.length) :: places (offset + (preamble + packet.length)) rest

theorem regions_cons (packet : Bytes) (rest : List Bytes) :
    regions (packet :: rest) = Bytes.zeros preamble ++ packet ++ regions rest := rfl

theorem regions_concat (packets : List Bytes) (packet : Bytes) :
    regions (packets ++ [packet]) = regions packets ++ (Bytes.zeros preamble ++ packet) := by
  rw [regions, regions, List.flatMap_append, List.flatMap_singleton]

theorem places_concat (offset : Nat) (packets : List Bytes) (packet : Bytes) :
    places offset (packets ++ [packet])
      = places offset packets ++ [(offset + (regions packets).length, preamble + packet.length)] := by
  induction packets generalizing offset with
  | nil => rfl
  | cons p rest ih =>
    rw [List.cons_append, places, ih, places, regions_cons, List.length_append, List.length_append,
      Bytes.length_zeros, List.cons_append, Nat.add_assoc]

/-- No packet reaches beyond the bytes of all packets. -/
theorem le_of_mem_places {offset place length : Nat} {packets : List Bytes}
    (h : (place, length) ∈ places offset packets) : place + length ≤ offset + (regions packets).length := by
  induction packets generalizing offset with
  | nil => cases h
  | cons p rest ih =>
    rw [regions_cons, List.length_append, List.length_append, Bytes.length_zeros]
    obtain h | h := List.mem_cons.mp h
    · cases h
      omega
    · have := ih h
      omega

/-- The data tag of packets. -/
def dataTag (packets : List Bytes) : DraftTag :=
  ⟨.adbh, 0, regions packets⟩

/-- A batch that holds packets. -/
structure Holds (sequence : UInt16) (packets : List Bytes) (b : Batch) : Prop where
  draft_eq : b.draft = ⟨sequence, [dataTag packets]⟩
  bounds_eq : b.bounds = places Frame.firstHeaderSize packets

theorem holds_start (sequence : UInt8) (config : MuxConfig) :
    Holds sequence.toUInt16 [] (start sequence config) :=
  ⟨rfl, rfl⟩

/-- The data tag of a batch can always be extended. -/
theorem extend_dataTag (sequence : UInt16) (packets : List Bytes) (packet : Bytes) :
    Draft.extend (Bytes.zeros preamble ++ packet) ⟨sequence, [dataTag packets]⟩
      = (.ok (), ⟨sequence, [dataTag (packets ++ [packet])]⟩) := by
  rw [dataTag, dataTag, regions_concat]
  rfl

/-- A packet is added, or the batch stays as it is. -/
theorem Holds.push {sequence : UInt16} {packets : List Bytes} {b : Batch} (h : Holds sequence packets b)
    (packet : Bytes) :
    (∃ e, b.push packet = (.error e, b)) ∨
      ∃ b', b.push packet = (.ok (), b') ∧ Holds sequence (packets ++ [packet]) b' := by
  rw [Batch.push]
  by_cases hcount : b.maxPackets ≤ b.count
  · exact .inl ⟨_, if_pos hcount⟩
  · rw [if_neg hcount]
    by_cases hsize : b.maxFrame < b.sizeWith packet.length
    · exact .inl ⟨_, if_pos hsize⟩
    · rw [if_neg hsize, h.draft_eq, extend_dataTag]
      refine .inr ⟨_, rfl, rfl, ?_⟩
      rw [h.bounds_eq, places_concat]
      rfl

/-- Adds packets one after the other. -/
def after (pushes : List Bytes) (b : Batch) : Batch :=
  pushes.foldl (fun b packet => (b.push packet).2) b

/-- Those of packets added one after the other that are taken. -/
def taken : List Bytes → Batch → List Bytes
  | [], _ => []
  | packet :: rest, b =>
    match b.push packet with
    | (.ok (), b') => packet :: taken rest b'
    | (.error _, b') => taken rest b'

/-- What every push keeps, with the packet if it is taken, is kept by pushes one after the other. -/
theorem after_induction {P : List Bytes → Batch → Prop}
    (hok : ∀ packets packet b b', P packets b → b.push packet = (.ok (), b') → P (packets ++ [packet]) b')
    (herror : ∀ packets packet b b' e, P packets b → b.push packet = (.error e, b') → P packets b')
    {packets : List Bytes} {b : Batch} (h : P packets b) (pushes : List Bytes) :
    P (packets ++ taken pushes b) (after pushes b) := by
  induction pushes generalizing packets b with
  | nil =>
    rw [taken, List.append_nil]
    exact h
  | cons packet rest ih =>
    rw [taken, after, List.foldl_cons]
    rcases hpush : b.push packet with ⟨e | ⟨⟩, b'⟩
    · exact ih (herror packets packet b b' e h hpush)
    · dsimp only
      rw [List.append_cons]
      exact ih (hok packets packet b b' h hpush)

/-- A batch holds what it has taken. -/
theorem Holds.after {sequence : UInt16} {packets : List Bytes} {b : Batch} (h : Holds sequence packets b)
    (pushes : List Bytes) : Holds sequence (packets ++ taken pushes b) (after pushes b) := by
  refine after_induction (fun packets packet b b' h hpush => ?_)
    (fun packets packet b b' e h hpush => ?_) h pushes
  · obtain ⟨e, heq⟩ | ⟨c, heq, hholds⟩ := h.push packet
    · cases hpush.symm.trans heq
    · cases hpush.symm.trans heq
      exact hholds
  · obtain ⟨e, heq⟩ | ⟨c, heq, hholds⟩ := h.push packet
    · cases hpush.symm.trans heq
      exact h
    · cases hpush.symm.trans heq

/-! ## What is read of a batch -/

/-- The trailer of packets. -/
def trailerTag (packets : List Bytes) : DraftTag :=
  ⟨.adth, 0, trailer (places Frame.firstHeaderSize packets)⟩

/-- The size of the frame of packets. -/
def frameSize (packets : List Bytes) : Nat :=
  Draft.stopFrom (Draft.firstStop (dataTag packets)) [trailerTag packets]

/-- A batch is finished by writing its packets and its trailer, unless they are too long. -/
theorem Holds.finish {sequence : UInt16} {packets : List Bytes} {b : Batch} {bytes : Bytes}
    (h : Holds sequence packets b) (hfinish : b.finish = .ok bytes) :
    (trailerTag packets).payload.length ≤ Draft.payloadLimit ∧
      frameSize packets < Bytes.bound 4 ∧
      bytes = Draft.render sequence (frameSize packets) (dataTag packets) [trailerTag packets] := by
  rw [Batch.finish, h.draft_eq, h.bounds_eq] at hfinish
  have hedited := Draft.edited (.append .adth (trailer (places Frame.firstHeaderSize packets)) 0)
    ⟨sequence, [dataTag packets]⟩
  rw [Draft.edit] at hedited
  generalize Draft.append .adth (trailer (places Frame.firstHeaderSize packets)) 0
    ⟨sequence, [dataTag packets]⟩ = r at hfinish hedited
  cases hedited with
  | appended hle =>
    dsimp only [Draft.finish, List.cons_append] at hfinish
    split at hfinish
    · cases hfinish
    · next hsize =>
      cases hfinish
      exact ⟨hle (List.cons_ne_nil _ _), Nat.lt_of_not_le hsize, rfl⟩
  | tagTooLarge => cases hfinish
  | frameTooLarge => cases hfinish

/-- What the trailer tells about one packet. -/
def row (bound : Nat × Nat) : Bytes :=
  Bytes.ofNatLE 4 bound.1 ++ Bytes.ofNatLE 4 bound.2

theorem trailer_eq (bounds : List (Nat × Nat)) :
    trailer bounds = Bytes.zeros reserved ++ bounds.flatMap row := rfl

/-- Four octets and four octets are one row. -/
theorem boundsOf_row (bound : Nat × Nat) (behind : Bytes) : Frame.boundsOf (row bound ++ behind)
    = (Bytes.toNatLE (Bytes.ofNatLE 4 bound.1), Bytes.toNatLE (Bytes.ofNatLE 4 bound.2))
      :: Frame.boundsOf behind := rfl

/-- A table is read as it was written. -/
theorem boundsOf_trailer {bounds : List (Nat × Nat)}
    (h : ∀ bound ∈ bounds, bound.1 < Bytes.bound 4 ∧ bound.2 < Bytes.bound 4) :
    Frame.boundsOf ((trailer bounds).drop reserved) = bounds := by
  rw [trailer_eq, List.drop_left' (Bytes.length_zeros reserved)]
  induction bounds with
  | nil => rfl
  | cons bound rest ih =>
    obtain ⟨hplace, hlength⟩ := h bound List.mem_cons_self
    rw [List.flatMap_cons, boundsOf_row, ih fun b hb => h b (List.mem_cons_of_mem bound hb),
      Bytes.toNatLE_ofNatLE, Bytes.toNatLE_ofNatLE, Nat.mod_eq_of_lt hplace, Nat.mod_eq_of_lt hlength]

/-- Of a packet behind its zeros those are stripped, and nothing of the packet. -/
theorem stripPreamble_region (packet : Bytes) :
    Frame.stripPreamble (Bytes.zeros preamble ++ packet) = packet := by
  have htake : (Bytes.zeros preamble ++ packet).take preamble = Bytes.zeros preamble :=
    List.take_left' (Bytes.length_zeros preamble)
  rw [Frame.stripPreamble, if_pos htake, List.drop_left' (Bytes.length_zeros preamble)]

/-- Packets are read where they were put. -/
theorem mapM_places {buffer before behind : Bytes} {offset : Nat} {packets : List Bytes}
    (hbuffer : buffer = before ++ (regions packets ++ behind)) (hoffset : before.length = offset) :
    ((places offset packets).mapM fun (place, length) => do
      return Frame.stripPreamble (← Frame.slice buffer place length) : Except FrameError (List Bytes))
        = .ok packets := by
  induction packets generalizing before offset with
  | nil => rfl
  | cons packet rest ih =>
    -- the packet stands first behind `before`, and the others behind it
    rw [regions_cons, List.append_assoc] at hbuffer
    have hlength : (Bytes.zeros preamble ++ packet).length = preamble + packet.length := by
      rw [List.length_append, Bytes.length_zeros]
    have hslice : Frame.slice buffer offset (preamble + packet.length)
        = .ok (Bytes.zeros preamble ++ packet) := by
      rw [Frame.slice_of_le, hbuffer, Frame.part_at hoffset hlength]
      rw [hbuffer, List.length_append, List.length_append, hlength]
      omega
    rw [← List.append_assoc] at hbuffer
    have hrest := ih hbuffer (by rw [List.length_append, hlength, hoffset])
    rw [places, List.mapM_cons, hrest]
    dsimp only
    rw [hslice]
    exact congrArg (fun p => Except.ok (p :: rest)) (stripPreamble_region packet)

/-- The rows of the table of packets hold their numbers. -/
theorem places_lt {packets : List Bytes} (hsize : frameSize packets < Bytes.bound 4) :
    ∀ bound ∈ places Frame.firstHeaderSize packets, bound.1 < Bytes.bound 4 ∧ bound.2 < Bytes.bound 4 := by
  rintro ⟨place, length⟩ hmem
  have hle : place + length ≤ Draft.firstStop (dataTag packets) := le_of_mem_places hmem
  have hstop : Draft.firstStop (dataTag packets) ≤ frameSize packets := Draft.le_stopFrom _ _
  exact ⟨by omega, by omega⟩

/-- A finished frame is read as it was written, whatever stands behind it. -/
theorem Holds.parse_eq {sequence : UInt16} {packets : List Bytes} {b : Batch} {bytes : Bytes}
    (h : Holds sequence packets b) (hfinish : b.finish = .ok bytes) (trailing : Bytes) :
    Frame.parse (bytes ++ trailing)
      = .ok (Draft.frameOf sequence (dataTag packets) [trailerTag packets]) := by
  obtain ⟨hle, hsize, hbytes⟩ := h.finish hfinish
  exact Draft.parse_render hbytes hsize (by simpa using hle) trailing

/-- The packets of a frame are those that its batch holds, whatever stands behind the frame. -/
theorem Holds.packets_eq {sequence : UInt16} {packets : List Bytes} {b : Batch} {bytes : Bytes}
    (h : Holds sequence packets b) (hfinish : b.finish = .ok bytes) (trailing : Bytes) :
    Frame.packets (bytes ++ trailing) = .ok packets := by
  obtain ⟨-, hsize, hbytes⟩ := h.finish hfinish
  have hdata : (Draft.frameOf sequence (dataTag packets) [trailerTag packets]).expectTag 0 .adbh
      = .ok ⟨.adbh, 0, 0, regions packets
          ++ Draft.padding [trailerTag packets] (Draft.firstStop (dataTag packets))⟩ := rfl
  have htrailer : (Draft.frameOf sequence (dataTag packets) [trailerTag packets]).expectTag 1 .adth
      = .ok ⟨.adth, 0, Draft.align (Draft.firstStop (dataTag packets)),
          trailer (places Frame.firstHeaderSize packets)⟩ := rfl
  have hlong : ¬(trailer (places Frame.firstHeaderSize packets)).length < reserved := by
    rw [trailer, List.length_append, Bytes.length_zeros]
    omega
  -- the places in the table count from the start of the frame
  have hbuffer : bytes ++ trailing
      = Draft.header sequence (frameSize packets) (Draft.align (Draft.firstStop (dataTag packets))) .adbh
        ++ (regions packets
          ++ (Draft.rendered (Draft.firstStop (dataTag packets)) [trailerTag packets] ++ trailing)) := by
    rw [hbytes, Draft.render_eq, List.append_assoc, List.append_assoc]
    rfl
  rw [Frame.packets, h.parse_eq hfinish trailing]
  simp only [bind, Except.bind, hdata, htrailer, if_neg hlong, boundsOf_trailer (places_lt hsize)]
  exact mapM_places hbuffer (Draft.length_header _ _ _ _)

/-- Of a finished frame exactly the packets are read that were taken, whatever stands behind the frame. -/
theorem packets_undoes_pushes (sequence : UInt8) (config : MuxConfig) (pushes : List Bytes) {bytes : Bytes}
    (h : (after pushes (start sequence config)).finish = .ok bytes) (trailing : Bytes) :
    Frame.packets (bytes ++ trailing) = .ok (taken pushes (start sequence config)) ∧
      Frame.packetsIfAny (bytes ++ trailing) = .ok (taken pushes (start sequence config)) := by
  have hpackets := ((holds_start sequence config).after pushes).packets_eq h trailing
  rw [Frame.packetsIfAny, hpackets]
  exact ⟨rfl, rfl⟩

/-- Neither an empty packet nor one that starts with zeros gets lost; the third one is refused. -/
theorem packets_undoes_pushes_zeros :
    ∃ bytes, (after [[], Bytes.zeros 17 ++ [5], [7]] (start 9 ⟨4096, 2⟩)).finish = .ok bytes ∧
      Frame.packets (bytes ++ [1]) = .ok [[], Bytes.zeros 17 ++ [5]] ∧
      Frame.packetsIfAny (bytes ++ [1]) = .ok [[], Bytes.zeros 17 ++ [5]] := by
  obtain ⟨bytes, hfinish⟩ : ∃ bytes,
      (after [[], Bytes.zeros 17 ++ [5], [7]] (start 9 ⟨4096, 2⟩)).finish = .ok bytes := ⟨_, rfl⟩
  have htaken : taken [[], Bytes.zeros 17 ++ [5], [7]] (start 9 ⟨4096, 2⟩) = [[], Bytes.zeros 17 ++ [5]] := by
    decide
  have hread := packets_undoes_pushes 9 ⟨4096, 2⟩ _ hfinish [1]
  rw [htaken] at hread
  exact ⟨bytes, hfinish, hread⟩

end Batch

end Wwan
