import Wwan.Mux.Batch
import Wwan.Proofs.Mux.Draft

/-!
# All packets of a frame or none

The trailer of a frame is a table whose rows tell where the packets lie in the buffer (`rows`).  A buffer is
read row by row: if one of them leads out of the buffer nothing is read, otherwise each row gives a packet
(`Unpacked`).  `packets_all_or_none` says that this is all that can happen, and that a frame without packets
is told from a malformed one.
-/

namespace Wwan.Frame

/-! ## The rows of a trailer -/

/-- The number of rows in a trailer; what stands behind the last whole row is not read. -/
def rowCount (payload : Bytes) : Nat :=
  (payload.length - Batch.reserved) / Batch.boundSize

/-- Where a row starts. -/
def rowStart (i : Nat) : Nat :=
  Batch.reserved + Batch.boundSize * i

/-- The place and the length that a row tells. -/
def rowAt (payload : Bytes) (i : Nat) : Nat × Nat :=
  (field payload (rowStart i) 4, field payload (rowStart i + 4) 4)

/-- What the rows of a trailer tell. -/
def rows (payload : Bytes) : List (Nat × Nat) :=
  (List.range (rowCount payload)).map (rowAt payload)

/-- A row lies within its trailer. -/
theorem rowStart_add_le {payload : Bytes} {i : Nat} (h : i < rowCount payload) :
    rowStart i + Batch.boundSize ≤ payload.length := by
  unfold rowCount Batch.reserved Batch.boundSize at h
  unfold rowStart Batch.reserved Batch.boundSize
  omega

/-- Neither number of a row is sought outside the trailer. -/
theorem number_rowAt {payload : Bytes} {i : Nat} (h : i < rowCount payload) :
    number payload (rowStart i) 4 = .ok (rowAt payload i).1 ∧
      number payload (rowStart i + 4) 4 = .ok (rowAt payload i).2 := by
  have hle := rowStart_add_le h
  unfold Batch.boundSize at hle
  exact ⟨number_of_le (by omega), number_of_le (by omega)⟩

/-- The first octets are read one row after the other. -/
theorem boundsOf_eq (table : Bytes) : boundsOf table
    = (List.range (table.length / 8)).map fun i => (field table (8 * i) 4, field table (8 * i + 4) 4) := by
  fun_induction boundsOf table with
  | case1 a b c d e f g h rest ih =>
    have hcount : (a :: b :: c :: d :: e :: f :: g :: h :: rest).length / 8 = rest.length / 8 + 1 := by
      simp only [List.length_cons]
      omega
    have hfield (offset : Nat) : field (a :: b :: c :: d :: e :: f :: g :: h :: rest) (8 + offset) 4
        = field rest offset 4 := field_add [a, b, c, d, e, f, g, h] rest offset 4
    rw [hcount, List.range_succ_eq_map, List.map_cons, List.map_map, ih]
    refine congrArg₂ _ rfl (List.map_congr_left fun i _ => ?_)
    have hstart : 8 * i.succ = 8 + 8 * i := by omega
    rw [Function.comp_apply, hstart, Nat.add_assoc, hfield, hfield]
  | case2 table hshort =>
    have hlt : table.length < 8 := by
      rcases table with _ | ⟨a, _ | ⟨b, _ | ⟨c, _ | ⟨d, _ | ⟨e, _ | ⟨f, _ | ⟨g, _ | ⟨h, rest⟩⟩⟩⟩⟩⟩⟩⟩
      on_goal 9 => exact (hshort a b c d e f g h rest rfl).elim
      all_goals simp
    rw [Nat.div_eq_of_lt hlt]
    rfl

/-- The rows of a trailer are read as they stand behind its reserved word. -/
theorem boundsOf_drop (payload : Bytes) : boundsOf (payload.drop Batch.reserved) = rows payload := by
  rw [boundsOf_eq, List.length_drop]
  refine List.map_congr_left fun i _ => ?_
  show (field _ _ 4, field _ _ 4) = (field _ _ 4, field _ _ 4)
  simp only [field, List.drop_drop, rowStart, Nat.add_assoc]
  rfl

/-! ## Reading the rows -/

/-- Whether what a row tells lies within a buffer. -/
def Within (buffer : Bytes) (row : Nat × Nat) : Prop :=
  row.1 + row.2 ≤ buffer.length

/-- The part of a buffer that a row tells. -/
def region (buffer : Bytes) (row : Nat × Nat) : Bytes :=
  (buffer.drop row.1).take row.2

/-- A region without the sixteen zeros before the packet, if it has that many bytes and these are zeros. -/
def unwrap (region : Bytes) : Bytes :=
  if Batch.preamble ≤ region.length && (region.take Batch.preamble).all (· == 0) then
    region.drop Batch.preamble
  else region

theorem stripPreamble_eq (region : Bytes) : stripPreamble region = unwrap region := by
  have hiff : region.take Batch.preamble = Bytes.zeros Batch.preamble ↔
      Batch.preamble ≤ region.length && (region.take Batch.preamble).all (· == 0) := by
    rw [Bytes.zeros, List.eq_replicate_iff, List.length_take, min_eq_left_iff, Bool.and_eq_true_iff,
      decide_eq_true_iff, List.all_eq_true]
    simp only [beq_iff_eq]
  rw [stripPreamble, unwrap]
  exact if_congr hiff rfl rfl

/-- What is read of rows. -/
def unpack (buffer : Bytes) (rows : List (Nat × Nat)) : Except FrameError (List Bytes) :=
  rows.mapM fun (offset, length) => do return stripPreamble (← slice buffer offset length)

theorem unpack_cons (buffer : Bytes) (row : Nat × Nat) (rest : List (Nat × Nat)) :
    unpack buffer (row :: rest) = do
      let packet ← slice buffer row.1 row.2
      let packets ← unpack buffer rest
      return stripPreamble packet :: packets := by
  obtain ⟨offset, length⟩ := row
  rw [unpack, List.mapM_cons, unpack]
  dsimp only
  cases slice buffer offset length <;> rfl

/-- Rows that lie within the buffer give a packet each. -/
theorem unpack_of_within {buffer : Bytes} {rows : List (Nat × Nat)} (h : ∀ row ∈ rows, Within buffer row) :
    unpack buffer rows = .ok (rows.map fun row => unwrap (region buffer row)) := by
  induction rows with
  | nil => rfl
  | cons row rest ih =>
    obtain ⟨hrow, hrest⟩ := List.forall_mem_cons.mp h
    rw [unpack_cons, slice_of_le hrow, ih hrest, List.map_cons, ← stripPreamble_eq]
    rfl

/-- The first row that leads out of the buffer is told, and nothing is read. -/
theorem unpack_of_outside {buffer : Bytes} {before behind : List (Nat × Nat)} {row : Nat × Nat}
    (h : ∀ row ∈ before, Within buffer row) (hrow : ¬Within buffer row) :
    unpack buffer (before ++ row :: behind)
      = .error (.malformed row.1 buffer.length "read past end of buffer") := by
  induction before with
  | nil =>
    have hslice : slice buffer row.1 row.2
        = .error (.malformed row.1 buffer.length "read past end of buffer") :=
      if_pos (Nat.lt_of_not_le hrow)
    rw [List.nil_append, unpack_cons, hslice]
    rfl
  | cons first rest ih =>
    obtain ⟨hfirst, hrest⟩ := List.forall_mem_cons.mp h
    rw [List.cons_append, unpack_cons, slice_of_le hfirst, ih hrest]
    rfl

/-- Either all rows lie within the buffer, or there is a first one that does not. -/
theorem within_or_outside (buffer : Bytes) (rows : List (Nat × Nat)) :
    (∀ row ∈ rows, Within buffer row) ∨ ∃ before row behind, rows = before ++ row :: behind ∧
      (∀ row ∈ before, Within buffer row) ∧ ¬Within buffer row := by
  induction rows with
  | nil => exact .inl nofun
  | cons row rest ih =>
    by_cases hrow : Within buffer row
    · obtain hrest | ⟨before, outside, behind, rfl, hbefore, houtside⟩ := ih
      · exact .inl (List.forall_mem_cons.mpr ⟨hrow, hrest⟩)
      · exact .inr ⟨row :: before, outside, behind, rfl, List.forall_mem_cons.mpr ⟨hrow, hbefore⟩, houtside⟩
    · exact .inr ⟨[], row, rest, rfl, nofun, hrow⟩

/-! ## Reading a buffer -/

/-- A buffer starts with a data frame that has this trailer. -/
structure HasTrailer (buffer : Bytes) (trailer : Tag) : Prop where
  trailer_eq : trailer.id = .adth
  tags_eq : ∃ f first rest, parse buffer = .ok f ∧ f.tags = first :: trailer :: rest ∧ first.id = .adbh

/-- What is read of a buffer: why it has no packets, or all packets that the rows of its trailer tell of, in
the order of the rows. -/
inductive Unpacked (buffer : Bytes) : Except FrameError (List Bytes) → Prop
  | noFrame {e : FrameError} (parse_eq : parse buffer = .error e) : Unpacked buffer (.error e)
  | otherFirst {f : Frame} {first : Tag} {rest : List Tag} (parse_eq : parse buffer = .ok f)
      (tags_eq : f.tags = first :: rest) (first_ne : first.id ≠ .adbh) :
      Unpacked buffer (.error (.unexpectedTag .adbh first.id first.offset))
  | noSecond {f : Frame} {first : Tag} (parse_eq : parse buffer = .ok f) (tags_eq : f.tags = [first])
      (first_eq : first.id = .adbh) : Unpacked buffer (.error (.missingTag .adth))
  | otherSecond {f : Frame} {first second : Tag} {rest : List Tag} (parse_eq : parse buffer = .ok f)
      (tags_eq : f.tags = first :: second :: rest) (first_eq : first.id = .adbh)
      (second_ne : second.id ≠ .adth) :
      Unpacked buffer (.error (.unexpectedTag .adth second.id second.offset))
  | shortTrailer {trailer : Tag} (hasTrailer : HasTrailer buffer trailer)
      (length_lt : trailer.payload.length < 4) :
      Unpacked buffer (.error (.malformed (trailer.offset + headerSize) buffer.length
        "trailer shorter than its reserved word"))
  | rowOutside {trailer : Tag} {before behind : List (Nat × Nat)} {row : Nat × Nat}
      (hasTrailer : HasTrailer buffer trailer) (le_length : 4 ≤ trailer.payload.length)
      (rows_eq : rows trailer.payload = before ++ row :: behind)
      (within : ∀ row ∈ before, Within buffer row) (outside : ¬Within buffer row) :
      Unpacked buffer (.error (.malformed row.1 buffer.length "read past end of buffer"))
  | allRows {trailer : Tag} (hasTrailer : HasTrailer buffer trailer)
      (le_length : 4 ≤ trailer.payload.length) (within : ∀ row ∈ rows trailer.payload, Within buffer row) :
      Unpacked buffer (.ok ((rows trailer.payload).map fun row => unwrap (region buffer row)))

section Packets

variable {buffer : Bytes} {f : Frame} {first second : Tag} {rest : List Tag}

theorem packets_of_error {e : FrameError} (h : parse buffer = .error e) : packets buffer = .error e := by
  rw [packets, h]
  rfl

theorem packets_of_otherFirst (h : parse buffer = .ok f) (htags : f.tags = first :: rest)
    (hfirst : first.id ≠ .adbh) :
    packets buffer = .error (.unexpectedTag .adbh first.id first.offset) := by
  have hexpect : f.expectTag 0 .adbh = .error (.unexpectedTag .adbh first.id first.offset) := by
    rw [expectTag, htags]
    exact if_neg hfirst
  rw [packets, h]
  simp only [bind, Except.bind, hexpect]

theorem expectTag_first (htags : f.tags = first :: rest) (hfirst : first.id = .adbh) :
    f.expectTag 0 .adbh = .ok first := by
  rw [expectTag, htags]
  exact if_pos hfirst

theorem packets_of_noSecond (h : parse buffer = .ok f) (htags : f.tags = [first])
    (hfirst : first.id = .adbh) : packets buffer = .error (.missingTag .adth) := by
  have hexpect : f.expectTag 1 .adth = .error (.missingTag .adth) := by
    rw [expectTag, htags]
    rfl
  rw [packets, h]
  simp only [bind, Except.bind, expectTag_first htags hfirst, hexpect]

theorem packets_of_otherSecond (h : parse buffer = .ok f) (htags : f.tags = first :: second :: rest)
    (hfirst : first.id = .adbh) (hsecond : second.id ≠ .adth) :
    packets buffer = .error (.unexpectedTag .adth second.id second.offset) := by
  have hexpect : f.expectTag 1 .adth = .error (.unexpectedTag .adth second.id second.offset) := by
    rw [expectTag, htags]
    exact if_neg hsecond
  rw [packets, h]
  simp only [bind, Except.bind, expectTag_first htags hfirst, hexpect]

theorem packets_of_hasTrailer {trailer : Tag} (h : HasTrailer buffer trailer) :
    packets buffer = if trailer.payload.length < 4 then
        .error (.malformed (trailer.offset + headerSize) buffer.length
          "trailer shorter than its reserved word")
      else unpack buffer (rows trailer.payload) := by
  obtain ⟨htrailer, f, first, rest, hparse, htags, hfirst⟩ := h
  have hexpect : f.expectTag 1 .adth = .ok trailer := by
    rw [expectTag, htags]
    exact if_pos htrailer
  rw [packets, hparse]
  simp only [bind, Except.bind, expectTag_first htags hfirst, hexpect]
  rw [boundsOf_drop]
  by_cases hshort : trailer.payload.length < Batch.reserved
  · rw [if_pos hshort]
    exact (if_pos hshort).symm
  · rw [if_neg hshort]
    exact (if_neg hshort).symm

end Packets

theorem Unpacked.eq {buffer : Bytes} {r : Except FrameError (List Bytes)} (h : Unpacked buffer r) :
    packets buffer = r := by
  cases h with
  | noFrame hparse => exact packets_of_error hparse
  | otherFirst hparse htags hfirst => exact packets_of_otherFirst hparse htags hfirst
  | noSecond hparse htags hfirst => exact packets_of_noSecond hparse htags hfirst
  | otherSecond hparse htags hfirst hsecond => exact packets_of_otherSecond hparse htags hfirst hsecond
  | shortTrailer htrailer hshort => rw [packets_of_hasTrailer htrailer, if_pos hshort]
  | rowOutside htrailer hle hrows hwithin houtside =>
    rw [packets_of_hasTrailer htrailer, if_neg (Nat.not_lt_of_le hle), hrows,
      unpack_of_outside hwithin houtside]
  | allRows htrailer hle hwithin =>
    rw [packets_of_hasTrailer htrailer, if_neg (Nat.not_lt_of_le hle), unpack_of_within hwithin]

/-- A frame that is read has a first tag. -/
theorem exists_first {buffer : Bytes} {f : Frame} (h : parse buffer = .ok f) :
    ∃ first rest, f.tags = first :: rest := by
  obtain ⟨places, -, rfl⟩ := parse_eq_ok_iff.mp h
  exact ⟨_, _, rfl⟩

theorem unpacked_of_hasTrailer {buffer : Bytes} {trailer : Tag} (h : HasTrailer buffer trailer) :
    ∃ r, Unpacked buffer r := by
  by_cases hshort : trailer.payload.length < 4
  · exact ⟨_, .shortTrailer h hshort⟩
  · have hle := Nat.le_of_not_lt hshort
    obtain hwithin | ⟨before, row, behind, hrows, hwithin, houtside⟩ :=
      within_or_outside buffer (rows trailer.payload)
    · exact ⟨_, .allRows h hle hwithin⟩
    · exact ⟨_, .rowOutside h hle hrows hwithin houtside⟩

/-- There is always one thing that is read. -/
theorem exists_unpacked (buffer : Bytes) : ∃ r, Unpacked buffer r := by
  rcases hparse : parse buffer with e | f
  · exact ⟨_, .noFrame hparse⟩
  · obtain ⟨first, rest, htags⟩ := exists_first hparse
    by_cases hfirst : first.id = .adbh
    · rcases rest with _ | ⟨second, rest⟩
      · exact ⟨_, .noSecond hparse htags hfirst⟩
      · by_cases hsecond : second.id = .adth
        · exact unpacked_of_hasTrailer ⟨hsecond, f, first, rest, hparse, htags, hfirst⟩
        · exact ⟨_, .otherSecond hparse htags hfirst hsecond⟩
    · exact ⟨_, .otherFirst hparse htags hfirst⟩

theorem packets_eq_iff {buffer : Bytes} {r : Except FrameError (List Bytes)} :
    packets buffer = r ↔ Unpacked buffer r := by
  refine ⟨?_, Unpacked.eq⟩
  rintro rfl
  obtain ⟨r, hr⟩ := exists_unpacked buffer
  rwa [hr.eq]

theorem length_region {buffer : Bytes} {row : Nat × Nat} (h : Within buffer row) :
    (region buffer row).length = row.2 := by
  unfold Within at h
  rw [region, List.length_take, List.length_drop]
  omega

/-- Reading packets fails for one of three reasons. -/
theorem reason_of_packets {buffer : Bytes} {e : FrameError} (h : packets buffer = .error e) :
    (∃ expected found offset, e = .unexpectedTag expected found offset) ∨
      (∃ expected, e = .missingTag expected) ∨
      ∃ offset length reason, e = .malformed offset length reason := by
  cases packets_eq_iff.mp h with
  | noFrame hparse => exact .inr (.inr (Refuses.parse buffer e hparse))
  | otherFirst => exact .inl ⟨_, _, _, rfl⟩
  | noSecond => exact .inr (.inl ⟨_, rfl⟩)
  | otherSecond => exact .inl ⟨_, _, _, rfl⟩
  | shortTrailer => exact .inr (.inr ⟨_, _, _, rfl⟩)
  | rowOutside => exact .inr (.inr ⟨_, _, _, rfl⟩)

theorem packetsIfAny_eq_error_iff {buffer : Bytes} {e : FrameError} : packetsIfAny buffer = .error e ↔
    packets buffer = .error e ∧ ∃ offset length reason, e = .malformed offset length reason := by
  rw [packetsIfAny]
  rcases hpackets : packets buffer with e' | ps
  · obtain ⟨_, _, _, rfl⟩ | ⟨_, rfl⟩ | ⟨_, _, _, rfl⟩ := reason_of_packets hpackets
    · refine iff_of_false nofun ?_
      rintro ⟨heq, _, _, _, rfl⟩
      cases heq
    · refine iff_of_false nofun ?_
      rintro ⟨heq, _, _, _, rfl⟩
      cases heq
    · refine ⟨fun heq => ?_, And.left⟩
      cases heq
      exact ⟨rfl, _, _, _, rfl⟩
  · exact iff_of_false nofun fun h => nomatch h.1

end Wwan.Frame
