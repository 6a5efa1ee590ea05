import Wwan.Proofs.Message.Bounds
import Wwan.Proofs.Value.Locality
import Wwan.Value.Encoder

/-!
# Reading by index

A cursor holds the bytes that are left of a byte string.  Here the same decoders read by an index into the
whole of it, with everything checked that can go wrong with an index: a difference below zero and a slice that
does not lie within the bytes end the reading in a way of their own (`Mishap`).  `Indexes b n d k` says that the
decoder `d` does in `b` what `k` does by index, so that neither of the two comes up; that it stops within `b`, not
before where it began and at least `n` bytes further on when it succeeds; and that its errors tell the truth
about `b` (`ValueError.TrueAt`).  All decoders read by index like this (`indexes_int`, `indexes_string`,
`indexes_value`).
-/

namespace Wwan

namespace Value

/-- Some value starts with this tag. -/
def IsTag (tag : UInt8) : Prop :=
  tag = intTag ∨ (Width.ofTag? tag).isSome

end Value

/-- What an error tells of a byte string is so, when reading has stopped at this place. -/
def ValueError.TrueAt (b : Bytes) (stop : Nat) : ValueError → Prop
  | .truncated offset needed available =>
    offset + available = b.length ∧ available < needed ∧ offset = stop
  | .unknownTag tag offset => b[offset]? = some tag ∧ ¬Value.IsTag tag
  | .unexpected _ tag offset => b[offset]? = some tag ∧ Value.IsTag tag
  | _ => True

/-- A byte string and an index into it; nothing keeps the index within. -/
structure Spot where
  bytes : Bytes
  index : Nat

/-- Why reading by index ends early. -/
inductive Mishap where
  /-- An error is reported. -/
  | reported (e : ValueError)
  /-- A difference is taken that is below zero. -/
  | underflow (minuend subtrahend : Nat)
  /-- A slice is taken that does not lie within the bytes. -/
  | outside (first last : Nat)

/-- A step of reading by index: moves the index on, also when it fails. -/
abbrev Indexed := EStateM Mishap Spot

namespace Indexed

/-- The product of two sizes; the greatest size stands for all that is larger. -/
def product (m n : Nat) : Nat :=
  min (m * n) (Encoder.sizeBound - 1)

/-- The sum of two sizes; the greatest size stands for all that is larger. -/
def sum (m n : Nat) : Nat :=
  min (m + n) (Encoder.sizeBound - 1)

/-- Reports an error. -/
def report {α : Type} (e : ValueError) : Indexed α :=
  throw (.reported e)

/-- The number of bytes from the index on. -/
def remaining : Indexed Nat := fun s =>
  if s.index ≤ s.bytes.length then .ok (s.bytes.length - s.index) s
  else .error (.underflow s.bytes.length s.index) s

/-- The bytes from one index up to another. -/
def slice (first last : Nat) : Indexed Bytes := fun s =>
  match s.bytes.slice? first last with
  | some bs => .ok bs s
  | none => .error (.outside first last) s

/-- Moves the index on. -/
def advance (n : Nat) : Indexed Unit :=
  modify fun s => { s with index := s.index + n }

/-- The byte at the index, if there is one. -/
def peek : Indexed UInt8 := fun s =>
  match s.bytes[s.index]? with
  | some x => .ok x s
  | none => .error (.reported (.truncated s.index 1 0)) s

/-- Takes the next byte. -/
def octet : Indexed UInt8 := do
  let x ← peek
  advance 1
  return x

/-- Takes the next `n` bytes. -/
def take (n : Nat) : Indexed Bytes := do
  let available ← remaining
  let index := (← get).index
  if available < n then report (.truncated index n available)
  let taken ← slice index (index + n)
  advance n
  return taken

/-- Takes an integer. -/
def int : Indexed UInt32 := do
  let offset := (← get).index
  let tag ← octet
  if tag = Value.intTag then
    let width ← octet
    if width.toNat < 1 ∨ 4 < width.toNat then report (.invalidWidth width.toNat)
    return Bytes.toWordBE (← take width.toNat)
  else report (Cursor.wrongTag "integer" tag offset)

/-- Takes a length field. -/
def length : Indexed Nat := do
  let first ← octet
  if first < 0x80 then return first.toNat
  let n := first.toNat % 16
  if n < 1 ∨ 4 < n then report (.invalidWidth n)
  return Bytes.toNatLE (← take n)

/-- Takes a string: the width of its elements and its data. -/
def string : Indexed (Width × Bytes) := do
  let offset := (← get).index
  let tag ← octet
  match Width.ofTag? tag with
  | none => report (Cursor.wrongTag "string" tag offset)
  | some w =>
    let valid := product (← length) w.octets
    let count := (← int).toNat
    let padding := (← int).toNat
    if count ≠ 0 ∧ count ≠ sum valid padding then report (.lengthMismatch count valid padding)
    let data ← take valid
    let _ ← take padding
    return (w, data)

/-- Takes a value of either kind. -/
def value : Indexed Value := do
  let tag ← peek
  if tag = Value.intTag then return .int (← int)
  else if (Width.ofTag? tag).isSome then
    let (w, data) ← string
    return .string w data
  else report (.unknownTag tag (← get).index)

/-! ## Steps at an index -/

section Steps

variable {b : Bytes} {i n : Nat}

theorem peek_of_some {x : UInt8} (h : b[i]? = some x) : peek ⟨b, i⟩ = .ok x ⟨b, i⟩ := by
  rw [peek, h]

theorem peek_of_none (h : b[i]? = none) :
    peek ⟨b, i⟩ = .error (.reported (.truncated i 1 0)) ⟨b, i⟩ := by
  rw [peek, h]

theorem octet_of_some {x : UInt8} (h : b[i]? = some x) : octet ⟨b, i⟩ = .ok x ⟨b, i + 1⟩ := by
  show EStateM.bind peek _ _ = _
  rw [EStateM.bind, peek_of_some h]
  rfl

theorem octet_of_none (h : b[i]? = none) :
    octet ⟨b, i⟩ = .error (.reported (.truncated i 1 0)) ⟨b, i⟩ := by
  show EStateM.bind peek _ _ = _
  rw [EStateM.bind, peek_of_none h]

theorem remaining_of_le (h : i ≤ b.length) : remaining ⟨b, i⟩ = .ok (b.length - i) ⟨b, i⟩ :=
  if_pos h

theorem slice_of_le (h : i + n ≤ b.length) : slice i (i + n) ⟨b, i⟩ = .ok ((b.drop i).take n) ⟨b, i⟩ := by
  rw [slice, Bytes.slice?_eq (Nat.le_add_right i n) h, Nat.add_sub_cancel_left]

/-- Where enough bytes are left, neither the difference nor the slice fails. -/
theorem take_of_le (h : i + n ≤ b.length) : take n ⟨b, i⟩ = .ok ((b.drop i).take n) ⟨b, i + n⟩ := by
  show EStateM.bind remaining _ _ = _
  rw [EStateM.bind, remaining_of_le (by omega)]
  show (if b.length - i < n then _ else _ : Indexed Bytes) _ = _
  rw [if_neg (by omega)]
  show EStateM.bind (slice i (i + n)) _ _ = _
  rw [EStateM.bind, slice_of_le h]
  rfl

theorem take_of_lt (hi : i ≤ b.length) (h : b.length < i + n) :
    take n ⟨b, i⟩ = .error (.reported (.truncated i n (b.length - i))) ⟨b, i⟩ := by
  show EStateM.bind remaining _ _ = _
  rw [EStateM.bind, remaining_of_le hi]
  show (if b.length - i < n then _ else _ : Indexed Bytes) _ = _
  rw [if_pos (by omega)]
  rfl

-- behind the end of the bytes the difference is below zero
example : take 1 ⟨[7], 2⟩ = .error (.underflow 1 2) ⟨[7], 2⟩ :=
  rfl

end Steps

theorem product_of_lt {m n : Nat} (h : m * n < Encoder.sizeBound) : product m n = m * n :=
  Nat.min_eq_left (Nat.le_sub_one_of_lt h)

theorem sum_of_lt {m n : Nat} (h : m + n < Encoder.sizeBound) : sum m n = m + n :=
  Nat.min_eq_left (Nat.le_sub_one_of_lt h)

end Indexed

namespace Cursor

open Value

variable {α β : Type} {b : Bytes} {m n : Nat} {c c' : Cursor}

/-! ## Cursors in a byte string -/

/-- A cursor stands in a byte string: what is left of it is what lies behind the cursor. -/
structure StandsIn (b : Bytes) (c : Cursor) : Prop where
  offset_le : c.offset ≤ b.length
  rest_eq : c.rest = b.drop c.offset

theorem standsIn_start (b : Bytes) : (start b).StandsIn b :=
  ⟨Nat.zero_le _, rfl⟩

theorem StandsIn.length_rest (h : c.StandsIn b) : c.rest.length = b.length - c.offset := by
  rw [h.rest_eq, List.length_drop]

theorem StandsIn.getElem?_offset (h : c.StandsIn b) : b[c.offset]? = c.rest.head? := by
  rw [h.rest_eq, List.head?_drop]

/-- A cursor that is moved over what it took still stands there. -/
theorem StandsIn.took {bs : Bytes} (h : c.StandsIn b) (ht : Took c bs c') : c'.StandsIn b where
  offset_le := by
    have hlength := h.length_rest
    have hle := h.offset_le
    rw [ht.rest_eq, List.length_append] at hlength
    rw [ht.offset_eq]
    omega
  rest_eq := by rw [ht.offset_eq, ← List.drop_drop, ← h.rest_eq, ht.rest_eq, List.drop_left]

/-! ## Reading alike -/

/-- Reading from `c` on ends alike at a cursor and by index: within the bytes, not before `c`, at least `n` bytes
behind it on success, and otherwise with a report that is true. -/
inductive EndsAlike (b : Bytes) (n : Nat) (c : Cursor) :
    EStateM.Result ValueError Cursor α → EStateM.Result Mishap Spot α → Prop
  | ok (a : α) {c' : Cursor} (stands : c'.StandsIn b) (le : c.offset + n ≤ c'.offset) :
    EndsAlike b n c (.ok a c') (.ok a ⟨b, c'.offset⟩)
  | error {e : ValueError} {c' : Cursor} (stands : c'.StandsIn b) (le : c.offset ≤ c'.offset)
      (true_at : e.TrueAt b c'.offset) :
    EndsAlike b n c (.error e c') (.error (.reported e) ⟨b, c'.offset⟩)

/-- What begins further on ends further on. -/
theorem EndsAlike.behind {r : EStateM.Result ValueError Cursor α} {r' : EStateM.Result Mishap Spot α}
    (h : EndsAlike b n c' r r') (hle : c.offset + m ≤ c'.offset) : EndsAlike b (m + n) c r r' := by
  cases h with
  | ok a stands le => exact .ok a stands (by omega)
  | error stands le true_at => exact .error stands (by omega) true_at

theorem EndsAlike.mono {r : EStateM.Result ValueError Cursor α} {r' : EStateM.Result Mishap Spot α}
    (h : EndsAlike b n c r r') (hle : m ≤ n) : EndsAlike b m c r r' := by
  cases h with
  | ok a stands le => exact .ok a stands (by omega)
  | error stands le true_at => exact .error stands le true_at

/-- One step behind another: the second one may rely on what the first one found here. -/
theorem EndsAlike.bind {d : Decoder α} {k : Indexed α} {f : α → Decoder β} {g : α → Indexed β}
    (hd : EndsAlike b m c (d c) (k ⟨b, c.offset⟩))
    (hf : ∀ a c', d c = .ok a c' → c'.StandsIn b → EndsAlike b n c' (f a c') (g a ⟨b, c'.offset⟩)) :
    EndsAlike b (m + n) c ((d >>= f) c) ((k >>= g) ⟨b, c.offset⟩) := by
  show EndsAlike b (m + n) c (EStateM.bind d f c) (EStateM.bind k g ⟨b, c.offset⟩)
  unfold EStateM.bind
  generalize hread : d c = r at hd
  generalize k ⟨b, c.offset⟩ = r' at hd
  cases hd with
  | @ok a c' stands le => exact (hf a c' hread stands).behind le
  | error stands le true_at => exact .error stands le true_at

/-- A decoder does within a byte string what another one does by index, and takes at least `n` bytes when it
succeeds. -/
def Indexes (b : Bytes) (n : Nat) (d : Decoder α) (k : Indexed α) : Prop :=
  ∀ c, c.StandsIn b → EndsAlike b n c (d c) (k ⟨b, c.offset⟩)

/-- A decoder can give this result. -/
def Yields (d : Decoder α) (a : α) : Prop :=
  ∃ c c', d c = .ok a c'

theorem Indexes.mono {d : Decoder α} {k : Indexed α} (h : Indexes b n d k) (hle : m ≤ n) : Indexes b m d k :=
  fun c hc => (h c hc).mono hle

theorem Indexes.pure (a : α) : Indexes b 0 (pure a) (pure a) :=
  fun _ hc => .ok a hc (Nat.le_refl _)

theorem Indexes.throw {e : ValueError} (h : ∀ stop, e.TrueAt b stop) :
    Indexes b n (throw e : Decoder α) (Indexed.report e) :=
  fun c hc => .error hc (Nat.le_refl _) (h c.offset)

theorem Indexes.bind {d : Decoder α} {k : Indexed α} {f : α → Decoder β} {g : α → Indexed β}
    (hd : Indexes b m d k) (hf : ∀ a, Yields d a → Indexes b n (f a) (g a)) :
    Indexes b (m + n) (d >>= f) (k >>= g) :=
  fun c hc => (hd c hc).bind fun a c' hread hc' => hf a ⟨c, c', hread⟩ c' hc'

theorem Indexes.ite {p : Prop} [Decidable p] {d d' : Decoder α} {k k' : Indexed α}
    (hd : p → Indexes b n d k) (hd' : ¬p → Indexes b n d' k') :
    Indexes b n (if p then d else d') (if p then k else k') := by
  by_cases hp : p
  · rw [if_pos hp, if_pos hp]
    exact hd hp
  · rw [if_neg hp, if_neg hp]
    exact hd' hp

/-- A value may be refused before anything more is read. -/
theorem Indexes.unless {p : Prop} [Decidable p] {e : ValueError} {d : Decoder α} {k : Indexed α}
    (he : ∀ stop, e.TrueAt b stop) (hd : ¬p → Indexes b n d k) :
    Indexes b n (if p then (MonadExcept.throw e : Decoder PUnit) >>= fun _ => d else d)
      (if p then (Indexed.report e : Indexed PUnit) >>= fun _ => k else k) :=
  .ite (fun _ c hc => .error hc (Nat.le_refl _) (he c.offset)) hd

/-- When too few bytes are left, this is told as it is. -/
theorem StandsIn.trueAt_truncated (h : c.StandsIn b) (hn : c.rest.length < n) :
    (ValueError.truncated c.offset n c.rest.length).TrueAt b c.offset := by
  have hlength := h.length_rest
  have hle := h.offset_le
  exact ⟨by omega, hn, rfl⟩

theorem indexes_peek : Indexes b 0 peek Indexed.peek := by
  intro c hc
  have hhead := hc.getElem?_offset
  obtain ⟨offset, _ | ⟨x, rest⟩⟩ := c
  · rw [Indexed.peek_of_none hhead]
    exact .error hc (Nat.le_refl _) (hc.trueAt_truncated Nat.one_pos)
  · rw [Indexed.peek_of_some hhead]
    exact .ok x hc (Nat.le_refl _)

theorem indexes_octet : Indexes b 1 octet Indexed.octet := by
  intro c hc
  have hhead := hc.getElem?_offset
  obtain ⟨offset, _ | ⟨x, rest⟩⟩ := c
  · rw [Indexed.octet_of_none hhead]
    exact .error hc (Nat.le_refl _) (hc.trueAt_truncated Nat.one_pos)
  · rw [Indexed.octet_of_some hhead]
    exact .ok x (hc.took (took_octet rfl)) (Nat.le_refl _)

theorem indexes_take (n : Nat) : Indexes b n (take n) (Indexed.take n) := by
  intro c hc
  have hlength := hc.length_rest
  have hle := hc.offset_le
  by_cases hshort : c.rest.length < n
  · rw [take_of_lt hshort, Indexed.take_of_lt hle (by omega), ← hlength]
    exact .error hc (Nat.le_refl _) (hc.trueAt_truncated hshort)
  · have htake := take_of_le (Nat.le_of_not_lt hshort)
    rw [htake, Indexed.take_of_le (by omega), ← hc.rest_eq]
    exact .ok _ (hc.took (took_take htake).1) (Nat.le_refl _)

/-- Integers and strings start like this: a tag is taken, and its place kept. -/
theorem Indexes.tag {f : Cursor → UInt8 → Decoder α} {g : Spot → UInt8 → Indexed α}
    (h : ∀ c tag, b[c.offset]? = some tag → Indexes b n (f c tag) (g ⟨b, c.offset⟩ tag)) :
    Indexes b (1 + n) (get >>= fun c => octet >>= f c) (get >>= fun s => Indexed.octet >>= g s) := by
  intro c hc
  show EndsAlike b (1 + n) c ((octet >>= f c) c) ((Indexed.octet >>= g ⟨b, c.offset⟩) ⟨b, c.offset⟩)
  refine (indexes_octet c hc).bind fun tag c' hread hc' => h c tag ?_ c' hc'
  rw [hc.getElem?_offset, (took_octet hread).rest_eq]
  rfl

/-! ## The decoders -/

theorem trueAt_wrongTag (expected : String) {tag : UInt8} {offset : Nat} (h : b[offset]? = some tag) (stop : Nat) :
    (wrongTag expected tag offset).TrueAt b stop := by
  unfold wrongTag
  split
  · next htag => exact ⟨h, htag⟩
  · next htag => exact ⟨h, htag⟩

/-- An integer takes its tag, its width, and one byte at least. -/
theorem indexes_int : Indexes b 3 int Indexed.int := by
  refine Indexes.tag (n := 2) fun c tag htag => .ite (fun _ => ?_) fun _ => .throw (trueAt_wrongTag _ htag)
  refine indexes_octet.bind (n := 1) fun width _ => .unless (fun _ => trivial) fun hwidth => ?_
  have hoctets : Indexes b width.toNat (take width.toNat >>= fun bs => pure (Bytes.toWordBE bs))
      (Indexed.take width.toNat >>= fun bs => pure (Bytes.toWordBE bs)) :=
    (indexes_take width.toNat).bind fun _ _ => .pure _
  exact hoctets.mono (by omega)

/-- A length field takes one byte at least. -/
theorem indexes_length : Indexes b 1 length Indexed.length := by
  refine indexes_octet.bind (n := 0) fun first _ => .ite (fun _ => .pure _) fun _ => ?_
  refine .unless (fun _ => trivial) fun _ => Indexes.mono (n := first.toNat % 16) ?_ (Nat.zero_le _)
  exact (indexes_take _).bind fun _ _ => .pure _

/-- The sizes that are reckoned from the fields of a string are far below the greatest one. -/
theorem sizes_lt {elements : Nat} (h : Yields length elements) (w : Width) (padding : UInt32) :
    elements * w.octets < Encoder.sizeBound ∧ elements * w.octets + padding.toNat < Encoder.sizeBound := by
  obtain ⟨c, c', hread⟩ := h
  obtain ⟨bs, hspelled, -⟩ := took_length hread
  have helements := hspelled.lt
  have hpadding := padding.toNat_lt
  have hbound : Bytes.bound 4 * 4 + 2 ^ 32 < Encoder.sizeBound := by decide
  have hoctets : w.octets ≤ 4 := by
    cases w <;> decide
  have hvalid : elements * w.octets ≤ Bytes.bound 4 * 4 := Nat.mul_le_mul (Nat.le_of_lt helements) hoctets
  omega

/-- A string takes its marker, its length field and two integers. -/
theorem indexes_string : Indexes b 8 string Indexed.string := by
  refine Indexes.tag (n := 7) fun c tag htag => ?_
  rcases Width.ofTag? tag with _ | w
  · exact .throw (trueAt_wrongTag _ htag)
  · refine indexes_length.bind (n := 6) fun elements helements => ?_
    refine indexes_int.bind (n := 3) fun count _ => ?_
    refine indexes_int.bind (n := 0) fun padding _ => ?_
    -- no size is as large as the greatest one, so both reckon the same ones
    obtain ⟨hvalid, hsum⟩ := sizes_lt helements w padding
    dsimp only
    rw [Indexed.product_of_lt hvalid, Indexed.sum_of_lt hsum]
    refine .unless (fun _ => trivial) fun _ =>
      Indexes.mono (n := elements * w.octets + padding.toNat) ?_ (Nat.zero_le _)
    exact (indexes_take _).bind fun _ _ => (indexes_take _).bind fun _ _ => .pure _

/-- A value takes three bytes at least. -/
theorem indexes_value : Indexes b 3 value Indexed.value := by
  intro c hc
  refine (indexes_peek c hc).bind (n := 3) fun tag c' hread _ => ?_
  -- the cursor stays in sight: the error of the last branch names the byte that it is at
  obtain ⟨rfl, hhead⟩ := of_peek hread
  have htag : b[c'.offset]? = some tag := hc.getElem?_offset.trans hhead
  by_cases hint : tag = intTag
  · rw [if_pos hint, if_pos hint]
    exact (indexes_int.bind fun _ _ => .pure _) c' hc
  · rw [if_neg hint, if_neg hint]
    by_cases hmarker : (Width.ofTag? tag).isSome
    · rw [if_pos hmarker, if_pos hmarker]
      have hstring : Indexes b 8 (string >>= fun s => pure (Value.string s.1 s.2))
          (Indexed.string >>= fun s => pure (Value.string s.1 s.2)) :=
        indexes_string.bind fun _ _ => .pure _
      exact hstring.mono (by decide) c' hc
    · rw [if_neg hmarker, if_neg hmarker]
      exact .error hc (Nat.le_refl _) ⟨htag, not_or.mpr ⟨hint, hmarker⟩⟩

/-- A value whose first byte is no tag is refused there. -/
theorem value_of_not_isTag {tag : UInt8} (h : c.rest.head? = some tag) (htag : ¬IsTag tag) :
    value c = .error (.unknownTag tag c.offset) c := by
  obtain ⟨hint, hmarker⟩ := not_or.mp htag
  obtain ⟨offset, _ | ⟨x, rest⟩⟩ := c
  · cases h
  · cases h
    show (if tag = intTag then _ else if (Width.ofTag? tag).isSome then _ else _ : Decoder Value) _ = _
    rw [if_neg hint, if_neg hmarker]
    rfl

end Cursor

end Wwan
