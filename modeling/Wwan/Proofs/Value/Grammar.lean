import Wwan.Proofs.Value.Reading

/-!
# The grammar of values

Which bytes are a value is told here without a cursor: an integer by `SpellsInt`, a length field by
`SpellsLength`, what stands before the data of a string by `SpellsHead`, and a value by `Spells`.  A decoder
that succeeds has moved over bytes that spell what it gives (`took_int`, `took_length`, `took_string`), and it
reads all that is spelled so (`reads_spelledInt`, `reads_spelledLength`, `string_head`).
`value_accepts_grammar` puts both directions together.
-/

namespace Wwan

/-- No more than four octets hold a number below the first one that four octets cannot hold. -/
theorem Bytes.toNatLE_lt_bound_four {bs : Bytes} (h : bs.length ≤ 4) : bs.toNatLE < bound 4 := by
  have hbounds : ∀ k < 5, bound k ≤ bound 4 := by decide
  exact Nat.lt_of_lt_of_le (toNatLE_lt bs) (hbounds bs.length (Nat.lt_succ_of_le h))

namespace Value

/-- The tag of an integer, the number of its octets, from one to four, and these, the most significant one
first. -/
inductive SpellsInt : Bytes → Nat → Prop
  | octets {bs : Bytes} (pos : 1 ≤ bs.length) (le_four : bs.length ≤ 4) :
      SpellsInt (0x02 :: UInt8.ofNat bs.length :: bs) bs.toNatBE

/-- A length below 128 is one octet.  For a longer one the first octet has its top bit set, and its lower half
tells the number of those that follow, from one to four, the least significant one first. -/
inductive SpellsLength : Bytes → Nat → Prop
  | short {b : UInt8} (lt : b < 0x80) : SpellsLength [b] b.toNat
  | long {b : UInt8} {bs : Bytes} (le : 0x80 ≤ b) (half_eq : b.toNat % 16 = bs.length)
      (pos : 1 ≤ bs.length) (le_four : bs.length ≤ 4) : SpellsLength (b :: bs) bs.toNatLE

/-- The markers of strings, each with the width of the elements. -/
inductive Marks : UInt8 → Width → Prop
  | one : Marks 0x55 .one
  | two : Marks 0x56 .two
  | four : Marks 0x57 .four

/-- What stands before the data of a string: its marker, the number of its elements, the count, and the number
of octets that are padded.  The elements take `valid` octets. -/
inductive SpellsHead : Bytes → Width → (valid count padding : Nat) → Prop
  | fields {marker : UInt8} {w : Width} {length count padding : Bytes} {elements counted padded : Nat}
      (marks : Marks marker w) (spellsLength : SpellsLength length elements)
      (spellsCount : SpellsInt count counted) (spellsPadding : SpellsInt padding padded) :
      SpellsHead (marker :: (length ++ (count ++ padding))) w (elements * w.octets) counted padded

/-- The count of a string is zero, or that of its octets, padded ones included. -/
def CountHolds (valid count padding : Nat) : Prop :=
  count = 0 ∨ count = valid + padding

/-- The bytes of a value. -/
inductive Spells : Bytes → Value → Prop
  | int {bs : Bytes} {n : UInt32} (spells : SpellsInt bs n.toNat) : Spells bs (.int n)
  | string {head data unused : Bytes} {w : Width} {valid count padding : Nat}
      (spells : SpellsHead head w valid count padding) (count_holds : CountHolds valid count padding)
      (data_length : data.length = valid) (unused_length : unused.length = padding) :
      Spells (head ++ (data ++ unused)) (.string w data)

theorem marks_iff {marker : UInt8} {w : Width} : Marks marker w ↔ Width.ofTag? marker = some w := by
  constructor
  · intro h
    cases h <;> rfl
  · intro h
    unfold Width.ofTag? at h
    split at h
    · next heq =>
      cases h
      exact heq ▸ .one
    · split at h
      · next heq =>
        cases h
        exact heq ▸ .two
      · split at h
        · next heq =>
          cases h
          exact heq ▸ .four
        · cases h

theorem Marks.tag_eq {marker : UInt8} {w : Width} (h : Marks marker w) : marker = w.tag := by
  cases h <;> rfl

theorem SpellsInt.exists_cons {bs : Bytes} {n : Nat} (h : SpellsInt bs n) : ∃ rest, bs = intTag :: rest := by
  cases h
  exact ⟨_, rfl⟩

/-- What four octets spell is a word. -/
theorem SpellsInt.lt {bs : Bytes} {n : Nat} (h : SpellsInt bs n) : n < Bytes.bound 4 := by
  cases h with
  | @octets bs pos le_four =>
    rw [← List.length_reverse] at le_four
    exact Bytes.toNatLE_lt_bound_four le_four

/-- So is every length. -/
theorem SpellsLength.lt {bs : Bytes} {n : Nat} (h : SpellsLength bs n) : n < Bytes.bound 4 := by
  cases h with
  | short lt => exact Nat.lt_trans (UInt8.toNat_lt _) (by decide)
  | long le half_eq pos le_four => exact Bytes.toNatLE_lt_bound_four le_four

theorem SpellsInt.toNat_ofNat {bs : Bytes} {n : Nat} (h : SpellsInt bs n) : (UInt32.ofNat n).toNat = n := by
  rw [UInt32.toNat_ofNat']
  exact Nat.mod_eq_of_lt h.lt

end Value

namespace Cursor

open Value

variable {α β : Type}

/-! ## What is spelled is read -/

/-- A decoder takes these bytes off the front, wherever they stand, and goes on as another one. -/
def Leads (d : Decoder α) (bs : Bytes) (e : Decoder α) : Prop :=
  ∀ offset rest, d ⟨offset, bs ++ rest⟩ = e ⟨offset + bs.length, rest⟩

theorem Leads.bind {d : Decoder α} {f : α → Decoder β} {e : Decoder β} {bs cs : Bytes} {a : α}
    (hd : Reads d bs a) (hf : Leads (f a) cs e) : Leads (d >>= f) (bs ++ cs) e := by
  intro offset rest
  have hfirst := hd offset (cs ++ rest)
  have hsecond := hf (offset + bs.length) rest
  rw [← List.append_assoc] at hfirst
  show EStateM.bind d f _ = _
  rw [EStateM.bind, hfirst]
  dsimp only
  rw [hsecond, List.length_append, Nat.add_assoc]

theorem Leads.last {d : Decoder α} {f : α → Decoder β} {bs : Bytes} {a : α} (hd : Reads d bs a) :
    Leads (d >>= f) bs (f a) := by
  intro offset rest
  show EStateM.bind d f _ = _
  rw [EStateM.bind, hd offset rest]

theorem Leads.get {f : Cursor → Decoder α} {e : Decoder α} {bs : Bytes} (h : ∀ c, Leads (f c) bs e) :
    Leads (get >>= f) bs e :=
  fun offset rest => h _ offset rest

theorem Leads.reads {d e : Decoder α} {bs cs : Bytes} {a : α} (h : Leads d bs e) (he : Reads e cs a) :
    Reads d (bs ++ cs) a := by
  intro offset rest
  rw [List.append_assoc, h, he, List.length_append, Nat.add_assoc]

theorem reads_spelledInt {bs : Bytes} {n : Nat} (h : SpellsInt bs n) : Reads int bs (UInt32.ofNat n) := by
  cases h with
  | @octets bs pos le_four =>
    have hwidth : (UInt8.ofNat bs.length).toNat = bs.length := by
      rw [UInt8.toNat_ofNat']
      omega
    refine Reads.get fun c => (reads_octet intTag).bind ?_
    rw [if_pos rfl]
    refine Reads.bind (reads_octet (UInt8.ofNat bs.length)) ?_
    rw [hwidth, if_neg (by omega)]
    exact (reads_take bs rfl).map Bytes.toWordBE

theorem reads_spelledLength {bs : Bytes} {n : Nat} (h : SpellsLength bs n) : Reads length bs n := by
  cases h with
  | @short b lt =>
    refine Reads.bind (reads_octet b) ?_
    rw [if_pos lt]
    exact Reads.pure b.toNat
  | @long b bs le half_eq pos le_four =>
    refine Reads.bind (reads_octet b) ?_
    rw [if_neg (UInt8.not_lt.mpr le)]
    dsimp only
    rw [half_eq, if_neg (by omega)]
    exact (reads_take bs rfl).map Bytes.toNatLE

/-- What is read of a string behind its head. -/
def contents (w : Width) (valid count padding : Nat) : Decoder (Width × Bytes) := do
  if count ≠ 0 ∧ count ≠ valid + padding then throw (.lengthMismatch count valid padding)
  let data ← take valid
  let _ ← take padding
  return (w, data)

/-- The head of a string is read before anything is held against its data. -/
theorem string_head {head : Bytes} {w : Width} {valid count padding : Nat}
    (h : SpellsHead head w valid count padding) :
    Leads string head (contents w valid count padding) := by
  cases h with
  | @fields marker w lengthField countField paddingField elements count padding marks hlength hcount
      hpadding =>
    have hend : Leads (int >>= fun padded => contents w (elements * w.octets) count padded.toNat)
        paddingField (contents w (elements * w.octets) count (UInt32.ofNat padding).toNat) :=
      Leads.last (reads_spelledInt hpadding)
    rw [hpadding.toNat_ofNat] at hend
    refine Leads.get fun c => Leads.bind (reads_octet marker) ?_
    rw [marks_iff.mp marks]
    refine Leads.bind (reads_spelledLength hlength) (Leads.bind (reads_spelledInt hcount) ?_)
    rw [hcount.toNat_ofNat]
    exact hend

theorem reads_contents {w : Width} {valid count padding : Nat} {data unused : Bytes}
    (h : CountHolds valid count padding) (hdata : data.length = valid) (hunused : unused.length = padding) :
    Reads (contents w valid count padding) (data ++ unused) (w, data) := by
  have hend := (reads_take unused hunused).map fun _ => (w, data)
  unfold CountHolds at h
  rw [contents, if_neg (by omega)]
  exact (reads_take data hdata).bind hend

theorem contents_of_not_countHolds {w : Width} {valid count padding : Nat} (h : ¬CountHolds valid count padding)
    (c : Cursor) :
    contents w valid count padding c = .error (.lengthMismatch count valid padding) c := by
  unfold CountHolds at h
  rw [contents, if_pos (by omega)]
  rfl

theorem value_of_marks {marker : UInt8} {w : Width} (h : Marks marker w) (offset : Nat) (rest : Bytes) :
    value ⟨offset, marker :: rest⟩
      = (string >>= fun s => pure (Value.string s.1 s.2)) ⟨offset, marker :: rest⟩ := by
  have hint : marker ≠ intTag := by
    cases h <;> decide
  have hsome : (Width.ofTag? marker).isSome := by
    rw [marks_iff.mp h]
    rfl
  show (if marker = intTag then _ else _ : Decoder Value) _ = _
  rw [if_neg hint, if_pos hsome]

theorem reads_spelled {bs : Bytes} {v : Value} (h : Spells bs v) : Reads value bs v := by
  cases h with
  | @int bs n hint =>
    have hread := reads_spelledInt hint
    rw [UInt32.ofNat_toNat] at hread
    obtain ⟨rest, rfl⟩ := hint.exists_cons
    exact reads_value_int hread
  | @string head data unused w valid count padding hhead hcount hdata hunused =>
    have hread := (string_head hhead).reads (reads_contents hcount hdata hunused)
    cases hhead with
    | fields hmarks =>
      obtain rfl := hmarks.tag_eq
      exact reads_value_string hread

theorem bind_eq_error {d : Decoder α} {c c' : Cursor} {e : ValueError} (h : d c = .error e c')
    (f : α → Decoder β) : (d >>= f) c = .error e c' := by
  show EStateM.bind d f c = _
  rw [EStateM.bind, h]

/-- A string whose count does not hold is refused behind its head. -/
theorem value_of_not_countHolds {head : Bytes} {w : Width} {valid count padding : Nat}
    (h : SpellsHead head w valid count padding) (hcount : ¬CountHolds valid count padding) (offset : Nat)
    (rest : Bytes) : value ⟨offset, head ++ rest⟩
      = .error (.lengthMismatch count valid padding) ⟨offset + head.length, rest⟩ := by
  have hstring := string_head h offset rest
  rw [contents_of_not_countHolds hcount] at hstring
  cases h with
  | fields hmarks => exact (value_of_marks hmarks _ _).trans (bind_eq_error hstring _)

/-! ## What is read is spelled -/

/-- A cursor has moved over bytes. -/
structure Took (c : Cursor) (bs : Bytes) (c' : Cursor) : Prop where
  rest_eq : c.rest = bs ++ c'.rest
  offset_eq : c'.offset = c.offset + bs.length

theorem Took.trans {c c' c'' : Cursor} {bs cs : Bytes} (h : Took c bs c') (h' : Took c' cs c'') :
    Took c (bs ++ cs) c'' where
  rest_eq := by rw [h.rest_eq, h'.rest_eq, List.append_assoc]
  offset_eq := by rw [h'.offset_eq, h.offset_eq, List.length_append, Nat.add_assoc]

theorem Reads.took {d : Decoder α} {bs : Bytes} {a : α} (h : Reads d bs a) {c c' : Cursor}
    (ht : Took c bs c') : d c = .ok a c' := by
  obtain ⟨offset, rest⟩ := c
  obtain ⟨offset', rest'⟩ := c'
  obtain ⟨hrest, hoffset⟩ := ht
  dsimp only at hrest hoffset
  rw [hrest, hoffset]
  exact h offset rest'

/-- Looking at the next byte takes nothing. -/
theorem of_peek {c c' : Cursor} {b : UInt8} (h : peek c = .ok b c') : c' = c ∧ c.rest.head? = some b := by
  unfold peek at h
  split at h
  · next heq =>
    cases h
    rw [heq]
    exact ⟨rfl, rfl⟩
  · cases h

theorem took_octet {c c' : Cursor} {b : UInt8} (h : octet c = .ok b c') : Took c [b] c' := by
  unfold octet at h
  split at h
  · next heq =>
    cases h
    exact ⟨heq, rfl⟩
  · cases h

theorem took_take {n : Nat} {c c' : Cursor} {bs : Bytes} (h : take n c = .ok bs c') :
    Took c bs c' ∧ bs.length = n := by
  simp only [take] at h
  split at h
  · cases h
  · next hlt =>
    cases h
    have hlength : (c.rest.take n).length = n := by
      have := List.length_take_le n c.rest
      omega
    exact ⟨⟨(List.take_append_drop n c.rest).symm, by rw [hlength]⟩, hlength⟩

theorem took_int {c c' : Cursor} {n : UInt32} (h : int c = .ok n c') :
    ∃ bs, SpellsInt bs n.toNat ∧ Took c bs c' := by
  obtain ⟨c₀, c₁, hget, h⟩ := bind_eq_ok h
  cases hget
  obtain ⟨tag, c₂, htag, h⟩ := bind_eq_ok h
  split at h
  · next heq =>
    obtain ⟨width, c₃, hwidth, h⟩ := bind_eq_ok h
    split at h
    · obtain ⟨_, _, hthrow, -⟩ := bind_eq_ok h
      cases hthrow
    · next hle =>
      obtain ⟨bs, c₄, hbs, h⟩ := bind_eq_ok h
      cases h
      obtain ⟨htaken, hlength⟩ := took_take hbs
      have hspelled : SpellsInt (tag :: width :: bs) bs.toNatBE := by
        have hwidth : width = UInt8.ofNat bs.length := by
          rw [hlength, UInt8.ofNat_toNat]
        rw [heq, hwidth]
        exact .octets (by omega) (by omega)
      refine ⟨tag :: width :: bs, ?_, ((took_octet htag).trans (took_octet hwidth)).trans htaken⟩
      rw [Bytes.toWordBE, hspelled.toNat_ofNat]
      exact hspelled
  · cases h

theorem took_length {c c' : Cursor} {n : Nat} (h : length c = .ok n c') :
    ∃ bs, SpellsLength bs n ∧ Took c bs c' := by
  obtain ⟨first, c₁, hfirst, h⟩ := bind_eq_ok h
  split at h
  · next hlt =>
    cases h
    exact ⟨[first], .short hlt, took_octet hfirst⟩
  · next hle =>
    dsimp only at h
    split at h
    · obtain ⟨_, _, hthrow, -⟩ := bind_eq_ok h
      cases hthrow
    · next hcount =>
      obtain ⟨bs, c₂, hbs, h⟩ := bind_eq_ok h
      cases h
      obtain ⟨htaken, hlength⟩ := took_take hbs
      have hspelled : SpellsLength (first :: bs) bs.toNatLE :=
        .long (UInt8.not_lt.mp hle) hlength.symm (by omega) (by omega)
      exact ⟨first :: bs, hspelled, (took_octet hfirst).trans htaken⟩

theorem took_string {c c' : Cursor} {w : Width} {data : Bytes} (h : string c = .ok (w, data) c') :
    ∃ bs, Spells bs (.string w data) ∧ Took c bs c' := by
  obtain ⟨c₀, c₁, hget, h⟩ := bind_eq_ok h
  cases hget
  obtain ⟨marker, c₂, hmarker, h⟩ := bind_eq_ok h
  rcases htag : Width.ofTag? marker with _ | w'
  · rw [htag] at h
    cases h
  · rw [htag] at h
    obtain ⟨elements, c₃, helements, h⟩ := bind_eq_ok h
    obtain ⟨count, c₄, hcount, h⟩ := bind_eq_ok h
    obtain ⟨padding, c₅, hpadding, h⟩ := bind_eq_ok h
    obtain ⟨lengthField, hlength, htookLength⟩ := took_length helements
    obtain ⟨countField, hcounted, htookCount⟩ := took_int hcount
    obtain ⟨paddingField, hpadded, htookPadding⟩ := took_int hpadding
    have hhead := SpellsHead.fields (marks_iff.mpr htag) hlength hcounted hpadded
    dsimp only at h
    split at h
    · obtain ⟨_, _, hthrow, -⟩ := bind_eq_ok h
      cases hthrow
    · next hholds =>
      obtain ⟨data', c₆, hdata, h⟩ := bind_eq_ok h
      obtain ⟨unused, c₇, hunused, h⟩ := bind_eq_ok h
      cases h
      obtain ⟨htookData, hdataLength⟩ := took_take hdata
      obtain ⟨htookUnused, hunusedLength⟩ := took_take hunused
      refine ⟨_, .string hhead ?_ hdataLength hunusedLength, ?_⟩
      · unfold CountHolds
        omega
      · exact ((took_octet hmarker).trans (htookLength.trans (htookCount.trans htookPadding))).trans
          (htookData.trans htookUnused)

theorem took_value {c c' : Cursor} {v : Value} (h : value c = .ok v c') :
    ∃ bs, Spells bs v ∧ Took c bs c' := by
  obtain ⟨tag, c₁, hpeek, hread⟩ := bind_eq_ok h
  obtain ⟨rfl, -⟩ := of_peek hpeek
  split at hread
  · obtain ⟨n, c₂, hint, hread⟩ := bind_eq_ok hread
    cases hread
    obtain ⟨bs, hspelled, htook⟩ := took_int hint
    exact ⟨bs, .int hspelled, htook⟩
  · split at hread
    · obtain ⟨⟨w, data⟩, c₂, hstring, hread⟩ := bind_eq_ok hread
      cases hread
      exact took_string hstring
    · obtain ⟨_, _, hget, hread⟩ := bind_eq_ok hread
      cases hget
      cases hread

/-! ## The grammar -/

/-- Reading a value succeeds on the bytes of a value and on no others.  A string whose count does not tell its
octets is refused for that, whatever there is of its data, and the data of one that is read is made of whole
elements. -/
theorem value_accepts_grammar :
    (∀ (c c' : Cursor) (v : Value), value c = .ok v c' ↔ ∃ bs, Spells bs v ∧ Took c bs c') ∧
    (∀ (offset : Nat) (head rest : Bytes) (w : Width) (valid count padding : Nat),
      SpellsHead head w valid count padding → ¬CountHolds valid count padding →
        value ⟨offset, head ++ rest⟩
          = .error (.lengthMismatch count valid padding) ⟨offset + head.length, rest⟩) ∧
    (∀ (c c' : Cursor) (w : Width) (data : Bytes), value c = .ok (.string w data) c' →
      w.octets ∣ data.length) := by
  refine ⟨fun c c' v => ⟨took_value, ?_⟩, ?_, ?_⟩
  · rintro ⟨bs, hspelled, htook⟩
    exact (reads_spelled hspelled).took htook
  · intro offset head rest w valid count padding hhead hcount
    exact value_of_not_countHolds hhead hcount offset rest
  · intro c c' w data h
    obtain ⟨bs, hspelled, -⟩ := took_value h
    cases hspelled with
    | string hhead _ hdata _ =>
      cases hhead
      rw [hdata]
      exact Nat.dvd_mul_left _ _

end Cursor

end Wwan
