import Wwan.Proofs.Value.Reading
import Wwan.Value.Body

/-!
# Bodies are read as they were built

A field is written in the same bytes whether it is added to a body or its value is written on its own
(`Field.encode_eq_encodeAlone`), and it is read as its value wherever it stands (`Field.reads_encode`).
So a body is read as the values of the fields that it took, in their order: `decodeAll_undoes_fields`.
-/

namespace Wwan

theorem Width.octets_mem (w : Width) : w.octets ∈ [1, 2, 4] := by
  cases w <;> decide

theorem Width.of_ofNat?_eq_some {n : Nat} {w : Width} (h : Width.ofNat? n = some w) : n = w.octets := by
  unfold Width.ofNat? at h
  split at h <;> cases h <;> rfl

namespace Field

/-- Whether a field is a value that can be read.  Bytes that are encoded already may be anything, and
no length has more than four octets. -/
def IsValue : Field → Prop
  | zeros n => n < Bytes.bound 4
  | raw _ => False
  | _ => True

/-- The value of a field. -/
def value? : Field → Option Value
  | byte n => some (.int n.toUInt32)
  | word n => some (.int n.toUInt32)
  | dword n => some (.int n)
  | zeros n => some (.string .one (Bytes.zeros n))
  | raw _ => none
  | string _ width data => (Width.ofNat? width).map fun w => .string w data

/-- What is written for a field that stands on its own: its integer or its string. -/
def encodeAlone : Field → Except ValueError Bytes
  | byte n => Value.encodeInt 1 n.toUInt32
  | word n => Value.encodeInt 2 n.toUInt32
  | dword n => Value.encodeInt 4 n
  | zeros n => Value.encodeString n 1 (Bytes.zeros n)
  | raw data => .ok data
  | string capacity width data => Value.encodeString capacity width data

end Field

/-! ## Integers and strings that fit -/

namespace Value

theorem byte_lt (n : UInt8) : n.toUInt32.toNat < Bytes.bound 1 := by
  rw [UInt8.toNat_toUInt32]
  exact n.toNat_lt

theorem word_lt (n : UInt16) : n.toUInt32.toNat < Bytes.bound 2 := by
  rw [UInt16.toNat_toUInt32]
  exact n.toNat_lt

/-- An integer that fits its width is written. -/
theorem encodeInt_of_lt {w : Nat} {n : UInt32} (hpos : 1 ≤ w) (hle : w ≤ 4)
    (hfits : n.toNat < Bytes.bound w) : encodeInt w n = .ok (integer w n) := by
  rw [encodeInt, if_neg (by omega), if_neg (by omega)]

/-- A string is written if its width is one of elements, it ends with an element, and the field is large enough
for it and not too large. -/
theorem encodeString_eq_ok_iff {capacity width : Nat} {data bs : Bytes} :
    encodeString capacity width data = .ok bs ↔
      ∃ w, width = w.octets ∧ data.length % w.octets = 0 ∧ data.length / w.octets ≤ capacity ∧
        capacity * w.octets < Bytes.bound 4 ∧
        bs = stringField w (data.length / w.octets) (capacity * w.octets) data := by
  constructor
  · intro h
    rw [encodeString] at h
    rcases hw : Width.ofNat? width with _ | w
    · rw [hw] at h
      cases h
    · rw [hw] at h
      dsimp only at h
      split at h
      · cases h
      · split at h
        · cases h
        · cases h
          exact ⟨w, Width.of_ofNat?_eq_some hw, by omega, by omega, by omega, rfl⟩
  · rintro ⟨w, rfl, haligned, hle, hlt, rfl⟩
    rw [encodeString, Width.ofNat?_octets]
    dsimp only
    rw [if_neg fun hne => hne haligned, if_neg (by omega)]

/-- A string that is written has a width and fits its field. -/
theorem of_encodeString_eq_ok {capacity width : Nat} {data bs : Bytes}
    (h : encodeString capacity width data = .ok bs) :
    ∃ w elements field, Width.ofNat? width = some w ∧ Cursor.FitsField w elements field data ∧
      bs = stringField w elements field data := by
  obtain ⟨w, rfl, haligned, hle, hlt, rfl⟩ := encodeString_eq_ok_iff.mp h
  have hlength : data.length / w.octets * w.octets = data.length :=
    Nat.div_mul_cancel (Nat.dvd_of_mod_eq_zero haligned)
  have hfield := Nat.mul_le_mul_right w.octets hle
  exact ⟨w, _, _, Width.ofNat?_octets w, ⟨hlength.symm, by omega, hlt⟩, rfl⟩

/-- A string of zeros fits the field of its own length. -/
theorem fitsField_zeros {n : Nat} (h : n < Bytes.bound 4) :
    Cursor.FitsField .one n n (Bytes.zeros n) := by
  have hlength : (Bytes.zeros n).length = n * Width.one.octets := by
    rw [Bytes.length_zeros]
    exact (Nat.mul_one n).symm
  exact ⟨hlength, Nat.le_of_eq (Bytes.length_zeros n), h⟩

/-- A string of whole elements that fits its field is written. -/
theorem encodeString_of_le {capacity : Nat} {w : Width} {data : Bytes}
    (haligned : data.length % w.octets = 0) (hle : data.length / w.octets ≤ capacity)
    (hlt : capacity * w.octets < Bytes.bound 4) : encodeString capacity w.octets data
      = .ok (stringField w (data.length / w.octets) (capacity * w.octets) data) :=
  encodeString_eq_ok_iff.mpr ⟨w, rfl, haligned, hle, hlt, rfl⟩

theorem encodeString_zeros {n : Nat} (h : n < Bytes.bound 4) :
    encodeString n 1 (Bytes.zeros n) = .ok (zeros n) := by
  have hwritten : encodeString n 1 (Bytes.zeros n) = _ := encodeString_of_le (w := .one)
    (Nat.mod_one _) (by simp [Width.octets]) (by simpa [Width.octets] using h)
  rw [zeros]
  simpa only [Bytes.length_zeros, Width.octets, Nat.div_one, Nat.mul_one] using hwritten

end Value

/-! ## One field -/

namespace Field

/-- A field is written in a body as it is written on its own. -/
theorem encode_eq_encodeAlone {f : Field} (h : f.IsValue) : f.encode = f.encodeAlone := by
  cases f with
  | byte n => exact (Value.encodeInt_of_lt (by decide) (by decide) (Value.byte_lt n)).symm
  | word n => exact (Value.encodeInt_of_lt (by decide) (by decide) (Value.word_lt n)).symm
  | dword n => exact (Value.encodeInt_four n).symm
  | zeros n => exact (Value.encodeString_zeros h).symm
  | raw data => exact h.elim
  | string capacity width data => rfl

/-- Only a string may fail to be written. -/
theorem eq_string_of_encode_eq_error {f : Field} {e : ValueError} (h : f.encode = .error e) :
    ∃ capacity width data, f = .string capacity width data := by
  cases f with
  | string capacity width data => exact ⟨capacity, width, data, rfl⟩
  | _ => cases h

/-- An integer in a body is read as its number. -/
theorem reads_integer {w : Nat} {n : UInt32} (hpos : 1 ≤ w) (hle : w ≤ 4)
    (hfits : n.toNat < Bytes.bound w) : Cursor.Reads Cursor.value (Value.integer w n) (.int n) :=
  Cursor.reads_value_int (Cursor.reads_integer hpos hle hfits)

/-- A field that is written is read as its value. -/
theorem reads_encode {f : Field} (h : f.IsValue) {bs : Bytes} (hwritten : f.encode = .ok bs) :
    ∃ v, f.value? = some v ∧ Cursor.Reads Cursor.value bs v ∧ bs ≠ [] := by
  cases f with
  | byte n =>
    cases hwritten
    exact ⟨_, rfl, reads_integer (by decide) (by decide) (Value.byte_lt n), List.cons_ne_nil _ _⟩
  | word n =>
    cases hwritten
    exact ⟨_, rfl, reads_integer (by decide) (by decide) (Value.word_lt n), List.cons_ne_nil _ _⟩
  | dword n =>
    cases hwritten
    exact ⟨_, rfl, reads_integer (by decide) (by decide) n.toNat_lt, List.cons_ne_nil _ _⟩
  | zeros n =>
    cases hwritten
    have hread := Cursor.reads_stringField (Value.fitsField_zeros h)
    exact ⟨_, rfl, Cursor.reads_value_string hread, List.cons_ne_nil _ _⟩
  | raw data => exact h.elim
  | string capacity width data =>
    obtain ⟨w, elements, field, hwidth, hfits, rfl⟩ := Value.of_encodeString_eq_ok hwritten
    refine ⟨.string w data, ?_, Cursor.reads_value_string (Cursor.reads_stringField hfits),
      List.cons_ne_nil _ _⟩
    rw [value?, hwidth]
    rfl

end Field

/-! ## Bodies -/

namespace Body

/-- Adds fields one after the other. -/
def after (fields : List Field) (b : Body) : Body :=
  fields.foldl (fun b f => (b.add f).2) b

/-- Those of fields added one after the other that are taken. -/
def taken : List Field → Body → List Field
  | [], _ => []
  | f :: rest, b =>
    match b.add f with
    | (.ok (), b') => f :: taken rest b'
    | (.error _, b') => taken rest b'

/-- A field adds what is written for it on its own, or it is a string that cannot be written, and adds
nothing. -/
theorem add_cases {f : Field} (h : f.IsValue) (b : Body) :
    (∃ bs, f.encodeAlone = .ok bs ∧ b.add f = (.ok (), ⟨b.content ++ bs⟩)) ∨
      (∃ capacity width data e, f = .string capacity width data ∧ f.encodeAlone = .error e ∧
        b.add f = (.error e, b)) := by
  rw [add, Field.encode_eq_encodeAlone h]
  cases hencode : f.encodeAlone with
  | ok bs => exact .inl ⟨bs, rfl, rfl⟩
  | error e =>
    rw [← Field.encode_eq_encodeAlone h] at hencode
    obtain ⟨capacity, width, data, rfl⟩ := Field.eq_string_of_encode_eq_error hencode
    exact .inr ⟨capacity, width, data, e, rfl, rfl, rfl⟩

/-- What a body that takes fields has more than before, and what is read there. -/
theorem content_after (fields : List Field) (h : ∀ f ∈ fields, f.IsValue) (b : Body) :
    ∃ (values : List Value) (parts : List Bytes),
      values.map some = (taken fields b).map Field.value? ∧
      parts.map Except.ok = (taken fields b).map Field.encodeAlone ∧
      (after fields b).content = b.content ++ parts.flatten ∧
      ∀ offset, Cursor.values ⟨offset, parts.flatten⟩ = .ok values := by
  induction fields generalizing b with
  | nil => exact ⟨[], [], rfl, rfl, (List.append_nil b.content).symm, Cursor.values_nil⟩
  | cons f rest ih =>
    have hvalue : f.IsValue := h f List.mem_cons_self
    have hrest : ∀ g ∈ rest, g.IsValue := fun g hg => h g (List.mem_cons_of_mem f hg)
    rw [taken, after, List.foldl_cons]
    obtain ⟨bs, halone, hadd⟩ | ⟨capacity, width, data, e, -, -, hadd⟩ := add_cases hvalue b
    · rw [hadd]
      obtain ⟨values, parts, hvalues, hparts, hcontent, hread⟩ := ih hrest ⟨b.content ++ bs⟩
      obtain ⟨v, hv, hfield, hne⟩ := Field.reads_encode hvalue
        ((Field.encode_eq_encodeAlone hvalue).trans halone)
      refine ⟨v :: values, bs :: parts, ?_, ?_, ?_, ?_⟩
      · rw [List.map_cons, List.map_cons, hvalues, hv]
      · rw [List.map_cons, List.map_cons, hparts, halone]
      · rw [List.flatten_cons, ← List.append_assoc]
        exact hcontent
      · intro offset
        rw [List.flatten_cons, Cursor.values_append hfield hne, hread]
        rfl
    · rw [hadd]
      exact ih hrest b

/-- A body is read as the values of the fields that it took, one for each in their order, and its bytes
are what is written for these fields one by one.  A field that is not taken is a string that cannot be
written, and leaves the body as it was. -/
theorem decodeAll_undoes_fields (fields : List Field) (h : ∀ f ∈ fields, f.IsValue) :
    (∀ f ∈ fields, ∀ b : Body,
      (∃ bs, f.encodeAlone = .ok bs ∧ b.add f = (.ok (), ⟨b.content ++ bs⟩)) ∨
        (∃ capacity width data e, f = .string capacity width data ∧ f.encodeAlone = .error e ∧
          b.add f = (.error e, b))) ∧
    ∃ (values : List Value) (parts : List Bytes),
      values.map some = (taken fields empty).map Field.value? ∧
      parts.map Except.ok = (taken fields empty).map Field.encodeAlone ∧
      (after fields empty).finish.1 = parts.flatten ∧
      Value.decodeAll (after fields empty).finish.1 = .ok values := by
  refine ⟨fun f hf b => add_cases (h f hf) b, ?_⟩
  obtain ⟨values, parts, hvalues, hparts, hcontent, hread⟩ := content_after fields h empty
  have hfinish : (after fields empty).finish.1 = parts.flatten := hcontent
  refine ⟨values, parts, hvalues, hparts, hfinish, ?_⟩
  rw [hfinish]
  exact hread 0

/-- Strings with a padded and with an empty field, a run of zeros whose length takes two octets, and a
string that is too long for its field. -/
def mixedFields : List Field :=
  [.byte 7, .string 3 2 [1, 2, 3, 4], .string 1 1 [5, 6], .zeros 300, .string 0 4 [], .word 0x1234]

theorem decodeAll_undoes_fields_mixed :
    (∀ f ∈ mixedFields, f.IsValue) ∧
      Value.decodeAll (after mixedFields empty).finish.1
        = .ok [.int 7, .string .two [1, 2, 3, 4], .string .one (Bytes.zeros 300), .string .four [],
            .int 0x1234] := by
  have hvalue : ∀ f ∈ mixedFields, f.IsValue := by
    simp [mixedFields, Field.IsValue, Bytes.bound]
  obtain ⟨-, values, parts, hvalues, -, -, hread⟩ := decodeAll_undoes_fields mixedFields hvalue
  have htaken : (taken mixedFields empty).map Field.value?
      = [.int 7, .string .two [1, 2, 3, 4], .string .one (Bytes.zeros 300), .string .four [],
          .int 0x1234].map some := by
    rfl
  rw [htaken] at hvalues
  have heq := (List.map_inj_right fun _ _ h => Option.some.inj h).mp hvalues
  exact ⟨hvalue, heq ▸ hread⟩

end Body

end Wwan
