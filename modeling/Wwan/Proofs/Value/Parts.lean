import Wwan.Proofs.Value.Fields
import Wwan.Proofs.Value.Locality

/-!
# Bodies put together from parts

A body that is written part by part holds the values of its parts, one after the other
(`decodeAll_append`), so what it holds is found from what each of its fields holds.
-/

namespace Wwan.Value

/-- What is read as a value is a body that holds this value alone. -/
theorem decodeAll_of_reads {bs : Bytes} {v : Value} (h : Cursor.Reads Cursor.value bs v) (hne : bs ≠ []) :
    decodeAll bs = .ok [v] := by
  have hread := Cursor.values_append h hne 0 []
  rw [List.append_nil, Cursor.values_nil] at hread
  exact hread

/-- Behind a body, the bytes that follow are read as they are alone, with the places in errors further on. -/
theorem decodeAll_append_of_ok {a : Bytes} {vs : List Value} (ha : decodeAll a = .ok vs) (b : Bytes) :
    decodeAll (a ++ b) = ((decodeAll b).mapError (·.shift a.length)).map (vs ++ ·) := by
  have hjoined : decodeAll (a ++ b) = (Cursor.values ⟨0 + a.length, b⟩).map (vs ++ ·) :=
    Cursor.values_followedBy ha b
  have hmoved : Cursor.values ⟨0 + a.length, b⟩ = (decodeAll b).mapError (·.shift a.length) :=
    Cursor.values_shift a.length (Cursor.start b)
  rw [hjoined, hmoved]

/-- Behind the values of a body stand those of the body that follows it. -/
theorem decodeAll_append {a b : Bytes} {vs ws : List Value} (ha : decodeAll a = .ok vs)
    (hb : decodeAll b = .ok ws) : decodeAll (a ++ b) = .ok (vs ++ ws) := by
  rw [decodeAll_append_of_ok ha, hb]
  rfl

/-! ## Fields -/

theorem decodeAll_byte (n : UInt8) : decodeAll (byte n) = .ok [.int n.toUInt32] :=
  decodeAll_of_reads (Field.reads_integer (by decide) (by decide) (byte_lt n)) (List.cons_ne_nil _ _)

theorem decodeAll_dword (n : UInt32) : decodeAll (dword n) = .ok [.int n] :=
  decodeAll_of_reads (Field.reads_integer (by decide) (by decide) n.toNat_lt) (List.cons_ne_nil _ _)

theorem decodeAll_stringField {w : Width} {elements field : Nat} {data : Bytes}
    (h : Cursor.FitsField w elements field data) :
    decodeAll (stringField w elements field data) = .ok [.string w data] :=
  decodeAll_of_reads (Cursor.reads_value_string (Cursor.reads_stringField h)) (List.cons_ne_nil _ _)

theorem decodeAll_zeros {n : Nat} (h : n < Bytes.bound 4) :
    decodeAll (zeros n) = .ok [.string .one (Bytes.zeros n)] :=
  decodeAll_stringField (fitsField_zeros h)

/-! ## Bytes that are a body -/

/-- Whether bytes can be read as a body, whatever its values are. -/
def IsBody (bs : Bytes) : Prop :=
  ∃ vs, decodeAll bs = .ok vs

/-- What follows a body decides whether the whole is one. -/
theorem IsBody.append_iff {a : Bytes} (ha : IsBody a) (b : Bytes) : IsBody (a ++ b) ↔ IsBody b := by
  obtain ⟨vs, ha⟩ := ha
  rw [IsBody, decodeAll_append_of_ok ha, IsBody]
  rcases decodeAll b with e | ws
  · exact iff_of_false (fun ⟨_, h⟩ => by cases h) (fun ⟨_, h⟩ => by cases h)
  · exact iff_of_true ⟨_, rfl⟩ ⟨_, rfl⟩

theorem isBody_byte (n : UInt8) : IsBody (byte n) :=
  ⟨_, decodeAll_byte n⟩

theorem isBody_dword (n : UInt32) : IsBody (dword n) :=
  ⟨_, decodeAll_dword n⟩

theorem isBody_zeros {n : Nat} (h : n < Bytes.bound 4) : IsBody (zeros n) :=
  ⟨_, decodeAll_zeros h⟩

@[simp] theorem isBody_byte_append (n : UInt8) (b : Bytes) : IsBody (byte n ++ b) ↔ IsBody b :=
  (isBody_byte n).append_iff b

@[simp] theorem isBody_dword_append (n : UInt32) (b : Bytes) : IsBody (dword n ++ b) ↔ IsBody b :=
  (isBody_dword n).append_iff b

@[simp] theorem isBody_zeros_append {n : Nat} (h : n < Bytes.bound 4) (b : Bytes) :
    IsBody (zeros n ++ b) ↔ IsBody b :=
  (isBody_zeros h).append_iff b

end Wwan.Value
