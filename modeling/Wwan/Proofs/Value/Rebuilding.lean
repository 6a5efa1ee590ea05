import Mathlib.Algebra.Group.Nat.Defs
import Wwan.Proofs.Value.Fields
import Wwan.Proofs.Value.Locality

/-!
# Values are written again as they were read

A value may be spelled in many ways, but each one that is read can be written in a field of its own:
`Value.field` gives an integer four octets, and a string a field that it fills.  What makes this possible is
that the string is made of whole elements and lies within the bytes it was read from (`values_whole`).  So the
values of a body are written again, and read as the same values: `decodeAll_undoes_rebuilding`.
-/

namespace Wwan

namespace Value

/-- The field that a value fills. -/
def field : Value → Field
  | int n => .dword n
  | string w data => .string (data.length / w.octets) w.octets data

/-- The bytes of values that are written one behind the other, each in the field that it fills. -/
def rebuilt (vs : List Value) : Bytes :=
  (Body.after (vs.map field) Body.empty).finish.1

/-- The data of a string is made of whole elements, and takes no more than `size` octets. -/
def Whole (size : Nat) : Value → Prop
  | int _ => True
  | string w data => w.octets ∣ data.length ∧ data.length ≤ size

theorem Whole.mono {v : Value} {m n : Nat} (h : v.Whole m) (hle : m ≤ n) : v.Whole n := by
  cases v with
  | int k => trivial
  | string w data => exact ⟨h.1, Nat.le_trans h.2 hle⟩

/-- The data of a string is among the bytes that spell it. -/
theorem Spells.whole {bs : Bytes} {v : Value} (h : Spells bs v) : v.Whole bs.length := by
  cases h with
  | int spells => trivial
  | @string head data unused w valid count padding spells count_holds data_length unused_length =>
    cases spells
    constructor
    · rw [data_length]
      exact Nat.dvd_mul_left _ _
    · rw [List.length_append, List.length_append]
      omega

/-! ## Writing a value again -/

theorem isValue_field (v : Value) : v.field.IsValue := by
  cases v <;> trivial

theorem value?_field (v : Value) : v.field.value? = some v := by
  cases v with
  | int n => rfl
  | string w data =>
    rw [field, Field.value?, Width.ofNat?_octets]
    rfl

/-- A value whose data is whole and not too long can be written. -/
theorem encode_field {v : Value} {size : Nat} (h : v.Whole size) (hlt : size < Bytes.bound 4) :
    ∃ bs, v.field.encode = .ok bs := by
  cases v with
  | int n => exact ⟨_, rfl⟩
  | string w data =>
    obtain ⟨hdvd, hle⟩ := h
    have hfilled : data.length / w.octets * w.octets = data.length := Nat.div_mul_cancel hdvd
    refine ⟨_, encodeString_of_le (Nat.mod_eq_zero_of_dvd hdvd) (Nat.le_refl _) ?_⟩
    rw [hfilled]
    exact Nat.lt_of_le_of_lt hle hlt

end Value

/-! ## Fields that can all be written -/

namespace Body

theorem add_of_ok {f : Field} {bs : Bytes} (h : f.encode = .ok bs) (b : Body) :
    b.add f = (.ok (), ⟨b.content ++ bs⟩) := by
  rw [add, h]

/-- Fields that can be written are all taken. -/
theorem taken_of_ok {fields : List Field} (h : ∀ f ∈ fields, ∃ bs, f.encode = .ok bs) (b : Body) :
    taken fields b = fields := by
  induction fields generalizing b with
  | nil => rfl
  | cons f rest ih =>
    obtain ⟨bs, hwritten⟩ := h f List.mem_cons_self
    rw [taken, add_of_ok hwritten]
    exact congrArg (f :: ·) (ih (fun g hg => h g (List.mem_cons_of_mem f hg)) _)

end Body

namespace Cursor

open Value

/-- Strings that are read are whole, and lie within the bytes they are read from. -/
theorem values_whole {c : Cursor} {vs : List Value} (h : values c = .ok vs) :
    ∀ v ∈ vs, v.Whole c.rest.length := by
  fun_induction values c generalizing vs with
  | case1 c hnil =>
    cases h
    exact fun v hv => absurd hv List.not_mem_nil
  | case2 c x xs hcons v c' hread ih =>
    obtain ⟨bs, hspelled, htook⟩ := took_value hread
    have hlength : c.rest.length = bs.length + c'.rest.length := by
      rw [htook.rest_eq, List.length_append]
    rcases hrest : values c' with e | ws
    · rw [hrest] at h
      cases h
    · rw [hrest] at h
      cases h
      intro u hu
      rcases List.mem_cons.mp hu with rfl | hu
      · exact hspelled.whole.mono (by omega)
      · exact (ih hrest u hu).mono (by omega)
  | case3 => cases h

end Cursor

namespace Value

/-- The values read from a body shorter than 2 ^ 32 octets can all be written again, however they were spelled
there: a string has elements of one, two or four octets and no part of one, so that the field it fills never
refuses it.  What is read of them then is what was read before. -/
theorem decodeAll_undoes_rebuilding (bs : Bytes) (vs : List Value) (hlt : bs.length < 2 ^ 32)
    (h : decodeAll bs = .ok vs) :
    (∀ w data, Value.string w data ∈ vs → w.octets ∈ [1, 2, 4] ∧ w.octets ∣ data.length) ∧
    (∀ v ∈ vs, ∀ b : Body, ∃ more, b.add v.field = (.ok (), ⟨b.content ++ more⟩)) ∧
    decodeAll (rebuilt vs) = .ok vs := by
  have hwhole : ∀ v ∈ vs, v.Whole bs.length := Cursor.values_whole h
  have hwritten : ∀ v ∈ vs, ∃ more, v.field.encode = .ok more := fun v hv =>
    encode_field (hwhole v hv) hlt
  refine ⟨fun w data hv => ⟨w.octets_mem, (hwhole _ hv).1⟩, fun v hv b => ?_, ?_⟩
  · obtain ⟨more, hmore⟩ := hwritten v hv
    exact ⟨more, Body.add_of_ok hmore b⟩
  · have hfields : ∀ f ∈ vs.map field, ∃ more, f.encode = .ok more := by
      intro f hf
      obtain ⟨v, hv, rfl⟩ := List.mem_map.mp hf
      exact hwritten v hv
    have hvalue : ∀ f ∈ vs.map field, f.IsValue := by
      intro f hf
      obtain ⟨v, -, rfl⟩ := List.mem_map.mp hf
      exact isValue_field v
    obtain ⟨values, parts, hvalues, -, hcontent, hread⟩ := Body.content_after _ hvalue Body.empty
    have hsame : values.map some = vs.map some := by
      rw [hvalues, Body.taken_of_ok hfields, List.map_map]
      exact List.map_congr_left fun v _ => value?_field v
    obtain rfl := (List.map_inj_right fun _ _ heq => Option.some.inj heq).mp hsame
    have hbytes : rebuilt values = parts.flatten := hcontent
    rw [hbytes]
    exact hread 0

/-- A narrow integer, and a string whose length takes two octets where one would do, whose count is zero, and
which is padded. -/
def loose : Bytes :=
  [0x02, 0x01, 0x07, 0x56, 0x81, 0x01, 0x02, 0x01, 0x00, 0x02, 0x02, 0x00, 0x03, 0x61, 0x62, 0x63, 0x64, 0x65]

theorem decodeAll_undoes_rebuilding_loose :
    decodeAll loose = .ok [.int 7, .string .two [0x61, 0x62]] ∧
      rebuilt [.int 7, .string .two [0x61, 0x62]]
        = [0x02, 0x04, 0, 0, 0, 7, 0x56, 1, 0x02, 0x04, 0, 0, 0, 2, 0x02, 0x04, 0, 0, 0, 0, 0x61, 0x62] ∧
      decodeAll (rebuilt [.int 7, .string .two [0x61, 0x62]])
        = .ok [.int 7, .string .two [0x61, 0x62]] := by
  have hread : decodeAll loose = .ok [.int 7, .string .two [0x61, 0x62]] := by cbv
  exact ⟨hread, rfl, (decodeAll_undoes_rebuilding loose _ (by decide) hread).2.2⟩

end Value

end Wwan
