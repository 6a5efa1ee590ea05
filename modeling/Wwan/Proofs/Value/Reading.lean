import Wwan.Value.Cursor
import Wwan.Value.Encoding

/-!
# Reading what was written

Every value says itself where it ends, so what is read does not depend on what stands behind it:
`Reads d bs a` says that a decoder takes exactly the bytes `bs` off the front and makes `a` of them.
Readers put together read the bytes put together (`Reads.bind`), and each writer has the lemma that its
reader undoes it: `reads_integer`, `reads_lengthField`, `reads_stringField`.
-/

namespace Wwan

/-! ## Lengths in the fewest octets -/

namespace Value

theorem fewestOctets_of_ne_zero {n : Nat} (h : n ≠ 0) :
    fewestOctets n = UInt8.ofNat n :: fewestOctets (n / 256) := by
  rw [fewestOctets, if_neg h]

@[simp] theorem fewestOctets_zero : fewestOctets 0 = [] := by
  rw [fewestOctets, if_pos rfl]

/-- The fewest octets of a number hold all of it. -/
theorem toNatLE_fewestOctets (n : Nat) : Bytes.toNatLE (fewestOctets n) = n := by
  induction n using Nat.strongRecOn with
  | ind n ih =>
    by_cases h : n = 0
    · rw [h, fewestOctets_zero, Bytes.toNatLE]
    · have hrest := ih (n / 256) (by omega)
      have hoctet : (UInt8.ofNat n).toNat = n % 256 := by simp
      rw [fewestOctets_of_ne_zero h, Bytes.toNatLE, hrest, hoctet]
      omega

/-- A number that `w` octets can hold needs no more than these. -/
theorem length_fewestOctets_le {w n : Nat} (h : n < Bytes.bound w) : (fewestOctets n).length ≤ w := by
  induction w generalizing n with
  | zero =>
    have hzero : n = 0 := by
      rw [Bytes.bound] at h
      omega
    rw [hzero, fewestOctets_zero]
    exact Nat.le_refl 0
  | succ w ih =>
    by_cases hzero : n = 0
    · rw [hzero, fewestOctets_zero]
      exact Nat.zero_le _
    · have hrest := ih (n := n / 256) (by rw [Bytes.bound] at h; omega)
      rw [fewestOctets_of_ne_zero hzero, List.length_cons]
      omega

/-- A number other than zero needs an octet. -/
theorem length_fewestOctets_pos {n : Nat} (h : n ≠ 0) : 0 < (fewestOctets n).length := by
  rw [fewestOctets_of_ne_zero h]
  exact Nat.succ_pos _

/-- The first octet of a long length is told from a short length, and tells the number of octets that
follow. -/
theorem lead_of_le_four {k : Nat} (hpos : 0 < k) (hle : k ≤ 4) :
    ¬(0x80 ||| UInt8.ofNat k : UInt8) < 0x80 ∧ (0x80 ||| UInt8.ofNat k : UInt8).toNat % 16 = k := by
  obtain rfl | rfl | rfl | rfl : k = 1 ∨ k = 2 ∨ k = 3 ∨ k = 4 := by omega
  all_goals decide

end Value

namespace Cursor

variable {α β : Type}

/-! ## Readers -/

/-- A decoder takes exactly these bytes off the front and makes `a` of them, wherever they stand and
whatever stands behind them. -/
def Reads (d : Decoder α) (bs : Bytes) (a : α) : Prop :=
  ∀ offset rest, d ⟨offset, bs ++ rest⟩ = .ok a ⟨offset + bs.length, rest⟩

theorem Reads.pure (a : α) : Reads (pure a) [] a :=
  fun _ _ => rfl

/-- A decoder that goes on where another has stopped takes the bytes of both. -/
theorem Reads.bind {d : Decoder α} {f : α → Decoder β} {bs cs : Bytes} {a : α} {b : β}
    (hd : Reads d bs a) (hf : Reads (f a) cs b) : Reads (d >>= f) (bs ++ cs) b := by
  intro offset rest
  have hfirst := hd offset (cs ++ rest)
  have hsecond := hf (offset + bs.length) rest
  rw [← List.append_assoc] at hfirst
  show EStateM.bind d f _ = _
  rw [EStateM.bind, hfirst]
  dsimp only
  rw [hsecond, List.length_append, Nat.add_assoc]

/-- What is made of a result afterwards takes nothing more. -/
theorem Reads.map {d : Decoder α} {bs : Bytes} {a : α} (h : Reads d bs a) (g : α → β) :
    Reads (d >>= fun x => Pure.pure (g x)) bs (g a) := by
  have hend := h.bind (f := fun x => Pure.pure (g x)) (Reads.pure (g a))
  rw [List.append_nil] at hend
  exact hend

/-- Looking where the cursor is takes nothing. -/
theorem Reads.get {f : Cursor → Decoder β} {bs : Bytes} {b : β} (h : ∀ c, Reads (f c) bs b) :
    Reads (get >>= f) bs b :=
  fun offset rest => h _ offset rest

/-- Looking at the next byte takes nothing. -/
theorem Reads.peek {f : UInt8 → Decoder β} {x : UInt8} {bs : Bytes} {b : β}
    (h : Reads (f x) (x :: bs) b) : Reads (peek >>= f) (x :: bs) b :=
  fun offset rest => h offset rest

theorem reads_octet (x : UInt8) : Reads octet [x] x :=
  fun _ _ => rfl

theorem reads_take (bs : Bytes) {n : Nat} (h : bs.length = n) : Reads (take n) bs bs := by
  intro offset rest
  subst h
  have htaken : (bs ++ rest).take bs.length = bs := List.take_left' rfl
  have hleft : (bs ++ rest).drop bs.length = rest := List.drop_left' rfl
  rw [take]
  dsimp only
  rw [htaken, hleft, if_neg (Nat.lt_irrefl _)]

/-! ## The fields of values -/

/-- An integer is read in whatever width it was written, if it fits. -/
theorem reads_integer {w : Nat} {n : UInt32} (hpos : 1 ≤ w) (hle : w ≤ 4)
    (hfits : n.toNat < Bytes.bound w) : Reads int (Value.integer w n) n := by
  have hwidth : (UInt8.ofNat w).toNat = w := by
    rw [UInt8.toNat_ofNat']
    omega
  have hread : Bytes.toWordBE (Bytes.ofNatBE w n.toNat) = n := by
    rw [Bytes.toWordBE, Bytes.toNatBE_ofNatBE, Nat.mod_eq_of_lt hfits, UInt32.ofNat_toNat]
  have hoctets := (reads_take _ (Bytes.length_ofNatBE w n.toNat)).map Bytes.toWordBE
  refine Reads.get fun c => (reads_octet Value.intTag).bind ?_
  rw [if_pos rfl]
  refine Reads.bind (reads_octet (UInt8.ofNat w)) ?_
  rw [hwidth, if_neg (by omega)]
  rw [hread] at hoctets
  exact hoctets

/-- An integer of four octets holds every number. -/
theorem reads_dword (n : UInt32) : Reads int (Value.integer 4 n) n :=
  reads_integer (by decide) (Nat.le_refl 4) n.toNat_lt

/-- A length of up to four octets is read in both of its forms. -/
theorem reads_lengthField {n : Nat} (h : n < Bytes.bound 4) : Reads length (Value.lengthField n) n := by
  rw [Value.lengthField]
  by_cases hshort : n < 0x80
  · rw [if_pos hshort]
    have hoctet : (UInt8.ofNat n).toNat = n := by
      rw [UInt8.toNat_ofNat']
      omega
    have hlead : UInt8.ofNat n < 0x80 := by
      rw [UInt8.lt_iff_toNat_lt, hoctet]
      exact hshort
    refine Reads.bind (reads_octet (UInt8.ofNat n)) ?_
    rw [if_pos hlead, hoctet]
    exact Reads.pure n
  · rw [if_neg hshort]
    have hpos := Value.length_fewestOctets_pos (n := n) (by omega)
    have hle := Value.length_fewestOctets_le h
    obtain ⟨hlead, hcount⟩ := Value.lead_of_le_four hpos hle
    refine Reads.bind (reads_octet _) ?_
    rw [if_neg hlead]
    dsimp only
    rw [hcount, if_neg (by omega)]
    have hoctets := (reads_take (Value.fewestOctets n) rfl).map Bytes.toNatLE
    rw [Value.toNatLE_fewestOctets] at hoctets
    exact hoctets

/-- What a string's field holds of its data, and how large it is. -/
structure FitsField (w : Width) (elements field : Nat) (data : Bytes) : Prop where
  length_eq : data.length = elements * w.octets
  length_le : data.length ≤ field
  field_lt : field < Bytes.bound 4

/-- A string's field has no more elements than octets. -/
theorem FitsField.elements_lt {w : Width} {elements field : Nat} {data : Bytes}
    (h : FitsField w elements field data) : elements < Bytes.bound 4 := by
  obtain ⟨heq, hle, hlt⟩ := h
  have hmul : elements * 1 ≤ elements * w.octets := Nat.mul_le_mul_left elements w.octets_pos
  omega

/-- A string is read from its field, whose unused part is skipped. -/
theorem reads_stringField {w : Width} {elements field : Nat} {data : Bytes}
    (h : FitsField w elements field data) :
    Reads string (Value.stringField w elements field data) (w, data) := by
  have hlength := reads_lengthField h.elements_lt
  obtain ⟨heq, hle, hlt⟩ := h
  have hcount : (UInt32.ofNat field).toNat = field := by
    rw [UInt32.toNat_ofNat']
    exact Nat.mod_eq_of_lt hlt
  have hpadding : (UInt32.ofNat (field - data.length)).toNat = field - data.length := by
    rw [UInt32.toNat_ofNat']
    exact Nat.mod_eq_of_lt (Nat.lt_of_le_of_lt (Nat.sub_le _ _) hlt)
  rw [Value.stringField]
  simp only [List.append_assoc, List.cons_append]
  refine Reads.get fun c => (reads_octet w.tag).bind ?_
  rw [Width.ofTag?_tag]
  refine hlength.bind ((reads_dword _).bind ((reads_dword _).bind ?_))
  dsimp only
  rw [hcount, hpadding, ← heq, if_neg (by omega)]
  have hend := (reads_take _ (Bytes.length_zeros (field - data.length))).map fun _ => (w, data)
  exact (reads_take data rfl).bind hend

/-! ## Values -/

/-- A value is read as an integer if an integer can be read. -/
theorem reads_value_int {bs : Bytes} {n : UInt32} (h : Reads int (Value.intTag :: bs) n) :
    Reads value (Value.intTag :: bs) (.int n) := by
  refine Reads.peek ?_
  rw [if_pos rfl]
  exact h.map Value.int

/-- A value is read as a string if a string can be read. -/
theorem reads_value_string {bs data : Bytes} {w : Width} (h : Reads string (w.tag :: bs) (w, data)) :
    Reads value (w.tag :: bs) (.string w data) := by
  have htag : w.tag ≠ Value.intTag := by
    cases w <;> decide
  refine Reads.peek ?_
  rw [if_neg htag, Width.ofTag?_tag, if_pos (show (some w).isSome from rfl)]
  exact h.map fun s => Value.string s.1 s.2

/-- A body that is empty holds no value. -/
theorem values_nil (offset : Nat) : values ⟨offset, []⟩ = .ok [] := by
  rw [values]

/-- A body that starts with a value holds that value and those behind it. -/
theorem values_append {bs : Bytes} {v : Value} (h : Reads value bs v) (hne : bs ≠ []) (offset : Nat)
    (rest : Bytes) : values ⟨offset, bs ++ rest⟩
      = (values ⟨offset + bs.length, rest⟩).map (v :: ·) := by
  have hread := h offset rest
  obtain ⟨x, xs, rfl⟩ := List.exists_cons_of_ne_nil hne
  rw [values]
  dsimp only [List.cons_append]
  split
  · next v' c heq =>
    rw [List.cons_append] at hread
    rw [hread] at heq
    cases heq
    rfl
  · next e c heq =>
    rw [List.cons_append] at hread
    rw [hread] at heq
    cases heq

end Cursor

end Wwan
