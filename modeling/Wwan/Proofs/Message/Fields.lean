import Mathlib.Algebra.Group.Nat.Defs
import Wwan.Message.Basic

/-!
# The fields of a message

A message says the same as the bytes of the unit from which it is read: written field by field
(`Message.bytes`) it is the unit again.  `Message.readAs_readUnit` says which units are messages, and of
which bytes.
-/

namespace Wwan

/-! ## Octets and words -/

namespace Bytes

theorem ofNatBE_toNatBE (bs : Bytes) : ofNatBE bs.length (toNatBE bs) = bs := by
  rw [ofNatBE, toNatBE, ← List.length_reverse, ofNatLE_toNatLE, List.reverse_reverse]

theorem toNatLE_lt_of_length {bs : Bytes} (h : bs.length = 4) : toNatLE bs < 2 ^ 32 := by
  have hlt := toNatLE_lt bs
  rwa [h, bound_four] at hlt

/-- Four octets are those of their word. -/
theorem ofWordLE_toWordLE {bs : Bytes} (h : bs.length = 4) : ofWordLE (toWordLE bs) = bs := by
  rw [ofWordLE, toWordLE, UInt32.toNat_ofNat', Nat.mod_eq_of_lt (toNatLE_lt_of_length h), ← h,
    ofNatLE_toNatLE]

theorem ofWordBE_toWordBE {bs : Bytes} (h : bs.length = 4) : ofWordBE (toWordBE bs) = bs := by
  have hlt : toNatBE bs < 2 ^ 32 := toNatLE_lt_of_length (by rw [List.length_reverse, h])
  rw [ofWordBE, toWordBE, UInt32.toNat_ofNat', Nat.mod_eq_of_lt hlt, ← h, ofNatBE_toNatBE]

theorem toWordLE_ofWordLE (n : UInt32) : toWordLE (ofWordLE n) = n := by
  rw [toWordLE, ofWordLE, toNatLE_ofNatLE, bound_four, Nat.mod_eq_of_lt n.toNat_lt, UInt32.ofNat_toNat]

theorem toWordBE_ofWordBE (n : UInt32) : toWordBE (ofWordBE n) = n := by
  rw [toWordBE, ofWordBE, toNatBE_ofNatBE, bound_four, Nat.mod_eq_of_lt n.toNat_lt, UInt32.ofNat_toNat]

/-- A field of a byte string and what stands behind it make up what it starts. -/
theorem take_append_drop_add (b : Bytes) (i n : Nat) : (b.drop i).take n ++ b.drop (i + n) = b.drop i := by
  rw [← List.drop_drop, List.take_append_drop]

/-- A field of a byte string, and what stands behind it. -/
theorem of_drop_eq_append {data field rest : Bytes} {i n : Nat} (h : data.drop i = field ++ rest)
    (hn : field.length = n) : (data.drop i).take n = field ∧ data.drop (i + n) = rest := by
  rw [← List.drop_drop, h]
  exact ⟨List.take_left' hn, List.drop_left' hn⟩

end Bytes

/-! ## The bytes of a message -/

namespace Message

/-- The fields of a message, one behind the other. -/
def bytes (m : Message) : Bytes :=
  Bytes.ofWordLE m.length ++ (fourOctets ++ (Bytes.ofWordBE m.declared ++ (fourOctets ++
    (Bytes.ofWordBE m.command ++ (Bytes.ofWordBE m.word ++ m.body)))))

/-- Whether a unit is too short for a header, or has something else in it where an integer of four octets
should start. -/
def BadHeader (u : Bytes) : Prop :=
  u.length < 20 ∨ (u.drop 4).take 2 ≠ [2, 4] ∨ (u.drop 10).take 2 ≠ [2, 4]

instance : DecidablePred BadHeader := fun u =>
  inferInstanceAs (Decidable (u.length < 20 ∨ (u.drop 4).take 2 ≠ [2, 4] ∨ (u.drop 10).take 2 ≠ [2, 4]))

variable {u : Bytes} {m : Message}

/-- The fields of a message stand in its bytes where they are looked for. -/
theorem ofUnit_bytes (m : Message) : ofUnit m.bytes = .ok m := by
  have h4 : m.bytes.drop 4 = _ := List.drop_left' (Bytes.length_ofWordLE _)
  obtain ⟨hmark, h6⟩ := Bytes.of_drop_eq_append h4 (n := 2) rfl
  obtain ⟨hdeclared, h10⟩ := Bytes.of_drop_eq_append h6 (Bytes.length_ofWordBE _)
  obtain ⟨hmark', h12⟩ := Bytes.of_drop_eq_append h10 (n := 2) rfl
  obtain ⟨hcommand, h16⟩ := Bytes.of_drop_eq_append h12 (Bytes.length_ofWordBE _)
  obtain ⟨hword, h20⟩ := Bytes.of_drop_eq_append h16 (Bytes.length_ofWordBE _)
  have hlead : m.bytes.take 4 = Bytes.ofWordLE m.length := List.take_left' (Bytes.length_ofWordLE _)
  have hlength : ¬m.bytes.length < headerSize := by
    simp only [bytes, List.length_append, Bytes.length_ofWordLE, Bytes.length_ofWordBE, headerSize]
    show ¬4 + (2 + (4 + (2 + (4 + (4 + m.body.length))))) < 20
    omega
  rw [ofUnit, if_neg hlength, hmark, hmark', if_neg (by simp), hlead, hdeclared, hcommand, hword, h20,
    Bytes.toWordLE_ofWordLE, Bytes.toWordBE_ofWordBE, Bytes.toWordBE_ofWordBE, Bytes.toWordBE_ofWordBE]

/-- A unit is refused exactly when its header is bad. -/
theorem ofUnit_error_iff : (∃ reason, ofUnit u = .error reason) ↔ BadHeader u := by
  rw [ofUnit, BadHeader]
  by_cases hshort : u.length < headerSize
  · rw [if_pos hshort]
    exact ⟨fun _ => .inl hshort, fun _ => ⟨_, rfl⟩⟩
  rw [if_neg hshort]
  by_cases hmarks : (u.drop 4).take 2 ≠ fourOctets ∨ (u.drop 10).take 2 ≠ fourOctets
  · rw [if_pos hmarks]
    exact ⟨fun _ => .inr hmarks, fun _ => ⟨_, rfl⟩⟩
  · rw [if_neg hmarks]
    have hgood : ¬(u.length < 20 ∨ (u.drop 4).take 2 ≠ [2, 4] ∨ (u.drop 10).take 2 ≠ [2, 4]) :=
      not_or.mpr ⟨hshort, hmarks⟩
    refine iff_of_false ?_ hgood
    rintro ⟨reason, h⟩
    cases h

/-- What is read from a unit has all its bytes. -/
theorem bytes_of_ofUnit (h : ofUnit u = .ok m) : m.bytes = u := by
  have hgood : ¬BadHeader u := by
    rw [← ofUnit_error_iff, h]
    rintro ⟨reason, hreason⟩
    cases hreason
  obtain ⟨hlong, hmarks⟩ := not_or.mp hgood
  obtain ⟨hmark, hmark'⟩ := not_or.mp hmarks
  have hlead : (u.take 4).length = 4 := List.length_take_of_le (by omega)
  have hfield : ∀ i, i + 4 ≤ 20 → ((u.drop i).take 4).length = 4 := by
    intro i hi
    rw [List.length_take, List.length_drop]
    omega
  have hread : ofUnit u = .ok _ := (if_neg hlong).trans (if_neg hmarks)
  obtain rfl := Except.ok.inj (h.symm.trans hread)
  calc Bytes.ofWordLE (Bytes.toWordLE (u.take 4)) ++ (fourOctets
        ++ (Bytes.ofWordBE (Bytes.toWordBE ((u.drop 6).take 4)) ++ (fourOctets
        ++ (Bytes.ofWordBE (Bytes.toWordBE ((u.drop 12).take 4))
        ++ (Bytes.ofWordBE (Bytes.toWordBE ((u.drop 16).take 4)) ++ u.drop 20)))))
    _ = u.take 4 ++ ((u.drop 4).take 2 ++ ((u.drop 6).take 4 ++ ((u.drop 10).take 2
        ++ ((u.drop 12).take 4 ++ ((u.drop 16).take 4 ++ u.drop 20))))) := by
      rw [Bytes.ofWordLE_toWordLE hlead, Bytes.ofWordBE_toWordBE (hfield 6 (by omega)),
        Bytes.ofWordBE_toWordBE (hfield 12 (by omega)), Bytes.ofWordBE_toWordBE (hfield 16 (by omega)),
        Decidable.of_not_not hmark, Decidable.of_not_not hmark']
      rfl
    _ = u := by
      rw [Bytes.take_append_drop_add u 16 4, Bytes.take_append_drop_add u 12 4,
        Bytes.take_append_drop_add u 10 2, Bytes.take_append_drop_add u 6 4,
        Bytes.take_append_drop_add u 4 2, List.take_append_drop]

/-- A unit is read as the message that has its bytes. -/
theorem ofUnit_eq_ok_iff : ofUnit u = .ok m ↔ m.bytes = u :=
  ⟨bytes_of_ofUnit, fun h => h ▸ ofUnit_bytes m⟩

/-! ## Reading a unit -/

/-- What reading a unit gives: the message that it is, or an error. -/
def readUnit (u : Bytes) : Except CallError Message :=
  (ofUnit u).mapError .malformed

/-- What reading a unit can give: an error if its header is bad, or else the one message that has its bytes. -/
structure ReadAs (u : Bytes) (r : Except CallError Message) : Prop where
  malformed_iff : (∃ reason, r = .error (.malformed reason)) ↔ BadHeader u
  ok_iff : (∃ m, r = .ok m) ↔ ¬BadHeader u
  eq_ok_iff : ∀ m, r = .ok m ↔ m.bytes = u

theorem readAs_readUnit (u : Bytes) : ReadAs u (readUnit u) := by
  rw [readUnit]
  -- whether the header is bad decides which of the two it is
  rcases hunit : ofUnit u with reason | m
  · have hbad : BadHeader u := ofUnit_error_iff.mp ⟨reason, hunit⟩
    refine ⟨iff_of_true ⟨reason, rfl⟩ hbad, iff_of_false nofun (not_not_intro hbad), fun m => ?_⟩
    rw [← ofUnit_eq_ok_iff, hunit]
    exact iff_of_false nofun nofun
  · have hgood : ¬BadHeader u := by
      rw [← ofUnit_error_iff, hunit]
      rintro ⟨reason, hreason⟩
      cases hreason
    refine ⟨iff_of_false nofun hgood, iff_of_true ⟨m, rfl⟩ hgood, fun m' => ?_⟩
    rw [← ofUnit_eq_ok_iff, hunit]
    show (Except.ok m : Except CallError Message) = .ok m' ↔ Except.ok m = .ok m'
    rw [Except.ok.injEq, Except.ok.injEq]

end Message

end Wwan
