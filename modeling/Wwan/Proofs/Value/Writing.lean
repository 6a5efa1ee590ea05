import Mathlib.Algebra.Group.Nat.Defs
import Wwan.Proofs.Value.Fields
import Wwan.Proofs.Value.Grammar
import Wwan.Value.Encoder

/-!
# Strings are written whole or not at all

`Writes d bs a` says that an encoder adds exactly the bytes `bs`, wherever it writes, and `Refuses d e` that it
adds nothing.  No size that is reckoned on the way to a string is out of range (`writes_length`,
`string_eq`), so that both programs, the one that stops at such sizes and the one that wraps them around,
write what `Value.encodeString` gives.  A string of its own has its room made first, of a size that can be out of
range (`stringAlone_stops`, `stringAlone_wraps`).
-/

namespace Wwan

namespace Width

theorem ofNat?_eq_none_iff {n : Nat} : ofNat? n = none ↔ n ∉ [1, 2, 4] := by
  unfold ofNat?
  split <;> simp_all

theorem exists_of_mem {n : Nat} (h : n ∈ [1, 2, 4]) : ∃ w : Width, n = w.octets := by
  rcases hw : ofNat? n with _ | w
  · exact absurd h (ofNat?_eq_none_iff.mp hw)
  · exact ⟨w, of_ofNat?_eq_some hw⟩

end Width

/-! ## The octets of a size -/

namespace Bytes

theorem take_ofNatLE {k w : Nat} (h : k ≤ w) (n : Nat) : (ofNatLE w n).take k = ofNatLE k n := by
  induction k generalizing w n with
  | zero => rfl
  | succ k ih =>
    obtain ⟨v, rfl⟩ : ∃ v, w = v + 1 := ⟨w - 1, by omega⟩
    rw [ofNatLE, List.take_succ_cons, ih (by omega), ofNatLE]

theorem drop_ofWordBE {w : Nat} (h : w ≤ 4) (n : UInt32) :
    (ofWordBE n).drop (4 - w) = ofNatBE w n.toNat := by
  have hlength : (ofNatLE 4 n.toNat).length - (4 - w) = w := by
    rw [length_ofNatLE]
    omega
  rw [ofWordBE, ofNatBE, List.drop_reverse, hlength, take_ofNatLE h, ofNatBE]

end Bytes

namespace Value

/-- The fewest octets of a number are all that its last digit in binary needs. -/
theorem length_fewestOctets {n : Nat} (h : n ≠ 0) : (fewestOctets n).length = n.log2 / 8 + 1 := by
  induction n using Nat.strongRecOn with
  | ind n ih =>
    rw [fewestOctets_of_ne_zero h, List.length_cons]
    by_cases hsmall : n < 256
    · have hlog : n.log2 < 8 := (Nat.log2_lt h).mpr hsmall
      rw [Nat.div_eq_of_lt hsmall, fewestOctets_zero, List.length_nil, Nat.div_eq_of_lt hlog]
    · have hrest := ih (n / 256) (by omega) (by omega)
      have hlog : n.log2 = (n / 256).log2 + 8 := by
        obtain ⟨hle, hlt⟩ := (Nat.log2_eq_iff (n := n / 256) (by omega)).mp rfl
        refine (Nat.log2_eq_iff h).mpr ⟨?_, ?_⟩
        · rw [Nat.pow_add]
          omega
        · rw [Nat.add_right_comm, Nat.pow_add]
          omega
      rw [hrest, hlog]
      omega

theorem ofNatLE_length_fewestOctets (n : Nat) : Bytes.ofNatLE (fewestOctets n).length n = fewestOctets n := by
  have h := Bytes.ofNatLE_toNatLE (fewestOctets n)
  rw [toNatLE_fewestOctets] at h
  exact h

/-! ## Which strings can be written -/

/-- A string of whole elements of a known width, which fits a field that is smaller than 2 ^ 32 octets. -/
structure Representable (capacity width : Nat) (data : Bytes) : Prop where
  width_mem : width ∈ [1, 2, 4]
  dvd : width ∣ data.length
  elements_le : data.length / width ≤ capacity
  field_lt : capacity * width < 2 ^ 32

/-- The reason for which a string is refused: the first of the conditions that it does not meet. -/
inductive RefusedFor (capacity width : Nat) (data : Bytes) : ValueError → Prop
  | invalidWidth (width_not_mem : width ∉ [1, 2, 4]) : RefusedFor capacity width data (.invalidWidth width)
  | unaligned (width_mem : width ∈ [1, 2, 4]) (not_dvd : ¬ width ∣ data.length) :
      RefusedFor capacity width data (.unaligned data.length width)
  | tooLong (width_mem : width ∈ [1, 2, 4]) (dvd : width ∣ data.length)
      (too_long : capacity < data.length / width ∨ 2 ^ 32 ≤ capacity * width) :
      RefusedFor capacity width data (.tooLong (data.length / width) capacity)

/-- A length in the fewest octets: itself below 128, else behind the number of its octets, which are at most four
and the least significant one first. -/
inductive ShortestLength : Bytes → Nat → Prop
  | short {n : Nat} (lt : n < 128) : ShortestLength [UInt8.ofNat n] n
  | long {k n : Nat} (le : 128 ≤ n) (le_four : k ≤ 4) (enough : n < Bytes.bound k)
      (needed : Bytes.bound (k - 1) ≤ n) :
      ShortestLength ((0x80 ||| UInt8.ofNat k) :: Bytes.ofNatLE k n) n

/-- The bytes of a string in its field: the marker of its width, the number of its elements, the octets of the
field and those of its unused part, its data, and the unused part. -/
inductive FillsField (capacity width : Nat) (data : Bytes) : Bytes → Prop
  | fields {marker : UInt8} {w : Width} {length : Bytes} (marks : Marks marker w) (octets_eq : w.octets = width)
      (shortest : ShortestLength length (data.length / width)) (le : data.length ≤ capacity * width)
      (lt : capacity * width < 2 ^ 32) :
      FillsField capacity width data
        (marker :: (length ++ [0x02, 0x04] ++ Bytes.ofNatBE 4 (capacity * width)
          ++ [0x02, 0x04] ++ Bytes.ofNatBE 4 (capacity * width - data.length)
          ++ data ++ Bytes.zeros (capacity * width - data.length)))

theorem shortestLength_lengthField {n : Nat} (h : n < Bytes.bound 4) : ShortestLength (lengthField n) n := by
  rw [lengthField]
  by_cases hshort : n < 0x80
  · rw [if_pos hshort]
    exact .short hshort
  · have hpos := length_fewestOctets_pos (n := n) (by omega)
    have henough := Bytes.toNatLE_lt (fewestOctets n)
    have hneeded : Bytes.bound ((fewestOctets n).length - 1) ≤ n := by
      refine Nat.le_of_not_lt fun hlt => ?_
      have hfewer := length_fewestOctets_le hlt
      omega
    rw [toNatLE_fewestOctets] at henough
    have hlong := ShortestLength.long (by omega) (length_fewestOctets_le h) henough hneeded
    rw [ofNatLE_length_fewestOctets] at hlong
    rw [if_neg hshort]
    exact hlong

theorem marks_tag (w : Width) : Marks w.tag w := by
  cases w <;> constructor

theorem integer_four {n : Nat} (h : n < 2 ^ 32) :
    integer 4 (UInt32.ofNat n) = [0x02, 0x04] ++ Bytes.ofNatBE 4 n := by
  rw [integer, UInt32.toNat_ofNat', Nat.mod_eq_of_lt h]
  rfl

/-- A string that is written fills its field. -/
theorem fillsField_stringField {capacity : Nat} {w : Width} {data : Bytes}
    (haligned : data.length % w.octets = 0) (hle : data.length / w.octets ≤ capacity)
    (hlt : capacity * w.octets < 2 ^ 32) : FillsField capacity w.octets data
      (stringField w (data.length / w.octets) (capacity * w.octets) data) := by
  have hlength : data.length / w.octets * w.octets = data.length :=
    Nat.div_mul_cancel (Nat.dvd_of_mod_eq_zero haligned)
  have hfield := Nat.mul_le_mul_right w.octets hle
  have helements : data.length / w.octets < Bytes.bound 4 := by
    have := Nat.div_le_self data.length w.octets
    rw [Bytes.bound_four]
    omega
  have hfills := FillsField.fields (marks_tag w) rfl (shortestLength_lengthField helements)
    (show data.length ≤ capacity * w.octets by omega) hlt
  rw [stringField, integer_four hlt, integer_four (by omega)]
  simp only [List.append_assoc, List.cons_append] at hfills ⊢
  exact hfills

theorem encodeString_eq_error_iff {capacity width : Nat} {data : Bytes} {e : ValueError} :
    encodeString capacity width data = .error e ↔ RefusedFor capacity width data e := by
  constructor
  · intro h
    rw [encodeString] at h
    rcases hw : Width.ofNat? width with _ | w
    · rw [hw] at h
      cases h
      exact .invalidWidth (Width.ofNat?_eq_none_iff.mp hw)
    · obtain rfl := Width.of_ofNat?_eq_some hw
      rw [hw] at h
      dsimp only at h
      split at h
      · next hragged =>
        cases h
        exact .unaligned w.octets_mem fun hdvd => hragged (Nat.mod_eq_zero_of_dvd hdvd)
      · next haligned =>
        split at h
        · next hlong =>
          cases h
          exact .tooLong w.octets_mem (Nat.dvd_of_mod_eq_zero (by omega)) hlong
        · cases h
  · intro h
    rw [encodeString]
    cases h with
    | invalidWidth hwidth => rw [Width.ofNat?_eq_none_iff.mpr hwidth]
    | unaligned hwidth hragged =>
      obtain ⟨w, rfl⟩ := Width.exists_of_mem hwidth
      rw [Width.ofNat?_octets]
      exact if_pos fun hmod => hragged (Nat.dvd_of_mod_eq_zero hmod)
    | tooLong hwidth hdvd hlong =>
      obtain ⟨w, rfl⟩ := Width.exists_of_mem hwidth
      rw [Width.ofNat?_octets]
      dsimp only
      rw [if_neg fun hne => hne (Nat.mod_eq_zero_of_dvd hdvd)]
      exact if_pos hlong

theorem encodeString_ok_iff {capacity width : Nat} {data : Bytes} :
    (∃ bs, encodeString capacity width data = .ok bs) ↔ Representable capacity width data := by
  simp only [encodeString_eq_ok_iff]
  constructor
  · rintro ⟨bs, w, rfl, haligned, hle, hlt, -⟩
    exact ⟨w.octets_mem, Nat.dvd_of_mod_eq_zero haligned, hle, hlt⟩
  · rintro ⟨hwidth, hdvd, hle, hlt⟩
    obtain ⟨w, rfl⟩ := Width.exists_of_mem hwidth
    exact ⟨_, w, rfl, Nat.mod_eq_zero_of_dvd hdvd, hle, hlt, rfl⟩

end Value

theorem Body.eq_iff {b b' : Body} : b = b' ↔ b.content = b'.content := by
  cases b
  cases b'
  simp

namespace Encoder

variable {α β : Type} {o : Overflow}

/-! ## What encoders add -/

/-- An encoder adds exactly these bytes, wherever it writes, and gives `a`. -/
def Writes (d : Encoder α) (bs : Bytes) (a : α) : Prop :=
  ∀ dst, d dst = .ok a (dst ++ bs)

/-- An encoder refuses its value and has added nothing. -/
def Refuses (d : Encoder α) (e : ValueError) : Prop :=
  ∀ dst, d dst = .error (.refused e) dst

theorem Writes.pure (a : α) : Writes (pure a) [] a := by
  intro dst
  rw [List.append_nil]
  rfl

theorem Writes.bind {d : Encoder α} {f : α → Encoder β} {bs cs : Bytes} {a : α} {b : β}
    (hd : Writes d bs a) (hf : Writes (f a) cs b) : Writes (d >>= f) (bs ++ cs) b := by
  intro dst
  show EStateM.bind d f dst = _
  rw [EStateM.bind, hd dst]
  dsimp only
  rw [hf, List.append_assoc]

/-- What is only reckoned adds nothing. -/
theorem Writes.then {d : Encoder α} {f : α → Encoder β} {bs : Bytes} {a : α} {b : β}
    (hd : Writes d [] a) (hf : Writes (f a) bs b) : Writes (d >>= f) bs b :=
  hd.bind hf

theorem Writes.refuses {d : Encoder α} {f : α → Encoder β} {a : α} {e : ValueError}
    (hd : Writes d [] a) (hf : Refuses (f a) e) : Refuses (d >>= f) e := by
  intro dst
  show EStateM.bind d f dst = _
  rw [EStateM.bind, hd dst]
  dsimp only
  rw [hf, List.append_nil]

theorem writes_put (bs : Bytes) : Writes (put bs) bs () :=
  fun _ => rfl

theorem refuses_refuse (e : ValueError) : Refuses (refuse e : Encoder α) e :=
  fun _ => rfl

theorem refuses_refuse_bind (e : ValueError) (f : α → Encoder β) : Refuses (refuse e >>= f) e :=
  fun _ => rfl

/-- A size that a word holds is reckoned exactly. -/
theorem writes_size {exact : Int} {n : Nat} (h : exact = n) (hlt : n < sizeBound) :
    Writes (size o exact) [] n := by
  have hrange : 0 ≤ exact ∧ exact < sizeBound := by omega
  unfold size
  rw [if_pos hrange, h, Int.toNat_natCast]
  exact Writes.pure n

/-! ## Integers and lengths -/

theorem writes_int {w : Nat} {n : UInt32} (hpos : 1 ≤ w) (hle : w ≤ 4) (hfits : n.toNat < Bytes.bound w) :
    Writes (int o w n) (Value.integer w n) () := by
  have hskipped : Writes (size o (4 - w)) [] (4 - w) := by
    refine writes_size ?_ ?_
    · omega
    · exact Nat.lt_of_le_of_lt (Nat.sub_le 4 w) (by decide)
  rw [int, if_neg (by omega), if_neg (by omega), Value.integer, ← Bytes.drop_ofWordBE hle]
  exact (writes_put [Value.intTag]).bind ((writes_put [UInt8.ofNat w]).bind (hskipped.then (writes_put _)))

theorem writes_dword (n : UInt32) : Writes (int o 4 n) (Value.integer 4 n) () :=
  writes_int (by decide) (Nat.le_refl 4) n.toNat_lt

/-- A length is written in the fewest octets. -/
theorem writes_length {n : Nat} (h : n < sizeBound) : Writes (length o n) (Value.lengthField n) () := by
  rw [length, Value.lengthField]
  by_cases hshort : n < 0x80
  · rw [if_pos hshort, if_pos hshort]
    exact writes_put _
  · have hne : n ≠ 0 := by omega
    have hlog : n.log2 < 64 := (Nat.log2_lt hne).mpr h
    have hlength := Value.length_fewestOctets hne
    have hcount : Writes (size o (8 - (leadingZeros n : Int) / 8)) [] (Value.fewestOctets n).length := by
      rw [leadingZeros, if_neg hne, hlength]
      refine writes_size (by omega) (Nat.lt_of_le_of_lt (m := 8) (by omega) (by decide))
    have hoctets : (Bytes.ofNatLE 8 n).take (Value.fewestOctets n).length = Value.fewestOctets n := by
      rw [Bytes.take_ofNatLE (by omega), Value.ofNatLE_length_fewestOctets]
    rw [if_neg hshort, if_neg hshort]
    refine hcount.then ((writes_put _).bind ?_)
    rw [hoctets]
    exact writes_put _

/-! ## Strings -/

theorem product?_of_lt {m n : Nat} (h : m * n < sizeBound) : product? m n = some (m * n) :=
  if_pos h

theorem product?_of_le {m n : Nat} (h : sizeBound ≤ m * n) : product? m n = none :=
  if_neg (by omega)

/-- A string that fits is written. -/
theorem writes_string {capacity : Nat} {w : Width} {data : Bytes} (haligned : data.length % w.octets = 0)
    (hle : data.length / w.octets ≤ capacity) (hlt : capacity * w.octets < Bytes.bound 4) :
    Writes (string o capacity w.octets data)
      (Value.stringField w (data.length / w.octets) (capacity * w.octets) data) () := by
  have hbounds : Bytes.bound 4 + 16 < sizeBound := by decide
  have hlength : data.length / w.octets * w.octets = data.length :=
    Nat.div_mul_cancel (Nat.dvd_of_mod_eq_zero haligned)
  have hfield : data.length ≤ capacity * w.octets := by
    rw [← hlength]
    exact Nat.mul_le_mul_right w.octets hle
  have helements : data.length / w.octets < sizeBound := by
    have := Nat.div_le_self data.length w.octets
    omega
  rw [string, Width.ofNat?_octets]
  dsimp only
  rw [if_neg (fun hne => hne haligned), if_neg (by omega), product?_of_lt (by omega)]
  dsimp only
  refine (writes_size (n := capacity * w.octets - data.length) (by omega) (by omega)).then ?_
  rw [if_neg (by omega)]
  refine (writes_size (n := 16 + capacity * w.octets) (by omega) (by omega)).then ?_
  rw [Value.stringField]
  simp only [List.append_assoc, List.cons_append]
  exact (writes_put [w.tag]).bind <| (writes_length helements).bind <| (writes_dword _).bind <|
    (writes_dword _).bind <| (writes_put data).bind (writes_put _)

theorem refuses_string {capacity width : Nat} {data : Bytes} {e : ValueError}
    (h : Value.RefusedFor capacity width data e) : Refuses (string o capacity width data) e := by
  rw [string]
  cases h with
  | invalidWidth hwidth =>
    rw [Width.ofNat?_eq_none_iff.mpr hwidth]
    exact refuses_refuse _
  | unaligned hwidth hragged =>
    obtain ⟨w, rfl⟩ := Width.exists_of_mem hwidth
    rw [Width.ofNat?_octets]
    dsimp only
    rw [if_pos fun hmod => hragged (Nat.dvd_of_mod_eq_zero hmod)]
    exact refuses_refuse_bind _ _
  | tooLong hwidth hdvd hlong =>
    obtain ⟨w, rfl⟩ := Width.exists_of_mem hwidth
    rw [Width.ofNat?_octets]
    dsimp only
    rw [if_neg fun hne => hne (Nat.mod_eq_zero_of_dvd hdvd)]
    by_cases hmany : capacity < data.length / w.octets
    · rw [if_pos hmany]
      exact refuses_refuse_bind _ _
    · rw [if_neg hmany]
      have hlength : data.length / w.octets * w.octets = data.length := Nat.div_mul_cancel hdvd
      have hfield := Nat.mul_le_mul_right w.octets (Nat.le_of_not_lt hmany)
      -- a field that no word holds is refused for its product, a smaller one for its size
      by_cases hword : capacity * w.octets < sizeBound
      · rw [product?_of_lt hword]
        dsimp only
        refine (writes_size (n := capacity * w.octets - data.length) (by omega) (by omega)).refuses ?_
        have hlarge : Bytes.bound 4 ≤ capacity * w.octets := hlong.resolve_left hmany
        rw [if_pos hlarge]
        exact refuses_refuse_bind _ _
      · rw [product?_of_le (by omega)]
        exact refuses_refuse _

/-- A string is written as its encoding tells, whole or not at all, and no size is out of range on the way. -/
theorem string_eq (o : Overflow) (capacity width : Nat) (data dst : Bytes) :
    string o capacity width data dst =
      match Value.encodeString capacity width data with
      | .ok bs => .ok () (dst ++ bs)
      | .error e => .error (.refused e) dst := by
  rcases h : Value.encodeString capacity width data with e | bs
  · exact refuses_string (Value.encodeString_eq_error_iff.mp h) dst
  · obtain ⟨w, rfl, haligned, hle, hlt, rfl⟩ := Value.encodeString_eq_ok_iff.mp h
    exact writes_string haligned hle hlt dst

/-- A string is added to a body as it is written behind what the body holds. -/
theorem add_string (o : Overflow) (capacity width : Nat) (data : Bytes) (b : Body) :
    (∀ b', b.add (.string capacity width data) = (.ok (), b') ↔
      string o capacity width data b.content = .ok () b'.content) ∧
    (∀ e b', b.add (.string capacity width data) = (.error e, b') ↔
      string o capacity width data b.content = .error (.refused e) b'.content) := by
  have hencode : (Field.string capacity width data).encode = Value.encodeString capacity width data := rfl
  rw [Body.add, hencode, string_eq]
  rcases Value.encodeString capacity width data with e | bs
  · simp [Body.eq_iff]
  · simp [Body.eq_iff]

/-- A string is written if and only if it is representable, and else it is refused for the first condition that
it breaks.  What is refused has added nothing, and what is written is its field.  Sizes never overflow on the
way: a program that stops at such sizes never stops for one.  The same holds of a body that it is added to. -/
theorem string_written_whole_or_refused (o : Overflow) (capacity width : Nat) (data dst : Bytes) :
    ((∃ dst', string o capacity width data dst = .ok () dst') ↔ Value.Representable capacity width data) ∧
    (∀ dst', string o capacity width data dst = .ok () dst' →
      ∃ bs, Value.FillsField capacity width data bs ∧ dst' = dst ++ bs) ∧
    (∀ h dst', string o capacity width data dst = .error h dst' ↔
      dst' = dst ∧ ∃ e, h = .refused e ∧ Value.RefusedFor capacity width data e) ∧
    (∀ b : Body,
      (∀ b', b.add (.string capacity width data) = (.ok (), b') ↔
        string o capacity width data b.content = .ok () b'.content) ∧
      (∀ e b', b.add (.string capacity width data) = (.error e, b') ↔
        string o capacity width data b.content = .error (.refused e) b'.content)) := by
  refine ⟨?_, ?_, ?_, add_string o capacity width data⟩
  · rw [string_eq, ← Value.encodeString_ok_iff]
    rcases Value.encodeString capacity width data with e | bs <;> simp
  · intro dst' h
    rw [string_eq] at h
    rcases hencode : Value.encodeString capacity width data with e | bs
    · rw [hencode] at h
      cases h
    · rw [hencode] at h
      cases h
      obtain ⟨w, rfl, haligned, hle, hlt, rfl⟩ := Value.encodeString_eq_ok_iff.mp hencode
      exact ⟨_, Value.fillsField_stringField haligned hle hlt, rfl⟩
  · intro h dst'
    rw [string_eq]
    simp only [← Value.encodeString_eq_error_iff]
    rcases Value.encodeString capacity width data with e | bs
    · simp [eq_comm, and_comm]
    · simp

/-! ## Strings of their own -/

/-- What is only reckoned leaves the destination empty. -/
theorem Writes.run {d : Encoder α} {f : α → Encoder Unit} {a : α} (h : Writes d [] a) :
    Encoder.run (d >>= f) = Encoder.run (f a) := by
  have hbind : (d >>= f) [] = f a [] := by
    show EStateM.bind d f [] = _
    rw [EStateM.bind, h []]
    rfl
  rw [Encoder.run, hbind, Encoder.run]

/-- A program that wraps sizes around reckons each of them up to a multiple of their bound. -/
theorem writes_size_wraps {exact : Int} {n : Nat} (h : exact = n) :
    Writes (size .wraps exact) [] (n % sizeBound) := by
  unfold size
  by_cases hlt : n < sizeBound
  · rw [if_pos (by omega), h, Int.toNat_natCast, Nat.mod_eq_of_lt hlt]
    exact Writes.pure n
  · rw [if_neg (by omega), h]
    exact Writes.pure (n % sizeBound)

/-- A program that stops at a size that no word holds goes no further. -/
theorem run_size_stops {exact : Int} (f : Nat → Encoder Unit) (h : sizeBound ≤ exact) :
    run (size .stops exact >>= f) = .error .overflow := by
  unfold size
  rw [if_neg (by omega)]
  rfl

/-- A string of its own behind the room that is made for it. -/
theorem run_room (room : Nat) (d : Encoder Unit) :
    run (do
      if roomBound ≤ room then throw .noRoom
      d) = if roomBound ≤ room then .error .noRoom else run d := by
  by_cases h : roomBound ≤ room
  · rw [if_pos h, if_pos h]
    rfl
  · rw [if_neg h, if_neg h]

theorem stringAlone_stops (capacity width : Nat) (data : Bytes) :
    stringAlone .stops capacity width data =
      if sizeBound ≤ 16 + capacity * width then .error .overflow
      else if roomBound ≤ 16 + capacity * width then .error .noRoom
      else run (string .stops capacity width data) := by
  rw [stringAlone]
  by_cases hfield : sizeBound ≤ capacity * width
  · rw [if_pos (by omega), run_size_stops _ (by omega)]
  · rw [(writes_size (n := capacity * width) (by omega) (by omega)).run]
    by_cases hroom : sizeBound ≤ 16 + capacity * width
    · rw [if_pos hroom, run_size_stops _ (by omega)]
    · rw [if_neg hroom, (writes_size (n := 16 + capacity * width) (by omega) (by omega)).run, run_room]

theorem stringAlone_wraps (capacity width : Nat) (data : Bytes) :
    stringAlone .wraps capacity width data =
      if roomBound ≤ (16 + capacity * width) % sizeBound then .error .noRoom
      else run (string .wraps capacity width data) := by
  have hroom : (16 + capacity * width % sizeBound) % sizeBound = (16 + capacity * width) % sizeBound :=
    Nat.add_mod_mod 16 (capacity * width) sizeBound
  rw [stringAlone, (writes_size_wraps (n := capacity * width) (by omega)).run,
    (writes_size_wraps (n := 16 + capacity * width % sizeBound) (by omega)).run, run_room, hroom]

/-- What is written to an empty destination is an encoding. -/
theorem run_string (o : Overflow) (capacity width : Nat) (data : Bytes) :
    run (string o capacity width data) = (Value.encodeString capacity width data).mapError .refused := by
  rw [run, string_eq]
  rcases Value.encodeString capacity width data with e | bs <;> rfl

/-- A string behind nothing is written or refused, and nothing else. -/
theorem run_string_ne_error {capacity width : Nat} {data : Bytes} {h : Halt} (hne : ∀ e, h ≠ .refused e) :
    run (string o capacity width data) ≠ .error h := by
  intro hrun
  rw [run_string] at hrun
  rcases hencode : Value.encodeString capacity width data with e | bs
  · rw [hencode] at hrun
    cases hrun
    exact hne e rfl
  · rw [hencode] at hrun
    cases hrun

theorem stringAlone_overflows_iff {capacity width : Nat} {data : Bytes} :
    stringAlone .stops capacity width data = .error .overflow ↔ sizeBound ≤ 16 + capacity * width := by
  rw [stringAlone_stops]
  by_cases hword : sizeBound ≤ 16 + capacity * width
  · simp [hword]
  · by_cases hroom : roomBound ≤ 16 + capacity * width
    · simp [hword, hroom]
    · rw [if_neg hword, if_neg hroom]
      exact iff_of_false (run_string_ne_error (by simp)) hword

/-- Both programs write a string of its own as one behind nothing if there can be room for it, and the one that
stops at sizes out of range does not if there cannot. -/
theorem stringAlone_eq_run_iff {capacity width : Nat} {data : Bytes} :
    (∀ o, stringAlone o capacity width data = run (string o capacity width data)) ↔
      16 + capacity * width < roomBound := by
  have hbounds : roomBound < sizeBound := by decide
  constructor
  · intro h
    refine Nat.lt_of_not_le fun hroom => ?_
    have hstops := h .stops
    rw [stringAlone_stops, if_pos hroom] at hstops
    split at hstops
    · exact run_string_ne_error (by simp) hstops.symm
    · exact run_string_ne_error (by simp) hstops.symm
  · intro hlt o
    cases o with
    | stops => rw [stringAlone_stops, if_neg (by omega), if_neg (by omega)]
    | wraps => rw [stringAlone_wraps, Nat.mod_eq_of_lt (by omega), if_neg (by omega)]

/-- A string of its own is what would be written behind nothing, or is refused as it would be there, if and only
if there can be room for its field and what stands before it.  A program that stops at sizes out of range does so
if no word holds the size of that room, also for a string that is to be refused. -/
theorem stringAlone_written_as_string_iff (capacity width : Nat) (data : Bytes) :
    ((∀ o, stringAlone o capacity width data = run (string o capacity width data)) ↔
      16 + capacity * width < 2 ^ 63) ∧
    (stringAlone .stops capacity width data = .error .overflow ↔ 2 ^ 64 ≤ 16 + capacity * width) ∧
    (∀ o, run (string o capacity width data)
      = (Value.encodeString capacity width data).mapError .refused) :=
  ⟨stringAlone_eq_run_iff, stringAlone_overflows_iff, fun o => run_string o capacity width data⟩

/-- An empty string in a field that no word holds is too long, but a string of its own gets no such answer. -/
theorem huge_field_gets_no_answer :
    stringAlone .stops (3 * 2 ^ 62) 2 [] = .error .overflow ∧
    stringAlone .wraps (3 * 2 ^ 62) 2 [] = .error .noRoom ∧
    ∀ o, run (string o (3 * 2 ^ 62) 2 []) = .error (.refused (.tooLong 0 (3 * 2 ^ 62))) := by
  refine ⟨rfl, rfl, fun o => ?_⟩
  cases o <;> rfl

end Encoder

end Wwan
