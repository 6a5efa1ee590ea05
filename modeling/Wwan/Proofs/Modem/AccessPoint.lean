import Wwan.Modem.Request
import Wwan.Proofs.Cli.Decoding
import Wwan.Proofs.Value.Parts

/-!
# The name of the access point in its configuration

The configuration is a fixed layout with a field for the name in each of its two contexts.  The field is
read as the name with zeros behind it, up to the same size for every name (`decodeAll_apnField`), and what
stands around the two fields does not depend on the name (`apnLayout_eq`).  So a name has an influence in
these two places only: `apn_shows_in_its_fields_only`.
-/

namespace Wwan

/-! ## Names in ASCII -/

/-- The octets of a text are those of its characters. -/
theorem Bytes.ofText_eq_flatMap (s : String) : Bytes.ofText s = s.toList.flatMap String.utf8EncodeChar := by
  have hoctets : (String.ofList s.toList).toByteArray.toList = s.toList.flatMap String.utf8EncodeChar := by
    rw [String.toByteArray_ofList]
    exact toList_toByteArray _
  rw [String.ofList_toList] at hoctets
  exact hoctets

theorem high_ofNat_iff {n : Nat} (h : n < 256) : (0x80 : UInt8) ≤ UInt8.ofNat n ↔ 128 ≤ n := by
  rw [UInt8.le_iff_toNat_le, UInt8.toNat_ofNat', Nat.mod_eq_of_lt h]
  exact Iff.rfl

/-- An ASCII character is one octet, whose top bit is clear. -/
theorem not_high_octet {c : Char} (h : c.toNat < 128) : ∀ b ∈ String.utf8EncodeChar c, ¬0x80 ≤ b := by
  have hsingle : String.utf8EncodeChar c = [UInt8.ofNat c.toNat] := if_pos (Nat.le_of_lt_succ h)
  intro b hb
  rw [hsingle, List.mem_singleton] at hb
  rw [hb, high_ofNat_iff (by omega)]
  omega

/-- A character beyond ASCII starts with an octet whose top bit is set. -/
theorem exists_high_octet {c : Char} (h : ¬c.toNat < 128) : ∃ b ∈ String.utf8EncodeChar c, 0x80 ≤ b := by
  fun_cases String.utf8EncodeChar c with
  | case1 v hle => exact absurd (Nat.lt_succ_of_le hle) h
  | case2 | case3 | case4 =>
    exact ⟨_, List.mem_cons_self, (high_ofNat_iff (by omega)).mpr (by omega)⟩

namespace Text

/-- Whether all characters of a text are ASCII. -/
def Ascii (s : String) : Prop :=
  ∀ c ∈ s.toList, c.toNat < 128

/-- A text is ASCII if and only if no octet of it has its top bit set. -/
theorem ascii_iff {s : String} :
    Ascii s ↔ ((Bytes.ofText s).any fun b => 0x80 ≤ b) = false := by
  rw [Bytes.ofText_eq_flatMap, List.any_eq_false]
  constructor
  · intro h b hb
    obtain ⟨c, hc, hoctet⟩ := List.mem_flatMap.mp hb
    rw [decide_eq_true_eq]
    exact not_high_octet (h c hc) b hoctet
  · intro h c hc
    apply Decidable.byContradiction
    intro hbeyond
    obtain ⟨b, hb, hhigh⟩ := exists_high_octet hbeyond
    exact h b (List.mem_flatMap.mpr ⟨c, hc, hb⟩) (decide_eq_true hhigh)

end Text

namespace Modem

open Value (byte dword zeros decodeAll IsBody isBody_byte isBody_dword)

/-! ## The layout -/

/-- What stands in front of the first name. -/
def beforeNames : Bytes :=
  byte 0 ++ zeros 257 ++ dword 0 ++ blankContext ++ blankContext
    ++ dword 0x404 ++ dword 1 ++ dword 0 ++ dword 1 ++ dword 0 ++ dword 0 ++ dword 0 ++ dword 0
    ++ zeros 20 ++ byte 3

/-- What stands between the two names. -/
def betweenNames : Bytes :=
  dword 0 ++ zeros 20 ++ byte 0 ++ byte 0 ++ byte 3

/-- What stands behind the second name. -/
def afterNames : Bytes :=
  dword 0 ++ zeros 20 ++ byte 0 ++ byte 0 ++ dword 0 ++ dword 0

theorem apnLayout_eq (apn : Bytes) :
    apnLayout apn = beforeNames ++ apnField apn ++ betweenNames ++ apnField apn ++ afterNames := by
  simp only [apnLayout, apnContext, beforeNames, betweenNames, afterNames, List.append_assoc]

theorem isBody_beforeNames : IsBody beforeNames := by
  have hzeros : ∀ n ∈ [20, 65, 250, 257], n < Bytes.bound 4 := by decide
  simp [beforeNames, blankContext, isBody_byte, hzeros]

theorem isBody_betweenNames : IsBody betweenNames := by
  simp [betweenNames, isBody_byte, Bytes.bound]

theorem isBody_afterNames : IsBody afterNames := by
  simp [afterNames, isBody_dword, Bytes.bound]

/-! ## The name's field -/

/-- The value that the field of a name is read as: the name, and zeros up to the field's size. -/
def nameValue (apn : Bytes) : Value :=
  .string .one (apn ++ Bytes.zeros (apnSize - apn.length))

theorem length_padded {apn : Bytes} (h : apn.length ≤ apnSize) :
    (apn ++ Bytes.zeros (apnSize - apn.length)).length = apnSize := by
  rw [List.length_append, Bytes.length_zeros]
  omega

theorem decodeAll_apnField {apn : Bytes} (h : apn.length ≤ apnSize) :
    decodeAll (apnField apn) = .ok [nameValue apn] := by
  refine Value.decodeAll_stringField ⟨?_, Nat.le_of_eq (length_padded h), by decide⟩
  rw [length_padded h]
  rfl

/-- The field has the same size for every name. -/
theorem length_apnField {apn apn' : Bytes} (h : apn.length ≤ apnSize) (h' : apn'.length ≤ apnSize) :
    (apnField apn).length = (apnField apn').length := by
  simp only [apnField, Value.stringField, List.length_append, length_padded h, length_padded h']

/-! ## The whole configuration -/

/-- A configuration is read as the name's value in two places of values that are always the same. -/
theorem decodeAll_apnLayout : ∃ before between after : List Value,
    ∀ apn : Bytes, apn.length ≤ apnSize → decodeAll (apnLayout apn)
      = .ok (before ++ nameValue apn :: (between ++ nameValue apn :: after)) := by
  obtain ⟨before, hbefore⟩ := isBody_beforeNames
  obtain ⟨between, hbetween⟩ := isBody_betweenNames
  obtain ⟨after, hafter⟩ := isBody_afterNames
  refine ⟨before, between, after, fun apn h => ?_⟩
  have hname := decodeAll_apnField h
  have hsecond := Value.decodeAll_append hname hafter
  have hfirst := Value.decodeAll_append hname (Value.decodeAll_append hbetween hsecond)
  rw [apnLayout_eq]
  simp only [List.append_assoc]
  exact Value.decodeAll_append hbefore hfirst

theorem length_apnLayout {apn apn' : Bytes} (h : apn.length ≤ apnSize) (h' : apn'.length ≤ apnSize) :
    (apnLayout apn).length = (apnLayout apn').length := by
  simp only [apnLayout_eq, List.length_append, length_apnField h h']

theorem getElem?_places {α : Type} (xs ys zs : List α) (v : α) :
    (xs ++ v :: (ys ++ v :: zs))[xs.length]? = some v ∧
      (xs ++ v :: (ys ++ v :: zs))[xs.length + 1 + ys.length]? = some v := by
  have hsecond : (xs ++ v :: (ys ++ v :: zs))[xs.length + (1 + ys.length)]? = some v := by
    rw [List.getElem?_append_right (Nat.le_add_right _ _), Nat.add_sub_cancel_left, Nat.add_comm 1,
      List.getElem?_cons_succ, List.getElem?_append_right (Nat.le_refl _), Nat.sub_self]
    rfl
  rw [Nat.add_assoc, List.getElem?_append_right (Nat.le_refl _), Nat.sub_self]
  exact ⟨rfl, hsecond⟩

/-- Lists that differ in two places only agree in all others. -/
theorem getElem?_around {α : Type} (xs ys zs : List α) (v w : α) {k : Nat} (hfirst : k ≠ xs.length)
    (hsecond : k ≠ xs.length + 1 + ys.length) :
    (xs ++ v :: (ys ++ v :: zs))[k]? = (xs ++ w :: (ys ++ w :: zs))[k]? := by
  simp only [List.getElem?_append, List.getElem?_cons]
  grind

/-! ## Which names are taken -/

/-- A name that is not ASCII is refused as such, however long it is. -/
theorem apnConfigBody_of_not_ascii {apn : String} (h : ¬Text.Ascii apn) :
    apnConfigBody apn = .error (.invalidApn (Text.quote apn ++ " is not ASCII")) := by
  rw [Text.ascii_iff, Bool.not_eq_false] at h
  exact if_pos h

theorem apnConfigBody_of_ascii {apn : String} (h : Text.Ascii apn) :
    apnConfigBody apn
      = if apnSize < (Bytes.ofText apn).length then .error (.value (.tooLong (Bytes.ofText apn).length apnSize))
        else .ok (apnLayout (Bytes.ofText apn)) := by
  rw [Text.ascii_iff] at h
  rw [apnConfigBody, h]
  exact if_neg Bool.false_ne_true

theorem apnConfigBody_eq_ok_iff {apn : String} {body : Bytes} :
    apnConfigBody apn = .ok body ↔
      (Text.Ascii apn ∧ (Bytes.ofText apn).length ≤ apnSize) ∧ apnLayout (Bytes.ofText apn) = body := by
  by_cases hascii : Text.Ascii apn
  · rw [apnConfigBody_of_ascii hascii]
    by_cases hlong : apnSize < (Bytes.ofText apn).length
    · rw [if_pos hlong]
      exact iff_of_false nofun fun h => Nat.not_le_of_lt hlong h.1.2
    · rw [if_neg hlong, Except.ok.injEq]
      exact (and_iff_right ⟨hascii, Nat.le_of_not_lt hlong⟩).symm
  · rw [apnConfigBody_of_not_ascii hascii]
    exact iff_of_false nofun fun h => hascii h.1.1

/-- A name is taken if and only if it is ASCII and has at most 101 octets; if it is not ASCII, it is refused
as such, however long it is, and otherwise as too long.  The configurations of any two names are equally long,
and they are read as values that agree everywhere but in the same two places, which hold the name with zeros
behind it. -/
theorem apn_shows_in_its_fields_only :
    (∀ apn : String,
      ((∃ body, apnConfigBody apn = .ok body) ↔ Text.Ascii apn ∧ (Bytes.ofText apn).length ≤ 101) ∧
      (¬Text.Ascii apn → apnConfigBody apn = .error (.invalidApn (Text.quote apn ++ " is not ASCII"))) ∧
      (Text.Ascii apn → 101 < (Bytes.ofText apn).length →
        apnConfigBody apn = .error (.value (.tooLong (Bytes.ofText apn).length 101)))) ∧
    ∃ i j : Nat, i < j ∧ ∀ (apn apn' : String) (body body' : Bytes),
      apnConfigBody apn = .ok body → apnConfigBody apn' = .ok body' →
      body.length = body'.length ∧
      ∃ values values', decodeAll body = .ok values ∧ decodeAll body' = .ok values' ∧
        values.length = values'.length ∧
        values[i]? = some (nameValue (Bytes.ofText apn)) ∧ values[j]? = some (nameValue (Bytes.ofText apn)) ∧
        values'[i]? = some (nameValue (Bytes.ofText apn')) ∧ values'[j]? = some (nameValue (Bytes.ofText apn')) ∧
        ∀ k, k ≠ i → k ≠ j → values[k]? = values'[k]? := by
  constructor
  · intro apn
    refine ⟨⟨?_, ?_⟩, apnConfigBody_of_not_ascii, ?_⟩
    · rintro ⟨body, hbody⟩
      exact (apnConfigBody_eq_ok_iff.mp hbody).1
    · intro htaken
      exact ⟨_, apnConfigBody_eq_ok_iff.mpr ⟨htaken, rfl⟩⟩
    · intro hascii hlong
      rw [apnConfigBody_of_ascii hascii]
      exact if_pos hlong
  · obtain ⟨before, between, after, hread⟩ := decodeAll_apnLayout
    refine ⟨before.length, before.length + 1 + between.length, by omega, ?_⟩
    intro apn apn' body body' hbody hbody'
    obtain ⟨⟨-, hfits⟩, rfl⟩ := apnConfigBody_eq_ok_iff.mp hbody
    obtain ⟨⟨-, hfits'⟩, rfl⟩ := apnConfigBody_eq_ok_iff.mp hbody'
    refine ⟨length_apnLayout hfits hfits', _, _, hread _ hfits, hread _ hfits', ?_, ?_⟩
    · simp only [List.length_append, List.length_cons]
    · have hplaces := getElem?_places before between after
      refine ⟨(hplaces _).1, (hplaces _).2, (hplaces _).1, (hplaces _).2, fun k hfirst hsecond => ?_⟩
      exact getElem?_around before between after _ _ hfirst hsecond

end Modem

end Wwan
