import Wwan.Cli.Rehearsal
import Wwan.Proofs.Value.Halting

/-!
# What decoding reports

The command `decode` takes its bytes in hexadecimal, in which every byte string can be given
(`readHex_encode`), prints the values up to the first bad one, and hands the rest back.  Its status tells
whether the bytes are a body: `decoders_agree` holds the tolerant reading and the status against the strict
reading.
-/

namespace Wwan

/-! ## Bytes in hexadecimal -/

theorem Bytes.toList_loop (a : ByteArray) (i : Nat) (done : Bytes) :
    ByteArray.toList.loop a i done = done.reverse ++ a.data.toList.drop i := by
  fun_induction ByteArray.toList.loop a i done with
  | case1 i done hlt ih =>
    have hlength : i < a.data.toList.length := hlt
    have hoctet : a.get! i = a.data.toList[i] := by
      show a.data[i]! = a.data.toList[i]
      rw [getElem!_pos a.data i hlt, Array.getElem_toList]
    rw [ih, List.drop_eq_getElem_cons hlength, hoctet, List.reverse_cons, List.append_assoc]
    rfl
  | case2 i done hge =>
    have hnone : a.data.toList.drop i = [] := List.drop_eq_nil_of_le (Nat.le_of_not_lt hge)
    rw [hnone, List.append_nil]

theorem Bytes.toList_toByteArray (bs : Bytes) : bs.toByteArray.toList = bs := by
  rw [ByteArray.toList, toList_loop, List.toList_data_toByteArray]
  rfl

/-- The octets of a text whose characters have codes below 128 are these codes. -/
theorem Bytes.ofText_ofList {cs : List Char} (h : ∀ c ∈ cs, c.toNat < 128) :
    Bytes.ofText (String.ofList cs) = cs.map fun c => UInt8.ofNat c.toNat := by
  have hencoded : cs.flatMap String.utf8EncodeChar = cs.map fun c => UInt8.ofNat c.toNat := by
    induction cs with
    | nil => rfl
    | cons c cs ih =>
      have hlt : c.toNat < 128 := h c List.mem_cons_self
      have hsize : c.utf8Size = 1 := by
        rw [Char.utf8Size_eq_one_iff, UInt32.le_iff_toNat_le]
        exact Nat.le_of_lt_succ hlt
      rw [List.flatMap_cons, String.utf8EncodeChar_eq_singleton hsize,
        ih fun d hd => h d (List.mem_cons_of_mem c hd)]
      rfl
  show (String.ofList cs).toByteArray.toList = _
  rw [String.toByteArray_ofList, ← hencoded]
  exact toList_toByteArray _

namespace Text.Hex

/-- The digits that octets are written with. -/
theorem digitChar_spec : ∀ n < 16, (digitChar n).toNat < 128 ∧ isBlank (digitChar n) = false ∧
    digitValue? 16 (Char.ofNat (UInt8.ofNat (digitChar n).toNat).toNat) = some n := by
  decide

theorem mem_octet {c : Char} {b : UInt8} (h : c ∈ octet b) : ∃ n < 16, c = digitChar n := by
  have hb : b.toNat < 256 := b.toNat_lt
  rcases List.mem_cons.mp h with rfl | h
  · exact ⟨b.toNat / 16, by omega, rfl⟩
  · exact ⟨b.toNat % 16, by omega, List.mem_singleton.mp h⟩

theorem mem_digits {c : Char} {bs : Bytes} (h : c ∈ bs.flatMap octet) : ∃ n < 16, c = digitChar n := by
  obtain ⟨b, -, hc⟩ := List.mem_flatMap.mp h
  exact mem_octet hc

theorem digit_digitChar {n : Nat} (h : n < 16) (index : Nat) :
    digit (UInt8.ofNat (digitChar n).toNat) index = .ok n := by
  rw [digit, (digitChar_spec n h).2.2]

/-- Octets are read back from their digits. -/
theorem pairs_digits (bs : Bytes) (index : Nat) :
    pairs index ((bs.flatMap octet).map fun c => UInt8.ofNat c.toNat) = .ok bs := by
  induction bs generalizing index with
  | nil => rfl
  | cons b bs ih =>
    have hb : b.toNat < 256 := b.toNat_lt
    have hoctet : UInt8.ofNat (16 * (b.toNat / 16) + b.toNat % 16) = b := by
      rw [Nat.div_add_mod, UInt8.ofNat_toNat]
    have hdigits : ((b :: bs).flatMap octet).map (fun c => UInt8.ofNat c.toNat)
        = UInt8.ofNat (digitChar (b.toNat / 16)).toNat :: UInt8.ofNat (digitChar (b.toNat % 16)).toNat
          :: (bs.flatMap octet).map fun c => UInt8.ofNat c.toNat := rfl
    rw [hdigits, pairs, digit_digitChar (by omega), digit_digitChar (by omega), ih]
    show Except.ok (_ :: bs) = _
    rw [hoctet]

theorem length_digits (bs : Bytes) : (bs.flatMap octet).length = 2 * bs.length := by
  induction bs with
  | nil => rfl
  | cons b bs ih =>
    rw [List.flatMap_cons, List.length_append, ih, List.length_cons]
    show 2 + _ = _
    omega

theorem decode_encode (bs : Bytes) : decode (encode bs) = .ok bs := by
  have hoctets : Bytes.ofText (encode bs) = (bs.flatMap octet).map fun c => UInt8.ofNat c.toNat := by
    refine Bytes.ofText_ofList fun c hc => ?_
    obtain ⟨n, hn, rfl⟩ := mem_digits hc
    exact (digitChar_spec n hn).1
  have heven : ¬ (Bytes.ofText (encode bs)).length % 2 = 1 := by
    rw [hoctets, List.length_map, length_digits]
    omega
  rw [decode, if_neg heven, hoctets, pairs_digits]

theorem removeBlank_encode (bs : Bytes) : removeBlank (encode bs) = encode bs := by
  have hkept : (bs.flatMap octet).filter (fun c => !isBlank c) = bs.flatMap octet := by
    refine List.filter_eq_self.mpr fun c hc => ?_
    obtain ⟨n, hn, rfl⟩ := mem_digits hc
    rw [(digitChar_spec n hn).2.1]
    rfl
  rw [removeBlank, encode, String.toList_ofList, hkept]

end Text.Hex

namespace Cli

/-- Every byte string can be given in hexadecimal. -/
theorem readHex_encode (bs : Bytes) : readHex (Text.Hex.encode bs) = .ok bs := by
  rw [readHex, Text.Hex.removeBlank_encode, Text.Hex.decode_encode]
  rfl

/-! ## The command -/

/-- What decoding does with the bytes of its text. -/
theorem decode_of_readHex {hex : String} {b : Bytes} (h : readHex hex = .ok b) (format : Format) :
    decode hex format = .ok
      { output := printValues 0 none (Value.decodePrefix b).1 (Value.decodePrefix b).2 format
        status := if (Value.decodePrefix b).2.isSome then .dataInvalid else .success } := by
  rw [decode, h]
  rfl

theorem run_decode {m : Type → Type} [Monad m] [LawfulMonad m] (h : Host m) (format : Format)
    (shown : Option Format) {hex : String} {o : Outcome}
    (hdecode : decode hex (shown.getD format) = .ok o) :
    run h format ⟨shown, .decode hex⟩ = pure o := by
  show (pure (decode hex (shown.getD format)) >>= _ : m Outcome) = _
  rw [pure_bind, hdecode]

/-- The tolerant reading hands nothing back exactly where the strict one succeeds, and both give the same
values.  Else it hands back the bytes from the value on that the strict one fails on: what stands before them
is a body of the values given, they are not empty, and a value read from them alone fails as the strict reading
does, up to the place that the error tells.  The command, given the bytes in hexadecimal in any way, ends with
`dataInvalid` exactly where the strict reading fails. -/
theorem decoders_agree (b : Bytes) :
    (∀ vs, Value.decodePrefix b = (vs, none) ↔ Value.decodeAll b = .ok vs) ∧
    (∀ vs rest, Value.decodePrefix b = (vs, some rest) ↔
      ∃ p e c, b = p ++ rest ∧ rest ≠ [] ∧ Value.decodeAll p = .ok vs ∧
        Cursor.value (Cursor.start rest) = .error e c ∧
        Value.decodeAll b = .error (e.shift p.length)) ∧
    readHex (Text.Hex.encode b) = .ok b ∧
    (∀ (m : Type → Type) [Monad m] [LawfulMonad m] (h : Host m) (format : Format)
      (shown : Option Format) (hex : String), readHex hex = .ok b →
        ∃ o, run h format ⟨shown, .decode hex⟩ = pure o ∧
          (o.status = .dataInvalid ↔ ∃ e, Value.decodeAll b = .error e) ∧
          (o.status = .success ↔ ∃ vs, Value.decodeAll b = .ok vs)) := by
  have hnone : ∀ vs, Value.decodePrefix b = (vs, none) ↔ Value.decodeAll b = .ok vs := fun vs =>
    Cursor.goodValues_none_iff
  refine ⟨hnone, fun vs rest => ?_, readHex_encode b, ?_⟩
  · exact Value.decodePrefix_some_iff
  · intro m _ _ h format shown hex hread
    refine ⟨_, run_decode h format shown (decode_of_readHex hread _), ?_⟩
    rcases hb : Value.decodePrefix b with ⟨vs, _ | rest⟩
    · have hall := (hnone vs).mp hb
      simp [hall]
    · have hbad : ∀ ws, Value.decodeAll b ≠ .ok ws := by
        intro ws hws
        rw [← hnone, hb] at hws
        cases hws
      obtain ⟨e, he⟩ : ∃ e, Value.decodeAll b = .error e := by
        rcases hall : Value.decodeAll b with e | ws
        · exact ⟨e, rfl⟩
        · exact absurd hall (hbad ws)
      simp [he]

/-- One value is read, and the byte behind it begins none. -/
theorem decoders_agree_unknown_tag :
    Value.decodePrefix [0x02, 0x01, 0x05, 0x99, 0x01] = ([.int 5], some [0x99, 0x01]) ∧
    ∃ o, run (Host.rehearsed ⟨"", "", "", "", false⟩ "" (.directory [])) .table
        ⟨none, .decode (Text.Hex.encode [0x02, 0x01, 0x05, 0x99, 0x01])⟩ = pure o ∧
      o.status = .dataInvalid := by
  obtain ⟨-, hbad, hread, hrun⟩ := decoders_agree [0x02, 0x01, 0x05, 0x99, 0x01]
  refine ⟨(hbad _ _).mpr ⟨[0x02, 0x01, 0x05], .unknownTag 0x99 0, _, rfl, by decide, ?_, rfl, ?_⟩, ?_⟩
  · cbv
  · cbv
  · obtain ⟨o, ho, hstatus, -⟩ :=
      hrun _ (Host.rehearsed ⟨"", "", "", "", false⟩ "" (.directory [])) .table none _ hread
    exact ⟨o, ho, hstatus.mpr ⟨.unknownTag 0x99 3, by cbv⟩⟩

end Cli

end Wwan
