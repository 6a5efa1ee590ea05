import Mathlib.Data.List.Basic
import Wwan.Message.Inbox

/-!
# Units in a buffer

A unit is its length in four octets and as many octets as that says.  A buffer is parted into the units
that are taken out of it, the bytes that are dropped because a unit that is too large begins with them,
and what stays (`part`).  This is what `Inbox.drain` does (`Inbox.drain_eq`), and `part_units` says what
becomes of the start of a stream of units.
-/

namespace Wwan

/-- A complete unit. -/
structure IsUnit (u : Bytes) : Prop where
  four_le : 4 ≤ u.length
  length_eq : Bytes.toNatLE (u.take 4) + 4 = u.length

instance : DecidablePred IsUnit := fun u =>
  decidable_of_iff (4 ≤ u.length ∧ Bytes.toNatLE (u.take 4) + 4 = u.length)
    ⟨fun h => ⟨h.1, h.2⟩, fun h => ⟨h.four_le, h.length_eq⟩⟩

/-- The message that a unit is, if it is one. -/
def Message.ofUnit? (u : Bytes) : Option Message :=
  (ofUnit u).toOption

/-! ## The front of a buffer -/

namespace Message

variable {limit : Nat} {buffer : Bytes}

theorem extract_of_short (h : buffer.length < 4) : extract limit buffer = .incomplete := by
  have hlead : (buffer.take 4).length < 4 := by
    rw [List.length_take]
    omega
  rw [extract]
  exact if_pos hlead

/-- What is extracted once the length is there. -/
theorem extract_eq (h : 4 ≤ buffer.length) : extract limit buffer
    = if limit < Bytes.toNatLE (buffer.take 4) + 4 then
        .tooLarge (Bytes.toNatLE (buffer.take 4) + 4)
      else if buffer.length < Bytes.toNatLE (buffer.take 4) + 4 then .incomplete
      else match ofUnit (buffer.take (Bytes.toNatLE (buffer.take 4) + 4)) with
        | .ok m => .message m (buffer.drop (Bytes.toNatLE (buffer.take 4) + 4))
        | .error reason => .malformed reason (buffer.drop (Bytes.toNatLE (buffer.take 4) + 4)) := by
  have hlead : ¬(buffer.take 4).length < 4 := by
    rw [List.length_take]
    omega
  rw [extract]
  simp only [if_neg hlead]
  by_cases hlimit : limit < Bytes.toNatLE (buffer.take 4) + 4
  · rw [if_pos hlimit, if_pos hlimit]
  rw [if_neg hlimit, if_neg hlimit]
  have hshort : (buffer.take (Bytes.toNatLE (buffer.take 4) + 4)).length
      < Bytes.toNatLE (buffer.take 4) + 4 ↔ buffer.length < Bytes.toNatLE (buffer.take 4) + 4 := by
    rw [List.length_take]
    omega
  exact if_congr hshort rfl rfl

/-- What is extracted of a unit that is there in whole. -/
theorem extract_unit {u : Bytes} (h : IsUnit u) (hlimit : u.length ≤ limit) (rest : Bytes) :
    extract limit (u ++ rest) = match ofUnit u with
      | .ok m => .message m rest
      | .error reason => .malformed reason rest := by
  have hfour := h.four_le
  have htotal : Bytes.toNatLE ((u ++ rest).take 4) + 4 = u.length := by
    rw [List.take_append_of_le_length h.four_le, h.length_eq]
  rw [extract_eq (by rw [List.length_append]; omega), htotal, if_neg (by omega),
    if_neg (by rw [List.length_append]; omega), List.take_left, List.drop_left]

/-- What is extracted of a unit that is not there in whole, but for its length. -/
theorem extract_partial (limit : Nat) {u : Bytes} (h : IsUnit u) (hfour : 4 ≤ buffer.length)
    (hstart : buffer.take 4 = u.take 4) : extract limit buffer
      = if limit < u.length then .tooLarge u.length
        else if buffer.length < u.length then .incomplete
        else match ofUnit (buffer.take u.length) with
          | .ok m => .message m (buffer.drop u.length)
          | .error reason => .malformed reason (buffer.drop u.length) := by
  rw [extract_eq hfour, hstart, h.length_eq]

/-- Behind what is taken as a message the buffer goes on. -/
theorem of_extract_message {m : Message} {rest : Bytes}
    (h : extract limit buffer = .message m rest) :
    ofUnit (buffer.take (Bytes.toNatLE (buffer.take 4) + 4)) = .ok m ∧
      rest = buffer.drop (Bytes.toNatLE (buffer.take 4) + 4) := by
  by_cases hfour : 4 ≤ buffer.length
  · rw [extract_eq hfour] at h
    split at h
    · cases h
    split at h
    · cases h
    split at h
    · next hunit =>
      cases h
      exact ⟨hunit, rfl⟩
    · cases h
  · rw [extract_of_short (by omega)] at h
    cases h

theorem of_extract_malformed {reason : String} {rest : Bytes}
    (h : extract limit buffer = .malformed reason rest) :
    ofUnit (buffer.take (Bytes.toNatLE (buffer.take 4) + 4)) = .error reason ∧
      rest = buffer.drop (Bytes.toNatLE (buffer.take 4) + 4) := by
  by_cases hfour : 4 ≤ buffer.length
  · rw [extract_eq hfour] at h
    split at h
    · cases h
    split at h
    · cases h
    split at h
    · cases h
    · next hunit =>
      cases h
      exact ⟨hunit, rfl⟩
  · rw [extract_of_short (by omega)] at h
    cases h

end Message

/-! ## Parting a buffer -/

/-- What becomes of the bytes of a buffer. -/
structure Parting where
  /-- The units that are taken out, whether they are messages or not. -/
  taken : List Bytes
  /-- The bytes that are dropped at once, when a unit that is too large begins with them. -/
  dropped : List Bytes
  /-- The bytes that stay. -/
  rest : Bytes
  deriving DecidableEq

/-- Takes one more unit out, before all others. -/
def Parting.cons (u : Bytes) (p : Parting) : Parting :=
  { p with taken := u :: p.taken }

/-- Parts a buffer as far as it goes. -/
def part (limit : Nat) (buffer : Bytes) : Parting :=
  match _h : Message.extract limit buffer with
  | .incomplete => ⟨[], [], buffer⟩
  | .tooLarge _ => ⟨[], [buffer], []⟩
  | .malformed _ rest => (part limit rest).cons (buffer.take (Bytes.toNatLE (buffer.take 4) + 4))
  | .message _ rest => (part limit rest).cons (buffer.take (Bytes.toNatLE (buffer.take 4) + 4))
termination_by buffer.length
decreasing_by
  · exact Message.extract_malformed_lt _h
  · exact Message.extract_message_lt _h

variable {limit : Nat}

section Steps

variable {buffer rest : Bytes}

theorem part_incomplete (h : Message.extract limit buffer = .incomplete) :
    part limit buffer = ⟨[], [], buffer⟩ := by
  rw [part]
  split <;> simp_all

theorem part_tooLarge {size : Nat} (h : Message.extract limit buffer = .tooLarge size) :
    part limit buffer = ⟨[], [buffer], []⟩ := by
  rw [part]
  split <;> simp_all

theorem part_malformed {reason : String} (h : Message.extract limit buffer = .malformed reason rest) :
    part limit buffer = (part limit rest).cons (buffer.take (Bytes.toNatLE (buffer.take 4) + 4)) := by
  rw [part]
  split <;> simp_all

theorem part_message {m : Message} (h : Message.extract limit buffer = .message m rest) :
    part limit buffer = (part limit rest).cons (buffer.take (Bytes.toNatLE (buffer.take 4) + 4)) := by
  rw [part]
  split <;> simp_all

/-- A unit within the limit is taken out. -/
theorem part_unit {u : Bytes} (h : IsUnit u) (hlimit : u.length ≤ limit) (rest : Bytes) :
    part limit (u ++ rest) = (part limit rest).cons u := by
  have htake : (u ++ rest).take (Bytes.toNatLE ((u ++ rest).take 4) + 4) = u := by
    rw [List.take_append_of_le_length h.four_le, h.length_eq, List.take_left]
  have hextract := Message.extract_unit h hlimit rest
  rcases hunit : Message.ofUnit u with reason | m <;> rw [hunit] at hextract
  · rw [part_malformed hextract, htake]
  · rw [part_message hextract, htake]

end Steps

/-- Draining an inbox is parting its buffer and reading the units that are taken out. -/
theorem Inbox.drain_eq (i : Inbox) : i.drain
    = ((part i.limit i.buffer).taken.filterMap Message.ofUnit?,
        { i with buffer := (part i.limit i.buffer).rest }) := by
  fun_induction drain i with
  | case1 i h =>
    rw [part_incomplete h]
    rfl
  | case2 i size h =>
    rw [part_tooLarge h]
    rfl
  | case3 i reason rest h ih =>
    obtain ⟨hunit, -⟩ := Message.of_extract_malformed h
    have hnone : Message.ofUnit? (i.buffer.take (Bytes.toNatLE (i.buffer.take 4) + 4)) = none := by
      rw [Message.ofUnit?, hunit]
      rfl
    rw [ih, part_malformed h, Parting.cons, List.filterMap_cons_none hnone]
  | case4 i m rest h ih =>
    obtain ⟨hunit, -⟩ := Message.of_extract_message h
    have hsome : Message.ofUnit? (i.buffer.take (Bytes.toNatLE (i.buffer.take 4) + 4)) = some m := by
      rw [Message.ofUnit?, hunit]
      rfl
    rw [ih, part_message h, Parting.cons, List.filterMap_cons_some hsome]
    rfl

/-! ## The start of a stream of units -/

/-- Whether these bytes are the start of the next unit, and too few to do anything about it. -/
def Pends (limit : Nat) (us : List Bytes) (t : Bytes) : Prop :=
  match us with
  | [] => t = []
  | u :: _ => t <+: u ∧ t.length < u.length ∧ (limit < u.length → t.length < 4)

/-- Nothing pends before a unit. -/
theorem pends_nil {us : List Bytes} (hunits : ∀ u ∈ us, IsUnit u) : Pends limit us [] := by
  rcases us with _ | ⟨u, us⟩
  · rfl
  · have hfour := (hunits u List.mem_cons_self).four_le
    refine ⟨List.nil_prefix, ?_, fun _ => ?_⟩
    · show 0 < u.length
      omega
    · exact Nat.zero_lt_succ 3

/-- When nothing is to come any more, nothing pends. -/
theorem eq_nil_of_pends {us : List Bytes} {t : Bytes} (ht : Pends limit us t) (hall : t = us.flatten) :
    us = [] := by
  rcases us with _ | ⟨u, us⟩
  · rfl
  · obtain ⟨-, hlt, -⟩ := ht
    rw [hall, List.flatten_cons, List.length_append] at hlt
    omega

/-- What becomes of the start of a stream of units: the units that are there are taken out up to the
first that is too large; with that everything is dropped, or else the start of a unit stays. -/
theorem part_units (limit : Nat) {us : List Bytes} (hunits : ∀ u ∈ us, IsUnit u) {b : Bytes}
    (hstart : b <+: us.flatten) :
    (∃ done rest t, us = done ++ rest ∧ b = done.flatten ++ t ∧ (∀ u ∈ done, u.length ≤ limit) ∧
      Pends limit rest t ∧ part limit b = ⟨done, [], t⟩) ∨
    (∃ done u rest v, us = done ++ u :: rest ∧ b = done.flatten ++ v ∧
      (∀ u ∈ done, u.length ≤ limit) ∧ limit < u.length ∧ 4 ≤ v.length ∧ v <+: u ++ rest.flatten ∧
      part limit b = ⟨done, [v], []⟩) := by
  induction us generalizing b with
  | nil =>
    obtain rfl : b = [] := List.prefix_nil.mp hstart
    exact .inl ⟨[], [], [], rfl, rfl, by simp, rfl, part_incomplete (Message.extract_of_short (by simp))⟩
  | cons u us ih =>
    have hu := hunits u List.mem_cons_self
    have hfour := hu.four_le
    rw [List.flatten_cons] at hstart
    -- as long as the unit is not there in whole, all that is there is of it
    have hofUnit : b.length < u.length → b <+: u := fun hlt =>
      List.prefix_of_prefix_length_le hstart (List.prefix_append u _) (Nat.le_of_lt hlt)
    by_cases hshort : b.length < 4
    · have hlt : b.length < u.length := by omega
      exact .inl ⟨[], u :: us, b, rfl, rfl, by simp, ⟨hofUnit hlt, hlt, fun _ => hshort⟩,
        part_incomplete (Message.extract_of_short hshort)⟩
    -- the length is there, and it is that of the unit
    have hlead : b.take 4 = u.take 4 := by
      obtain ⟨t, ht⟩ := hstart
      have htake : (b ++ t).take 4 = b.take 4 :=
        List.take_append_of_le_length (Nat.le_of_not_lt hshort)
      rw [← htake, ht, List.take_append_of_le_length hfour]
    have hextract := Message.extract_partial limit hu (Nat.le_of_not_lt hshort) hlead
    by_cases hlarge : limit < u.length
    · rw [if_pos hlarge] at hextract
      exact .inr ⟨[], u, us, b, rfl, rfl, by simp, hlarge, Nat.le_of_not_lt hshort, hstart,
        part_tooLarge hextract⟩
    rw [if_neg hlarge] at hextract
    by_cases hlt : b.length < u.length
    · rw [if_pos hlt] at hextract
      exact .inl ⟨[], u :: us, b, rfl, rfl, by simp, ⟨hofUnit hlt, hlt, fun hc => absurd hc hlarge⟩,
        part_incomplete hextract⟩
    · -- the unit is there in whole, and the rest goes on in the same way
      obtain ⟨b', rfl⟩ : u <+: b :=
        List.prefix_of_prefix_length_le (List.prefix_append u _) hstart (Nat.le_of_not_lt hlt)
      have hpart := part_unit hu (Nat.le_of_not_lt hlarge) b'
      have hsmall : ∀ done : List Bytes, (∀ u ∈ done, u.length ≤ limit) →
          ∀ u' ∈ u :: done, u'.length ≤ limit := by
        intro done hdone u' hu'
        obtain rfl | hmem := List.mem_cons.mp hu'
        · exact Nat.le_of_not_lt hlarge
        · exact hdone u' hmem
      obtain ⟨done, rest, t, rfl, rfl, hdone, hpends, hrest⟩ |
        ⟨done, u', rest, v, rfl, rfl, hdone, hu', hv, hvp, hrest⟩ :=
        ih (fun u' hu' => hunits u' (List.mem_cons_of_mem u hu'))
          ((List.prefix_append_right_inj u).mp hstart)
      · refine .inl ⟨u :: done, rest, t, rfl, ?_, hsmall done hdone, hpends, ?_⟩
        · rw [List.flatten_cons, List.append_assoc]
        · rw [hpart, hrest]
          rfl
      · refine .inr ⟨u :: done, u', rest, v, rfl, ?_, hsmall done hdone, hu', hv, hvp, ?_⟩
        · rw [List.flatten_cons, List.append_assoc]
        · rw [hpart, hrest]
          rfl

end Wwan
