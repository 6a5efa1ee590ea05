import Wwan.Proofs.Message.Framing

/-!
# Taking a unit from a buffer

What a buffer gives is decided by its first four bytes and the unit that they announce.  A unit is taken out
as a whole or not at all, and the message that is read from it says the same as its bytes: written field by
field (`Message.bytes`) it is the unit again.  `Inbox.next_takes_units` is the law of taking units.
-/

namespace Wwan

/-- How many bytes the first unit of a buffer has, if its length is there. -/
def Message.total (b : Bytes) : Nat :=
  Bytes.toNatLE (b.take 4) + 4

/-! ## Taking units -/

namespace Inbox

variable {limit : Nat} {b : Bytes}

/-- What an inbox gives that has the whole first unit. -/
theorem next_of_whole (hfour : 4 ≤ b.length) (hlimit : Message.total b ≤ limit)
    (hwhole : Message.total b ≤ b.length) : (Inbox.mk limit b).next
      = ((Message.readUnit (b.take (Message.total b))).map some, ⟨limit, b.drop (Message.total b)⟩) := by
  have hextract := @Message.extract_eq limit b hfour
  unfold Message.total at *
  rw [if_neg (by omega), if_neg (by omega)] at hextract
  rw [next, Message.readUnit]
  rcases hunit : Message.ofUnit (b.take (Bytes.toNatLE (b.take 4) + 4)) with reason | m <;>
    rw [hunit] at hextract <;> simp only [hextract] <;> rfl

theorem next_of_incomplete (h : b.length < 4 ∨ Message.total b ≤ limit ∧ b.length < Message.total b) :
    (Inbox.mk limit b).next = (.ok none, ⟨limit, b⟩) := by
  have hextract : Message.extract limit b = .incomplete := by
    by_cases hshort : b.length < 4
    · exact Message.extract_of_short hshort
    · obtain ⟨hlimit, hpart⟩ := h.resolve_left hshort
      unfold Message.total at *
      rw [Message.extract_eq (Nat.le_of_not_lt hshort), if_neg (by omega), if_pos hpart]
  rw [next]
  simp only [hextract]

theorem next_of_large (hfour : 4 ≤ b.length) (hlarge : limit < Message.total b) :
    (Inbox.mk limit b).next = (.error (.tooLarge (Message.total b) limit), ⟨limit, b⟩) := by
  have hextract := @Message.extract_eq limit b hfour
  unfold Message.total at *
  rw [if_pos hlarge] at hextract
  rw [next]
  simp only [hextract]

/-- The first unit tells how long it is. -/
theorem total_take_append (hfour : 4 ≤ b.length) (rest : Bytes) :
    Message.total (b.take (Message.total b) ++ rest) = Message.total b := by
  have hlength : 4 ≤ (b.take (Message.total b)).length := by
    rw [List.length_take, Message.total]
    omega
  have hlead : (b.take (Message.total b) ++ rest).take 4 = b.take 4 := by
    rw [List.take_append_of_le_length hlength, List.take_take, Message.total]
    congr 1
  rw [Message.total, hlead, Message.total]

/-- What is wrong with a header is wrong where it stands in the buffer. -/
theorem badHeader_take (hwhole : Message.total b ≤ b.length) : Message.BadHeader (b.take (Message.total b)) ↔
    Message.total b < 20 ∨ (b.drop 4).take 2 ≠ [2, 4] ∨ (b.drop 10).take 2 ≠ [2, 4] := by
  rw [Message.BadHeader, List.length_take_of_le hwhole]
  by_cases hshort : Message.total b < 20
  · exact iff_of_true (.inl hshort) (.inl hshort)
  · have hfield : ∀ i, i + 2 ≤ 20 → ((b.take (Message.total b)).drop i).take 2 = (b.drop i).take 2 := by
      intro i hi
      rw [List.drop_take, List.take_take]
      congr 1
      omega
    rw [hfield 4 (by omega), hfield 10 (by omega)]

/-- Taking units is exact, whatever is in the buffer and whatever the limit.  As long as the length of the
first unit is not there, or the unit is not, nothing happens; a unit over the limit is an error, and nothing
is taken.  Otherwise just the unit is taken, and it is an error if its header is bad, or else the one message
that has its bytes.  What stands behind the unit makes no difference. -/
theorem next_takes_units (limit : Nat) (b : Bytes) :
    let total := Message.total b
    let found := (Inbox.mk limit b).next
    (b.length < 4 ∨ total ≤ limit ∧ b.length < total → found = (.ok none, ⟨limit, b⟩)) ∧
    (4 ≤ b.length ∧ limit < total → found = (.error (.tooLarge total limit), ⟨limit, b⟩)) ∧
    (4 ≤ b.length ∧ total ≤ limit ∧ total ≤ b.length →
      found.2 = ⟨limit, b.drop total⟩ ∧
      ((∃ reason, found.1 = .error (.malformed reason)) ↔
        total < 20 ∨ (b.drop 4).take 2 ≠ [2, 4] ∨ (b.drop 10).take 2 ≠ [2, 4]) ∧
      ((∃ m, found.1 = .ok (some m)) ↔
        ¬(total < 20 ∨ (b.drop 4).take 2 ≠ [2, 4] ∨ (b.drop 10).take 2 ≠ [2, 4])) ∧
      ∀ m, found.1 = .ok (some m) ↔ m.bytes = b.take total) ∧
    (4 ≤ b.length ∧ total ≤ b.length →
      ∀ rest, (Inbox.mk limit (b.take total ++ rest)).next.1 = found.1) := by
  intro total found
  refine ⟨next_of_incomplete, fun ⟨hfour, hlarge⟩ => next_of_large hfour hlarge, ?_, ?_⟩
  · rintro ⟨hfour, hlimit, hwhole⟩
    have hfound : found = _ := next_of_whole hfour hlimit hwhole
    have hread := Message.readAs_readUnit (b.take total)
    rw [hfound, ← badHeader_take hwhole, ← hread.ok_iff, ← hread.malformed_iff]
    refine ⟨rfl, ?_⟩
    simp only [← hread.eq_ok_iff]
    rcases Message.readUnit (b.take total) with e | m
    · simp [Except.map]
    · simp [Except.map]
  · rintro ⟨hfour, hwhole⟩ rest
    have htotal : Message.total (b.take total ++ rest) = total := total_take_append hfour rest
    have hunit : (b.take total).length = total := List.length_take_of_le hwhole
    have hle : total ≤ (b.take total ++ rest).length := by
      rw [List.length_append, hunit]
      omega
    have hfour' : 4 ≤ (b.take total ++ rest).length := Nat.le_trans (Nat.le_add_left 4 _) hle
    by_cases hlimit : total ≤ limit
    · have hfirst := next_of_whole hfour' (htotal.symm ▸ hlimit) (htotal.symm ▸ hle)
      rw [htotal, List.take_left' hunit] at hfirst
      rw [hfirst, show found = _ from next_of_whole hfour hlimit hwhole]
    · have hlarge : limit < total := Nat.lt_of_not_le hlimit
      rw [next_of_large hfour' (htotal.symm ▸ hlarge), htotal, show found = _ from next_of_large hfour hlarge]

/-- A unit with two different lengths is a message nevertheless, and the unit behind it stays. -/
example : (Inbox.mk 20 ([16, 0, 0, 0, 2, 4, 0, 0, 0, 9, 2, 4, 0, 0, 0, 7, 0x11, 0, 1, 0] ++ [16, 0])).next
    = (.ok (some ⟨16, 9, 7, syncWord, []⟩), ⟨20, [16, 0]⟩) := by
  rfl

end Inbox

end Wwan
