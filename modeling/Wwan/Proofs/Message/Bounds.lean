import Wwan.Proofs.Message.Framing

/-!
# The bounds of reading

`Message.extractChecked` is `Message.extract` with every access to the buffer checked: it fails when
something is asked for that is not there.  It never fails (`Message.extractChecked_eq`), whatever is in the
buffer.  And what a call for the next message takes is bounded from below (`Inbox.receive_takes`): every
unit that is taken out of an inbox has at least the four bytes of its length, and so has whatever is there
when a unit is reported to be too large.
-/

namespace Wwan

/-! ## Checked access -/

namespace Bytes

/-- The octets from one place up to another; none if not all of them are there. -/
def slice? (i j : Nat) (b : Bytes) : Option Bytes :=
  if i ≤ j ∧ j ≤ b.length then some ((b.drop i).take (j - i)) else none

/-- The first octets and the others; none if there are not so many. -/
def split? (n : Nat) (b : Bytes) : Option (Bytes × Bytes) :=
  if n ≤ b.length then some (b.take n, b.drop n) else none

/-- Passes over the first octets; none if there are not so many. -/
def advance? (n : Nat) (b : Bytes) : Option Bytes :=
  (b.split? n).map Prod.snd

/-- Reads a word, most significant octet first; none if there are not four octets. -/
def word? (b : Bytes) : Option (UInt32 × Bytes) :=
  (b.split? 4).map fun (lead, rest) => (toWordBE lead, rest)

variable {i j n : Nat} {b : Bytes}

theorem slice?_eq (hij : i ≤ j) (hj : j ≤ b.length) : b.slice? i j = some ((b.drop i).take (j - i)) :=
  if_pos ⟨hij, hj⟩

theorem split?_eq (h : n ≤ b.length) : b.split? n = some (b.take n, b.drop n) :=
  if_pos h

theorem advance?_eq (h : n ≤ b.length) : b.advance? n = some (b.drop n) := by
  rw [advance?, split?_eq h]
  rfl

theorem word?_eq (h : 4 ≤ b.length) : b.word? = some (toWordBE (b.take 4), b.drop 4) := by
  rw [word?, split?_eq h]
  rfl

end Bytes

namespace Message

/-- Reads a unit that is known to be complete, one field after the other, each access checked. -/
def ofUnitChecked (length : UInt32) (u : Bytes) : Option (Except String Message) :=
  if u.length < headerSize then some (.error "length shorter than header")
  else do
    let u ← u.advance? 4
    let first ← Bytes.slice? 0 2 u
    let second ← Bytes.slice? 6 8 u
    if first ≠ fourOctets ∨ second ≠ fourOctets then
      return .error "header field is not a 4-byte integer"
    let u ← u.advance? 2
    let (declared, u) ← u.word?
    let u ← u.advance? 2
    let (command, u) ← u.word?
    let (word, u) ← u.word?
    return .ok { length, declared, command, word, body := u }

/-- Takes the first unit of a buffer, each access checked. -/
def extractChecked (limit : Nat) (buffer : Bytes) : Option Extraction :=
  if buffer.length < 4 then some .incomplete
  else do
    let lead ← buffer.slice? 0 4
    let total := Bytes.toNatLE lead + 4
    if limit < total then return .tooLarge total
    if buffer.length < total then return .incomplete
    let (u, rest) ← buffer.split? total
    let unit ← ofUnitChecked (Bytes.toWordLE lead) u
    return match unit with
      | .ok m => .message m rest
      | .error reason => .malformed reason rest

/-- Nothing is read outside a unit. -/
theorem ofUnitChecked_eq (u : Bytes) : ofUnitChecked (Bytes.toWordLE (u.take 4)) u = some (ofUnit u) := by
  unfold ofUnitChecked ofUnit
  by_cases hshort : u.length < headerSize
  · rw [if_pos hshort, if_pos hshort]
  rw [if_neg hshort, if_neg hshort]
  have hheader : 20 ≤ u.length := Nat.le_of_not_lt hshort
  have hlength : ∀ n, (u.drop n).length = u.length - n := fun n => List.length_drop
  -- the fields lie one behind the other, each within the header
  have hadvance : ∀ n m, m + n ≤ 20 → Bytes.advance? n (u.drop m) = some (u.drop (m + n)) := by
    intro n m hle
    rw [Bytes.advance?_eq (by rw [hlength]; omega), List.drop_drop]
  have hslice : ∀ i, 4 + i + 2 ≤ 20 → Bytes.slice? i (i + 2) (u.drop 4) = some ((u.drop (4 + i)).take 2) := by
    intro i hle
    rw [Bytes.slice?_eq (by omega) (by rw [hlength]; omega), List.drop_drop, Nat.add_sub_cancel_left]
  have hword : ∀ m, m + 4 ≤ 20 →
      Bytes.word? (u.drop m) = some (Bytes.toWordBE ((u.drop m).take 4), u.drop (m + 4)) := by
    intro m hle
    rw [Bytes.word?_eq (by rw [hlength]; omega), List.drop_drop]
  rw [Bytes.advance?_eq (by omega)]
  simp only [Option.bind_eq_bind, Option.bind_some, hslice 0 (by omega), hslice 6 (by omega),
    hadvance 2 4 (by omega), hword 6 (by omega), hadvance 2 10 (by omega), hword 12 (by omega), hword 16 (by omega)]
  split <;> rfl

/-- Nothing is read outside the buffer, whatever is in it. -/
theorem extractChecked_eq (limit : Nat) (buffer : Bytes) :
    extractChecked limit buffer = some (extract limit buffer) := by
  rw [extractChecked]
  by_cases hshort : buffer.length < 4
  · rw [if_pos hshort, extract_of_short hshort]
  have hfour : 4 ≤ buffer.length := Nat.le_of_not_lt hshort
  rw [if_neg hshort, extract_eq hfour, Bytes.slice?_eq (Nat.zero_le _) hfour]
  simp only [List.drop_zero, Nat.sub_zero, Option.bind_eq_bind, Option.bind_some]
  by_cases hlimit : limit < Bytes.toNatLE (buffer.take 4) + 4
  · rw [if_pos hlimit, if_pos hlimit]
    rfl
  by_cases hpart : buffer.length < Bytes.toNatLE (buffer.take 4) + 4
  · rw [if_neg hlimit, if_neg hlimit, if_pos hpart, if_pos hpart]
    rfl
  -- the unit starts with the length that the buffer starts with
  have hlead : buffer.take 4 = (buffer.take (Bytes.toNatLE (buffer.take 4) + 4)).take 4 := by
    rw [List.take_take]
    congr 1
  have hunit := ofUnitChecked_eq (buffer.take (Bytes.toNatLE (buffer.take 4) + 4))
  rw [← hlead] at hunit
  rw [if_neg hlimit, if_neg hlimit, if_neg hpart, if_neg hpart, Bytes.split?_eq (Nat.le_of_not_lt hpart)]
  simp only [Option.bind_some, hunit]
  rfl

end Message

/-! ## What is taken -/

/-- The bytes that a source has left. -/
def Source.left (s : Source) : Bytes :=
  s.current ++ supplied s.items

namespace Source

variable {limit : Nat} {s s' : Source}

/-- A read takes its bytes from the front, no more than were asked for. -/
theorem of_read_bytes {chunk : Bytes} (h : s.read limit = (.ok chunk, s')) :
    chunk.length ≤ limit ∧ s.left = chunk ++ s'.left := by
  unfold read at h
  unfold left
  cases hcurrent : s.current with
  | cons b bs =>
    simp only [hcurrent, Prod.mk.injEq, Except.ok.injEq] at h
    obtain ⟨rfl, rfl⟩ := h
    refine ⟨List.length_take_le _ _, ?_⟩
    rw [← List.append_assoc, List.take_append_drop]
  | nil =>
    cases hitems : s.items with
    | nil =>
      simp only [hcurrent, hitems, Prod.mk.injEq, Except.ok.injEq] at h
      obtain ⟨rfl, rfl⟩ := h
      rw [hcurrent, hitems]
      exact ⟨Nat.zero_le _, rfl⟩
    | cons item rest =>
      cases item with
      | bytes data =>
        simp only [hcurrent, hitems, Prod.mk.injEq, Except.ok.injEq] at h
        obtain ⟨rfl, rfl⟩ := h
        refine ⟨List.length_take_le _ _, ?_⟩
        rw [supplied, List.nil_append, ← List.append_assoc, List.take_append_drop]
      | fault f =>
        simp only [hcurrent, hitems, Prod.mk.injEq] at h
        cases h.1

/-- A failed read takes no bytes. -/
theorem left_read_error {f : Fault} (h : s.read limit = (.error f, s')) : s.left = s'.left := by
  obtain ⟨hs, hcurrent⟩ := of_read_error h
  rw [hs, left, left, hcurrent]
  rfl

end Source

namespace Inbox

/-- How a call for the next message ends for which these bytes were there, sooner or later, and that leaves
`b'` in the inbox. -/
inductive Taken (limit : Nat) (there b' : Bytes) : Except CallError Message → Prop where
  /-- A message is taken out, with the four bytes of its length at least. -/
  | message (m : Message) (four_le : b'.length + 4 ≤ there.length) : Taken limit there b' (.ok m)
  /-- So is a unit that is no message. -/
  | malformed (reason : String) (four_le : b'.length + 4 ≤ there.length) :
    Taken limit there b' (.error (.malformed reason))
  /-- Of a unit that is too large the length is there, and nothing is taken out. -/
  | tooLarge (size : Nat) (four_le : 4 ≤ there.length) (same : b' = there) :
    Taken limit there b' (.error (.tooLarge size limit))
  /-- The stream has ended, or cannot be read. -/
  | ended (same : b' = there) : Taken limit there b' (.error .channelClosed)
  | fault (f : Fault) (same : b' = there) : Taken limit there b' (.error (.fault f))

/-- Once something can be extracted, four bytes are there. -/
theorem four_le_of_extract {limit : Nat} {b : Bytes} (h : Message.extract limit b ≠ .incomplete) :
    4 ≤ b.length := by
  apply Nat.le_of_not_lt
  intro hshort
  exact h (Message.extract_of_short hshort)

/-- What a call for the next message takes when it has to read nothing. -/
theorem receive_of_extract {limit : Nat} {b : Bytes} (h : Message.extract limit b ≠ .incomplete) (s : Source) :
    ∃ b' r, (Inbox.mk limit b).receive s = (r, ⟨limit, b'⟩, s) ∧ Taken limit b b' r := by
  have hfour := four_le_of_extract h
  have hrest : ∀ total, (b.drop (total + 4)).length + 4 ≤ b.length := by
    intro total
    rw [List.length_drop]
    omega
  rw [receive, next]
  cases hextract : Message.extract limit b with
  | incomplete => exact absurd hextract h
  | tooLarge size => exact ⟨b, _, rfl, .tooLarge size hfour rfl⟩
  | malformed reason rest =>
    obtain ⟨-, rfl⟩ := Message.of_extract_malformed hextract
    exact ⟨_, _, rfl, .malformed reason (hrest _)⟩
  | message m rest =>
    obtain ⟨-, rfl⟩ := Message.of_extract_message hextract
    exact ⟨_, _, rfl, .message m (hrest _)⟩

/-- What a call for the next message takes: it receives `got`, and from that and what was there before a unit
is taken out, unless the stream is over or the unit too large. -/
theorem receive_takes (limit : Nat) (b : Bytes) (s : Source) : ∃ got b' s' r,
    (Inbox.mk limit b).receive s = (r, ⟨limit, b'⟩, s') ∧ s.left = got ++ s'.left ∧
      Taken limit (b ++ got) b' r := by
  -- on what there is to read: each read that goes on takes some of it
  induction hload : s.load using Nat.strongRecOn generalizing b s with
  | _ n ih =>
    subst hload
    by_cases hextract : Message.extract limit b = .incomplete
    · have hreceive := receive_of_incomplete hextract s
      rcases hread : s.read chunkSize with ⟨f | _ | ⟨c, cs⟩, s₁⟩ <;> rw [hread] at hreceive <;>
        dsimp only at hreceive
      · have hleft := Source.left_read_error hread
        by_cases hkind : f.kind = .interrupted
        · rw [if_pos hkind] at hreceive
          obtain ⟨got, b', s', r, hnext, hgot, htaken⟩ := ih s₁.load (Source.load_read_error hread) b s₁ rfl
          exact ⟨got, b', s', r, hreceive.trans hnext, hleft.trans hgot, htaken⟩
        · rw [if_neg hkind] at hreceive
          exact ⟨[], b, s₁, _, hreceive, hleft, .fault f (List.append_nil b).symm⟩
      · have hleft := (Source.of_read_bytes hread).2
        exact ⟨[], b, s₁, _, hreceive, hleft, .ended (List.append_nil b).symm⟩
      · have hleft := (Source.of_read_bytes hread).2
        obtain ⟨got, b', s', r, hnext, hgot, htaken⟩ :=
          ih s₁.load (Source.load_read_ok hread) (b ++ c :: cs) s₁ rfl
        rw [List.append_assoc] at htaken
        refine ⟨c :: cs ++ got, b', s', r, hreceive.trans hnext, ?_, htaken⟩
        rw [hleft, hgot, List.append_assoc]
    · obtain ⟨b', r, hreceive, htaken⟩ := receive_of_extract hextract s
      refine ⟨[], b', s, r, hreceive, rfl, ?_⟩
      rw [List.append_nil]
      exact htaken

end Inbox

end Wwan
