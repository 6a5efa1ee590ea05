import Wwan.Proofs.Value.Indexing

/-!
# One call after another

A decoder that fails leaves the cursor part of the way through a value, and the next one goes on from there.
`Cursor.attempts` are calls of decoders made one after another, whatever comes of each, and `Spot.attempts` are
the same calls made by index, which come to nothing when a difference below zero or a slice outside the bytes is
asked for.  That never happens, and each call keeps within the bytes (`attempts_stay_within`).
-/

namespace Wwan

namespace Cursor

/-- What can be asked of a cursor. -/
inductive Want where
  | int
  /-- The data of a string. -/
  | data
  /-- The data of a string and the width of its elements. -/
  | string
  | value

/-- What a cursor gives. -/
inductive Got where
  | int (n : UInt32)
  | data (bs : Bytes)
  | string (width : Width) (bs : Bytes)
  | value (v : Value)

/-- The decoder of what is asked for. -/
def Want.decoder : Want → Decoder Got
  | int => return .int (← Cursor.int)
  | data => return .data (← Cursor.string).2
  | string => do
    let (width, bs) ← Cursor.string
    return .string width bs
  | value => return .value (← Cursor.value)

/-- The same by index. -/
def Want.indexed : Want → Indexed Got
  | int => return .int (← Indexed.int)
  | data => return .data (← Indexed.string).2
  | string => do
    let (width, bs) ← Indexed.string
    return .string width bs
  | value => return .value (← Indexed.value)

/-- A call of a decoder: where the cursor was before, what came of it, and where the cursor is afterwards. -/
structure Attempt where
  want : Want
  before : Nat
  result : Except ValueError Got
  after : Nat

/-- A call from a cursor, and where it leaves the cursor. -/
def attempt (c : Cursor) (w : Want) : Attempt × Cursor :=
  match w.decoder c with
  | .ok got c' => (⟨w, c.offset, .ok got, c'.offset⟩, c')
  | .error e c' => (⟨w, c.offset, .error e, c'.offset⟩, c')

/-- Calls one after another, each from where the one before it has left the cursor. -/
def attempts (c : Cursor) : List Want → List Attempt
  | [] => []
  | w :: ws =>
    let (a, c') := c.attempt w
    a :: c'.attempts ws

/-- A call keeps within a byte string. -/
structure Attempt.Within (b : Bytes) (a : Attempt) : Prop where
  before_le : a.before ≤ a.after
  after_le : a.after ≤ b.length
  /-- What is got takes two bytes at least. -/
  advances : ∀ got, a.result = .ok got → a.before + 2 ≤ a.after
  /-- Too few bytes are told where the cursor is, with the number of those that are left. -/
  truncated : ∀ offset needed available, a.result = .error (.truncated offset needed available) →
    offset + available = b.length ∧ available < needed ∧ offset = a.after
  /-- A value is refused for its own first byte when that is no tag. -/
  refused_iff : a.want = .value → ∀ tag,
    (a.result = .error (.unknownTag tag a.before) ↔ b[a.before]? = some tag ∧ ¬Value.IsTag tag)
  /-- Then the cursor stays. -/
  refused_stays : a.want = .value → ∀ tag, a.result = .error (.unknownTag tag a.before) → a.after = a.before

end Cursor

namespace Spot

open Cursor

/-- A call made by index; none if it takes a difference below zero or a slice that is not there. -/
def attempt (s : Spot) (w : Want) : Option (Attempt × Spot) :=
  match w.indexed s with
  | .ok got s' => some (⟨w, s.index, .ok got, s'.index⟩, s')
  | .error (.reported e) s' => some (⟨w, s.index, .error e, s'.index⟩, s')
  | .error (.underflow _ _) _ => none
  | .error (.outside _ _) _ => none

/-- Calls made by index, one after another; none if one of them is none. -/
def attempts (s : Spot) : List Want → Option (List Attempt)
  | [] => some []
  | w :: ws => do
    let (a, s') ← s.attempt w
    return a :: (← s'.attempts ws)

end Spot

namespace Cursor

open Value

variable {b : Bytes} {c c' : Cursor} {w : Want}

/-! ## One call -/

theorem indexes_want (w : Want) : Indexes b 2 w.decoder w.indexed := by
  cases w with
  | int => exact (indexes_int.bind fun _ _ => .pure _).mono (by decide)
  | data => exact (indexes_string.bind fun _ _ => .pure _).mono (by decide)
  | string => exact (indexes_string.bind fun _ _ => .pure _).mono (by decide)
  | value => exact (indexes_value.bind fun _ _ => .pure _).mono (by decide)

theorem decoder_of_not_isTag {tag : UInt8} (hc : c.StandsIn b) (h : b[c.offset]? = some tag) (htag : ¬IsTag tag) :
    Want.value.decoder c = .error (.unknownTag tag c.offset) c :=
  bind_eq_error (value_of_not_isTag (hc.getElem?_offset.symm.trans h) htag) _

theorem within_of_ok {got : Got} (hc : c.StandsIn b) (h : w.decoder c = .ok got c') (hc' : c'.StandsIn b)
    (hle : c.offset + 2 ≤ c'.offset) : (Attempt.mk w c.offset (.ok got) c'.offset).Within b where
  before_le := Nat.le_of_add_right_le hle
  after_le := hc'.offset_le
  advances _ _ := hle
  truncated _ _ _ hresult := by cases hresult
  refused_iff := by
    rintro rfl tag
    constructor
    · intro hresult
      cases hresult
    · rintro ⟨htag, hnone⟩
      rw [decoder_of_not_isTag hc htag hnone] at h
      cases h
  refused_stays _ _ hresult := by cases hresult

theorem within_of_error {e : ValueError} (hc : c.StandsIn b) (h : w.decoder c = .error e c')
    (hc' : c'.StandsIn b) (hle : c.offset ≤ c'.offset) (htrue : e.TrueAt b c'.offset) :
    (Attempt.mk w c.offset (.error e) c'.offset).Within b where
  before_le := hle
  after_le := hc'.offset_le
  advances _ hresult := by cases hresult
  truncated offset needed available hresult := by
    obtain rfl := Except.error.inj hresult
    exact htrue
  refused_iff := by
    rintro rfl tag
    constructor
    · intro hresult
      have he : e = .unknownTag tag c.offset := Except.error.inj hresult
      rw [he] at htrue
      exact htrue
    · rintro ⟨htag, hnone⟩
      rw [decoder_of_not_isTag hc htag hnone] at h
      cases h
      rfl
  refused_stays := by
    rintro rfl tag hresult
    have he : e = .unknownTag tag c.offset := Except.error.inj hresult
    rw [he] at htrue
    -- the error names the byte before which the call began, so nothing has been taken
    obtain ⟨htag, hnone⟩ := htrue
    rw [decoder_of_not_isTag hc htag hnone] at h
    cases h
    rfl

/-- From a place within the bytes a call is made by index as well; it keeps within and stops within. -/
theorem attempt_within (hc : c.StandsIn b) (w : Want) : ∃ a c', c.attempt w = (a, c') ∧
    Spot.attempt ⟨b, c.offset⟩ w = some (a, ⟨b, c'.offset⟩) ∧ c'.StandsIn b ∧ a.Within b ∧
      a.want = w ∧ a.before = c.offset ∧ a.after = c'.offset := by
  have hends := indexes_want w c hc
  rw [attempt, Spot.attempt]
  generalize hread : w.decoder c = r at hends ⊢
  generalize w.indexed ⟨b, c.offset⟩ = r' at hends ⊢
  cases hends with
  | ok got stands le => exact ⟨_, _, rfl, rfl, stands, within_of_ok hc hread stands le, rfl, rfl, rfl⟩
  | error stands le true_at =>
    exact ⟨_, _, rfl, rfl, stands, within_of_error hc hread stands le true_at, rfl, rfl, rfl⟩

/-! ## All calls -/

/-- What holds of all calls from a cursor on.  They are made by index as well, for what was asked for, and each of
them keeps within the bytes and starts no earlier than any before it has stopped. -/
structure StaysWithin (b : Bytes) (c : Cursor) (ws : List Want) : Prop where
  indexed : Spot.attempts ⟨b, c.offset⟩ ws = some (c.attempts ws)
  wants : (c.attempts ws).map Attempt.want = ws
  within : ∀ a ∈ c.attempts ws, a.Within b
  behind : ∀ a ∈ c.attempts ws, c.offset ≤ a.before
  ordered : (c.attempts ws).Pairwise fun a a' => a.after ≤ a'.before

theorem staysWithin (hc : c.StandsIn b) (ws : List Want) : StaysWithin b c ws := by
  induction ws generalizing c with
  | nil =>
    have hnone : ∀ a, a ∉ c.attempts [] := fun a => List.not_mem_nil
    exact ⟨rfl, rfl, fun a ha => absurd ha (hnone a), fun a ha => absurd ha (hnone a), .nil⟩
  | cons w ws ih =>
    obtain ⟨a, c', hattempt, hindexed, hstands, hwithin, hwant, hbefore, hafter⟩ := attempt_within hc w
    have hrest := ih hstands
    have hcons : c.attempts (w :: ws) = a :: c'.attempts ws := by rw [attempts, hattempt]
    have hle : c.offset ≤ c'.offset := by
      rw [← hbefore, ← hafter]
      exact hwithin.before_le
    refine ⟨?_, ?_, ?_, ?_, ?_⟩ <;> rw [hcons]
    · rw [Spot.attempts, hindexed]
      show (do return a :: (← Spot.attempts ⟨b, c'.offset⟩ ws)) = _
      rw [hrest.indexed]
      rfl
    · rw [List.map_cons, hwant, hrest.wants]
    · exact List.forall_mem_cons.mpr ⟨hwithin, hrest.within⟩
    · refine List.forall_mem_cons.mpr ⟨Nat.le_of_eq hbefore.symm, fun a' ha' => ?_⟩
      exact Nat.le_trans hle (hrest.behind a' ha')
    · refine .cons (fun a' ha' => ?_) hrest.ordered
      rw [hafter]
      exact hrest.behind a' ha'

/-- Whatever is asked of a cursor, one call after another and behind errors too, no difference below zero is
taken and no slice that is not there, each call keeps within the bytes, and the cursor never goes back. -/
theorem attempts_stay_within (b : Bytes) (ws : List Want) :
    Spot.attempts ⟨b, 0⟩ ws = some ((start b).attempts ws) ∧
    ((start b).attempts ws).map Attempt.want = ws ∧
    (∀ a ∈ (start b).attempts ws, a.Within b) ∧
    ((start b).attempts ws).Pairwise fun a a' => a.after ≤ a'.before := by
  have h := staysWithin (standsIn_start b) ws
  exact ⟨h.indexed, h.wants, h.within, h.ordered⟩

-- a string claims 17179869180 octets, and other calls go on where it has been given up
example : (start [0x57, 0x84, 0xff, 0xff, 0xff, 0xff, 0x02, 0x01, 0x00, 0x02, 0x01, 0x00, 0x31]).attempts
    [.string, .value, .int, .value] =
      [⟨.string, 0, .error (.truncated 12 17179869180 1), 12⟩, ⟨.value, 12, .error (.unknownTag 0x31 12), 12⟩,
        ⟨.int, 12, .error (.unknownTag 0x31 12), 13⟩, ⟨.value, 13, .error (.truncated 13 1 0), 13⟩] :=
  rfl

end Cursor

end Wwan
