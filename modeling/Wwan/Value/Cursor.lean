import Wwan.Value.Basic

/-!
# Reading values

A cursor is a place in a byte string.  A decoder reads on from there, and stays where it stopped when
it fails, so that reading can go on behind the error.  A whole body is read strictly, where every byte
belongs to a value, or tolerantly, where the bytes behind the last good value are handed back.
-/

namespace Wwan

/-- A place in a byte string: how many bytes lie before it, and those behind it. -/
structure Cursor where
  offset : Nat
  rest : Bytes
  deriving DecidableEq

/-- A step of reading: moves the cursor on, also when it fails. -/
abbrev Decoder := EStateM ValueError Cursor

namespace Cursor

/-- The start of a byte string. -/
def start (bs : Bytes) : Cursor :=
  ⟨0, bs⟩

/-- The next byte, which is not taken. -/
def peek : Decoder UInt8 := fun c =>
  match c.rest with
  | b :: _ => .ok b c
  | [] => .error (.truncated c.offset 1 0) c

/-- Takes the next byte. -/
def octet : Decoder UInt8 := fun c =>
  match c.rest with
  | b :: rest => .ok b ⟨c.offset + 1, rest⟩
  | [] => .error (.truncated c.offset 1 0) c

/-- Takes the next `n` bytes. -/
def take (n : Nat) : Decoder Bytes := fun c =>
  let taken := c.rest.take n
  if taken.length < n then .error (.truncated c.offset n c.rest.length) c
  else .ok taken ⟨c.offset + n, c.rest.drop n⟩

/-- The error of a tag that is not the expected one. -/
def wrongTag (expected : String) (tag : UInt8) (offset : Nat) : ValueError :=
  if tag = Value.intTag ∨ (Width.ofTag? tag).isSome then .unexpected expected tag offset
  else .unknownTag tag offset

/-- Takes an integer. -/
def int : Decoder UInt32 := do
  let offset := (← get).offset
  let tag ← octet
  if tag = Value.intTag then
    let width ← octet
    if width.toNat < 1 ∨ 4 < width.toNat then throw (.invalidWidth width.toNat)
    return Bytes.toWordBE (← take width.toNat)
  else throw (wrongTag "integer" tag offset)

/-- Takes a length field. -/
def length : Decoder Nat := do
  let first ← octet
  if first < 0x80 then return first.toNat
  let n := first.toNat % 16
  if n < 1 ∨ 4 < n then throw (.invalidWidth n)
  return Bytes.toNatLE (← take n)

/-- Takes a string: the width of its elements and its data. -/
def string : Decoder (Width × Bytes) := do
  let offset := (← get).offset
  let tag ← octet
  match Width.ofTag? tag with
  | none => throw (wrongTag "string" tag offset)
  | some w =>
    let valid := (← length) * w.octets
    let count := (← int).toNat
    let padding := (← int).toNat
    if count ≠ 0 ∧ count ≠ valid + padding then throw (.lengthMismatch count valid padding)
    let data ← take valid
    let _ ← take padding
    return (w, data)

/-- Takes a value of either kind. -/
def value : Decoder Value := do
  let tag ← peek
  if tag = Value.intTag then return .int (← int)
  else if (Width.ofTag? tag).isSome then
    let (w, data) ← string
    return .string w data
  else throw (.unknownTag tag (← get).offset)

/-! ## Progress -/

/-- A decoder that succeeds leaves no more bytes than there were. -/
def Shrinks {α : Type} (d : Decoder α) : Prop :=
  ∀ c a c', d c = .ok a c' → c'.rest.length ≤ c.rest.length

theorem bind_eq_ok {α β : Type} {d : Decoder α} {f : α → Decoder β} {c c'' : Cursor} {b : β}
    (h : (d >>= f) c = .ok b c'') : ∃ a c', d c = .ok a c' ∧ f a c' = .ok b c'' := by
  simp only [bind, EStateM.bind] at h
  split at h
  · next a c' heq => exact ⟨a, c', heq, h⟩
  · simp at h

theorem Shrinks.bind {α β : Type} {d : Decoder α} {f : α → Decoder β} (hd : Shrinks d)
    (hf : ∀ a, Shrinks (f a)) : Shrinks (d >>= f) := by
  intro c b c'' h
  obtain ⟨a, c', h₁, h₂⟩ := bind_eq_ok h
  exact Nat.le_trans (hf a c' b c'' h₂) (hd c a c' h₁)

theorem Shrinks.pure {α : Type} (a : α) : Shrinks (pure a : Decoder α) := by
  intro c b c' h
  cases h
  exact Nat.le_refl _

theorem Shrinks.throw {α : Type} (e : ValueError) : Shrinks (throw e : Decoder α) := by
  intro c b c' h
  cases h

theorem Shrinks.get : Shrinks (get : Decoder Cursor) := by
  intro c b c' h
  cases h
  exact Nat.le_refl _

theorem Shrinks.peek : Shrinks peek := by
  intro c b c' h
  unfold Cursor.peek at h
  split at h <;> cases h
  exact Nat.le_refl _

/-- Taking a byte leaves fewer. -/
theorem octet_lt {c c' : Cursor} {b : UInt8} (h : octet c = .ok b c') :
    c'.rest.length < c.rest.length := by
  unfold octet at h
  split at h <;> cases h
  next heq => simp [heq]

theorem Shrinks.octet : Shrinks octet :=
  fun _ _ _ h => Nat.le_of_lt (octet_lt h)

theorem Shrinks.take (n : Nat) : Shrinks (take n) := by
  intro c b c' h
  simp only [Cursor.take] at h
  split at h <;> cases h
  simp

theorem Shrinks.ite {α : Type} {p : Prop} [Decidable p] {d e : Decoder α} (hd : Shrinks d)
    (he : Shrinks e) : Shrinks (if p then d else e) := by
  split <;> assumption

/-- A decoder that starts by taking a byte leaves fewer. -/
theorem octet_bind_lt {α : Type} {f : UInt8 → Decoder α} (hf : ∀ b, Shrinks (f b)) {c c' : Cursor}
    {a : α} (h : (octet >>= f) c = .ok a c') : c'.rest.length < c.rest.length := by
  obtain ⟨b, c₁, h₁, h₂⟩ := bind_eq_ok h
  exact Nat.lt_of_le_of_lt (hf b c₁ a c' h₂) (octet_lt h₁)

/-- Reading an integer takes at least one byte. -/
theorem int_lt {c c' : Cursor} {n : UInt32} (h : int c = .ok n c') :
    c'.rest.length < c.rest.length := by
  obtain ⟨c₀, c₁, h₀, h₁⟩ := bind_eq_ok h
  cases h₀
  refine octet_bind_lt (fun b => ?_) h₁
  refine Shrinks.ite ?_ (Shrinks.throw _)
  refine Shrinks.octet.bind fun w => ?_
  refine Shrinks.ite ?_ ?_
  · exact (Shrinks.throw _).bind fun _ => (Shrinks.take _).bind fun _ => Shrinks.pure _
  · exact (Shrinks.take _).bind fun _ => Shrinks.pure _

theorem Shrinks.int : Shrinks int :=
  fun _ _ _ h => Nat.le_of_lt (int_lt h)

theorem Shrinks.length : Shrinks length := by
  refine Shrinks.octet.bind fun first => ?_
  refine Shrinks.ite (Shrinks.pure _) ?_
  refine Shrinks.ite ?_ ?_
  · exact (Shrinks.throw _).bind fun _ => (Shrinks.take _).bind fun _ => Shrinks.pure _
  · exact (Shrinks.take _).bind fun _ => Shrinks.pure _

/-- Reading a string takes at least one byte. -/
theorem string_lt {c c' : Cursor} {s : Width × Bytes} (h : string c = .ok s c') :
    c'.rest.length < c.rest.length := by
  obtain ⟨c₀, c₁, h₀, h₁⟩ := bind_eq_ok h
  cases h₀
  refine octet_bind_lt (fun b => ?_) h₁
  split
  · exact Shrinks.throw _
  · refine Shrinks.length.bind fun n => Shrinks.int.bind fun count => Shrinks.int.bind fun pad => ?_
    refine Shrinks.ite ((Shrinks.throw _).bind fun _ => ?_) ?_ <;>
      exact (Shrinks.take _).bind fun _ => (Shrinks.take _).bind fun _ => Shrinks.pure _

/-- Reading a value takes at least one byte. -/
theorem value_lt {c c' : Cursor} {v : Value} (h : value c = .ok v c') :
    c'.rest.length < c.rest.length := by
  obtain ⟨tag, c₁, h₀, h₁⟩ := bind_eq_ok h
  have hc : c₁ = c := by
    unfold peek at h₀
    split at h₀ <;> cases h₀
    rfl
  subst hc
  split at h₁
  · obtain ⟨n, c₂, h₂, h₃⟩ := bind_eq_ok h₁
    cases h₃
    exact int_lt h₂
  · split at h₁
    · obtain ⟨s, c₂, h₂, h₃⟩ := bind_eq_ok h₁
      cases h₃
      exact string_lt h₂
    · obtain ⟨c₂, c₃, h₂, h₃⟩ := bind_eq_ok h₁
      cases h₃

/-! ## Whole bodies -/

/-- The values from here to the end, or the first error. -/
def values (c : Cursor) : Except ValueError (List Value) :=
  match c.rest with
  | [] => .ok []
  | _ :: _ =>
    match _h : value c with
    | .ok v c' => do return v :: (← values c')
    | .error e _ => .error e
termination_by c.rest.length
decreasing_by exact value_lt _h

/-- The values from here up to the first error, and the bytes behind the last of them if there are
any. -/
def goodValues (c : Cursor) : List Value × Option Bytes :=
  match c.rest with
  | [] => ([], none)
  | _ :: _ =>
    match _h : value c with
    | .ok v c' => (goodValues c').map (v :: ·) id
    | .error _ _ => ([], some c.rest)
termination_by c.rest.length
decreasing_by exact value_lt _h

end Cursor

namespace Value

/-- Reads a whole body. -/
def decodeAll (bs : Bytes) : Except ValueError (List Value) :=
  (Cursor.start bs).values

/-- Reads a body as far as it can be read; the rest is none if that is all of it. -/
def decodePrefix (bs : Bytes) : List Value × Option Bytes :=
  (Cursor.start bs).goodValues

end Value

end Wwan
