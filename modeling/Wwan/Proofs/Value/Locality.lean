import Wwan.Proofs.Value.Grammar

/-!
# Values stand on their own

What is read of a value depends neither on what stands behind it nor on where it stands.  A decoder that is
`Steady` changes its result when more bytes follow only if it had found too few (`steady_value`), and one that
`Moves` tells the same at any other place, apart from the places in its errors (`moves_value`).  With the
grammar of values this tells what is read of a part of a value, and of bodies put together:
`decodeAll_composes`.
-/

namespace Wwan

namespace ValueError

/-- Fewer bytes are left than a field needs. -/
inductive IsTruncated : ValueError → Prop
  | truncated (offset needed available : Nat) : IsTruncated (.truncated offset needed available)

/-- The same error further on; some errors tell no place. -/
def shift (k : Nat) : ValueError → ValueError
  | .truncated offset needed available => .truncated (offset + k) needed available
  | .unknownTag tag offset => .unknownTag tag (offset + k)
  | .unexpected expected tag offset => .unexpected expected tag (offset + k)
  | e => e

end ValueError

namespace Cursor

open Value

variable {α β : Type}

theorem take_of_le {n : Nat} {c : Cursor} (h : n ≤ c.rest.length) :
    take n c = .ok (c.rest.take n) ⟨c.offset + n, c.rest.drop n⟩ := by
  rw [take, List.length_take, if_neg (by omega)]

theorem take_of_lt {n : Nat} {c : Cursor} (h : c.rest.length < n) :
    take n c = .error (.truncated c.offset n c.rest.length) c := by
  rw [take, List.length_take, if_pos (by omega)]

/-! ## When more bytes follow -/

/-- The same place in a byte string that goes on. -/
def followedBy (more : Bytes) (c : Cursor) : Cursor :=
  ⟨c.offset, c.rest ++ more⟩

/-- What a result becomes when more bytes follow: it stays, unless too few bytes have been found. -/
inductive Stays (more : Bytes) : EStateM.Result ValueError Cursor α → EStateM.Result ValueError Cursor α → Prop
  | ok (a : α) (c : Cursor) : Stays more (.ok a c) (.ok a (c.followedBy more))
  | error (e : ValueError) (c : Cursor) : Stays more (.error e c) (.error e (c.followedBy more))
  | truncated {e : ValueError} (c : Cursor) (r : EStateM.Result ValueError Cursor α) (h : e.IsTruncated) :
      Stays more (.error e c) r

/-- The result of a decoder stays when more bytes follow. -/
def Steady (d : Decoder α) : Prop :=
  ∀ more c, Stays more (d c) (d (c.followedBy more))

theorem Steady.pure (a : α) : Steady (pure a) :=
  fun _ c => .ok a c

theorem Steady.throw (e : ValueError) : Steady (throw e : Decoder α) :=
  fun _ c => .error e c

theorem Steady.bind {d : Decoder α} {f : α → Decoder β} (hd : Steady d) (hf : ∀ a, Steady (f a)) :
    Steady (d >>= f) := by
  intro more c
  have hfirst := hd more c
  show Stays more (EStateM.bind d f c) (EStateM.bind d f (c.followedBy more))
  unfold EStateM.bind
  generalize d c = r at hfirst
  generalize d (c.followedBy more) = r' at hfirst
  cases hfirst with
  | ok a c' => exact hf a more c'
  | error e c' => exact .error e c'
  | truncated c' r' h => exact .truncated c' _ h

/-- Looking where the cursor is tells nothing of the bytes. -/
theorem Steady.get {f : Cursor → Decoder α} (hf : ∀ c, Steady (f c))
    (hplace : ∀ more c, f (c.followedBy more) = f c) : Steady (get >>= f) := by
  intro more c
  show Stays more (f c c) (f (c.followedBy more) (c.followedBy more))
  rw [hplace]
  exact hf c more c

theorem Steady.ite {p : Prop} [Decidable p] {d e : Decoder α} (hd : Steady d) (he : Steady e) :
    Steady (if p then d else e) := by
  split <;> assumption

theorem steady_peek : Steady peek := by
  intro more c
  obtain ⟨offset, _ | ⟨b, rest⟩⟩ := c
  · exact .truncated _ _ (.truncated _ _ _)
  · exact .ok b ⟨offset, b :: rest⟩

theorem steady_octet : Steady octet := by
  intro more c
  obtain ⟨offset, _ | ⟨b, rest⟩⟩ := c
  · exact .truncated _ _ (.truncated _ _ _)
  · exact .ok b ⟨offset + 1, rest⟩

theorem steady_take (n : Nat) : Steady (take n) := by
  intro more c
  by_cases hle : n ≤ c.rest.length
  · have hmore : n ≤ (c.followedBy more).rest.length := by
      rw [followedBy, List.length_append]
      omega
    rw [take_of_le hle, take_of_le hmore, followedBy, List.take_append_of_le_length hle,
      List.drop_append_of_le_length hle]
    exact .ok _ _
  · rw [take_of_lt (Nat.lt_of_not_le hle)]
    exact .truncated _ _ (.truncated _ _ _)

theorem steady_int : Steady int := by
  refine .get (fun c => steady_octet.bind fun tag => ?_) fun _ _ => rfl
  refine .ite (steady_octet.bind fun width => ?_) (.throw _)
  have hoctets : Steady (take width.toNat >>= fun bs => pure (Bytes.toWordBE bs)) :=
    (steady_take _).bind fun _ => .pure _
  exact .ite ((Steady.throw _).bind fun _ => hoctets) hoctets

theorem steady_length : Steady length := by
  refine steady_octet.bind fun first => .ite (.pure _) ?_
  have hoctets : Steady (take (first.toNat % 16) >>= fun bs => pure (Bytes.toNatLE bs)) :=
    (steady_take _).bind fun _ => .pure _
  exact .ite ((Steady.throw _).bind fun _ => hoctets) hoctets

theorem steady_contents (w : Width) (valid count padding : Nat) : Steady (contents w valid count padding) := by
  have hdata : Steady (take valid >>= fun data => take padding >>= fun _ => pure (w, data)) :=
    (steady_take valid).bind fun _ => (steady_take padding).bind fun _ => .pure _
  exact .ite ((Steady.throw _).bind fun _ => hdata) hdata

theorem steady_string : Steady string := by
  refine .get (fun c => steady_octet.bind fun tag => ?_) fun _ _ => rfl
  rcases Width.ofTag? tag with _ | w
  · exact .throw _
  · exact steady_length.bind fun _ => steady_int.bind fun _ => steady_int.bind fun _ =>
      steady_contents w _ _ _

theorem steady_value : Steady value := by
  refine steady_peek.bind fun tag => .ite (steady_int.bind fun _ => .pure _) ?_
  exact .ite (steady_string.bind fun _ => .pure _) (.get (fun _ => .throw _) fun _ _ => rfl)

/-- On a part of the bytes of a value too few are found. -/
theorem value_of_part {bs part : Bytes} {v : Value} (h : Spells bs v) (hpart : part <+: bs) (hne : part ≠ bs)
    (offset : Nat) : ∃ e c, value ⟨offset, part⟩ = .error e c ∧ e.IsTruncated := by
  obtain ⟨more, rfl⟩ := hpart
  have hwhole := reads_spelled h offset []
  rw [List.append_nil] at hwhole
  have hstays := steady_value more ⟨offset, part⟩
  rw [followedBy, hwhole] at hstays
  generalize value ⟨offset, part⟩ = r at hstays ⊢
  generalize hend : EStateM.Result.ok v _ = r' at hstays
  cases hstays with
  | ok v' c =>
    -- the bytes behind the part would be left over
    obtain ⟨-, hc⟩ := EStateM.Result.ok.inj hend
    have hrest : [] = c.rest ++ more := congrArg Cursor.rest hc
    obtain ⟨-, rfl⟩ := List.append_eq_nil_iff.mp hrest.symm
    exact absurd (List.append_nil part).symm hne
  | error => cases hend
  | truncated c _ htruncated => exact ⟨_, c, rfl, htruncated⟩

/-! ## At another place -/

/-- The same bytes at a place further on. -/
def shift (k : Nat) (c : Cursor) : Cursor :=
  ⟨c.offset + k, c.rest⟩

/-- What a result becomes further on. -/
def shiftResult (k : Nat) : EStateM.Result ValueError Cursor α → EStateM.Result ValueError Cursor α
  | .ok a c => .ok a (c.shift k)
  | .error e c => .error (e.shift k) (c.shift k)

/-- One decoder does further on what another one does here. -/
def Moves (k : Nat) (d d' : Decoder α) : Prop :=
  ∀ c, d' (c.shift k) = shiftResult k (d c)

section Moves

variable {k : Nat}

theorem Moves.pure (a : α) : Moves k (pure a) (pure a) :=
  fun _ => rfl

theorem Moves.throw (e : ValueError) : Moves k (throw e : Decoder α) (throw (e.shift k)) :=
  fun _ => rfl

theorem Moves.bind {d d' : Decoder α} {f f' : α → Decoder β} (hd : Moves k d d')
    (hf : ∀ a, Moves k (f a) (f' a)) : Moves k (d >>= f) (d' >>= f') := by
  intro c
  show EStateM.bind d' f' _ = shiftResult k (EStateM.bind d f c)
  unfold EStateM.bind
  rw [hd c]
  rcases d c with ⟨a, c'⟩ | ⟨e, c'⟩
  · exact hf a c'
  · rfl

theorem Moves.get {f f' : Cursor → Decoder α} (hf : ∀ c, Moves k (f c) (f' (c.shift k))) :
    Moves k (get >>= f) (get >>= f') :=
  fun c => hf c c

theorem Moves.ite {p : Prop} [Decidable p] {d d' e e' : Decoder α} (hd : Moves k d d')
    (he : Moves k e e') : Moves k (if p then d else e) (if p then d' else e') := by
  split <;> assumption

theorem moves_peek : Moves k peek peek := by
  intro c
  obtain ⟨offset, _ | ⟨b, rest⟩⟩ := c <;> rfl

theorem moves_octet : Moves k octet octet := by
  intro c
  obtain ⟨offset, _ | ⟨b, rest⟩⟩ := c
  · rfl
  · show EStateM.Result.ok b (Cursor.mk (offset + k + 1) rest) = .ok b ⟨offset + 1 + k, rest⟩
    rw [Nat.add_right_comm]

theorem moves_take (n : Nat) : Moves k (take n) (take n) := by
  intro c
  rcases Nat.lt_or_ge c.rest.length n with hlt | hle
  · rw [take_of_lt hlt, take_of_lt (c := c.shift k) hlt]
    rfl
  · rw [take_of_le hle, take_of_le (c := c.shift k) hle, shift, Nat.add_right_comm]
    rfl

theorem shift_wrongTag (expected : String) (tag : UInt8) (offset : Nat) :
    (wrongTag expected tag offset).shift k = wrongTag expected tag (offset + k) := by
  unfold wrongTag
  split <;> rfl

theorem moves_int : Moves k int int := by
  refine .get fun c => moves_octet.bind fun tag => .ite (moves_octet.bind fun width => ?_) ?_
  · have hoctets : Moves k (take width.toNat >>= fun bs => pure (Bytes.toWordBE bs))
        (take width.toNat >>= fun bs => pure (Bytes.toWordBE bs)) :=
      (moves_take _).bind fun _ => .pure _
    exact .ite ((Moves.throw _).bind fun _ => hoctets) hoctets
  · have hthrow := Moves.throw (α := UInt32) (k := k) (wrongTag "integer" tag c.offset)
    rw [shift_wrongTag] at hthrow
    exact hthrow

theorem moves_length : Moves k length length := by
  refine moves_octet.bind fun first => .ite (.pure _) ?_
  have hoctets : Moves k (take (first.toNat % 16) >>= fun bs => pure (Bytes.toNatLE bs))
      (take (first.toNat % 16) >>= fun bs => pure (Bytes.toNatLE bs)) :=
    (moves_take _).bind fun _ => .pure _
  exact .ite ((Moves.throw _).bind fun _ => hoctets) hoctets

theorem moves_contents (w : Width) (valid count padding : Nat) :
    Moves k (contents w valid count padding) (contents w valid count padding) := by
  have hdata : Moves k (take valid >>= fun data => take padding >>= fun _ => pure (w, data))
      (take valid >>= fun data => take padding >>= fun _ => pure (w, data)) :=
    (moves_take valid).bind fun _ => (moves_take padding).bind fun _ => .pure _
  exact .ite ((Moves.throw _).bind fun _ => hdata) hdata

theorem moves_string : Moves k string string := by
  refine .get fun c => moves_octet.bind fun tag => ?_
  rcases Width.ofTag? tag with _ | w
  · have hthrow := Moves.throw (α := Width × Bytes) (k := k) (wrongTag "string" tag c.offset)
    rw [shift_wrongTag] at hthrow
    exact hthrow
  · exact moves_length.bind fun _ => moves_int.bind fun _ => moves_int.bind fun _ =>
      moves_contents w _ _ _

theorem moves_value : Moves k value value := by
  refine moves_peek.bind fun tag => .ite (moves_int.bind fun _ => .pure _) ?_
  exact .ite (moves_string.bind fun _ => .pure _) (.get fun _ => .throw _)

end Moves

/-! ## Bodies -/

theorem values_of_nil {c : Cursor} (h : c.rest = []) : values c = .ok [] := by
  obtain ⟨offset, rest⟩ := c
  obtain rfl : rest = [] := h
  exact values_nil offset

theorem values_of_ok {c c' : Cursor} {v : Value} (h : value c = .ok v c') :
    values c = (values c').map (v :: ·) := by
  have hlt := value_lt h
  rw [values]
  split
  · next hnil =>
    rw [hnil] at hlt
    exact absurd hlt (Nat.not_lt_zero _)
  · split
    · next heq =>
      rw [h] at heq
      cases heq
      rfl
    · next heq =>
      rw [h] at heq
      cases heq

theorem values_of_error {c c' : Cursor} {e : ValueError} (hne : c.rest ≠ []) (h : value c = .error e c') :
    values c = .error e := by
  rw [values]
  split
  · next hnil => exact absurd hnil hne
  · split
    · next heq =>
      rw [h] at heq
      cases heq
    · next heq =>
      rw [h] at heq
      cases heq
      rfl

/-- A body tells the same further on, apart from the place of an error. -/
theorem values_shift (k : Nat) (c : Cursor) : values (c.shift k) = (values c).mapError (·.shift k) := by
  fun_induction values c with
  | case1 c hnil => exact values_of_nil hnil
  | case2 c x xs hcons v c' hread ih =>
    have hmoved : value (c.shift k) = .ok v (c'.shift k) := by
      rw [moves_value c, hread]
      rfl
    rw [values_of_ok hmoved, ih]
    rcases values c' with e | vs <;> rfl
  | case3 c x xs hcons e c' hread =>
    have hmoved : value (c.shift k) = .error (e.shift k) (c'.shift k) := by
      rw [moves_value c, hread]
      rfl
    have hne : (c.shift k).rest ≠ [] := by
      rw [shift, hcons]
      exact List.cons_ne_nil x xs
    exact values_of_error hne hmoved

/-- A value is read as before when more bytes follow. -/
theorem value_followedBy {c c' : Cursor} {v : Value} (h : value c = .ok v c') (more : Bytes) :
    value (c.followedBy more) = .ok v (c'.followedBy more) := by
  have hstays := steady_value more c
  rw [h] at hstays
  generalize value (c.followedBy more) = r at hstays ⊢
  cases hstays
  rfl

theorem Took.stop_eq {c c' : Cursor} {bs : Bytes} (h : Took c bs c') :
    c'.offset + c'.rest.length = c.offset + c.rest.length := by
  rw [h.rest_eq, h.offset_eq, List.length_append, Nat.add_assoc]

/-- Behind values stand those of the bytes that follow. -/
theorem values_followedBy {c : Cursor} {vs : List Value} (h : values c = .ok vs) (more : Bytes) :
    values (c.followedBy more) = (values ⟨c.offset + c.rest.length, more⟩).map (vs ++ ·) := by
  fun_induction values c generalizing vs with
  | case1 c hnil =>
    cases h
    rw [followedBy, hnil, List.nil_append, List.length_nil, Nat.add_zero]
    rcases values ⟨c.offset, more⟩ with e | ws <;> rfl
  | case2 c x xs hcons v c' hread ih =>
    obtain ⟨bs, -, htook⟩ := took_value hread
    rcases hrest : values c' with e | vs'
    · rw [hrest] at h
      cases h
    · rw [hrest] at h
      cases h
      rw [values_of_ok (value_followedBy hread more), ih hrest, htook.stop_eq]
      rcases values ⟨c.offset + c.rest.length, more⟩ with e | ws <;> rfl
  | case3 => cases h

end Cursor

namespace Value

/-- A value is read off the same bytes wherever they stand and whatever follows, and a part of them is too
short for it.  So a body is read in front of another one as it is read alone, and what follows is read, or
refused, as it would be on its own, with the places in its errors further on. -/
theorem decodeAll_composes :
    (∀ (c c' : Cursor) (v : Value), Cursor.value c = .ok v c' →
      ∃ bs, Cursor.Took c bs c' ∧ Cursor.Reads Cursor.value bs v ∧
        ∀ part, part <+: bs → part ≠ bs → ∀ offset, ∃ e stop,
          Cursor.value ⟨offset, part⟩ = .error e stop ∧ e.IsTruncated) ∧
    (∀ (a b : Bytes) (vs : List Value), decodeAll a = .ok vs →
      (∀ ws, decodeAll b = .ok ws → decodeAll (a ++ b) = .ok (vs ++ ws)) ∧
      (∀ e, decodeAll b = .error e → decodeAll (a ++ b) = .error (e.shift a.length))) := by
  constructor
  · intro c c' v h
    obtain ⟨bs, hspelled, htook⟩ := Cursor.took_value h
    exact ⟨bs, htook, Cursor.reads_spelled hspelled, fun part hpart hne offset =>
      Cursor.value_of_part hspelled hpart hne offset⟩
  · intro a b vs h
    have hshift := Cursor.values_shift a.length (Cursor.start b)
    have hjoined : decodeAll (a ++ b)
        = ((decodeAll b).mapError (·.shift a.length)).map (vs ++ ·) := by
      rw [decodeAll, decodeAll, ← hshift]
      exact Cursor.values_followedBy h b
    constructor
    · intro ws hws
      rw [hjoined, hws]
      rfl
    · intro e he
      rw [hjoined, he]
      rfl

end Value

end Wwan
