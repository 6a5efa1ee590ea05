import Wwan.Proofs.Value.Locality

/-!
# Where reading a body stops

Strict and tolerant reading go through the same values: `Runs c vs c'` says that the values `vs` are read from
one place to another, and both readings go on at the second place as they would begin there (`Runs.values_eq`,
`Runs.goodValues_eq`).  From every place the values run to one where no byte is left or the next value is bad
(`exists_runs`), and there the one reading fails and the other one hands back what is left
(`goodValues_none_iff`, `goodValues_some_iff`).
-/

namespace Wwan

namespace Value

theorem Spells.ne_nil {bs : Bytes} {v : Value} (h : Spells bs v) : bs ≠ [] := by
  cases h with
  | int spells =>
    obtain ⟨rest, rfl⟩ := spells.exists_cons
    exact List.cons_ne_nil _ _
  | string spells =>
    cases spells
    exact List.cons_ne_nil _ _

end Value

namespace Cursor

open Value

/-- From one place these values are read, one behind the other, up to another place. -/
inductive Runs : Cursor → List Value → Cursor → Prop
  | stop (c : Cursor) : Runs c [] c
  | next {c c' c'' : Cursor} {v : Value} {vs : List Value} (read : value c = .ok v c')
      (runs : Runs c' vs c'') : Runs c (v :: vs) c''

/-- Bytes are left here, and no value can be read from them. -/
def Stuck (c : Cursor) (e : ValueError) : Prop :=
  c.rest ≠ [] ∧ ∃ c', value c = .error e c'

/-! ## The tolerant reading, value by value -/

theorem goodValues_of_nil {c : Cursor} (h : c.rest = []) : goodValues c = ([], none) := by
  rw [goodValues, h]

theorem goodValues_of_ok {c c' : Cursor} {v : Value} (h : value c = .ok v c') :
    goodValues c = (goodValues c').map (v :: ·) id := by
  have hlt := value_lt h
  rw [goodValues]
  split
  · next hnil =>
    rw [hnil] at hlt
    exact absurd hlt (Nat.not_lt_zero _)
  · split
    · next heq =>
      rw [h] at heq
      cases heq
      rfl
    · next heq =>
      rw [h] at heq
      cases heq

theorem goodValues_of_stuck {c : Cursor} {e : ValueError} (h : Stuck c e) :
    goodValues c = ([], some c.rest) := by
  obtain ⟨hne, c', hread⟩ := h
  rw [goodValues]
  split
  · next hnil => exact absurd hnil hne
  · split
    · next heq =>
      rw [hread] at heq
      cases heq
    · rfl

theorem values_of_stuck {c : Cursor} {e : ValueError} (h : Stuck c e) : values c = .error e := by
  obtain ⟨hne, c', hread⟩ := h
  exact values_of_error hne hread

/-! ## Runs of values -/

theorem Runs.values_eq {c c' : Cursor} {vs : List Value} (h : Runs c vs c') :
    values c = (values c').map (vs ++ ·) := by
  induction h with
  | stop c => rcases values c with e | ws <;> rfl
  | @next c c' c'' v vs read runs ih =>
    rw [values_of_ok read, ih]
    rcases values c'' with e | ws <;> rfl

theorem Runs.goodValues_eq {c c' : Cursor} {vs : List Value} (h : Runs c vs c') :
    goodValues c = (goodValues c').map (vs ++ ·) id := by
  induction h with
  | stop c => rfl
  | next read runs ih =>
    rw [goodValues_of_ok read, ih]
    rfl

/-- The bytes that a run goes over are a body of its values. -/
theorem Runs.took {c c' : Cursor} {vs : List Value} (h : Runs c vs c') :
    ∃ bs, Took c bs c' ∧ ∀ offset, values ⟨offset, bs⟩ = .ok vs := by
  induction h with
  | stop c => exact ⟨[], ⟨rfl, rfl⟩, values_nil⟩
  | next read runs ih =>
    obtain ⟨bs, hspelled, htook⟩ := took_value read
    obtain ⟨cs, htook', hbody⟩ := ih
    refine ⟨bs ++ cs, htook.trans htook', fun offset => ?_⟩
    rw [values_append (reads_spelled hspelled) hspelled.ne_nil, hbody]
    rfl

/-- A run stays one when more bytes follow. -/
theorem Runs.followedBy {c c' : Cursor} {vs : List Value} (h : Runs c vs c') (more : Bytes) :
    Runs (c.followedBy more) vs (c'.followedBy more) := by
  induction h with
  | stop c => exact .stop _
  | next read runs ih => exact .next (value_followedBy read more) ih

/-- Values are read until no byte is left or the next value is bad. -/
theorem exists_runs (c : Cursor) : ∃ vs c', Runs c vs c' ∧ (c'.rest = [] ∨ ∃ e, Stuck c' e) := by
  fun_induction values c with
  | case1 c hnil => exact ⟨[], c, .stop c, .inl hnil⟩
  | case2 c x xs hcons v c' hread ih =>
    obtain ⟨vs, c'', hruns, hend⟩ := ih
    exact ⟨v :: vs, c'', .next hread hruns, hend⟩
  | case3 c x xs hcons e c' hread =>
    have hne : c.rest ≠ [] := by
      rw [hcons]
      exact List.cons_ne_nil x xs
    exact ⟨[], c, .stop c, .inr ⟨e, hne, c', hread⟩⟩

/-- A body of values is run through. -/
theorem runs_of_values {c : Cursor} {vs : List Value} (h : values c = .ok vs) :
    ∃ c', Runs c vs c' ∧ c'.rest = [] := by
  obtain ⟨ws, c', hruns, hend⟩ := exists_runs c
  rw [hruns.values_eq] at h
  rcases hend with hnil | ⟨e, hstuck⟩
  · rw [values_of_nil hnil] at h
    cases h
    dsimp only
    rw [List.append_nil]
    exact ⟨c', hruns, hnil⟩
  · rw [values_of_stuck hstuck] at h
    cases h

/-- The tolerant reading hands nothing back where the strict one succeeds, with the same values. -/
theorem goodValues_none_iff {c : Cursor} {vs : List Value} :
    goodValues c = (vs, none) ↔ values c = .ok vs := by
  obtain ⟨ws, c', hruns, hend⟩ := exists_runs c
  rw [hruns.goodValues_eq, hruns.values_eq]
  rcases hend with hnil | ⟨e, hstuck⟩
  · rw [goodValues_of_nil hnil, values_of_nil hnil]
    simp [Except.map]
  · rw [goodValues_of_stuck hstuck, values_of_stuck hstuck]
    simp [Except.map]

/-- What the tolerant reading hands back begins with the value that the strict one fails on. -/
theorem goodValues_some_iff {c : Cursor} {vs : List Value} {rest : Bytes} :
    goodValues c = (vs, some rest) ↔
      ∃ c' e, Runs c vs c' ∧ c'.rest = rest ∧ Stuck c' e ∧ values c = .error e := by
  constructor
  · intro h
    obtain ⟨ws, c', hruns, hend⟩ := exists_runs c
    rw [hruns.goodValues_eq] at h
    rcases hend with hnil | ⟨e, hstuck⟩
    · rw [goodValues_of_nil hnil] at h
      cases h
    · rw [goodValues_of_stuck hstuck] at h
      cases h
      refine ⟨c', e, ?_, rfl, hstuck, ?_⟩
      · dsimp only
        rw [List.append_nil]
        exact hruns
      · rw [hruns.values_eq, values_of_stuck hstuck]
        rfl
  · rintro ⟨c', e, hruns, rfl, hstuck, -⟩
    rw [hruns.goodValues_eq, goodValues_of_stuck hstuck, Prod.map, List.append_nil]
    rfl

end Cursor

namespace Value

open Cursor

/-- What the tolerant reading of a body hands back is where the next value fails, with a body of the values
given before it. -/
theorem decodePrefix_some_iff {b : Bytes} {vs : List Value} {rest : Bytes} :
    decodePrefix b = (vs, some rest) ↔
      ∃ p e c, b = p ++ rest ∧ rest ≠ [] ∧ decodeAll p = .ok vs ∧ value (start rest) = .error e c ∧
        decodeAll b = .error (e.shift p.length) := by
  have hplace : ∀ p : Bytes, (start rest).shift p.length = ⟨p.length, rest⟩ := fun p =>
    congrArg (Cursor.mk · rest) (Nat.zero_add p.length)
  constructor
  · intro h
    obtain ⟨c', e, hruns, rfl, ⟨hne, c'', hfails⟩, hall⟩ := goodValues_some_iff.mp h
    obtain ⟨p, htook, hbody⟩ := hruns.took
    have hc' : c' = (start c'.rest).shift p.length := by
      rw [hplace, ← Nat.zero_add p.length]
      exact congrArg (Cursor.mk · c'.rest) htook.offset_eq
    -- the failure at its place in the body is that of the bytes alone, further on
    rcases halone : value (start c'.rest) with ⟨v, stop⟩ | ⟨e', stop⟩
    · rw [hc', moves_value, halone] at hfails
      cases hfails
    · rw [hc', moves_value, halone] at hfails
      cases hfails
      exact ⟨p, e', stop, htook.rest_eq, hne, hbody 0, rfl, hall⟩
  · rintro ⟨p, e, c, rfl, hne, hp, halone, hall⟩
    obtain ⟨c', hruns, hnil⟩ := runs_of_values hp
    obtain ⟨bs, htook, -⟩ := hruns.took
    have hend : c'.followedBy rest = (start rest).shift p.length := by
      have hbytes : p = bs := by
        rw [← List.append_nil bs, ← hnil]
        exact htook.rest_eq
      rw [hplace, followedBy, hnil, htook.offset_eq, ← hbytes]
      exact congrArg (Cursor.mk · rest) (Nat.zero_add p.length)
    have hfails : value ((start rest).shift p.length) = .error (e.shift p.length) (c.shift p.length) := by
      rw [moves_value, halone]
      rfl
    have hruns' := hruns.followedBy rest
    rw [hend] at hruns'
    exact goodValues_some_iff.mpr ⟨_, _, hruns', rfl, ⟨hne, _, hfails⟩, hall⟩

end Value

end Wwan
