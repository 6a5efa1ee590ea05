import Mathlib.Data.List.Nodup
import Mathlib.Data.Finset.Card
import Mathlib.Logic.Function.Iterate
import Wwan.Client.Table

/-!
# Transaction numbers

The search for a free number goes round the numbers 1 to 255 once, starting behind the cursor.  This
file says what it finds (`seek_some`), when it finds nothing (`seek_none`, `allocate_none`), and that a
table with distinct numbers has 255 entries exactly when it has every number (`length_eq_iff`).
-/

namespace Wwan.Table

/-! ## Going round the numbers -/

theorem toNat_nextId (id : UInt8) : (nextId id).toNat = id.toNat % 255 + 1 := by
  have hlt : id.toNat < 256 := id.toNat_lt
  by_cases h : id = 255
  · subst h
    rfl
  · have hne : id.toNat ≠ 255 := fun hc => h (UInt8.toNat_inj.mp hc)
    rw [nextId, if_neg h, UInt8.toNat_add]
    show (id.toNat + 1) % 256 = id.toNat % 255 + 1
    omega

theorem nextId_ne_zero (id : UInt8) : nextId id ≠ 0 := by
  intro h
  have := congrArg UInt8.toNat h
  rw [toNat_nextId] at this
  simp at this

/-- The number that is reached behind another in `j + 1` steps. -/
theorem toNat_iterate_nextId (id : UInt8) (j : Nat) :
    (nextId^[j + 1] id).toNat = (id.toNat + j) % 255 + 1 := by
  induction j with
  | zero => exact toNat_nextId id
  | succ j ih =>
    rw [Function.iterate_succ_apply', toNat_nextId, ih]
    omega

/-- Every number is reached in at most 255 steps. -/
theorem exists_iterate_nextId {id : UInt8} (h : id ≠ 0) (cursor : UInt8) :
    ∃ j < 255, nextId^[j + 1] cursor = id := by
  have hlt : id.toNat < 256 := id.toNat_lt
  have hcursor : cursor.toNat < 256 := cursor.toNat_lt
  have hne : id.toNat ≠ 0 := fun hc => h (UInt8.toNat_inj.mp hc)
  -- the distance from the cursor to the number; `255 * 2` keeps it from going below zero
  refine ⟨(id.toNat - 1 + 255 * 2 - cursor.toNat) % 255, Nat.mod_lt _ (by omega), ?_⟩
  apply UInt8.toNat_inj.mp
  rw [toNat_iterate_nextId]
  omega

/-! ## The search -/

/-- A search that fails has found an entry at each number that it tried. -/
theorem seek_none {tries : Nat} {t t' : Table} (h : seek tries t = (none, t')) :
    t' = { t with cursor := nextId^[tries] t.cursor } ∧
      ∀ j < tries, (t.pending? (nextId^[j + 1] t.cursor)).isSome := by
  induction tries generalizing t with
  | zero =>
    rw [seek, Prod.mk.injEq] at h
    exact ⟨h.2.symm, fun j hj => absurd hj (Nat.not_lt_zero j)⟩
  | succ tries ih =>
    rw [seek] at h
    by_cases hp : (t.pending? (nextId t.cursor)).isSome
    · rw [if_pos hp] at h
      -- the number behind the cursor has an entry, and the rest of the search begins there
      obtain ⟨ht, htaken⟩ := ih h
      refine ⟨ht, fun j hj => ?_⟩
      cases j with
      | zero => exact hp
      | succ j => exact htaken j (by omega)
    · rw [if_neg hp] at h
      cases h

/-- A search that succeeds has moved the cursor to a free number. -/
theorem seek_some {tries : Nat} {t t' : Table} {id : UInt8} (h : seek tries t = (some id, t')) :
    t' = { t with cursor := id } ∧ id ≠ 0 ∧ t.pending? id = none := by
  induction tries generalizing t with
  | zero => cases h
  | succ tries ih =>
    rw [seek] at h
    by_cases hp : (t.pending? (nextId t.cursor)).isSome
    · rw [if_pos hp] at h
      have := ih h
      exact this
    · rw [if_neg hp, Prod.mk.injEq, Option.some.injEq] at h
      obtain ⟨rfl, rfl⟩ := h
      exact ⟨rfl, nextId_ne_zero _, Option.not_isSome_iff_eq_none.mp hp⟩

/-- No number is free exactly when every number has an entry. -/
theorem allocate_none (t : Table) :
    t.allocate.1 = none ↔ ∀ id, id ≠ 0 → (t.pending? id).isSome := by
  rcases h : t.allocate with ⟨id?, t'⟩
  cases id? with
  | none =>
    refine ⟨fun _ id hid => ?_, fun _ => rfl⟩
    obtain ⟨j, hj, rfl⟩ := exists_iterate_nextId hid t.cursor
    exact (seek_none h).2 j hj
  | some id =>
    obtain ⟨-, hid, hfree⟩ := seek_some h
    refine ⟨fun hc => absurd hc (Option.some_ne_none id), fun hall => ?_⟩
    have := hall id hid
    rw [hfree] at this
    cases this

/-! ## Entries by their numbers -/

theorem pending?_isSome_iff {id : UInt8} {t : Table} :
    (t.pending? id).isSome ↔ id ∈ t.pending.map Pending.id := by
  rw [pending?, List.find?_isSome, List.mem_map]
  simp only [decide_eq_true_eq]

theorem pending?_eq_none_iff {id : UInt8} {t : Table} :
    t.pending? id = none ↔ id ∉ t.pending.map Pending.id := by
  rw [← pending?_isSome_iff, Bool.not_eq_true, Option.isSome_eq_false_iff, Option.isNone_iff_eq_none]

theorem of_pending?_eq_some {id : UInt8} {t : Table} {p : Pending} (h : t.pending? id = some p) :
    p ∈ t.pending ∧ p.id = id :=
  ⟨List.mem_of_find?_eq_some h, by simpa using List.find?_some h⟩

/-- When the numbers are distinct, an entry is the one with its number. -/
theorem pending?_of_mem {t : Table} (nodup : (t.pending.map Pending.id).Nodup) {p : Pending}
    (h : p ∈ t.pending) : t.pending? p.id = some p := by
  have hsome : (t.pending? p.id).isSome := pending?_isSome_iff.mpr (List.mem_map_of_mem h)
  obtain ⟨q, hq⟩ := Option.isSome_iff_exists.mp hsome
  obtain ⟨hmem, hid⟩ := of_pending?_eq_some hq
  rw [hq, List.inj_on_of_nodup_map nodup hmem h hid]

/-- The numbers that a transaction can have. -/
def numbers : List UInt8 :=
  (List.range 255).map fun n => UInt8.ofNat (n + 1)

theorem length_numbers : numbers.length = 255 := by
  rw [numbers, List.length_map, List.length_range]

theorem mem_numbers {id : UInt8} : id ∈ numbers ↔ id ≠ 0 := by
  have hlt : id.toNat < 256 := id.toNat_lt
  rw [numbers, List.mem_map]
  constructor
  · rintro ⟨n, hn, rfl⟩ hc
    rw [List.mem_range] at hn
    have := congrArg UInt8.toNat hc
    simp only [UInt8.toNat_ofNat', UInt8.toNat_zero] at this
    omega
  · intro hne
    have hne' : id.toNat ≠ 0 := fun hc => hne (UInt8.toNat_inj.mp hc)
    refine ⟨id.toNat - 1, List.mem_range.mpr (by omega), ?_⟩
    rw [Nat.sub_add_cancel (by omega), UInt8.ofNat_toNat]

/-- Distinct numbers that are not zero are 255 exactly when they are all there are. -/
theorem length_eq_iff {ids : List UInt8} (nodup : ids.Nodup) (ne_zero : ∀ id ∈ ids, id ≠ 0) :
    ids.length = 255 ↔ ∀ id, id ≠ 0 → id ∈ ids := by
  have hsub : ids ⊆ numbers := fun id h => mem_numbers.mpr (ne_zero id h)
  have hperm : ids.Subperm numbers := nodup.subperm hsub
  constructor
  · intro hlen id hid
    have := hperm.perm_of_length_le (by rw [length_numbers, hlen])
    exact this.mem_iff.mpr (mem_numbers.mpr hid)
  · intro hall
    -- a list without duplicates is no longer than one that contains it
    have hrev : numbers.Subperm ids := by
      apply List.Nodup.subperm _ fun id h => hall id (mem_numbers.mp h)
      rw [numbers]
      refine List.Nodup.map_on (fun a ha b hb hab => ?_) List.nodup_range
      rw [List.mem_range] at ha hb
      have := congrArg UInt8.toNat hab
      simp only [UInt8.toNat_ofNat'] at this
      omega
    exact le_antisymm (length_numbers ▸ hperm.length_le) (length_numbers ▸ hrev.length_le)

end Wwan.Table
