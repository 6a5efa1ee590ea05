import Wwan.Proofs.Mux.Sheet

/-!
# Tags in pieces

A tag can be added whole, or with a first piece of its payload that the other pieces then extend.  Either
way the same payloads are accepted, and the same comes of it (`pieces_make_whole`).  Drafts and the sheets
that they are kept in agree on this for one more piece (`Draft.onePiece`, `Sheet.onePiece`), where a sheet makes
the last tag's length be read back and overwritten; all pieces follow by induction.
-/

namespace Wwan

/-! ## Tags whole and in pieces -/

section Builder

variable {σ : Type} (edit : Edit → σ → Except FrameError Unit × σ)

/-- Edits that are all accepted, one after the other. -/
def Accepts : List Edit → σ → Prop
  | [], _ => True
  | e :: rest, s => (edit e s).1 = .ok () ∧ Accepts rest (edit e s).2

/-- What comes out of edits. -/
def build (edits : List Edit) (s : σ) : σ :=
  edits.foldl (fun s e => (edit e s).2) s

/-- A tag with a first piece of its payload, and the pieces that extend it. -/
def inPieces (id : TagId) (extra : UInt16) (p : Bytes) (ds : List Bytes) : List Edit :=
  .append id p extra :: ds.map .extend

/-- The same tag with its whole payload. -/
def inOne (id : TagId) (extra : UInt16) (p : Bytes) (ds : List Bytes) : Edit :=
  .append id (p ++ ds.flatten) extra

/-- It makes no difference whether a tag is added in pieces or whole. -/
structure PiecesMakeWhole (finish : σ → Except FrameError Bytes) (s : σ) (id : TagId) (extra : UInt16)
    (p : Bytes) (ds : List Bytes) : Prop where
  accepts_iff : Accepts edit (inPieces id extra p ds) s ↔ (edit (inOne id extra p ds) s).1 = .ok ()
  build_eq : (edit (inOne id extra p ds) s).1 = .ok () →
    build edit (inPieces id extra p ds) s = (edit (inOne id extra p ds) s).2
  finish_eq : (edit (inOne id extra p ds) s).1 = .ok () → ∀ further,
    finish (build edit (inPieces id extra p ds ++ further) s)
      = finish (build edit (inOne id extra p ds :: further) s)

/-- Room for a payload lets a tag be added, and extended with one more piece while that is not too large. -/
structure OnePiece (s : σ) (id : TagId) (extra : UInt16) (behind reached : Prop) [Decidable behind]
    (add : Bytes → σ) : Prop where
  append_ok_iff : ∀ p, (edit (.append id p extra) s).1 = .ok () ↔ Room behind reached p
  append_eq : ∀ p, Room behind reached p → edit (.append id p extra) s = (.ok (), add p)
  extend_eq : ∀ p data, Room behind reached p → edit (.extend data) (add p)
    = if behind ∧ Draft.payloadLimit < (p ++ data).length then
        (.error (.tagTooLarge (p ++ data).length Draft.payloadLimit), add p)
      else (.ok (), add (p ++ data))

/-- Where there is room for a payload, there is room for what it starts with. -/
theorem Room.left {behind reached : Prop} {p data : Bytes} (h : Room behind reached (p ++ data)) :
    Room behind reached p where
  payload_le hb := Nat.le_trans (by simp) (h.payload_le hb)
  reached := h.reached

namespace OnePiece

variable {edit} {s : σ} {id : TagId} {extra : UInt16} {behind reached : Prop} [Decidable behind]
  {add : Bytes → σ} (h : OnePiece edit s id extra behind reached add)

include h

theorem extend_ok_iff {p : Bytes} (data : Bytes) (hp : Room behind reached p) :
    (edit (.extend data) (add p)).1 = .ok () ↔ Room behind reached (p ++ data) := by
  rw [h.extend_eq p data hp]
  split
  · next hlarge =>
    exact iff_of_false nofun fun hroom => Nat.not_lt_of_le (hroom.payload_le hlarge.1) hlarge.2
  · next hlarge =>
    exact iff_of_true rfl ⟨fun hb => Nat.le_of_not_lt fun hlt => hlarge ⟨hb, hlt⟩, hp.reached⟩

theorem extend_of_room {p data : Bytes} (hroom : Room behind reached (p ++ data)) :
    edit (.extend data) (add p) = (.ok (), add (p ++ data)) := by
  rw [h.extend_eq p data hroom.left,
    if_neg fun hlarge => Nat.not_lt_of_le (hroom.payload_le hlarge.1) hlarge.2]

/-- The pieces behind the first one are accepted exactly if there was room for all of them. -/
theorem accepts_extend (ds : List Bytes) {p : Bytes} (hp : Room behind reached p) :
    Accepts edit (ds.map .extend) (add p) ↔ Room behind reached (p ++ ds.flatten) := by
  induction ds generalizing p with
  | nil =>
    rw [List.flatten_nil, List.append_nil]
    exact iff_of_true trivial hp
  | cons data rest ih =>
    rw [List.map_cons, Accepts, h.extend_ok_iff data hp, List.flatten_cons, ← List.append_assoc]
    constructor
    · rintro ⟨hroom, hrest⟩
      rw [h.extend_of_room hroom] at hrest
      exact (ih hroom).mp hrest
    · intro hall
      rw [h.extend_of_room hall.left]
      exact ⟨hall.left, (ih hall.left).mpr hall⟩

/-- With all its pieces the tag stands there as if it had been added whole. -/
theorem build_extend (ds : List Bytes) {p : Bytes} (hall : Room behind reached (p ++ ds.flatten)) :
    build edit (ds.map .extend) (add p) = add (p ++ ds.flatten) := by
  induction ds generalizing p with
  | nil =>
    rw [List.flatten_nil, List.append_nil]
    rfl
  | cons data rest ih =>
    rw [List.flatten_cons, ← List.append_assoc] at hall ⊢
    rw [List.map_cons, build, List.foldl_cons, h.extend_of_room hall.left]
    exact ih hall

theorem piecesMakeWhole (finish : σ → Except FrameError Bytes) (p : Bytes) (ds : List Bytes) :
    PiecesMakeWhole edit finish s id extra p ds := by
  have hbuild : (edit (inOne id extra p ds) s).1 = .ok () →
      build edit (inPieces id extra p ds) s = (edit (inOne id extra p ds) s).2 := by
    intro hwhole
    have hall := (h.append_ok_iff (p ++ ds.flatten)).mp hwhole
    rw [inPieces, inOne, build, List.foldl_cons, h.append_eq p hall.left,
      h.append_eq (p ++ ds.flatten) hall]
    exact h.build_extend ds hall
  refine ⟨?_, hbuild, fun hwhole further => ?_⟩
  · rw [inPieces, inOne, Accepts, h.append_ok_iff, h.append_ok_iff]
    constructor
    · rintro ⟨hroom, hrest⟩
      rw [h.append_eq p hroom] at hrest
      exact (h.accepts_extend ds hroom).mp hrest
    · intro hall
      rw [h.append_eq p hall.left]
      exact ⟨hall.left, (h.accepts_extend ds hall.left).mpr hall⟩
  · rw [build, List.foldl_append]
    exact congrArg (fun s => finish (build edit further s)) (hbuild hwhole)

end OnePiece

end Builder

namespace Draft

/-! ## Drafts -/

/-- There is room for a tag with this payload. -/
abbrev HasRoom (d : Draft) : Bytes → Prop :=
  Room (d.tags ≠ []) (align d.size < Bytes.bound 4)

/-- A draft with a tag more. -/
def add (id : TagId) (extra : UInt16) (payload : Bytes) (d : Draft) : Draft :=
  { d with tags := d.tags ++ [⟨id, extra, payload⟩] }

variable {d : Draft} {id : TagId} {extra : UInt16}

theorem edit_append {p : Bytes} (h : d.HasRoom p) :
    d.edit (.append id p extra) = (.ok (), d.add id extra p) := by
  show d.append id p extra = _
  unfold append
  rw [if_neg (fun hlarge => Nat.not_lt_of_le (h.payload_le hlarge.1) hlarge.2),
    if_neg (fun hfull => Nat.not_lt_of_le hfull.2 (h.reached hfull.1))]
  rfl

theorem edit_append_ok_iff {p : Bytes} : (d.edit (.append id p extra)).1 = .ok () ↔ d.HasRoom p := by
  constructor
  · intro h
    replace h : (d.append id p extra).1 = .ok () := h
    unfold append at h
    split at h
    · cases h
    · next hlarge =>
      split at h
      · cases h
      · next hfull =>
        exact ⟨fun hne => Nat.le_of_not_lt fun hlt => hlarge ⟨hne, hlt⟩,
          fun hne => Nat.lt_of_not_le fun hle => hfull ⟨hne, hle⟩⟩
  · intro h
    rw [edit_append h]

/-- The payload with another piece is too large, or stands in the tag. -/
theorem extend_add (p data : Bytes) :
    (d.add id extra p).edit (.extend data)
      = if d.tags ≠ [] ∧ payloadLimit < (p ++ data).length then
          (.error (.tagTooLarge (p ++ data).length payloadLimit), d.add id extra p)
        else (.ok (), d.add id extra (p ++ data)) := by
  have hlength : (d.tags ++ [(⟨id, extra, p⟩ : DraftTag)]).length ≠ 1 ↔ d.tags ≠ [] := by
    rw [List.length_append, List.length_singleton, ← List.length_pos_iff]
    omega
  show (d.add id extra p).extend data = _
  unfold extend add
  simp only [List.getLast?_concat, List.dropLast_concat, hlength]

theorem onePiece (d : Draft) (id : TagId) (extra : UInt16) :
    OnePiece edit d id extra (d.tags ≠ []) (align d.size < Bytes.bound 4) (d.add id extra) where
  append_ok_iff _ := edit_append_ok_iff
  append_eq _ := edit_append
  extend_eq p data _ := extend_add p data

end Draft

namespace Sheet

/-! ## Sheets -/

variable {s : Sheet}

theorem onePiece (hs : s.Sound) (id : TagId) (extra : UInt16) :
    OnePiece edit s id extra (s.count ≠ 0) ((s.pad.patchNext s.pad.bytes.length).1 = .ok ())
      fun p => ending s.sequence (s.front id) s.count ⟨id, extra, p⟩ where
  append_ok_iff _ := append_ok_iff hs
  append_eq _ := append_of_room hs
  extend_eq _ data h := extend_ending _ _ h.payload_le data

/-- No edit takes tags away. -/
theorem count_le_edit (s : Sheet) (e : Edit) : s.count ≤ (s.edit e).2.count := by
  have hpatch : (s.pad.patchNext s.pad.bytes.length).2.count = s.count := by
    rw [snd_patchNext]
    rfl
  cases e with
  | append id payload extra =>
    rw [edit, append]
    split
    · exact Nat.le_succ _
    · split
      · exact Nat.le_refl _
      · generalize s.pad.patchNext s.pad.bytes.length = r at hpatch
        obtain ⟨outcome, patched⟩ := r
        cases outcome with
        | error => exact Nat.le_of_eq hpatch.symm
        | ok => exact Nat.le_succ_of_le (Nat.le_of_eq hpatch.symm)
  | extend data =>
    rw [edit, extend]
    split
    · exact Nat.le_refl _
    · dsimp only
      split <;> exact Nat.le_refl _

theorem Sound.edit (hs : s.Sound) (e : Edit) : (s.edit e).2.Sound := by
  by_cases hc : s.count = 0
  · rw [hs hc]
    cases e with
    | append => exact fun h => absurd h (Nat.succ_ne_zero 0)
    | extend => exact fun _ => rfl
  · exact fun h => absurd (Nat.le_zero.mp (h ▸ count_le_edit s e)) hc

theorem Sound.after (hs : s.Sound) (es : List Edit) : (s.after es).Sound := by
  induction es generalizing s with
  | nil => exact hs
  | cons e rest ih => exact ih (hs.edit e)

theorem sound_opened (sequence : UInt16) (first : Option DraftTag) : (opened sequence first).Sound := by
  cases first with
  | none => exact fun _ => rfl
  | some t => exact fun h => absurd h (Nat.succ_ne_zero _)

end Sheet

/-- A tag that is added in pieces is accepted, with all its pieces, if and only if it is accepted whole, and then
the same bytes come of it, whatever else is done.  So it is for every draft, and for every sheet that comes out of
edits, which reads back and overwrites the last tag's length.  A draft or sheet whose first tag is in place is
the one to which that tag has been added.  Sheets finish as drafts do, up to the length that four octets can
tell. -/
theorem pieces_make_whole :
    (∀ (d : Draft) (id : TagId) (extra : UInt16) (p : Bytes) (ds : List Bytes),
      PiecesMakeWhole Draft.edit Draft.finish d id extra p ds) ∧
    (∀ (sequence : UInt16) (first : Option DraftTag) (edits : List Edit) (id : TagId) (extra : UInt16)
        (p : Bytes) (ds : List Bytes),
      PiecesMakeWhole Sheet.edit Sheet.finish ((Sheet.opened sequence first).after edits) id extra p ds) ∧
    (∀ (sequence : UInt16) (id : TagId) (p : Bytes) (extra : UInt16),
      Draft.edit (.append id p extra) { sequence } = (.ok (), Draft.withFirstTag sequence id p extra) ∧
      Sheet.edit (.append id p extra) { sequence }
        = (.ok (), Sheet.opened sequence (some ⟨id, extra, p⟩))) ∧
    ∀ (sequence : UInt16) (first : Option DraftTag) (edits : List Edit),
      (Draft.drafted sequence first edits).size < 4294967292 →
      ((Sheet.opened sequence first).after edits).finish = (Draft.drafted sequence first edits).finish := by
  refine ⟨fun d id extra p ds => (Draft.onePiece d id extra).piecesMakeWhole _ p ds,
    fun sequence first edits id extra p ds => ?_, fun _ _ _ _ => ⟨rfl, rfl⟩,
    fun sequence first edits hsize => ?_⟩
  · have hsound := (Sheet.sound_opened sequence first).after edits
    exact (Sheet.onePiece hsound id extra).piecesMakeWhole _ p ds
  · rw [← Draft.sheet_opened, Draft.sheet_after (Draft.built_opened sequence first) edits hsize]
    exact Sheet.finish_sheet _

end Wwan
