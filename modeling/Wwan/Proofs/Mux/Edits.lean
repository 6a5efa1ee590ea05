import Wwan.Proofs.Mux.Draft

/-!
# Building a draft

A draft is built by edits.  What its tags are follows from the edits alone (`gather`), and which edits are
refused from the tags that they would lead to (`Outcome`); a refused edit leaves no trace.
`parse_undoes_edits` puts this together with what is read of a draft's bytes: exactly the tags that the
accepted edits add up to.
-/

namespace Wwan

/-! ## Edits -/

/-- What is asked of a draft. -/
inductive Edit where
  | append (id : TagId) (payload : Bytes) (extra : UInt16)
  | extend (data : Bytes)

namespace Edit

/-- The bytes that extend the tag before these edits. -/
def leading : List Edit → Bytes
  | .extend data :: rest => data ++ leading rest
  | _ => []

/-- The tags that edits add up to, each with the bytes that extend it before the next one is added. -/
def gather : List Edit → List DraftTag
  | [] => []
  | .append id payload extra :: rest => ⟨id, extra, payload ++ leading rest⟩ :: gather rest
  | .extend _ :: rest => gather rest

theorem leading_append (es : List Edit) (id : TagId) (payload : Bytes) (extra : UInt16) :
    leading (es ++ [.append id payload extra]) = leading es := by
  induction es with
  | nil => rfl
  | cons e rest ih =>
    cases e with
    | append => rfl
    | extend data => rw [List.cons_append, leading, ih, leading]

/-- A tag comes behind those before it. -/
theorem gather_append (es : List Edit) (id : TagId) (payload : Bytes) (extra : UInt16) :
    gather (es ++ [.append id payload extra]) = gather es ++ [⟨id, extra, payload⟩] := by
  induction es with
  | nil => simp [gather, leading]
  | cons e rest ih =>
    cases e with
    | append => rw [List.cons_append, gather, ih, leading_append, gather, List.cons_append]
    | extend => exact ih

theorem leading_extend_of_nil {es : List Edit} (h : gather es = []) (data : Bytes) :
    leading (es ++ [.extend data]) = leading es ++ data := by
  induction es with
  | nil => simp [leading]
  | cons e rest ih =>
    cases e with
    | append => cases h
    | extend => rw [List.cons_append, leading, ih h, leading, List.append_assoc]

theorem leading_extend_of_ne_nil {es : List Edit} (h : gather es ≠ []) (data : Bytes) :
    leading (es ++ [.extend data]) = leading es := by
  induction es with
  | nil => exact absurd rfl h
  | cons e rest ih =>
    cases e with
    | append => rfl
    | extend => rw [List.cons_append, leading, ih h, leading]

theorem gather_extend_of_nil {es : List Edit} (h : gather es = []) (data : Bytes) :
    gather (es ++ [.extend data]) = [] := by
  induction es with
  | nil => rfl
  | cons e rest ih =>
    cases e with
    | append => cases h
    | extend => exact ih h

/-- Bytes extend the last tag. -/
theorem gather_extend {es : List Edit} {ts : List DraftTag} {t : DraftTag} (h : gather es = ts ++ [t])
    (data : Bytes) :
    gather (es ++ [.extend data]) = ts ++ [{ t with payload := t.payload ++ data }] := by
  induction es generalizing ts with
  | nil =>
    rw [gather] at h
    simp at h
  | cons e rest ih =>
    cases e with
    | append id payload extra =>
      rw [gather] at h
      rw [List.cons_append, gather]
      -- the tag that is added here is the last one if no other is added behind it
      rcases ts with _ | ⟨u, us⟩
      · obtain ⟨rfl, hnil⟩ := List.cons.inj h
        rw [gather_extend_of_nil hnil, leading_extend_of_nil hnil, List.append_assoc]
        rfl
      · obtain ⟨rfl, hrest⟩ := List.cons.inj h
        rw [ih hrest, leading_extend_of_ne_nil (by rw [hrest]; simp)]
        rfl
    | extend => exact ih h

end Edit

namespace Draft

open Edit

/-- Makes an edit. -/
def edit (e : Edit) (d : Draft) : Except FrameError Unit × Draft :=
  match e with
  | .append id payload extra => d.append id payload extra
  | .extend data => d.extend data

/-- What an edit can do. -/
inductive Edited (d : Draft) : Edit → Except FrameError Unit × Draft → Prop
  | appended {id : TagId} {payload : Bytes} {extra : UInt16}
      (payload_le : d.tags ≠ [] → payload.length ≤ payloadLimit) :
      Edited d (.append id payload extra) (.ok (), { d with tags := d.tags ++ [⟨id, extra, payload⟩] })
  | tagTooLarge {id : TagId} {payload : Bytes} {extra : UInt16} (ne_nil : d.tags ≠ [])
      (lt_length : payloadLimit < payload.length) :
      Edited d (.append id payload extra) (.error (.tagTooLarge payload.length payloadLimit), d)
  | frameTooLarge {id : TagId} {payload : Bytes} {extra : UInt16} (le_align : Bytes.bound 4 ≤ align d.size) :
      Edited d (.append id payload extra)
        (.error (.frameTooLarge (align d.size) (Bytes.bound 4 - 1)), d)
  | extended {ts : List DraftTag} {t : DraftTag} {data : Bytes} (tags_eq : d.tags = ts ++ [t])
      (payload_le : ts ≠ [] → (t.payload ++ data).length ≤ payloadLimit) :
      Edited d (.extend data)
        (.ok (), { d with tags := ts ++ [{ t with payload := t.payload ++ data }] })
  | extendedTooLarge {ts : List DraftTag} {t : DraftTag} {data : Bytes} (tags_eq : d.tags = ts ++ [t])
      (ne_nil : ts ≠ []) (lt_length : payloadLimit < (t.payload ++ data).length) :
      Edited d (.extend data) (.error (.tagTooLarge (t.payload ++ data).length payloadLimit), d)
  | empty {data : Bytes} (tags_eq : d.tags = []) : Edited d (.extend data) (.error .empty, d)

theorem edited (e : Edit) (d : Draft) : Edited d e (d.edit e) := by
  cases e with
  | append id payload extra =>
    rw [edit, append]
    by_cases hlarge : d.tags ≠ [] ∧ payloadLimit < payload.length
    · rw [if_pos hlarge]
      exact .tagTooLarge hlarge.1 hlarge.2
    · rw [if_neg hlarge]
      by_cases hfull : d.tags ≠ [] ∧ Bytes.bound 4 ≤ align d.size
      · rw [if_pos hfull]
        exact .frameTooLarge hfull.2
      · rw [if_neg hfull]
        exact .appended fun hne => Nat.le_of_not_lt fun hlt => hlarge ⟨hne, hlt⟩
  | extend data =>
    rw [edit, extend]
    rcases List.eq_nil_or_concat d.tags with htags | ⟨ts, t, htags⟩
    · rw [htags]
      exact .empty htags
    · rw [List.concat_eq_append] at htags
      -- the limit holds for all tags but the first one
      have hlength : d.tags.length ≠ 1 ↔ ts ≠ [] := by
        rw [htags, List.length_append, List.length_singleton, ← List.length_pos_iff]
        omega
      simp only [hlength]
      rw [htags, List.getLast?_concat, List.dropLast_concat]
      by_cases hlarge : ts ≠ [] ∧ payloadLimit < (t.payload ++ data).length
      · simp only [if_pos hlarge]
        exact .extendedTooLarge htags hlarge.1 hlarge.2
      · simp only [if_neg hlarge]
        exact .extended htags fun hne => Nat.le_of_not_lt fun hlt => hlarge ⟨hne, hlt⟩

/-- Makes edits one after the other. -/
def after (edits : List Edit) (d : Draft) : Draft :=
  edits.foldl (fun d e => (d.edit e).2) d

/-- Those of edits made one after the other that are accepted. -/
def accepted : List Edit → Draft → List Edit
  | [], _ => []
  | e :: rest, d =>
    match d.edit e with
    | (.ok (), d') => e :: accepted rest d'
    | (.error _, d') => accepted rest d'

/-! ## The size of a draft -/

theorem stopFrom_append (place : Nat) (ts us : List DraftTag) :
    stopFrom place (ts ++ us) = stopFrom (stopFrom place ts) us := by
  induction ts generalizing place with
  | nil => rfl
  | cons t rest ih => exact ih (stop place t)

/-- A last tag ends behind the others. -/
theorem size_concat {sequence : UInt16} {ts : List DraftTag} {t : DraftTag} (h : ts ≠ []) :
    size ⟨sequence, ts ++ [t]⟩ = stop (size ⟨sequence, ts⟩) t := by
  obtain ⟨u, us, rfl⟩ := List.exists_cons_of_ne_nil h
  exact stopFrom_append (firstStop u) us [t]

/-- Edits never take bytes away. -/
theorem size_le_edit (e : Edit) (d : Draft) : d.size ≤ (d.edit e).2.size := by
  obtain ⟨sequence, tags⟩ := d
  have hedited := edited e ⟨sequence, tags⟩
  generalize edit e ⟨sequence, tags⟩ = r at hedited
  cases hedited with
  | @appended id payload extra _ =>
    rcases eq_or_ne tags [] with rfl | hne
    · exact Nat.zero_le _
    · rw [size_concat hne]
      exact Nat.le_trans (le_align _) (le_stop _ _)
  | @extended ts t data htags _ =>
    obtain rfl : tags = ts ++ [t] := htags
    have hlength : t.payload.length ≤ (t.payload ++ data).length := by simp
    rcases eq_or_ne ts [] with rfl | hne
    · exact Nat.add_le_add_left hlength _
    · rw [size_concat hne, size_concat hne]
      exact Nat.add_le_add_left hlength _
  | _ => exact Nat.le_refl _

theorem size_le_after (es : List Edit) (d : Draft) : d.size ≤ (after es d).size := by
  induction es generalizing d with
  | nil => exact Nat.le_refl _
  | cons e rest ih => exact Nat.le_trans (size_le_edit e d) (ih (d.edit e).2)

/-! ## What edits do to a draft -/

/-- The last tag stands behind the first one, and its payload of this size is longer than such a tag can
tell. -/
def Overlong (tags : List DraftTag) (size : Nat) : Prop :=
  ∃ ts t, tags = ts ++ [t] ∧ ts ≠ [] ∧ t.payload.length = size ∧ 65523 < size

theorem overlong_concat {ts : List DraftTag} {t : DraftTag} {size : Nat} :
    Overlong (ts ++ [t]) size ↔ ts ≠ [] ∧ t.payload.length = size ∧ payloadLimit < size := by
  constructor
  · rintro ⟨us, u, heq, h⟩
    obtain ⟨rfl, rfl⟩ := List.append_singleton_inj.mp heq
    exact h
  · exact fun h => ⟨ts, t, rfl, h⟩

theorem not_overlong_nil {size : Nat} : ¬Overlong [] size := by
  rintro ⟨ts, t, heq, -⟩
  exact List.append_ne_nil_of_right_ne_nil ts (List.cons_ne_nil t []) heq.symm

/-- How an edit turns out after those that were accepted. -/
structure Outcome (made : List Edit) (e : Edit) (d : Draft) (r : Except FrameError Unit × Draft) : Prop where
  /-- Only where no tag has been added there is nothing to extend. -/
  empty_iff : r.1 = .error .empty ↔ gather made = [] ∧ ∃ data, e = .extend data
  /-- Only a tag that would get too long is refused. -/
  tagTooLarge_iff (size : Nat) :
    r.1 = .error (.tagTooLarge size 65523) ↔ Overlong (gather (made ++ [e])) size
  /-- There are no other reasons to refuse an edit. -/
  reason {error : FrameError} :
    r.1 = .error error → error = .empty ∨ ∃ size, error = .tagTooLarge size 65523
  unchanged {error : FrameError} : r.1 = .error error → r.2 = d

namespace Outcome

variable {made : List Edit} {e : Edit} {d : Draft}

theorem ok {d' : Draft} (hempty : ¬(gather made = [] ∧ ∃ data, e = .extend data))
    (hlong : ∀ size, ¬Overlong (gather (made ++ [e])) size) : Outcome made e d (.ok (), d') where
  empty_iff := iff_of_false nofun hempty
  tagTooLarge_iff size := iff_of_false nofun (hlong size)
  reason := nofun
  unchanged := nofun

theorem tagTooLarge {size : Nat} (hempty : ¬(gather made = [] ∧ ∃ data, e = .extend data))
    (hlong : ∀ n, Overlong (gather (made ++ [e])) n ↔ size = n) :
    Outcome made e d (.error (.tagTooLarge size payloadLimit), d) where
  empty_iff := iff_of_false nofun hempty
  tagTooLarge_iff n := by
    rw [hlong n]
    exact ⟨fun h => by cases h; rfl, fun h => by rw [h]; rfl⟩
  reason h := by
    cases h
    exact .inr ⟨size, rfl⟩
  unchanged _ := rfl

theorem empty {data : Bytes} (h : gather made = []) :
    Outcome made (.extend data) d (.error .empty, d) where
  empty_iff := iff_of_true rfl ⟨h, data, rfl⟩
  tagTooLarge_iff size := by
    rw [gather_extend_of_nil h]
    exact iff_of_false nofun not_overlong_nil
  reason h := by
    cases h
    exact .inl rfl
  unchanged _ := rfl

end Outcome

/-- A draft that came out of the edits that were accepted. -/
structure Built (sequence : UInt16) (made : List Edit) (d : Draft) : Prop where
  sequence_eq : d.sequence = sequence
  tags_eq : d.tags = gather made
  payload_le : ∀ t ∈ d.tags.tail, t.payload.length ≤ payloadLimit

theorem mem_tail_concat {ts : List DraftTag} {t u : DraftTag} :
    u ∈ (ts ++ [t]).tail ↔ u ∈ ts.tail ∨ ts ≠ [] ∧ u = t := by
  cases ts <;> simp

namespace Built

variable {sequence : UInt16} {made : List Edit} {d : Draft}

theorem outcome (h : Built sequence made d) (hsize : d.size < 4294967292) (e : Edit) :
    Outcome made e d (d.edit e) := by
  have hedited := edited e d
  generalize d.edit e = r at hedited
  cases hedited with
  | @appended id payload extra hle =>
    refine .ok (fun ⟨_, _, heq⟩ => nomatch heq) fun size hlong => ?_
    rw [gather_append, ← h.tags_eq, overlong_concat] at hlong
    obtain ⟨hne, rfl, hlt⟩ := hlong
    exact Nat.not_lt_of_le (hle hne) hlt
  | @tagTooLarge id payload extra hne hlt =>
    refine .tagTooLarge (fun ⟨_, _, heq⟩ => nomatch heq) fun size => ?_
    rw [gather_append, ← h.tags_eq, overlong_concat]
    exact ⟨fun hlong => hlong.2.1, fun hlength => ⟨hne, hlength, hlength ▸ hlt⟩⟩
  | @frameTooLarge id payload extra hle =>
    -- so small a draft has room for the place of another tag
    have halign := align_lt d.size
    rw [Bytes.bound_four] at hle
    unfold align at hle
    omega
  | @extended ts t data htags hle =>
    have hgather := h.tags_eq.symm.trans htags
    refine .ok (fun ⟨hnil, _⟩ => by simp [hgather] at hnil) fun size hlong => ?_
    rw [gather_extend hgather, overlong_concat] at hlong
    obtain ⟨hne, rfl, hlt⟩ := hlong
    exact Nat.not_lt_of_le (hle hne) hlt
  | @extendedTooLarge ts t data htags hne hlt =>
    have hgather := h.tags_eq.symm.trans htags
    refine .tagTooLarge (fun ⟨hnil, _⟩ => by simp [hgather] at hnil) fun size => ?_
    rw [gather_extend hgather, overlong_concat]
    exact ⟨fun hlong => hlong.2.1, fun hlength => ⟨hne, hlength, hlength ▸ hlt⟩⟩
  | @empty data htags => exact .empty (h.tags_eq.symm.trans htags)

/-- An edit that is accepted is one more of which the draft came out. -/
theorem of_ok (h : Built sequence made d) {e : Edit} {d' : Draft} (hedit : d.edit e = (.ok (), d')) :
    Built sequence (made ++ [e]) d' := by
  have hedited := edited e d
  rw [hedit] at hedited
  cases hedited with
  | appended hle =>
    refine ⟨h.sequence_eq, ?_, fun u hu => ?_⟩
    · rw [gather_append, h.tags_eq]
    · obtain hu | ⟨hne, rfl⟩ := mem_tail_concat.mp hu
      · exact h.payload_le u hu
      · exact hle hne
  | @extended ts t data htags hle =>
    have hgather := h.tags_eq.symm.trans htags
    refine ⟨h.sequence_eq, (gather_extend hgather data).symm, fun u hu => ?_⟩
    obtain hu | ⟨hne, rfl⟩ := mem_tail_concat.mp hu
    · refine h.payload_le u ?_
      rw [htags]
      exact mem_tail_concat.mpr (.inl hu)
    · exact hle hne

end Built

theorem eq_of_edit_error {e : Edit} {d d' : Draft} {error : FrameError}
    (h : d.edit e = (.error error, d')) : d' = d := by
  have hedited := edited e d
  rw [h] at hedited
  cases hedited <;> rfl

/-- What comes out of edits is what comes out of those that are accepted. -/
theorem Built.after {sequence : UInt16} {made : List Edit} {d : Draft} (h : Built sequence made d)
    (es : List Edit) : Built sequence (made ++ accepted es d) (after es d) := by
  induction es generalizing made d with
  | nil =>
    rw [accepted, List.append_nil]
    exact h
  | cons e rest ih =>
    rw [accepted, Draft.after, List.foldl_cons]
    rcases hedit : d.edit e with ⟨_ | ⟨⟩, d'⟩
    · obtain rfl := eq_of_edit_error hedit
      exact ih h
    · dsimp only
      rw [List.append_cons]
      exact ih (h.of_ok hedit)

/-! ## What is read of a draft -/

/-- A draft without tags, or with its first tag in place. -/
def opened (sequence : UInt16) : Option DraftTag → Draft
  | none => { sequence }
  | some t => withFirstTag sequence t.id t.payload t.extra

/-- The first tag as an edit. -/
def opening : Option DraftTag → List Edit
  | none => []
  | some t => [.append t.id t.payload t.extra]

theorem built_opened (sequence : UInt16) (first : Option DraftTag) :
    Built sequence (opening first) (opened sequence first) := by
  cases first with
  | none => exact ⟨rfl, rfl, nofun⟩
  | some t => exact ⟨rfl, by simp [opened, opening, withFirstTag, gather, leading], nofun⟩

/-- The names, numbers and payloads that are read of tags: the first one has no number, and zeros fill up
its payload where another tag follows. -/
def held : List DraftTag → List (TagId × UInt16 × Bytes)
  | [] => []
  | [t] => [(t.id, 0, t.payload)]
  | t :: u :: rest =>
    (t.id, 0, t.payload ++ Bytes.zeros ((4 - t.payload.length % 4) % 4))
      :: (u :: rest).map fun v => (v.id, v.extra, v.payload)

theorem map_placed (place : Nat) (tags : List DraftTag) :
    (placed place tags).map (fun t => (t.id, t.extra, t.payload))
      = tags.map fun t => (t.id, t.extra, t.payload) := by
  induction tags generalizing place with
  | nil => rfl
  | cons t rest ih => rw [placed, List.map_cons, List.map_cons, ih]

theorem map_frameOf (sequence : UInt16) (t : DraftTag) (rest : List DraftTag) :
    (frameOf sequence t rest).tags.map (fun t => (t.id, t.extra, t.payload)) = held (t :: rest) := by
  rw [frameOf, List.map_cons, map_placed]
  rcases rest with _ | ⟨u, rest⟩
  · have hnone : padding [] (firstStop t) = [] := rfl
    rw [hnone, List.append_nil]
    rfl
  · have hzeros : align (firstStop t) - firstStop t = (4 - t.payload.length % 4) % 4 := by
      unfold align firstStop Frame.firstHeaderSize
      omega
    rw [padding, if_neg (by simp), hzeros, held]

theorem four_dvd_frameOf {sequence : UInt16} {t : DraftTag} {rest : List DraftTag} {u : Tag}
    (h : u ∈ (frameOf sequence t rest).tags) : 4 ∣ u.offset := by
  obtain rfl | h := List.mem_cons.mp h
  · exact Nat.dvd_zero 4
  · exact four_dvd_of_placed h

/-- A draft with tags is finished, and read as it was built. -/
theorem Built.finish {sequence : UInt16} {made : List Edit} {d : Draft} (h : Built sequence made d)
    (hsize : d.size < 4294967292) (hne : gather made ≠ []) :
    ∃ bytes f, d.finish = .ok bytes ∧ bytes.length = d.size ∧
      (∀ trailing, Frame.parse (bytes ++ trailing) = .ok f) ∧ f.sequence = sequence ∧
      f.wireLength = bytes.length ∧
      f.tags.map (fun t => (t.id, t.extra, t.payload)) = held (gather made) ∧
      ∀ t ∈ f.tags, 4 ∣ t.offset := by
  obtain ⟨t, rest, htags⟩ := List.exists_cons_of_ne_nil hne
  have htags' := h.tags_eq.trans htags
  have hd : d.size = stopFrom (firstStop t) rest := by
    rw [size, htags']
    rfl
  have hbound : stopFrom (firstStop t) rest < Bytes.bound 4 := by
    rw [Bytes.bound_four]
    omega
  have hlimit : ∀ u ∈ rest, u.payload.length ≤ payloadLimit := by
    have hle := h.payload_le
    rwa [htags'] at hle
  refine ⟨render sequence d.size t rest, frameOf sequence t rest, ?_, ?_, ?_, rfl, ?_, ?_, ?_⟩
  · rw [Draft.finish, htags']
    dsimp only
    rw [if_neg (by omega), h.sequence_eq]
  · rw [length_render, hd]
  · exact parse_render (by rw [hd]) hbound hlimit
  · rw [length_render]
    rfl
  · rw [htags]
    exact map_frameOf sequence t rest
  · exact fun u hu => four_dvd_frameOf hu

/-- The draft that comes out of edits. -/
def drafted (sequence : UInt16) (first : Option DraftTag) (edits : List Edit) : Draft :=
  after edits (opened sequence first)

/-- Its first tag, and those of the edits that are accepted. -/
def kept (sequence : UInt16) (first : Option DraftTag) (edits : List Edit) : List Edit :=
  opening first ++ accepted edits (opened sequence first)

/-- Of a finished draft exactly the tags are read that the accepted edits add up to. -/
theorem parse_undoes_edits (sequence : UInt16) (first : Option DraftTag) (edits : List Edit)
    (hsize : (drafted sequence first edits).size < 4294967292) :
    (∀ before e behind, edits = before ++ e :: behind →
      Outcome (kept sequence first before) e (drafted sequence first before)
        ((drafted sequence first before).edit e)) ∧
    (∀ tags, gather (kept sequence first edits) = tags → tags ≠ [] →
      ∃ bytes f, (drafted sequence first edits).finish = .ok bytes ∧
        bytes.length = (drafted sequence first edits).size ∧
        (∀ trailing, Frame.parse (bytes ++ trailing) = .ok f) ∧ f.sequence = sequence ∧
        f.wireLength = bytes.length ∧
        f.tags.map (fun t => (t.id, t.extra, t.payload)) = held tags ∧
        ∀ t ∈ f.tags, 4 ∣ t.offset) := by
  constructor
  · -- the draft before an edit is no larger than the last one
    rintro before e behind rfl
    have hle := size_le_after (e :: behind) (drafted sequence first before)
    rw [drafted, Draft.after, List.foldl_append] at hsize
    exact ((built_opened sequence first).after before).outcome (Nat.lt_of_le_of_lt hle hsize) e
  · rintro tags rfl hne
    exact ((built_opened sequence first).after edits).finish hsize hne

/-- The bytes before the first tag are refused, and the others are read with the zeros that fill them up. -/
theorem parse_undoes_edits_twoTags :
    let edits := [.extend [9], .append .adbh [1, 2, 3] 5, .extend [4, 5], .append .adth [6] 3]
    (drafted 7 none edits).size < 4294967292 ∧
      ((drafted 7 none []).edit (.extend [9])).1 = .error .empty ∧
      ∃ bytes f, (drafted 7 none edits).finish = .ok bytes ∧ Frame.parse (bytes ++ [1]) = .ok f ∧
        f.sequence = 7 ∧ f.tags.map (fun t => (t.id, t.extra, t.payload))
          = [(.adbh, 0, [1, 2, 3, 4, 5, 0, 0, 0]), (.adth, 3, [6])] := by
  intro edits
  have hsize : (drafted 7 none edits).size < 4294967292 := by decide
  obtain ⟨houtcome, hread⟩ := parse_undoes_edits 7 none edits hsize
  obtain ⟨bytes, f, hfinish, -, hparse, hsequence, -, htags, -⟩ := hread _ rfl (by decide)
  exact ⟨hsize, (houtcome [] _ _ rfl).empty_iff.mpr ⟨rfl, [9], rfl⟩, bytes, f, hfinish, hparse [1], hsequence,
    htags.trans (by decide)⟩

end Draft

end Wwan
