import Wwan.Client.Line
import Wwan.Proofs.Message.Units

/-!
# Reading a stream of units

A unit that is too large is dropped by the first read that has its length, with everything else that was
read by then.  So it is dropped alone exactly when that read ends where the unit ends (`Aligned`): a read
that ends earlier leaves the rest of the unit to be taken for other units, and one that ends later takes
along what stands behind it.

`oversized_dropped_alone_iff` says this for a line that reads a stream of units, in whatever reads it
comes.
-/

namespace Wwan

variable {limit : Nat}

/-! ## Where the reads end -/

/-- How many bytes have been read after each read. -/
def ends : List Bytes → List Nat
  | [] => []
  | c :: cs => c.length :: (ends cs).map (c.length + ·)

/-- Whether, of the reads with these ends, the first that has the length of a unit that is too large ends
with that unit. -/
def Aligned (limit : Nat) (us : List Bytes) (es : List Nat) : Prop :=
  ∀ before u after, us = before ++ u :: after → limit < u.length →
    before.flatten.length + u.length ∈ es ∧
    ∀ e ∈ es, before.flatten.length + 4 ≤ e → before.flatten.length + u.length ≤ e

theorem aligned_nil (es : List Nat) : Aligned limit [] es :=
  fun before u after h => absurd h (by simp)

/-- Units within the limit make no difference to where reads may end behind them. -/
theorem aligned_append {done rest : List Bytes} (hdone : ∀ u ∈ done, u.length ≤ limit)
    (es : List Nat) : Aligned limit (done ++ rest) (es.map (done.flatten.length + ·)) ↔
      Aligned limit rest es := by
  constructor
  · rintro h before u after rfl hlarge
    obtain ⟨hmem, hends⟩ := h (done ++ before) u after (List.append_assoc _ _ _).symm hlarge
    rw [List.flatten_append, List.length_append] at hmem hends
    constructor
    · obtain ⟨e, he, heq⟩ := List.mem_map.mp hmem
      have : e = before.flatten.length + u.length := by omega
      exact this ▸ he
    · intro e he hle
      have := hends (done.flatten.length + e) (List.mem_map_of_mem he) (by omega)
      omega
  · intro h before u after heq hlarge
    -- a unit that is too large lies behind all those that are not
    obtain ⟨before', rfl, rfl⟩ : ∃ before', before = done ++ before' ∧ rest = before' ++ u :: after := by
      obtain ⟨c, hbefore, hrest⟩ | ⟨c, hdone', hrest⟩ := List.append_eq_append_iff.mp heq
      · exact ⟨c, hbefore, hrest⟩
      · rcases c with _ | ⟨u', c⟩
        · exact ⟨[], by rw [hdone']; simp, hrest.symm⟩
        · obtain ⟨rfl, -⟩ := List.cons.inj hrest
          have := hdone u (by rw [hdone']; simp)
          omega
    obtain ⟨hmem, hends⟩ := h before' u after rfl hlarge
    rw [List.flatten_append, List.length_append, Nat.add_assoc]
    refine ⟨List.mem_map_of_mem hmem, ?_⟩
    intro e he hle
    obtain ⟨e', he', rfl⟩ := List.mem_map.mp he
    have := hends e' he' (by omega)
    omega

/-- A read may end within the length of a unit, and anywhere in a unit within the limit. -/
theorem aligned_cons_of_pends {us : List Bytes} (hunits : ∀ u ∈ us, IsUnit u) {t : Bytes}
    (ht : Pends limit us t) (es : List Nat) :
    Aligned limit us (t.length :: es) ↔ Aligned limit us es := by
  have hshort : ∀ before u after, us = before ++ u :: after → limit < u.length →
      t.length < before.flatten.length + 4 := by
    rintro before u after rfl hlarge
    rcases before with _ | ⟨u₀, before⟩
    · obtain ⟨-, -, hfour⟩ := ht
      have := hfour hlarge
      omega
    · obtain ⟨-, hlt, -⟩ := ht
      rw [List.flatten_cons, List.length_append]
      omega
  constructor
  · intro h before u after hus hlarge
    obtain ⟨hmem, hends⟩ := h before u after hus hlarge
    have hfour := (hunits u (by rw [hus]; simp)).four_le
    have := hshort before u after hus hlarge
    refine ⟨List.mem_of_ne_of_mem (by omega) hmem, fun e he => hends e (List.mem_cons_of_mem _ he)⟩
  · intro h before u after hus hlarge
    obtain ⟨hmem, hends⟩ := h before u after hus hlarge
    have := hshort before u after hus hlarge
    refine ⟨List.mem_cons_of_mem _ hmem, fun e he hle => ?_⟩
    obtain rfl | he := List.mem_cons.mp he
    · omega
    · exact hends e he hle

/-- A read that ends with a unit is right for it. -/
theorem aligned_cons_of_end (u : Bytes) (rest : List Bytes) (es : List Nat) :
    Aligned limit (u :: rest) (u.length :: es.map (u.length + ·)) ↔ Aligned limit rest es := by
  constructor
  · rintro h before u' after rfl hlarge'
    obtain ⟨hmem, hends⟩ := h (u :: before) u' after rfl hlarge'
    rw [List.flatten_cons, List.length_append] at hmem hends
    constructor
    · obtain ⟨e, he, heq⟩ := List.mem_map.mp (List.mem_of_ne_of_mem (by omega) hmem)
      have : e = before.flatten.length + u'.length := by omega
      exact this ▸ he
    · intro e he hle
      have := hends (u.length + e) (List.mem_cons_of_mem _ (List.mem_map_of_mem he)) (by omega)
      omega
  · intro h before u' after hus hlarge'
    rcases before with _ | ⟨u₀, before⟩
    · obtain ⟨rfl, rfl⟩ := List.cons.inj hus
      refine ⟨by simp, fun e he _ => ?_⟩
      show 0 + u.length ≤ e
      obtain rfl | he := List.mem_cons.mp he
      · omega
      · obtain ⟨e', -, rfl⟩ := List.mem_map.mp he
        omega
    · obtain ⟨rfl, rfl⟩ := List.cons.inj hus
      obtain ⟨hmem, hends⟩ := h before u' after rfl hlarge'
      rw [List.flatten_cons, List.length_append, Nat.add_assoc]
      refine ⟨List.mem_cons_of_mem _ (List.mem_map_of_mem hmem), fun e he hle => ?_⟩
      obtain rfl | he := List.mem_cons.mp he
      · omega
      · obtain ⟨e', he', rfl⟩ := List.mem_map.mp he
        have := hends e' he' (by omega)
        omega

/-- A read that has the length of a unit that is too large and ends anywhere but with it is wrong. -/
theorem not_aligned_of_large {u : Bytes} (rest : List Bytes) (hlarge : limit < u.length) {n : Nat}
    (hfour : 4 ≤ n) (hne : n ≠ u.length) (es : List Nat) :
    ¬Aligned limit (u :: rest) (n :: es.map (n + ·)) := by
  intro h
  obtain ⟨hmem, hends⟩ := h [] u rest rfl hlarge
  have hle := hends n List.mem_cons_self (by simpa using hfour)
  simp only [List.flatten_nil, List.length_nil, Nat.zero_add] at hmem hle
  obtain heq | hmem := List.mem_cons.mp hmem
  · exact hne heq.symm
  · obtain ⟨e, -, heq⟩ := List.mem_map.mp hmem
    omega

/-! ## One read after the other -/

/-- What becomes of the bytes `t` that are there, and of those that are read one read after the other. -/
def partAll (limit : Nat) (t : Bytes) : List Bytes → Parting
  | [] => ⟨[], [], t⟩
  | c :: cs =>
    let p := part limit (t ++ c)
    let q := partAll limit p.rest cs
    ⟨p.taken ++ q.taken, p.dropped ++ q.dropped, q.rest⟩

theorem partAll_cons (t c : Bytes) (cs : List Bytes) {taken dropped : List Bytes} {rest : Bytes}
    (h : part limit (t ++ c) = ⟨taken, dropped, rest⟩) : partAll limit t (c :: cs)
      = ⟨taken ++ (partAll limit rest cs).taken, dropped ++ (partAll limit rest cs).dropped,
          (partAll limit rest cs).rest⟩ := by
  rw [partAll, h]

/-- A line that reads dispatches the messages among the units that are taken out. -/
theorem foldl_receive {H : Type} (reads : List Bytes) (l : Line H) :
    reads.foldl (fun l c => l.receive c) l = { l with
      client := ((partAll l.inbox.limit l.inbox.buffer reads).taken.filterMap Message.ofUnit?).foldl
        (fun c m => c.dispatch m) l.client
      inbox := { l.inbox with buffer := (partAll l.inbox.limit l.inbox.buffer reads).rest } } := by
  induction reads generalizing l with
  | nil => rfl
  | cons c cs ih =>
    rw [List.foldl_cons, ih, Line.receive, Inbox.drain_eq]
    show Line.mk _ _ _ _ = Line.mk _ _ _ _
    rw [partAll, List.filterMap_append, List.foldl_append]
    rfl

/-- What is too large comes out of units within the limit and others as it comes out of the others. -/
theorem filter_large_append {done : List Bytes} (hdone : ∀ u ∈ done, u.length ≤ limit)
    (rest : List Bytes) : (done ++ rest).filter (fun u => limit < u.length)
      = rest.filter fun u => limit < u.length := by
  have hnone : done.filter (fun u => limit < u.length) = [] :=
    List.filter_eq_nil_iff.mpr fun u hu => by simpa using hdone u hu
  rw [List.filter_append, hnone, List.nil_append]

theorem filter_small_append {done : List Bytes} (hdone : ∀ u ∈ done, u.length ≤ limit)
    (rest : List Bytes) : (done ++ rest).filter (fun u => u.length ≤ limit)
      = done ++ rest.filter fun u => u.length ≤ limit := by
  have hall : done.filter (fun u => u.length ≤ limit) = done :=
    List.filter_eq_self.mpr fun u hu => by simpa using hdone u hu
  rw [List.filter_append, hall]

/-- The ends of the reads, seen from where the units begin that are not read yet. -/
theorem ends_shift (n k : Nat) (es : List Nat) :
    (n + k) :: es.map (n + k + ·) = (k :: es.map (k + ·)).map (n + ·) := by
  rw [List.map_cons, List.map_map]
  congr 1
  refine List.map_congr_left fun e _ => ?_
  show n + k + e = n + (k + e)
  omega

/-- A stream of units comes out as it should, read by read, exactly when its reads are aligned. -/
theorem partAll_units (limit : Nat) {us : List Bytes} (hunits : ∀ u ∈ us, IsUnit u) {t : Bytes} {cs : List Bytes}
    (ht : Pends limit us t) (hstream : t ++ cs.flatten = us.flatten) :
    ((partAll limit t cs).dropped = us.filter (fun u => limit < u.length) ↔
      Aligned limit us ((ends cs).map (t.length + ·))) ∧
    (Aligned limit us ((ends cs).map (t.length + ·)) →
      (partAll limit t cs).taken = us.filter (fun u => u.length ≤ limit) ∧
      (partAll limit t cs).rest = []) := by
  induction cs generalizing us t with
  | nil =>
    -- everything has been read, so there is no unit any more
    rw [List.flatten_nil, List.append_nil] at hstream
    obtain rfl := eq_nil_of_pends ht hstream
    obtain rfl : t = [] := ht
    exact ⟨iff_of_true rfl (aligned_nil _), fun _ => ⟨rfl, rfl⟩⟩
  | cons c cs ih =>
    have hread : (t ++ c) ++ cs.flatten = us.flatten := by
      rw [← hstream, List.flatten_cons, List.append_assoc]
    have hends : (ends (c :: cs)).map (t.length + ·)
        = (t ++ c).length :: (ends cs).map ((t ++ c).length + ·) := by
      rw [ends, List.length_append]
      exact (ends_shift t.length c.length (ends cs)).symm
    rw [hends]
    obtain ⟨done, rest, t', rfl, hb, hdone, hpends, hpart⟩ |
      ⟨done, u, rest, v, rfl, hb, hdone, hlarge, hfour, hv, hpart⟩ :=
      part_units limit hunits ⟨cs.flatten, hread⟩
    · have hrest : ∀ u ∈ rest, IsUnit u := fun u hu => hunits u (List.mem_append_right _ hu)
      have hstream' : t' ++ cs.flatten = rest.flatten := by
        rw [hb, List.flatten_append, List.append_assoc] at hread
        exact List.append_cancel_left hread
      have haligned : Aligned limit (done ++ rest)
          ((t ++ c).length :: (ends cs).map ((t ++ c).length + ·)) ↔
            Aligned limit rest ((ends cs).map (t'.length + ·)) := by
        rw [hb, List.length_append, ends_shift, aligned_append hdone,
          aligned_cons_of_pends hrest hpends]
      obtain ⟨hdropped, htaken⟩ := ih hrest hpends hstream'
      rw [partAll_cons t c cs hpart, haligned, filter_large_append hdone, filter_small_append hdone]
      refine ⟨hdropped, fun h => ?_⟩
      obtain ⟨htaken, hnil⟩ := htaken h
      exact ⟨congrArg (done ++ ·) htaken, hnil⟩
    · have hrest : ∀ u ∈ rest, IsUnit u := fun u hu =>
        hunits u (List.mem_append_right _ (List.mem_cons_of_mem _ hu))
      have hkeep : (u :: rest).filter (fun u => limit < u.length)
          = u :: rest.filter fun u => limit < u.length :=
        List.filter_cons_of_pos (by simpa using hlarge)
      have hskip : (u :: rest).filter (fun u => u.length ≤ limit)
          = rest.filter fun u => u.length ≤ limit :=
        List.filter_cons_of_neg (by simpa using hlarge)
      rw [partAll_cons t c cs hpart, hb, List.length_append, ends_shift, aligned_append hdone,
        filter_large_append hdone, filter_small_append hdone, hkeep, hskip]
      by_cases hlength : v.length = u.length
      · -- the read ends with the unit, which is dropped alone
        obtain rfl : v = u := (List.prefix_of_prefix_length_le hv (List.prefix_append u _)
          (Nat.le_of_eq hlength)).eq_of_length hlength
        have hstream' : [] ++ cs.flatten = rest.flatten := by
          rw [hb, List.flatten_append, List.flatten_cons, List.append_assoc] at hread
          exact List.append_cancel_left (List.append_cancel_left hread)
        have hzero : (ends cs).map (([] : Bytes).length + ·) = ends cs := by
          simp
        obtain ⟨hdropped, htaken⟩ := ih hrest (pends_nil hrest) hstream'
        rw [hzero] at hdropped htaken
        rw [aligned_cons_of_end]
        refine ⟨?_, fun h => ?_⟩
        · rw [← hdropped]
          exact List.cons_inj_right v
        · obtain ⟨htaken, hnil⟩ := htaken h
          exact ⟨congrArg (done ++ ·) htaken, hnil⟩
      · -- the read ends elsewhere, and something else is dropped
        have hwrong := not_aligned_of_large rest hlarge hfour hlength (ends cs)
        refine ⟨iff_of_false (fun h => hlength ?_) hwrong, fun h => absurd h hwrong⟩
        obtain ⟨rfl, -⟩ := List.cons.inj h
        rfl

/-! ## A line that reads -/

/-- A line that reads a stream of units drops exactly the units that are too large, each alone, if and
only if the reads are aligned; then it dispatches exactly the messages among the other units, each once
and in the order of the stream. -/
theorem oversized_dropped_alone_iff {H : Type} (l : Line H) (hempty : l.inbox.buffer = [])
    {us reads : List Bytes} (hunits : ∀ u ∈ us, IsUnit u) (hreads : reads.flatten = us.flatten) :
    reads.foldl (fun l c => l.receive c) l = { l with
      client := ((partAll l.inbox.limit [] reads).taken.filterMap Message.ofUnit?).foldl
        (fun c m => c.dispatch m) l.client
      inbox := { l.inbox with buffer := (partAll l.inbox.limit [] reads).rest } } ∧
    ((partAll l.inbox.limit [] reads).dropped = us.filter (fun u => l.inbox.limit < u.length) ↔
      Aligned l.inbox.limit us (ends reads)) ∧
    (Aligned l.inbox.limit us (ends reads) →
      reads.foldl (fun l c => l.receive c) l = { l with
        client := ((us.filter fun u => u.length ≤ l.inbox.limit).filterMap Message.ofUnit?).foldl
          (fun c m => c.dispatch m) l.client }) := by
  have hzero : (ends reads).map (([] : Bytes).length + ·) = ends reads := by
    simp
  have hline := foldl_receive reads l
  rw [hempty] at hline
  obtain ⟨hdropped, htaken⟩ := partAll_units l.inbox.limit hunits (pends_nil hunits) hreads
  rw [hzero] at hdropped htaken
  refine ⟨hline, hdropped, fun h => ?_⟩
  obtain ⟨htaken, hnil⟩ := htaken h
  rw [hline, htaken, hnil, ← hempty]

/-- A unit of 28 bytes. -/
def largeUnit : Bytes :=
  Bytes.ofNatLE 4 24 ++ List.replicate 24 0

/-- A notice of 20 bytes. -/
def noticeUnit : Bytes :=
  Bytes.ofNatLE 4 16 ++ Value.integer 4 16 ++ Value.integer 4 9 ++ Bytes.ofWordBE 0

/-- A line that reads nothing above 24 bytes. -/
def shortLine : Line Unit :=
  Line.ofConfig { maxMessage := 24 }

theorem oversized_dropped_alone_iff_shortLine :
    shortLine.inbox.buffer = [] ∧ (∀ u ∈ [largeUnit, noticeUnit], IsUnit u) ∧
      [largeUnit, noticeUnit].flatten = [largeUnit, noticeUnit].flatten ∧
      ((partAll 24 [] [largeUnit, noticeUnit]).dropped = [largeUnit] ↔
        Aligned 24 [largeUnit, noticeUnit] (ends [largeUnit, noticeUnit])) := by
  have hunits : ∀ u ∈ [largeUnit, noticeUnit], IsUnit u := by
    decide +kernel
  exact ⟨rfl, hunits, rfl, (oversized_dropped_alone_iff shortLine rfl hunits rfl).2.1⟩

/-- A unit that is too large takes the next one along when both are read at once. -/
theorem oversized_takes_next_along :
    (∀ u ∈ [largeUnit, noticeUnit], IsUnit u) ∧
      [largeUnit ++ noticeUnit].flatten = [largeUnit, noticeUnit].flatten ∧
      ([largeUnit, noticeUnit].filter fun u => u.length ≤ shortLine.inbox.limit).filterMap
        Message.ofUnit? = [⟨16, 16, 9, 0, []⟩] ∧
      ([largeUnit ++ noticeUnit].foldl (fun l c => l.receive c) shortLine).client.notices = [] := by
  decide +kernel

/-- The end of a unit that is too large is taken for a message when it is read on its own. -/
example : IsUnit (Bytes.ofNatLE 4 24 ++ List.replicate 4 0 ++ noticeUnit) ∧
    ([Bytes.ofNatLE 4 24 ++ List.replicate 4 0, noticeUnit].foldl (fun l c => l.receive c)
      shortLine).client.notices = [⟨16, 16, 9, 0, []⟩] := by
  decide +kernel

end Wwan
