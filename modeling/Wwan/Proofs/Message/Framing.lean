import Wwan.Proofs.Message.Fields
import Wwan.Proofs.Message.Units

/-!
# Reading the messages of a stream

The units of a byte string follow from its bytes alone (`unitsOf`), and so does what reading it gives: a
message or an error for each unit (`decode`).  `results` says the same of a stream that comes in reads,
some of which fail: between two failed reads the bytes count as one piece.  An inbox gives exactly these
results (`Inbox.receives_results`), as long as no unit is too large.

`receives_eq_decode` is the law of reading: the results are those of the whole byte string, wherever it is
cut into reads, and each failed read adds one error, or none if it was interrupted.
-/

namespace Wwan

/-! ## The units of a byte string -/

/-- Whether a byte string is too short for the unit that it starts. -/
def Unfinished (b : Bytes) : Prop :=
  4 ≤ b.length → b.length < Bytes.toNatLE (b.take 4) + 4

instance : DecidablePred Unfinished := fun b =>
  inferInstanceAs (Decidable (4 ≤ b.length → b.length < Bytes.toNatLE (b.take 4) + 4))

/-- A byte string starts with a unit, unless it is too short for it. -/
theorem exists_unit_of_not_unfinished {w : Bytes} (h : ¬Unfinished w) :
    ∃ u x, IsUnit u ∧ w = u ++ x := by
  have hfour : 4 ≤ w.length ∧ Bytes.toNatLE (w.take 4) + 4 ≤ w.length := by
    unfold Unfinished at h
    omega
  have hlength : (w.take (Bytes.toNatLE (w.take 4) + 4)).length = Bytes.toNatLE (w.take 4) + 4 :=
    List.length_take_of_le hfour.2
  have hstart : (w.take (Bytes.toNatLE (w.take 4) + 4)).take 4 = w.take 4 := by
    rw [List.take_take]
    congr 1
  refine ⟨w.take (Bytes.toNatLE (w.take 4) + 4), w.drop (Bytes.toNatLE (w.take 4) + 4), ⟨?_, ?_⟩,
    (List.take_append_drop _ w).symm⟩
  · rw [hlength]
    omega
  · rw [hlength, hstart]

theorem not_unfinished_unit {u : Bytes} (h : IsUnit u) (x : Bytes) : ¬Unfinished (u ++ x) := by
  intro hshort
  have hfour := h.four_le
  have hlt := hshort (by rw [List.length_append]; omega)
  rw [List.take_append_of_le_length hfour, h.length_eq, List.length_append] at hlt
  omega

/-- The units of a byte string, and the bytes behind them, too few for one more. -/
def unitsOf (w : Bytes) : List Bytes × Bytes :=
  if _h : Unfinished w then ([], w)
  else
    let n := Bytes.toNatLE (w.take 4) + 4
    (w.take n :: (unitsOf (w.drop n)).1, (unitsOf (w.drop n)).2)
termination_by w.length
decreasing_by
  all_goals
    unfold Unfinished at _h
    rw [List.length_drop]
    omega

theorem unitsOf_of_unfinished {w : Bytes} (h : Unfinished w) : unitsOf w = ([], w) := by
  rw [unitsOf, dif_pos h]

theorem unitsOf_unit {u : Bytes} (h : IsUnit u) (x : Bytes) :
    unitsOf (u ++ x) = (u :: (unitsOf x).1, (unitsOf x).2) := by
  have hn : Bytes.toNatLE ((u ++ x).take 4) + 4 = u.length := by
    rw [List.take_append_of_le_length h.four_le, h.length_eq]
  rw [unitsOf, dif_neg (not_unfinished_unit h x)]
  simp only [hn, List.take_left, List.drop_left]

/-- Units one behind the other are parted again. -/
theorem unitsOf_flatten {us : List Bytes} (h : ∀ u ∈ us, IsUnit u) (x : Bytes) :
    unitsOf (us.flatten ++ x) = (us ++ (unitsOf x).1, (unitsOf x).2) := by
  induction us with
  | nil => rfl
  | cons u us ih =>
    have hrest := ih fun v hv => h v (List.mem_cons_of_mem u hv)
    rw [List.flatten_cons, List.append_assoc, unitsOf_unit (h u List.mem_cons_self), hrest, List.cons_append]

/-- What holds of byte strings that are too short for a unit, and of a unit and more when it holds of what
is behind it, holds of all. -/
theorem units_induction {P : Bytes → Prop} (unfinished : ∀ t, Unfinished t → P t)
    (unit : ∀ u x, IsUnit u → P x → P (u ++ x)) (w : Bytes) : P w := by
  induction hn : w.length using Nat.strongRecOn generalizing w with
  | _ n ih =>
    by_cases h : Unfinished w
    · exact unfinished w h
    · obtain ⟨u, x, hu, rfl⟩ := exists_unit_of_not_unfinished h
      have hfour := hu.four_le
      rw [List.length_append] at hn
      exact unit u x hu (ih x.length (by omega) x rfl)

/-- The units in a byte string, and what is behind them. -/
structure Units (w : Bytes) (us : List Bytes) (t : Bytes) : Prop where
  bytes_eq : w = us.flatten ++ t
  isUnit : ∀ u ∈ us, IsUnit u
  unfinished : Unfinished t

theorem units_unitsOf (w : Bytes) : Units w (unitsOf w).1 (unitsOf w).2 := by
  induction w using units_induction with
  | unfinished t h =>
    rw [unitsOf_of_unfinished h]
    exact ⟨rfl, by simp, h⟩
  | unit u x hu ih =>
    rw [unitsOf_unit hu]
    refine ⟨?_, ?_, ih.unfinished⟩
    · rw [List.flatten_cons, List.append_assoc, ← ih.bytes_eq]
    · intro v hv
      obtain rfl | hv := List.mem_cons.mp hv
      · exact hu
      · exact ih.isUnit v hv

/-- The units of a byte string go on where those of its start end. -/
theorem unitsOf_append (b c : Bytes) : unitsOf (b ++ c)
    = ((unitsOf b).1 ++ (unitsOf ((unitsOf b).2 ++ c)).1, (unitsOf ((unitsOf b).2 ++ c)).2) := by
  induction b using units_induction with
  | unfinished t h => rw [unitsOf_of_unfinished h, List.nil_append]
  | unit u x hu ih => rw [List.append_assoc, unitsOf_unit hu, unitsOf_unit hu, ih, List.cons_append]

/-! ## What reading gives -/

/-- What reading a byte string gives, unit by unit. -/
def decode (w : Bytes) : List (Except CallError Message) :=
  (unitsOf w).1.map Message.readUnit

theorem decode_append (b c : Bytes) :
    decode (b ++ c) = decode b ++ decode ((unitsOf b).2 ++ c) := by
  rw [decode, unitsOf_append, List.map_append]
  rfl

theorem decode_of_unfinished {t : Bytes} (h : Unfinished t) : decode t = [] := by
  rw [decode, unitsOf_of_unfinished h]
  rfl

theorem decode_unit {u : Bytes} (h : IsUnit u) (x : Bytes) :
    decode (u ++ x) = Message.readUnit u :: decode x := by
  rw [decode, unitsOf_unit h]
  rfl

/-- The bytes that items offer. -/
def supplied : List Supply → Bytes
  | [] => []
  | .bytes data :: rest => data ++ supplied rest
  | .fault _ :: rest => supplied rest

/-- The faults that the items' failed reads report, but for the interrupted ones. -/
def faults : List Supply → List Fault
  | [] => []
  | .bytes _ :: rest => faults rest
  | .fault f :: rest => if f.kind = .interrupted then faults rest else f :: faults rest

/-- Whether an item is an interrupted read. -/
def Supply.isInterrupted : Supply → Bool
  | .bytes _ => false
  | .fault f => f.kind = .interrupted

/-- What reading gives of the bytes `b` and those of the items behind them. -/
def results (b : Bytes) : List Supply → List (Except CallError Message)
  | [] => decode b
  | .bytes data :: rest => results (b ++ data) rest
  | .fault f :: rest =>
    if f.kind = .interrupted then results b rest
    else decode b ++ .error (.fault f) :: results (unitsOf b).2 rest

/-- Whether a result reports a failed read. -/
def isFault : Except CallError Message → Bool
  | .error (.fault _) => true
  | _ => false

theorem isFault_readUnit (u : Bytes) : isFault (Message.readUnit u) = false := by
  unfold Message.readUnit
  cases Message.ofUnit u <;> rfl

theorem filter_isFault_decode (w : Bytes) : (decode w).filter isFault = [] := by
  rw [decode, List.filter_eq_nil_iff]
  intro r hr
  obtain ⟨u, -, rfl⟩ := List.mem_map.mp hr
  rw [isFault_readUnit]
  exact Bool.false_ne_true

theorem filter_not_isFault_decode (w : Bytes) : (decode w).filter (! isFault ·) = decode w := by
  rw [decode, List.filter_eq_self]
  intro r hr
  obtain ⟨u, -, rfl⟩ := List.mem_map.mp hr
  rw [isFault_readUnit]
  rfl

/-- A unit at the front makes a result at the front, whatever reads come behind it. -/
theorem results_unit {u : Bytes} (h : IsUnit u) (x : Bytes) (items : List Supply) :
    results (u ++ x) items = Message.readUnit u :: results x items := by
  induction items generalizing x with
  | nil => exact decode_unit h x
  | cons item rest ih =>
    rcases item with data | f
    · rw [results, results, List.append_assoc, ih]
    · rw [results, results, ih, decode_unit h, unitsOf_unit h]
      split <;> rfl

/-- The units that are there in whole are read first. -/
theorem results_eq_decode_append (b : Bytes) (items : List Supply) :
    results b items = decode b ++ results (unitsOf b).2 items := by
  induction b using units_induction with
  | unfinished t h => rw [decode_of_unfinished h, unitsOf_of_unfinished h, List.nil_append]
  | unit u x hu ih => rw [results_unit hu, decode_unit hu, unitsOf_unit hu, ih, List.cons_append]

/-- The results of further reads come behind those of the first ones. -/
theorem results_append (b : Bytes) (before after : List Supply) : results b (before ++ after)
    = results b before ++ results (unitsOf (b ++ supplied before)).2 after := by
  induction before generalizing b with
  | nil => rw [supplied, List.append_nil, List.nil_append, results, results_eq_decode_append]
  | cons item rest ih =>
    rcases item with data | f
    · rw [List.cons_append, results, results, supplied, ih, List.append_assoc]
    · rw [List.cons_append, results, results, supplied]
      by_cases hkind : f.kind = .interrupted
      · rw [if_pos hkind, if_pos hkind, ih]
      · rw [if_neg hkind, if_neg hkind, ih, unitsOf_append b, List.append_assoc, List.cons_append]

/-- A failed read adds one result, behind those of the reads before it. -/
theorem results_fault {f : Fault} (hkind : f.kind ≠ .interrupted) (b : Bytes)
    (before after : List Supply) : ∃ rs,
      results b (before ++ after) = results b before ++ rs ∧
      results b (before ++ .fault f :: after) = results b before ++ .error (.fault f) :: rs := by
  refine ⟨results (unitsOf (b ++ supplied before)).2 after, results_append b before after, ?_⟩
  have hrest := (units_unitsOf (b ++ supplied before)).unfinished
  rw [results_append, results, if_neg hkind, decode_of_unfinished hrest, unitsOf_of_unfinished hrest,
    List.nil_append]

/-- But for the faults, the results are those of all bytes in one piece. -/
theorem filter_not_isFault_results (b : Bytes) (items : List Supply) :
    (results b items).filter (! isFault ·) = decode (b ++ supplied items) := by
  induction items generalizing b with
  | nil => rw [results, supplied, List.append_nil, filter_not_isFault_decode]
  | cons item rest ih =>
    rcases item with data | f
    · rw [results, supplied, ih, List.append_assoc]
    · rw [results, supplied]
      by_cases hkind : f.kind = .interrupted
      · rw [if_pos hkind, ih]
      · rw [if_neg hkind, List.filter_append, filter_not_isFault_decode,
          List.filter_cons_of_neg (by simp [isFault]), ih, ← decode_append]

/-- Each read that fails and is not interrupted is reported once. -/
theorem filter_isFault_results (b : Bytes) (items : List Supply) :
    (results b items).filter isFault = (faults items).map (.error ∘ .fault) := by
  induction items generalizing b with
  | nil => exact filter_isFault_decode b
  | cons item rest ih =>
    rcases item with data | f
    · exact ih (b ++ data)
    · rw [results, faults]
      by_cases hkind : f.kind = .interrupted
      · rw [if_pos hkind, if_pos hkind, ih]
      · rw [if_neg hkind, if_neg hkind, List.filter_append, filter_isFault_decode, List.nil_append,
          List.filter_cons_of_pos rfl, ih]
        rfl

/-- When no read fails, but for interrupted ones, the results are those of all bytes in one piece. -/
theorem results_eq_decode {items : List Supply} (h : faults items = []) (b : Bytes) :
    results b items = decode (b ++ supplied items) := by
  have hnone := filter_isFault_results b items
  rw [h, List.map_nil, List.filter_eq_nil_iff] at hnone
  rw [← filter_not_isFault_results, List.filter_eq_self.mpr]
  intro r hr
  simpa using hnone r hr

/-- Interrupted reads make no difference. -/
theorem results_filter_interrupted (b : Bytes) (items : List Supply) :
    results b (items.filter (! ·.isInterrupted)) = results b items := by
  induction items generalizing b with
  | nil => rfl
  | cons item rest ih =>
    rcases item with data | f
    · rw [List.filter_cons_of_pos rfl, results, results, ih]
    · by_cases hkind : f.kind = .interrupted
      · rw [List.filter_cons_of_neg (by simp [Supply.isInterrupted, hkind]), ih, results, if_pos hkind]
      · rw [List.filter_cons_of_pos (by simp [Supply.isInterrupted, hkind]), results, results,
          if_neg hkind, if_neg hkind, ih]

/-! ## Reading -/

/-- Whether no unit of a byte string is larger than the limit, nor the one in which it breaks off. -/
structure Within (limit : Nat) (w : Bytes) : Prop where
  units_le : ∀ u ∈ (unitsOf w).1, u.length ≤ limit
  rest_le : 4 ≤ (unitsOf w).2.length → Bytes.toNatLE ((unitsOf w).2.take 4) + 4 ≤ limit

instance (limit : Nat) : DecidablePred (Within limit) := fun w =>
  decidable_of_iff ((∀ u ∈ (unitsOf w).1, u.length ≤ limit) ∧
      (4 ≤ (unitsOf w).2.length → Bytes.toNatLE ((unitsOf w).2.take 4) + 4 ≤ limit))
    ⟨fun h => ⟨h.1, h.2⟩, fun h => ⟨h.units_le, h.rest_le⟩⟩

theorem Within.of_unit {limit : Nat} {u x : Bytes} (hu : IsUnit u) (h : Within limit (u ++ x)) :
    u.length ≤ limit ∧ Within limit x := by
  obtain ⟨hunits, hrest⟩ := h
  rw [unitsOf_unit hu] at hunits hrest
  exact ⟨hunits u List.mem_cons_self, fun v hv => hunits v (List.mem_cons_of_mem u hv), hrest⟩

/-- Nothing is extracted from the start of a unit that is not too large. -/
theorem Within.extract_incomplete {limit : Nat} {b x : Bytes} (h : Within limit (b ++ x))
    (hb : Unfinished b) : Message.extract limit b = .incomplete := by
  by_cases hshort : b.length < 4
  · exact Message.extract_of_short hshort
  have hfour : 4 ≤ b.length := Nat.le_of_not_lt hshort
  have hlt := hb hfour
  have hstart : (b ++ x).take 4 = b.take 4 := List.take_append_of_le_length hfour
  have hle : Bytes.toNatLE (b.take 4) + 4 ≤ limit := by
    by_cases hrest : Unfinished (b ++ x)
    · have hle := h.rest_le
      rw [unitsOf_of_unfinished hrest, hstart, List.length_append] at hle
      exact hle (by omega)
    · obtain ⟨u, y, hu, heq⟩ := exists_unit_of_not_unfinished hrest
      rw [heq] at h hstart
      obtain ⟨hule, -⟩ := h.of_unit hu
      rw [← hstart, List.take_append_of_le_length hu.four_le, hu.length_eq]
      exact hule
  rw [Message.extract_eq hfour, if_neg (by omega), if_pos hlt]

namespace Inbox

/-- The results of `n` calls for the next message. -/
def receives : Nat → Inbox → Source → List (Except CallError Message) × Inbox × Source
  | 0, i, s => ([], i, s)
  | n + 1, i, s =>
    let (r, i', s') := i.receive s
    let (rs, last) := receives n i' s'
    (r :: rs, last)

variable {limit : Nat} {b : Bytes} {s s' : Source}

/-- A unit that is there in whole is handed out. -/
theorem receive_unit {u : Bytes} (hu : IsUnit u) (hlimit : u.length ≤ limit) (x : Bytes) (s : Source) :
    (Inbox.mk limit (u ++ x)).receive s = (Message.readUnit u, ⟨limit, x⟩, s) := by
  have hextract := Message.extract_unit hu hlimit x
  rw [receive, next]
  unfold Message.readUnit
  rcases hunit : Message.ofUnit u with reason | m <;> rw [hunit] at hextract <;> simp only [hextract] <;> rfl

/-- What a read makes of an inbox from which nothing can be extracted. -/
theorem receive_of_incomplete (hb : Message.extract limit b = .incomplete) (s : Source) :
    (Inbox.mk limit b).receive s = match s.read chunkSize with
      | (.ok [], s') => (.error .channelClosed, ⟨limit, b⟩, s')
      | (.ok chunk, s') => (Inbox.mk limit (b ++ chunk)).receive s'
      | (.error f, s') =>
        if f.kind = .interrupted then (Inbox.mk limit b).receive s'
        else (.error (.fault f), ⟨limit, b⟩, s') := by
  have hnext : (Inbox.mk limit b).next = (.ok none, ⟨limit, b⟩) := by
    rw [next]
    simp only [hb]
  rw [receive]
  simp only [hnext]
  split <;> simp_all [feed]

/-- The results of calls depend on an inbox and a source through the first of them. -/
theorem receives_congr {i i' : Inbox} (h : i.receive s = i'.receive s') (n : Nat) :
    i.receives (n + 1) s = i'.receives (n + 1) s' := by
  rw [receives, receives, h]

end Inbox

/-! ## What a read does -/

namespace Source

variable {limit : Nat} {s s' : Source}

/-- A source without empty items reads as ended when it has nothing left. -/
theorem of_read_nil (hlimit : 0 < limit) (hitems : ∀ data, Supply.bytes data ∈ s.items → data ≠ [])
    (h : s.read limit = (.ok [], s')) : s = ⟨[], []⟩ ∧ s' = ⟨[], []⟩ := by
  have htake : ∀ data : Bytes, data.take limit = [] → data = [] := by
    intro data hdata
    obtain hzero | hnil := List.take_eq_nil_iff.mp hdata
    · omega
    · exact hnil
  obtain ⟨current, items⟩ := s
  rcases current with _ | ⟨c, cs⟩
  · rcases items with _ | ⟨data | f, rest⟩
    · cases h
      exact ⟨rfl, rfl⟩
    · simp only [read, Prod.mk.injEq, Except.ok.injEq] at h
      exact absurd (htake data h.1) (hitems data List.mem_cons_self)
    · cases h
  · simp only [read, Prod.mk.injEq, Except.ok.injEq] at h
    cases htake _ h.1

/-- The bytes of a read come from the front of what a source has left. -/
theorem of_read_ok {chunk : Bytes} (hne : chunk ≠ []) (h : s.read limit = (.ok chunk, s')) :
    (∀ b, results (b ++ s.current) s.items = results (b ++ chunk ++ s'.current) s'.items) ∧
      s.current ++ supplied s.items = chunk ++ (s'.current ++ supplied s'.items) ∧
      s'.items ⊆ s.items := by
  obtain ⟨current, items⟩ := s
  rcases current with _ | ⟨c, cs⟩
  · rcases items with _ | ⟨data | f, rest⟩
    · cases h
      exact absurd rfl hne
    · cases h
      refine ⟨fun b => ?_, ?_, List.subset_cons_self _ _⟩
      · rw [List.append_assoc, List.take_append_drop, List.append_nil, results]
      · rw [← List.append_assoc, List.take_append_drop]
        rfl
    · cases h
  · cases h
    refine ⟨fun b => ?_, ?_, List.Subset.refl _⟩
    · rw [List.append_assoc, List.take_append_drop]
    · rw [← List.append_assoc, List.take_append_drop]

/-- A failed read takes the item that says so. -/
theorem of_read_error {f : Fault} (h : s.read limit = (.error f, s')) :
    s = ⟨[], .fault f :: s'.items⟩ ∧ s'.current = [] := by
  obtain ⟨current, items⟩ := s
  rcases current with _ | ⟨c, cs⟩
  · rcases items with _ | ⟨data | g, rest⟩
    · cases h
    · cases h
    · cases h
      exact ⟨rfl, rfl⟩
  · cases h

end Source

namespace Inbox

variable {limit : Nat} {b : Bytes} {s s' : Source}

theorem receives_succ {i i' : Inbox} {r : Except CallError Message} (h : i.receive s = (r, i', s'))
    (n : Nat) : i.receives (n + 1) s = (r :: (i'.receives n s').1, (i'.receives n s').2) := by
  rw [receives, h]

/-- A failed read adds a result of its own, or none, to those of the reads behind it. -/
theorem receives_fault {f : Fault} {items : List Supply} {last : Inbox × Source} (hb : Unfinished b)
    (hextract : Message.extract limit b = .incomplete)
    (hrest : (Inbox.mk limit b).receives ((results b items).length + 1) ⟨[], items⟩
      = (results b items ++ [.error .channelClosed], last)) :
    (Inbox.mk limit b).receives ((results b (.fault f :: items)).length + 1) ⟨[], .fault f :: items⟩
      = (results b (.fault f :: items) ++ [.error .channelClosed], last) := by
  have hreceive : (Inbox.mk limit b).receive ⟨[], .fault f :: items⟩
      = if f.kind = .interrupted then (Inbox.mk limit b).receive ⟨[], items⟩
        else (.error (.fault f), ⟨limit, b⟩, ⟨[], items⟩) :=
    receive_of_incomplete hextract _
  rw [results]
  by_cases hkind : f.kind = .interrupted
  · rw [if_pos hkind] at hreceive ⊢
    rw [receives_congr hreceive, hrest]
  · rw [if_neg hkind] at hreceive ⊢
    rw [decode_of_unfinished hb, unitsOf_of_unfinished hb, List.nil_append, List.length_cons,
      receives_succ hreceive, hrest, List.cons_append]

/-- Until the end of its source, and with it, an inbox gives the results of the bytes in it and of those to
come; then it is left with the start of the last unit. -/
theorem receives_results {limit : Nat} {b : Bytes} {s : Source}
    (hitems : ∀ data, Supply.bytes data ∈ s.items → data ≠ [])
    (hw : Within limit (b ++ (s.current ++ supplied s.items))) :
    (Inbox.mk limit b).receives ((results (b ++ s.current) s.items).length + 1) s
      = (results (b ++ s.current) s.items ++ [.error .channelClosed],
          ⟨limit, (unitsOf (b ++ (s.current ++ supplied s.items))).2⟩, ⟨[], []⟩) := by
  by_cases hb : Unfinished b
  · -- nothing can be handed out before the next read
    have hextract := hw.extract_incomplete hb
    have hreceive := receive_of_incomplete hextract s
    rcases hread : s.read chunkSize with ⟨f | _ | ⟨c, cs⟩, s'⟩ <;> rw [hread] at hreceive
    · -- the read fails
      have hload := Source.load_read_error hread
      obtain ⟨hs, hcurrent⟩ := Source.of_read_error hread
      obtain ⟨current, items⟩ := s'
      obtain rfl : current = [] := hcurrent
      rw [hs] at hitems hw ⊢
      have ih := receives_results (fun data hdata => hitems data (List.mem_cons_of_mem _ hdata)) hw
      rw [List.append_nil] at ih ⊢
      exact receives_fault hb hextract ih
    · -- the source has ended
      obtain ⟨rfl, rfl⟩ := Source.of_read_nil (by decide) hitems hread
      simp only [List.append_nil, results, supplied, decode_of_unfinished hb, unitsOf_of_unfinished hb]
      exact receives_succ hreceive 0
    · -- the read gives bytes
      have hload := Source.load_read_ok hread
      obtain ⟨hresults, hbytes, hsub⟩ := Source.of_read_ok (List.cons_ne_nil c cs) hread
      rw [hbytes, ← List.append_assoc] at hw
      have ih := receives_results (fun data hdata => hitems data (hsub hdata)) hw
      rw [hbytes, ← List.append_assoc, hresults, receives_congr hreceive, ih]
  · -- a unit is there in whole
    obtain ⟨u, x, hu, hbx⟩ := exists_unit_of_not_unfinished hb
    have hfour := hu.four_le
    rw [hbx, List.append_assoc] at hw
    obtain ⟨hule, hx⟩ := hw.of_unit hu
    have ih := receives_results hitems hx
    rw [hbx, List.append_assoc, List.append_assoc, results_unit hu, List.length_cons,
      receives_succ (receive_unit hu hule x s), ih, unitsOf_unit hu, List.cons_append]
termination_by (s.load, b.length)
decreasing_by
  · exact Prod.Lex.left _ _ hload
  · exact Prod.Lex.left _ _ hload
  · refine Prod.Lex.right _ ?_
    rw [hbx, List.length_append]
    omega

end Inbox

/-! ## The law of reading -/

/-- However a byte string comes in reads, calls for the next message give the results of the byte string in
one piece, one for each unit in order, an error if its header is bad, or else the message that has its bytes;
then they tell that the channel is closed, and leave the bytes behind the last unit.  Of the reads that fail
an interrupted one makes no difference, and any other adds its own error behind the results of what was read
before it. -/
theorem receives_eq_decode {limit : Nat} {w : Bytes} (hw : Within limit w) {items : List Supply}
    (hitems : ∀ data, Supply.bytes data ∈ items → data ≠ []) (hbytes : supplied items = w) :
    ∃ us t, Units w us t ∧
      (∀ u ∈ us, Message.ReadAs u (Message.readUnit u)) ∧
      (Inbox.mk limit w).receives (us.length + 1) ⟨[], []⟩
        = (us.map Message.readUnit ++ [.error .channelClosed], ⟨limit, t⟩, ⟨[], []⟩) ∧
      (Inbox.mk limit []).receives ((results [] items).length + 1) ⟨[], items⟩
        = (results [] items ++ [.error .channelClosed], ⟨limit, t⟩, ⟨[], []⟩) ∧
      (Inbox.mk limit t).discard.1 = t.length ∧
      (results [] items).filter (! isFault ·) = us.map Message.readUnit ∧
      (results [] items).filter isFault = (faults items).map (.error ∘ .fault) ∧
      results [] (items.filter (! ·.isInterrupted)) = results [] items ∧
      ∀ before f after, items = before ++ .fault f :: after → f.kind ≠ .interrupted → ∃ rs,
        results [] (before ++ after) = results [] before ++ rs ∧
        results [] items = results [] before ++ .error (.fault f) :: rs := by
  have hwhole := Inbox.receives_results (s := ⟨[], []⟩) (by simp) (by simpa [supplied] using hw)
  have hcut := Inbox.receives_results (b := []) (s := ⟨[], items⟩) hitems (by simpa [hbytes] using hw)
  simp only [List.append_nil, List.nil_append, supplied, hbytes, results] at hwhole hcut
  refine ⟨(unitsOf w).1, (unitsOf w).2, units_unitsOf w, fun u _ => Message.readAs_readUnit u, ?_, hcut, rfl, ?_,
    filter_isFault_results [] items, results_filter_interrupted [] items, ?_⟩
  · have hlength : (decode w).length = (unitsOf w).1.length := List.length_map _
    rw [hlength] at hwhole
    exact hwhole
  · rw [filter_not_isFault_results, List.nil_append, hbytes]
    rfl
  · rintro before f after rfl hkind
    exact results_fault hkind [] before after

/-- A unit that is too short for a message. -/
def shortUnit : Bytes :=
  Bytes.ofNatLE 4 2 ++ [7, 7]

/-- A notice without a body. -/
def bareNotice : Bytes :=
  Bytes.ofNatLE 4 16 ++ Value.integer 4 16 ++ Value.integer 4 9 ++ Bytes.ofWordBE 0

/-- A unit, a notice and the start of another one, cut within the notice's length and its command, with
reads that fail in between. -/
def cutReads : List Supply :=
  [.bytes (shortUnit ++ bareNotice.take 2), .fault ⟨.interrupted, ""⟩, .bytes ((bareNotice.drop 2).take 9),
    .fault ⟨.timedOut, "slow"⟩, .bytes (bareNotice.drop 11 ++ bareNotice.take 3)]

theorem receives_eq_decode_cutReads :
    Within 20 (shortUnit ++ bareNotice ++ bareNotice.take 3) ∧
      (∀ data, Supply.bytes data ∈ cutReads → data ≠ []) ∧
      supplied cutReads = shortUnit ++ bareNotice ++ bareNotice.take 3 ∧
      ∃ us t, Units (shortUnit ++ bareNotice ++ bareNotice.take 3) us t ∧
        (Inbox.mk 20 []).receives ((results [] cutReads).length + 1) ⟨[], cutReads⟩
          = (results [] cutReads ++ [.error .channelClosed], ⟨20, t⟩, ⟨[], []⟩) ∧
        (results [] cutReads).filter (! isFault ·) = us.map Message.readUnit := by
  have hw : Within 20 (shortUnit ++ bareNotice ++ bareNotice.take 3) := by
    decide +kernel
  have hitems : ∀ data, Supply.bytes data ∈ cutReads → data ≠ [] := by
    simp [cutReads, shortUnit, bareNotice, Bytes.ofNatLE]
  obtain ⟨us, t, hunits, -, -, hreceives, -, hfilter, -⟩ := receives_eq_decode hw hitems rfl
  exact ⟨hw, hitems, rfl, us, t, hunits, hreceives, hfilter⟩

/-- The results in this case. -/
example : results [] cutReads = [.error (.malformed "length shorter than header"),
    .error (.fault ⟨.timedOut, "slow"⟩), .ok ⟨16, 16, 9, 0, []⟩] := by
  decide +kernel

end Wwan
