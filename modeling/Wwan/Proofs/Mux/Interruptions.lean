import Mathlib.Algebra.GroupWithZero.Nat
import Wwan.Proofs.Mux.Chores

/-!
# Interrupted calls

A read or a write that is interrupted is made again, so it leaves no trace.  A flush is not: an interrupted
flush stops the uplink, and on the downlink it makes a packet count as dropped that the tunnel has taken.

Two bridges whose reads and writes differ in interruptions alone do the same until a flush comes out differently.
So they do the same altogether if and only if the flushes that are asked for come to the same: on the uplink each
of them, on the downlink those that tell that the tunnel is gone, and what is counted for the others
(`interruptions_unseen_iff`).
-/

namespace Wwan

namespace Score

/-- Counts a packet of `n` bytes that was flushed with this outcome. -/
def after (n : Nat) : Option Fault → Score → Score
  | none, s => s.count n
  | some _, s => s.drop

/-- The number of things that were counted, carried or dropped. -/
def total (s : Score) : Nat :=
  s.packets + s.dropped

theorem total_after (s : Score) (n : Nat) (outcome : Option Fault) : (s.after n outcome).total = s.total + 1 := by
  cases outcome with
  | none => exact Nat.succ_add s.packets s.dropped
  | some f => rfl

end Score

namespace Bridge

/-! ## Reading -/

def isInterrupted : Except Fault Bytes → Bool
  | .error f => f.isInterruption
  | .ok _ => false

theorem snd_readUnit (s : Source) : (readUnit s).2 = (s.read readSize).2 := by
  unfold readUnit
  split <;> simp_all

theorem load_read_lt {s : Source} (hdry : ¬s.isDry) : (s.read readSize).2.load < s.load := by
  rw [← snd_readUnit]
  exact load_readUnit_lt hdry rfl

/-- What the reads from a source give, one after the other, until it has nothing more. -/
def reads (s : Source) : List (Except Fault Bytes) :=
  if _h : s.isDry then [] else (s.read readSize).1 :: reads (s.read readSize).2
termination_by s.load
decreasing_by exact load_read_lt _h

/-- The units among what reads give, and why they stop. -/
def gist : List (Except Fault Bytes) → List Bytes × Option FrameError
  | [] => ([], none)
  | .ok [] :: _ => ([], some .closed)
  | .ok (x :: xs) :: rest => ((x :: xs) :: (gist rest).1, (gist rest).2)
  | .error f :: rest => if f.isInterruption then gist rest else ([], some (.fault f))

/-- Interrupted reads do not matter. -/
theorem gist_filter (rs : List (Except Fault Bytes)) : gist (rs.filter (!isInterrupted ·)) = gist rs := by
  induction rs with
  | nil => rfl
  | cons r rest ih =>
    rcases r with f | _ | ⟨x, xs⟩
    · by_cases hf : f.isInterruption
      · rw [List.filter_cons_of_neg (by simp [isInterrupted, hf]), ih, gist, if_pos hf]
      · rw [List.filter_cons_of_pos (by simp [isInterrupted, hf]), gist, gist, if_neg hf, if_neg hf]
    · rfl
    · rw [List.filter_cons_of_pos rfl, gist, gist, ih]

theorem intake_eq (s : Source) :
    ((intake s).units, (intake s).stop) = gist (reads s) := by
  fun_induction reads with
  | case1 s hdry => rw [intake_dry hdry, gist]
  | case2 s hdry ih =>
    rcases hread : s.read readSize with ⟨f | _ | ⟨x, xs⟩, s'⟩
    · by_cases hf : f.isInterruption
      · have hagain : readUnit s = (.again, s') := by
          rw [readUnit, hread]
          dsimp only
          rw [if_pos (of_decide_eq_true hf)]
        rw [hread] at ih
        rw [intake_again hdry hagain, gist, if_pos hf]
        exact ih
      · have hstop : readUnit s = (.stop (.fault f), s') := by
          rw [readUnit, hread]
          dsimp only
          rw [if_neg (fun h => hf (decide_eq_true h))]
        rw [intake_stop hdry hstop, gist, if_neg hf]
    · have hstop : readUnit s = (.stop .closed, s') := by rw [readUnit, hread]
      rw [intake_stop hdry hstop, gist]
    · have hunit : readUnit s = (.unit (x :: xs), s') := by rw [readUnit, hread]
      rw [hread] at ih
      rw [intake_unit hdry hunit, gist, ← ih]

/-! ## Writing -/

section Write

/-- Why a unit is refused of which a write has taken this many octets. -/
def shortfall (unit : Bytes) (n : Nat) : Option FrameError :=
  if n = 0 then some .closed
  else if n = unit.length then none
  else some (.fault ⟨.other, s!"short write: {n} of {unit.length} bytes"⟩)

/-- Why a unit is refused where this is the answer to its write. -/
def refusal (unit : Bytes) : Option Uptake → Option FrameError
  | none => shortfall unit unit.length
  | some (.atMost n) => shortfall unit (min n unit.length)
  | some (.fault f) => some (.fault f)

/-- What is taken of a unit where this is the answer to its write. -/
def piece (unit : Bytes) : Option Uptake → Bytes
  | none => unit
  | some (.atMost n) => unit.take n
  | some (.fault _) => []

/-- A flush, and what it comes to. -/
def settle (s : Sink) : Except FrameError Unit × Sink :=
  (s.flush.1.mapError .fault, s.flush.2)

/-- A write of a unit comes to this when the unit is refused, or else to what the flush comes to. -/
def conclude (refusal : Option FrameError) (s : Sink) : Except FrameError Unit × Sink :=
  match refusal with
  | some e => (.error e, s)
  | none => settle s

theorem writeUnit_of_ok {unit : Bytes} {s s' : Sink} {n : Nat} (h : s.write unit = (.ok n, s')) :
    writeUnit unit s = conclude (shortfall unit n) s' := by
  rw [writeUnit.eq_def]
  split
  · next heq =>
    obtain ⟨hn, rfl⟩ := Prod.mk.inj (h.symm.trans heq)
    cases hn
    unfold shortfall
    split
    · rfl
    · split <;> rfl
  · next heq => cases h.symm.trans heq

theorem writeUnit_of_error {unit : Bytes} {s s' : Sink} {f : Fault} (h : s.write unit = (.error f, s')) :
    writeUnit unit s = if f.isInterruption then writeUnit unit s' else (.error (.fault f), s') := by
  rw [writeUnit.eq_def]
  split
  · next heq => cases h.symm.trans heq
  · next heq =>
    obtain ⟨hf, rfl⟩ := Prod.mk.inj (h.symm.trans heq)
    cases hf
    simp [Fault.isInterruption]

/-- Only the first answer that is no interruption decides. -/
theorem writeUnit_eq (unit : Bytes) (s : Sink) :
    ∃ rest, Uptake.lasting rest = (Uptake.lasting s.writes).tail ∧
      writeUnit unit s = conclude (refusal unit (Uptake.lasting s.writes).head?)
        ({ s with writes := rest }.record (piece unit (Uptake.lasting s.writes).head?)) := by
  obtain ⟨writes, flushes, taken, flushed⟩ := s
  induction writes with
  | nil => exact ⟨[], rfl, writeUnit_of_ok rfl⟩
  | cons answer rest ih =>
    cases answer with
    | atMost n => exact ⟨rest, rfl, writeUnit_of_ok rfl⟩
    | fault f =>
      have hwrite := @writeUnit_of_error unit ⟨.fault f :: rest, flushes, taken, flushed⟩ _ _ rfl
      by_cases hf : f.isInterruption
      · have hlasting : Uptake.lasting (.fault f :: rest) = Uptake.lasting rest :=
          List.filter_cons_of_neg (by simp [Uptake.isInterruption, hf])
        rw [if_pos hf] at hwrite
        rw [hwrite, hlasting]
        exact ih
      · have hlasting : Uptake.lasting (.fault f :: rest) = .fault f :: Uptake.lasting rest :=
          List.filter_cons_of_pos (by simp [Uptake.isInterruption, hf])
        rw [if_neg hf] at hwrite
        rw [hwrite, hlasting]
        exact ⟨rest, rfl, rfl⟩

end Write

/-- Two sinks that have taken the same, and answer their writes the same but for interruptions. -/
structure Agree (s s' : Sink) : Prop where
  lasting_eq : Uptake.lasting s'.writes = Uptake.lasting s.writes
  taken_eq : s'.taken = s.taken

theorem Agree.symm {s s' : Sink} (h : Agree s s') : Agree s' s :=
  ⟨h.lasting_eq.symm, h.taken_eq.symm⟩

/-- A sink that has been written to, but not flushed. -/
structure Unflushed (s t : Sink) : Prop where
  flushes_eq : t.flushes = s.flushes
  flushed_eq : t.flushed = s.flushed

theorem unflushed_record (s : Sink) (writes : List Uptake) (data : Bytes) :
    Unflushed s ({ s with writes := writes }.record data) := by
  unfold Sink.record
  split <;> exact ⟨rfl, rfl⟩

theorem taken_record_congr {s s' : Sink} (h : s'.taken = s.taken) (writes writes' : List Uptake)
    (data : Bytes) :
    ({ s' with writes := writes' }.record data).taken = ({ s with writes := writes }.record data).taken := by
  unfold Sink.record
  split
  · exact h
  · exact congrArg (· ++ [data]) h

/-- A write of a unit is refused, or comes to what the flush behind it comes to. -/
theorem exists_conclude (unit : Bytes) (s : Sink) :
    ∃ refusal t, Unflushed s t ∧ writeUnit unit s = conclude refusal t := by
  obtain ⟨rest, -, hwrite⟩ := writeUnit_eq unit s
  exact ⟨_, _, unflushed_record _ _ _, hwrite⟩

/-- Sinks that agree do the same to a unit before it is flushed, and agree then. -/
theorem Agree.write {s s' : Sink} (h : Agree s s') (unit : Bytes) :
    ∃ refusal t t', Agree t t' ∧ Unflushed s t ∧ Unflushed s' t' ∧
      writeUnit unit s = conclude refusal t ∧ writeUnit unit s' = conclude refusal t' := by
  obtain ⟨rest, hrest, hwrite⟩ := writeUnit_eq unit s
  obtain ⟨rest', hrest', hwrite'⟩ := writeUnit_eq unit s'
  rw [h.lasting_eq] at hrest' hwrite'
  refine ⟨_, _, _, ⟨?_, ?_⟩, unflushed_record _ _ _, unflushed_record _ _ _, hwrite, hwrite'⟩
  · rw [Sink.record_writes, Sink.record_writes]
    exact hrest'.trans hrest.symm
  · exact taken_record_congr h.taken_eq _ _ _

/-! ## Flushing -/

/-- What so many flushes come to where this is planned; behind the end of the plan they succeed. -/
def outcomes : Nat → List (Option Fault) → List (Option Fault)
  | 0, _ => []
  | n + 1, plan => plan.head?.join :: outcomes n plan.tail

/-- A sink behind a flush. -/
structure Flushed (s t : Sink) : Prop where
  writes_eq : t.writes = s.writes
  taken_eq : t.taken = s.taken
  flushes_eq : t.flushes = s.flushes.tail
  flushed_eq : t.flushed = s.flushed + s.flushes.head?.join.elim 1 fun _ => 0

theorem settle_of_none {s : Sink} (h : s.flushes.head?.join = none) :
    ∃ t, settle s = (.ok (), t) ∧ Flushed s t := by
  obtain ⟨writes, flushes, taken, flushed⟩ := s
  rcases flushes with _ | ⟨_ | f, rest⟩
  · exact ⟨_, rfl, rfl, rfl, rfl, rfl⟩
  · exact ⟨_, rfl, rfl, rfl, rfl, rfl⟩
  · cases h

/-- A flush that fails uses up a part of the plan. -/
theorem settle_of_some {s : Sink} {f : Fault} (h : s.flushes.head?.join = some f) :
    ∃ t, settle s = (.error (.fault f), t) ∧ Flushed s t ∧ t.flushes.length < s.flushes.length := by
  obtain ⟨writes, flushes, taken, flushed⟩ := s
  rcases flushes with _ | ⟨_ | g, rest⟩
  · cases h
  · cases h
  · cases h
    exact ⟨_, rfl, ⟨rfl, rfl, rfl, rfl⟩, Nat.lt_succ_self _⟩

theorem Agree.flushed {s s' t t' : Sink} (h : Agree s s') (hs : Flushed s t) (hs' : Flushed s' t') :
    Agree t t' := by
  constructor
  · rw [hs.writes_eq, hs'.writes_eq, h.lasting_eq]
  · rw [hs.taken_eq, hs'.taken_eq, h.taken_eq]

/-! ## Doing chores -/

/-- The sizes of the packets whose flush is asked for while chores are done, one after the other.  Of the writes
that fail those got to the flush that have used up a part of the plan for flushes. -/
def asked (ends : FrameError → Bool) : List Chore → Sink → List Nat
  | [], _ => []
  | .drop :: rest, sink => asked ends rest sink
  | .stop _ :: _, _ => []
  | .write unit size :: rest, sink =>
    match writeUnit unit sink with
    | (.ok (), sink') => size :: asked ends rest sink'
    | (.error e, sink') =>
      (if sink'.flushes.length < sink.flushes.length then [size] else [])
        ++ if ends e then [] else asked ends rest sink'

/-- The failure of a flush that ends a direction; any other one is the same to it. -/
def verdict (ends : FrameError → Bool) (outcome : Option Fault) : Option Fault :=
  outcome.filter fun f => ends (.fault f)

/-- The sizes of those packets for which the flush succeeds. -/
def carried : List Nat → List (Option Fault) → List Nat
  | size :: sizes, none :: outcomes => size :: carried sizes outcomes
  | _ :: sizes, some _ :: outcomes => carried sizes outcomes
  | _, _ => []

section Work

variable {ends : FrameError → Bool} {unit : Bytes} {size : Nat} {rest : List Chore} {s t : Sink}

theorem verdict_eq_some {outcome : Option Fault} {f : Fault} :
    verdict ends outcome = some f ↔ outcome = some f ∧ ends (.fault f) :=
  Option.filter_eq_some_iff

/-- A unit that is refused is not flushed. -/
theorem asked_refused {e : FrameError} (hwrite : writeUnit unit s = (.error e, t))
    (hflushes : t.flushes = s.flushes) :
    asked ends (.write unit size :: rest) s = if ends e then [] else asked ends rest t := by
  have hkept : ¬t.flushes.length < s.flushes.length := by rw [hflushes]; exact Nat.lt_irrefl _
  rw [asked, hwrite]
  dsimp only
  rw [if_neg hkept, List.nil_append]

section Settle

variable (hwrite : writeUnit unit s = settle t) (hflushes : t.flushes = s.flushes)
include hwrite hflushes

/-- The direction ends with a flush that fails in this way. -/
theorem work_ends {f : Fault} (hverdict : verdict ends t.flushes.head?.join = some f) (score : Score) :
    ∃ u, Flushed t u ∧ work ends (.write unit size :: rest) s score = ⟨some (.fault f), u, score⟩ ∧
      asked ends (.write unit size :: rest) s = [size] := by
  obtain ⟨houtcome, hends⟩ := verdict_eq_some.mp hverdict
  obtain ⟨u, hsettle, hflushed, hlt⟩ := settle_of_some houtcome
  rw [hsettle] at hwrite
  refine ⟨u, hflushed, work_write_ends hwrite hends, ?_⟩
  rw [asked, hwrite]
  dsimp only
  rw [if_pos (hflushes ▸ hlt), if_pos hends, List.append_nil]

/-- The direction goes on behind any other flush, and counts the packet. -/
theorem work_goesOn (hverdict : verdict ends t.flushes.head?.join = none) (score : Score) :
    ∃ u, Flushed t u ∧
      work ends (.write unit size :: rest) s score = work ends rest u (score.after size t.flushes.head?.join) ∧
      asked ends (.write unit size :: rest) s = size :: asked ends rest u := by
  rcases houtcome : t.flushes.head?.join with _ | f
  · obtain ⟨u, hsettle, hflushed⟩ := settle_of_none houtcome
    rw [hsettle] at hwrite
    refine ⟨u, hflushed, work_write_ok hwrite, ?_⟩
    rw [asked, hwrite]
  · have hends : ¬ends (.fault f) := by
      intro hends
      rw [verdict_eq_some.mpr ⟨houtcome, hends⟩] at hverdict
      cases hverdict
    obtain ⟨u, hsettle, hflushed, hlt⟩ := settle_of_some houtcome
    rw [hsettle] at hwrite
    refine ⟨u, hflushed, work_write_drops hwrite hends, ?_⟩
    rw [asked, hwrite]
    dsimp only
    rw [if_pos (hflushes ▸ hlt), if_neg hends]
    rfl

end Settle

/-- What was counted stays counted. -/
theorem total_le_work (chores : List Chore) (s : Sink) (score : Score) :
    score.total ≤ (work ends chores s score).score.total := by
  induction chores generalizing s score with
  | nil => exact Nat.le_refl _
  | cons chore rest ih =>
    cases chore with
    | drop => exact (Nat.le_succ _).trans (ih s score.drop)
    | stop e => exact Nat.le_refl _
    | write unit size =>
      rcases hwrite : writeUnit unit s with ⟨e | ⟨⟩, s'⟩
      · by_cases hends : ends e
        · rw [work_write_ends hwrite hends]
        · rw [work_write_drops hwrite hends]
          exact (Nat.le_succ _).trans (ih s' score.drop)
      · have hrest := ih s' (score.after size none)
        rw [Score.total_after] at hrest
        rw [work_write_ok hwrite]
        exact Nat.le_of_succ_le hrest

end Work

/-! ## Two runs -/

/-- Two runs in which nobody sees a difference. -/
structure Alike (d d' : Done) : Prop where
  stop_eq : d'.stop = d.stop
  taken_eq : d'.sink.taken = d.sink.taken
  score_eq : d'.score = d.score

/-- What flushes come to is the same for a direction: if it ends, it ends with the same one for the same failure,
and as many packets are flushed, of as many bytes in all. -/
structure Equivalent (ends : FrameError → Bool) (sizes : List Nat) (os os' : List (Option Fault)) : Prop where
  verdicts_eq : os'.map (verdict ends) = os.map (verdict ends)
  packets_eq : (carried sizes os').length = (carried sizes os).length
  bytes_eq : (carried sizes os').sum = (carried sizes os).sum

theorem Equivalent.refl (ends : FrameError → Bool) (sizes : List Nat) (os : List (Option Fault)) :
    Equivalent ends sizes os os :=
  ⟨rfl, rfl, rfl⟩

/-- If every failure ends the direction, all outcomes matter. -/
theorem equivalent_true {sizes : List Nat} {os os' : List (Option Fault)} :
    Equivalent (fun _ => true) sizes os os' ↔ os' = os := by
  have hid : verdict (fun _ => true) = id := by
    funext outcome
    cases outcome <;> rfl
  constructor
  · intro h
    have hverdicts := h.verdicts_eq
    rwa [hid, List.map_id, List.map_id] at hverdicts
  · rintro rfl
    exact .refl _ _ _

/-- The same for two scores from which the packets are counted. -/
structure Level (ends : FrameError → Bool) (sizes : List Nat) (os os' : List (Option Fault))
    (score score' : Score) : Prop where
  verdicts_eq : os'.map (verdict ends) = os.map (verdict ends)
  packets_eq : score'.packets + (carried sizes os').length = score.packets + (carried sizes os).length
  bytes_eq : score'.bytes + (carried sizes os').sum = score.bytes + (carried sizes os).sum

section Level

variable {ends : FrameError → Bool} {size : Nat} {sizes : List Nat} {o o' : Option Fault}
  {os os' : List (Option Fault)} {score score' : Score}

theorem level_self : Level ends sizes os os' score score ↔ Equivalent ends sizes os os' := by
  constructor
  · intro h
    exact ⟨h.verdicts_eq, Nat.add_left_cancel h.packets_eq, Nat.add_left_cancel h.bytes_eq⟩
  · intro h
    exact ⟨h.verdicts_eq, congrArg _ h.packets_eq, congrArg _ h.bytes_eq⟩

theorem level_nil (htotal : score'.total = score.total) :
    Level ends [] [] [] score score' ↔ score' = score := by
  constructor
  · intro h
    have hpackets : score'.packets = score.packets := h.packets_eq
    have hbytes : score'.bytes = score.bytes := h.bytes_eq
    -- as many were counted in all, so as many were dropped
    have hdropped : score'.dropped = score.dropped := by
      rw [Score.total, Score.total, hpackets] at htotal
      exact Nat.add_left_cancel htotal
    obtain ⟨packets, bytes, dropped⟩ := score
    obtain ⟨packets', bytes', dropped'⟩ := score'
    cases hpackets
    cases hbytes
    cases hdropped
    rfl
  · rintro rfl
    exact ⟨rfl, rfl, rfl⟩

/-- What is dropped on the way does not matter. -/
theorem level_drop : Level ends sizes os os' score.drop score'.drop ↔ Level ends sizes os os' score score' :=
  ⟨fun h => ⟨h.verdicts_eq, h.packets_eq, h.bytes_eq⟩, fun h => ⟨h.verdicts_eq, h.packets_eq, h.bytes_eq⟩⟩

theorem packets_after : (score.after size o).packets + (carried sizes os).length
    = score.packets + (carried (size :: sizes) (o :: os)).length := by
  cases o with
  | none => exact Nat.succ_add_eq_add_succ score.packets _
  | some f => rfl

theorem bytes_after : (score.after size o).bytes + (carried sizes os).sum
    = score.bytes + (carried (size :: sizes) (o :: os)).sum := by
  cases o with
  | none =>
    rw [carried, List.sum_cons]
    exact Nat.add_assoc score.bytes size _
  | some f => rfl

theorem level_cons : Level ends (size :: sizes) (o :: os) (o' :: os') score score' ↔
    verdict ends o' = verdict ends o ∧ Level ends sizes os os' (score.after size o) (score'.after size o') := by
  constructor
  · intro h
    obtain ⟨hhead, htail⟩ := List.cons_eq_cons.mp h.verdicts_eq
    refine ⟨hhead, htail, ?_, ?_⟩
    · rw [packets_after, packets_after, h.packets_eq]
    · rw [bytes_after, bytes_after, h.bytes_eq]
  · rintro ⟨hhead, h⟩
    refine ⟨List.cons_eq_cons.mpr ⟨hhead, h.verdicts_eq⟩, ?_, ?_⟩
    · rw [← packets_after, ← packets_after, h.packets_eq]
    · rw [← bytes_after, ← bytes_after, h.bytes_eq]

end Level

/-! ## What is flushed -/

/-- The flushes that are asked for between two moments of a sink, for packets of these sizes, and what is counted
for them. -/
structure Asks (sizes : List Nat) (s t : Sink) (score score' : Score) : Prop where
  flushes_eq : t.flushes = s.flushes.drop sizes.length
  flushed_eq : t.flushed = s.flushed + (carried sizes (outcomes sizes.length s.flushes)).length
  packets_eq : score'.packets = score.packets + (carried sizes (outcomes sizes.length s.flushes)).length
  bytes_eq : score'.bytes = score.bytes + (carried sizes (outcomes sizes.length s.flushes)).sum

section Asks

variable {size : Nat} {sizes : List Nat} {s t u : Sink} {score score' : Score}

theorem Asks.refl (s : Sink) (score : Score) : Asks [] s s score score :=
  ⟨rfl, rfl, rfl, rfl⟩

theorem length_carried_cons (o : Option Fault) (os : List (Option Fault)) :
    (carried (size :: sizes) (o :: os)).length = (o.elim 1 fun _ => 0) + (carried sizes os).length := by
  cases o with
  | none => exact Nat.add_comm _ 1
  | some f => exact (Nat.zero_add _).symm

/-- Nothing is asked before. -/
theorem Asks.of_unflushed (hs : Unflushed s t) (h : Asks sizes t u score score') : Asks sizes s u score score' := by
  obtain ⟨hflushes, hflushed, hpackets, hbytes⟩ := h
  rw [hs.flushes_eq] at hflushes hflushed hpackets hbytes
  rw [hs.flushed_eq] at hflushed
  exact ⟨hflushes, hflushed, hpackets, hbytes⟩

/-- A flush stands before the others. -/
theorem Asks.cons (hs : Flushed s t) (h : Asks sizes t u (score.after size s.flushes.head?.join) score') :
    Asks (size :: sizes) s u score score' := by
  obtain ⟨hflushes, hflushed, hpackets, hbytes⟩ := h
  rw [hs.flushes_eq] at hflushes hflushed hpackets hbytes
  rw [hs.flushed_eq] at hflushed
  rw [packets_after] at hpackets
  rw [bytes_after] at hbytes
  rw [Nat.add_assoc, ← length_carried_cons] at hflushed
  exact ⟨hflushes.trans List.drop_tail, hflushed, hpackets, hbytes⟩

/-- What is dropped on the way does not matter. -/
theorem Asks.drop (h : Asks sizes s t score.drop score') : Asks sizes s t score score' :=
  ⟨h.flushes_eq, h.flushed_eq, h.packets_eq, h.bytes_eq⟩

end Asks

theorem asks_work (ends : FrameError → Bool) (chores : List Chore) (s : Sink) (score : Score) :
    Asks (asked ends chores s) s (work ends chores s score).sink score (work ends chores s score).score := by
  induction chores generalizing s score with
  | nil => exact .refl s score
  | cons chore rest ih =>
    cases chore with
    | drop => exact (ih s score.drop).drop
    | stop e => exact .refl s score
    | write unit size =>
      obtain ⟨refusal, t, hs, hwrite⟩ := exists_conclude unit s
      refine Asks.of_unflushed hs ?_
      -- the unit is refused before it is flushed, or else the flush decides
      cases refusal with
      | some e =>
        rw [asked_refused hwrite hs.flushes_eq]
        by_cases hends : ends e
        · rw [work_write_ends hwrite hends, if_pos hends]
          exact .refl t score
        · rw [work_write_drops hwrite hends, if_neg hends]
          exact (ih t score.drop).drop
      | none =>
        rcases hverdict : verdict ends t.flushes.head?.join with _ | f
        · obtain ⟨u, hflushed, hwork, hasked⟩ := work_goesOn hwrite hs.flushes_eq hverdict score
          rw [hwork, hasked]
          exact .cons hflushed (ih u _)
        · obtain ⟨u, hflushed, hwork, hasked⟩ := work_ends hwrite hs.flushes_eq hverdict score
          rw [hwork, hasked]
          refine .cons hflushed ?_
          rw [(verdict_eq_some.mp hverdict).1]
          exact ⟨rfl, rfl, rfl, rfl⟩

section Two

variable {ends : FrameError → Bool}

/-- Sinks that agree are seen to do the same exactly if the flushes come to the same that the first one is asked
for.  The scores may differ on the way, as long as both have counted as many units. -/
def SeenByFlushes (ends : FrameError → Bool) (chores : List Chore) : Prop :=
  ∀ {s s' : Sink} {score score' : Score}, Agree s s' → score'.total = score.total →
    (Alike (work ends chores s score) (work ends chores s' score') ↔
      Level ends (asked ends chores s) (outcomes (asked ends chores s).length s.flushes)
        (outcomes (asked ends chores s).length s'.flushes) score score')

variable {unit : Bytes} {size : Nat} {rest : List Chore} {s s' t t' : Sink} {score score' : Score}

/-- Two runs that have ended in the same way. -/
theorem alike_ended (h : Agree s s') (htotal : score'.total = score.total) (stop : Option FrameError) :
    Alike ⟨stop, s, score⟩ ⟨stop, s', score'⟩ ↔ Level ends [] [] [] score score' := by
  rw [level_nil htotal]
  exact ⟨Alike.score_eq, fun hscore => ⟨rfl, h.taken_eq, hscore⟩⟩

/-- A direction that goes on counts the packet at whose flush the other one ends. -/
theorem score_ne_of_ends (htotal : score'.total = score.total) (u : Sink) (outcome : Option Fault) :
    (work ends rest u (score'.after size outcome)).score ≠ score := by
  intro heq
  have hle : (score'.after size outcome).total ≤ (work ends rest u (score'.after size outcome)).score.total :=
    total_le_work rest u _
  rw [heq, Score.total_after, htotal] at hle
  exact Nat.not_succ_le_self _ hle

theorem alike_settle_iff (hrest : SeenByFlushes ends rest) (h : Agree t t')
    (hwrite : writeUnit unit s = settle t) (hwrite' : writeUnit unit s' = settle t')
    (hflushes : t.flushes = s.flushes) (hflushes' : t'.flushes = s'.flushes)
    (htotal : score'.total = score.total) :
    Alike (work ends (.write unit size :: rest) s score) (work ends (.write unit size :: rest) s' score') ↔
      Level ends (asked ends (.write unit size :: rest) s)
        (outcomes (asked ends (.write unit size :: rest) s).length t.flushes)
        (outcomes (asked ends (.write unit size :: rest) s).length t'.flushes) score score' := by
  rcases hv : verdict ends t.flushes.head?.join with _ | f <;>
    rcases hv' : verdict ends t'.flushes.head?.join with _ | f'
  · -- both go on
    obtain ⟨u, hu, hwork, hasked⟩ := work_goesOn hwrite hflushes hv score
    obtain ⟨u', hu', hwork', -⟩ := work_goesOn hwrite' hflushes' hv' score'
    have htotals : (score'.after size t'.flushes.head?.join).total = (score.after size t.flushes.head?.join).total := by
      rw [Score.total_after, Score.total_after, htotal]
    rw [hwork, hwork', hasked, List.length_cons, outcomes, outcomes, level_cons, hv, hv', ← hu.flushes_eq,
      ← hu'.flushes_eq, hrest (h.flushed hu hu') htotals]
    exact (and_iff_right rfl).symm
  · -- one goes on and counts the packet at which the other one ends, so they count differently
    obtain ⟨u, hu, hwork, hasked⟩ := work_goesOn hwrite hflushes hv score
    obtain ⟨u', hu', hwork', -⟩ := work_ends hwrite' hflushes' hv' score'
    rw [hwork, hwork', hasked, List.length_cons, outcomes, outcomes, level_cons, hv, hv']
    refine iff_of_false (fun halike => ?_) (fun hlevel => nomatch hlevel.1)
    exact score_ne_of_ends htotal.symm u _ halike.score_eq.symm
  · obtain ⟨u, hu, hwork, hasked⟩ := work_ends hwrite hflushes hv score
    obtain ⟨u', hu', hwork', -⟩ := work_goesOn hwrite' hflushes' hv' score'
    rw [hwork, hwork', hasked, List.length_cons, outcomes, outcomes, level_cons, hv, hv']
    refine iff_of_false (fun halike => ?_) (fun hlevel => nomatch hlevel.1)
    exact score_ne_of_ends htotal u' _ halike.score_eq
  · -- both end, and are the same if it is for the same failure and they have counted the same before
    obtain ⟨u, hu, hwork, hasked⟩ := work_ends hwrite hflushes hv score
    obtain ⟨u', hu', hwork', -⟩ := work_ends hwrite' hflushes' hv' score'
    obtain ⟨houtcome, -⟩ := verdict_eq_some.mp hv
    obtain ⟨houtcome', -⟩ := verdict_eq_some.mp hv'
    have hended : ∀ stop, Alike ⟨stop, u, score⟩ ⟨stop, u', score'⟩ ↔ Level ends [] [] [] score score' :=
      alike_ended (h.flushed hu hu') htotal
    rw [hwork, hwork', hasked, List.length_cons, outcomes, outcomes, level_cons, hv, hv', houtcome, houtcome']
    constructor
    · intro halike
      have hstop := halike.stop_eq
      cases hstop
      exact ⟨rfl, level_drop.mpr ((hended _).mp halike)⟩
    · rintro ⟨heq, hlevel⟩
      cases heq
      exact (hended _).mpr (level_drop.mp hlevel)

theorem seenByFlushes (chores : List Chore) : SeenByFlushes ends chores := by
  intro s s' score score' h htotal
  -- on the chores; the scores are free, since a packet that one run counts as carried the other may have dropped
  induction chores generalizing s s' score score' with
  | nil => exact alike_ended h htotal none
  | cons chore rest ih =>
    cases chore with
    | drop => exact (ih h (congrArg (· + 1) htotal)).trans level_drop
    | stop e => exact alike_ended h htotal (some e)
    | write unit size =>
      obtain ⟨refusal, t, t', hagree, hs, hs', hwrite, hwrite'⟩ := h.write unit
      cases refusal with
      | some e =>
        rw [asked_refused hwrite hs.flushes_eq, ← hs.flushes_eq, ← hs'.flushes_eq]
        by_cases hends : ends e
        · rw [work_write_ends hwrite hends, work_write_ends hwrite' hends, if_pos hends]
          exact alike_ended hagree htotal (some e)
        · rw [work_write_drops hwrite hends, work_write_drops hwrite' hends, if_neg hends]
          exact (ih hagree (congrArg (· + 1) htotal)).trans level_drop
      | none =>
        rw [← hs.flushes_eq, ← hs'.flushes_eq]
        exact alike_settle_iff ih hagree hwrite hwrite' hs.flushes_eq hs'.flushes_eq htotal

end Two

/-! ## Disturbed bridges -/

/-- What reads from a source give other than that they are interrupted. -/
def lastingReads (s : Source) : List (Except Fault Bytes) :=
  (reads s).filter (!isInterrupted ·)

theorem lastingReads_of_read {s t : Source} {r : Except Fault Bytes} (hdry : ¬s.isDry)
    (hread : s.read readSize = (r, t)) :
    lastingReads s = if isInterrupted r then lastingReads t else r :: lastingReads t := by
  rw [lastingReads, reads, dif_neg hdry, hread, List.filter_cons]
  cases isInterrupted r <;> rfl

/-- The same read before reads that are the same but for interruptions. -/
theorem lastingReads_congr {s s' t t' : Source} {r : Except Fault Bytes} (hdry : ¬s.isDry) (hdry' : ¬s'.isDry)
    (hread : s.read readSize = (r, t)) (hread' : s'.read readSize = (r, t'))
    (h : lastingReads t = lastingReads t') : lastingReads s = lastingReads s' := by
  rw [lastingReads_of_read hdry hread, lastingReads_of_read hdry' hread', h]

/-- An interruption that is put among the items of a source adds no other read. -/
theorem lastingReads_insert {f : Fault} (hf : f.isInterruption) (current : Bytes) (items more : List Supply) :
    lastingReads ⟨current, items ++ .fault f :: more⟩ = lastingReads ⟨current, items ++ more⟩ := by
  rcases current with _ | ⟨x, xs⟩
  · have hdry : ∀ item rest, ¬(Source.mk [] (item :: rest)).isDry := by simp [Source.isDry]
    rcases items with _ | ⟨data | g, rest⟩
    · rw [List.nil_append, lastingReads_of_read (hdry _ _) rfl]
      exact if_pos hf
    · have hrest := lastingReads_insert hf (data.drop readSize) rest more
      exact lastingReads_congr (hdry _ _) (hdry _ _) rfl rfl hrest
    · have hrest := lastingReads_insert hf [] rest more
      exact lastingReads_congr (hdry _ _) (hdry _ _) rfl rfl hrest
  · have hdry : ∀ items, ¬(Source.mk (x :: xs) items).isDry := by simp [Source.isDry]
    have hlt : xs.length + 1 - readSize < xs.length + 1 := Nat.sub_lt (Nat.succ_pos _) (Nat.succ_pos _)
    have hrest := lastingReads_insert hf ((x :: xs).drop readSize) items more
    exact lastingReads_congr (hdry _) (hdry _) rfl rfl hrest
termination_by (items.length, current.length)

/-- What is taken in depends on the reads that are not interrupted. -/
theorem intake_congr {s s' : Source} (h : lastingReads s' = lastingReads s) :
    (intake s').units = (intake s).units ∧ (intake s').stop = (intake s).stop := by
  have hgist : gist (reads s') = gist (reads s) := by
    rw [← gist_filter (reads s'), ← gist_filter (reads s)]
    exact congrArg gist h
  rw [← intake_eq, ← intake_eq] at hgist
  exact Prod.mk.inj hgist

/-- A bridge that is the same as another, but for interruptions of its reads and writes and for what its
flushes do. -/
structure Disturbed (b b' : Bridge) : Prop where
  config_eq : b'.config = b.config
  sequence_eq : b'.sequence = b.sequence
  stats_eq : b'.stats = b.stats
  fromTunnel_eq : lastingReads b'.fromTunnel = lastingReads b.fromTunnel
  fromMux_eq : lastingReads b'.fromMux = lastingReads b.fromMux
  toTunnel : Agree b.toTunnel b'.toTunnel
  toMux : Agree b.toMux b'.toMux

/-- Two runs of a direction with the same units written, the same counters and the same error. -/
structure Unseen (r r' : Option FrameError × Bridge) : Prop where
  stop_eq : r'.1 = r.1
  toTunnel_eq : r'.2.toTunnel.taken = r.2.toTunnel.taken
  toMux_eq : r'.2.toMux.taken = r.2.toMux.taken
  stats_eq : r'.2.stats = r.2.stats

/-- The sizes of the packets for which the uplink flushes the mux channel. -/
def askedUp (b : Bridge) : List Nat :=
  asked (fun _ => true) b.todoUp b.toMux

/-- The sizes of the packets for which the downlink flushes the tunnel. -/
def askedDown (b : Bridge) : List Nat :=
  asked isGone (todoDown b.fromMux) b.toTunnel

theorem asks_drainUp (b : Bridge) :
    Asks b.askedUp b.toMux b.drainUp.2.toMux b.stats.up b.drainUp.2.stats.up := by
  obtain ⟨-, hsink, -, hstats⟩ := workedUp_drainUp b
  rw [hsink, hstats]
  exact asks_work _ b.todoUp b.toMux b.stats.up

theorem asks_drainDown (b : Bridge) :
    Asks b.askedDown b.toTunnel b.drainDown.2.toTunnel b.stats.down b.drainDown.2.stats.down := by
  obtain ⟨-, hsink, -, hstats⟩ := workedDown_drainDown b
  rw [hsink, hstats]
  exact asks_work isGone (todoDown b.fromMux) b.toTunnel b.stats.down

section Disturbed

variable {b b' : Bridge} (h : Disturbed b b')
include h

theorem Disturbed.todoUp_eq : b'.todoUp = b.todoUp := by
  obtain ⟨hunits, hstop⟩ := intake_congr h.fromTunnel_eq
  rw [todoUp, todoUp, Intake.chores, Intake.chores, hunits, hstop, h.config_eq, h.sequence_eq]

theorem Disturbed.todoDown_eq : todoDown b'.fromMux = todoDown b.fromMux := by
  obtain ⟨hunits, hstop⟩ := intake_congr h.fromMux_eq
  rw [todoDown, todoDown, Intake.chores, Intake.chores, hunits, hstop]

theorem Disturbed.unseen_iff_of_workedUp {d d' : Done} {r r' : Option FrameError × Bridge}
    (hup : WorkedUp b d r) (hup' : WorkedUp b' d' r') : Unseen r r' ↔ Alike d d' := by
  have hstats : r'.2.stats = r.2.stats ↔ d'.score = d.score := by
    rw [hup.stats_eq, hup'.stats_eq, h.stats_eq, BridgeStats.setUp_inj]
  constructor
  · rintro ⟨hstop, -, htaken, hcounted⟩
    rw [hup.stop_eq, hup'.stop_eq] at hstop
    rw [hup.toMux_eq, hup'.toMux_eq] at htaken
    exact ⟨hstop, htaken, hstats.mp hcounted⟩
  · rintro ⟨hstop, htaken, hscore⟩
    refine ⟨?_, ?_, ?_, hstats.mpr hscore⟩
    · rw [hup.stop_eq, hup'.stop_eq, hstop]
    · rw [hup.toTunnel_eq, hup'.toTunnel_eq, h.toTunnel.taken_eq]
    · rw [hup.toMux_eq, hup'.toMux_eq, htaken]

theorem Disturbed.unseen_iff_of_workedDown {d d' : Done} {r r' : Option FrameError × Bridge}
    (hdown : WorkedDown b d r) (hdown' : WorkedDown b' d' r') : Unseen r r' ↔ Alike d d' := by
  have hstats : r'.2.stats = r.2.stats ↔ d'.score = d.score := by
    rw [hdown.stats_eq, hdown'.stats_eq, h.stats_eq, BridgeStats.setDown_inj]
  constructor
  · rintro ⟨hstop, htaken, -, hcounted⟩
    rw [hdown.stop_eq, hdown'.stop_eq] at hstop
    rw [hdown.toTunnel_eq, hdown'.toTunnel_eq] at htaken
    exact ⟨hstop, htaken, hstats.mp hcounted⟩
  · rintro ⟨hstop, htaken, hscore⟩
    refine ⟨?_, ?_, ?_, hstats.mpr hscore⟩
    · rw [hdown.stop_eq, hdown'.stop_eq, hstop]
    · rw [hdown.toTunnel_eq, hdown'.toTunnel_eq, htaken]
    · rw [hdown.toMux_eq, hdown'.toMux_eq, h.toMux.taken_eq]

theorem Disturbed.unseen_drainUp_iff :
    Unseen b.drainUp b'.drainUp ↔
      outcomes b.askedUp.length b'.toMux.flushes = outcomes b.askedUp.length b.toMux.flushes := by
  have hup := workedUp_drainUp b
  have hup' := workedUp_drainUp b'
  rw [h.todoUp_eq, h.stats_eq] at hup'
  rw [h.unseen_iff_of_workedUp hup hup', seenByFlushes b.todoUp h.toMux rfl, level_self, askedUp, equivalent_true]

theorem Disturbed.unseen_drainDown_iff :
    Unseen b.drainDown b'.drainDown ↔
      Equivalent isGone b.askedDown (outcomes b.askedDown.length b.toTunnel.flushes)
        (outcomes b.askedDown.length b'.toTunnel.flushes) := by
  have hdown := workedDown_drainDown b
  have hdown' := workedDown_drainDown b'
  rw [h.todoDown_eq, h.stats_eq] at hdown'
  rw [h.unseen_iff_of_workedDown hdown hdown', seenByFlushes (todoDown b.fromMux) h.toTunnel rfl, level_self, askedDown]

end Disturbed

/-- Interruptions of reads and writes change nothing: the units written, the counters and the error of a
direction depend on its flushes alone.  The uplink is seen to do the same if and only if the flushes that it asks
for come out the same.  The downlink is if and only if the same ones tell, with the same failure, that the tunnel
is gone, and as many packets are flushed, of as many bytes in all; each other one was taken by the tunnel, and
counts as dropped. -/
theorem interruptions_unseen_iff {b b' : Bridge} (h : Disturbed b b') :
    Asks b.askedUp b.toMux b.drainUp.2.toMux b.stats.up b.drainUp.2.stats.up ∧
    Asks b.askedDown b.toTunnel b.drainDown.2.toTunnel b.stats.down b.drainDown.2.stats.down ∧
    (Unseen b.drainUp b'.drainUp ↔
      outcomes b.askedUp.length b'.toMux.flushes = outcomes b.askedUp.length b.toMux.flushes) ∧
    (Unseen b.drainDown b'.drainDown ↔
      Equivalent isGone b.askedDown (outcomes b.askedDown.length b.toTunnel.flushes)
        (outcomes b.askedDown.length b'.toTunnel.flushes)) ∧
    (b'.toMux.flushes = b.toMux.flushes → Unseen b.drainUp b'.drainUp) ∧
    (b'.toTunnel.flushes = b.toTunnel.flushes → Unseen b.drainDown b'.drainDown) := by
  refine ⟨asks_drainUp b, asks_drainDown b, h.unseen_drainUp_iff, h.unseen_drainDown_iff, fun hflushes => ?_,
    fun hflushes => ?_⟩
  · rw [h.unseen_drainUp_iff, hflushes]
  · rw [h.unseen_drainDown_iff, hflushes]
    exact .refl _ _ _

/-- What a signal does to a call. -/
def signal : Fault :=
  ⟨.interrupted, "signal"⟩

/-- A frame with two packets of two octets. -/
def twoPacketFrame : Bytes :=
  [0x41, 0x44, 0x42, 0x48, 0, 0, 3, 0, 72, 0, 0, 0, 40, 0, 0, 0] ++ Bytes.zeros 16
    ++ [0x45, 1, 0, 0, 0x60, 2, 0, 0] ++ [0x41, 0x44, 0x54, 0x48, 32, 0, 0, 0, 0, 0, 0, 0]
    ++ [0, 0, 0, 0, 16, 0, 0, 0, 18, 0, 0, 0, 36, 0, 0, 0, 2, 0, 0, 0]

/-- A packet goes up and two come down, of which the second one cannot be flushed. -/
def calmBridge : Bridge where
  fromTunnel := { items := [.bytes [0x45]] }
  fromMux := { items := [.bytes twoPacketFrame] }
  toTunnel := { flushes := [none, some ⟨.other, "busy"⟩] }

/-- The same with interrupted calls.  The first packet that comes down is dropped instead of the second one. -/
def disturbedBridge : Bridge where
  fromTunnel := { items := [.fault signal, .bytes [0x45], .fault signal] }
  fromMux := { items := [.fault signal, .fault signal, .bytes twoPacketFrame] }
  toTunnel := { writes := [.fault signal], flushes := [some signal, none, some ⟨.other, "busy"⟩] }
  toMux := { writes := [.fault signal, .fault signal] }

theorem interruptions_unseen_iff_calm :
    Disturbed calmBridge disturbedBridge ∧ Unseen calmBridge.drainUp disturbedBridge.drainUp ∧
      Unseen calmBridge.drainDown disturbedBridge.drainDown ∧ calmBridge.askedDown = [2, 2] ∧
      disturbedBridge.drainUp.2.stats = { packetsUp := 1, bytesUp := 1 } ∧
      disturbedBridge.drainDown.2.stats = { packetsDown := 1, bytesDown := 2, dropped := 1 } := by
  have hsignal : signal.isInterruption := rfl
  have hdisturbed : Disturbed calmBridge disturbedBridge := by
    refine ⟨rfl, rfl, rfl, ?_, ?_, ⟨rfl, rfl⟩, ⟨rfl, rfl⟩⟩
    · exact (lastingReads_insert hsignal [] [] [.bytes [0x45], .fault signal]).trans
        (lastingReads_insert hsignal [] [.bytes [0x45]] [])
    · exact (lastingReads_insert hsignal [] [] [.fault signal, .bytes twoPacketFrame]).trans
        (lastingReads_insert hsignal [] [] [.bytes twoPacketFrame])
  have hasked : calmBridge.askedDown = [2, 2] := by decide +kernel
  obtain ⟨-, -, -, hdown, hup, -⟩ := interruptions_unseen_iff hdisturbed
  rw [hasked] at hdown
  refine ⟨hdisturbed, hup rfl, hdown.mpr ⟨?_, ?_, ?_⟩, hasked, ?_, ?_⟩ <;> decide +kernel

/-- A packet in each direction, and all calls succeed. -/
def smoothBridge : Bridge where
  fromTunnel := { items := [.bytes [0x45]] }
  fromMux := { items := [.bytes packetFrame] }

/-- The same, with one interrupted flush at each end. -/
def interruptedBridge : Bridge :=
  { smoothBridge with toTunnel := { flushes := [some signal] }, toMux := { flushes := [some signal] } }

/-- An interrupted flush stops the uplink, although the frame has been taken, and makes the downlink count a
packet as dropped that the tunnel has taken. -/
theorem interrupted_flush_is_seen :
    Disturbed smoothBridge interruptedBridge ∧
      interruptedBridge.toMux.flushes.filter (!·.any Fault.isInterruption) = smoothBridge.toMux.flushes ∧
      interruptedBridge.toTunnel.flushes.filter (!·.any Fault.isInterruption) = smoothBridge.toTunnel.flushes ∧
      ¬Unseen smoothBridge.drainUp interruptedBridge.drainUp ∧
      ¬Unseen smoothBridge.drainDown interruptedBridge.drainDown ∧
      smoothBridge.drainUp.1 = none ∧ interruptedBridge.drainUp.1 = some (.fault signal) ∧
      interruptedBridge.drainUp.2.toMux.taken = smoothBridge.drainUp.2.toMux.taken ∧
      smoothBridge.drainDown.2.stats = { packetsDown := 1, bytesDown := 2 } ∧
      interruptedBridge.drainDown.2.stats = { dropped := 1 } ∧
      interruptedBridge.drainDown.2.toTunnel.taken = smoothBridge.drainDown.2.toTunnel.taken := by
  have hup : interruptedBridge.drainUp.1 ≠ smoothBridge.drainUp.1 := by decide +kernel
  have hdown : interruptedBridge.drainDown.2.stats ≠ smoothBridge.drainDown.2.stats := by decide +kernel
  refine ⟨⟨rfl, rfl, rfl, rfl, rfl, ⟨rfl, rfl⟩, ⟨rfl, rfl⟩⟩, rfl, rfl, fun hseen => hup hseen.stop_eq,
    fun hseen => hdown hseen.stats_eq, ?_⟩
  decide +kernel

end Bridge

end Wwan
