import Mathlib.Data.List.Forall2
import Wwan.Proofs.Message.Sending

/-!
# What a request does to a sink

Requests are sent one after the other to a sink that answers each write and each flush as it is planned to.
What the sink is asked while a request is sent, and what it takes, is put down in a report.  The error of a
request is the one verdict on the answers it got (`Outbox.meets_writeAll`, `Outbox.meets_flush`), and
interruptions make no difference (`Outbox.send_calm`).  `Outbox.errands_meet_plans` puts this together for any
number of requests and any plans.
-/

namespace Wwan

/-! ## Answers and the verdicts on them -/

/-- What an answer to a write means for the request: nothing, or that it fails. -/
def Uptake.verdict : Uptake → Option CallError
  | .atMost 0 => some .channelClosed
  | .atMost (_ + 1) => none
  | .fault f =>
    if f.isInterruption then none else if f.kind = .brokenPipe then some .channelClosed else some (.fault f)

/-- What a failed flush means for the request. -/
def Fault.verdict (f : Fault) : Option CallError :=
  if f.isInterruption then none else some (.fault f)

/-- What flushes come to other than that they are interrupted. -/
def Fault.lasting (outcomes : List (Option Fault)) : List (Option Fault) :=
  outcomes.filter (!·.any isInterruption)

/-- The verdicts on flushes; there is none on one that succeeds. -/
def Fault.verdicts (outcomes : List (Option Fault)) : List CallError :=
  outcomes.filterMap (·.bind verdict)

/-- Whether an answer tells that nobody reads what is written. -/
def Uptake.closes : Uptake → Bool
  | .atMost n => n = 0
  | .fault f => f.kind = .brokenPipe

theorem Fault.not_isInterruption_of_brokenPipe {f : Fault} (h : f.kind = .brokenPipe) :
    ¬f.isInterruption := by
  rw [isInterruption, h]
  decide

theorem Uptake.verdict_eq_closed {a : Uptake} : a.verdict = some .channelClosed ↔ a.closes := by
  match a with
  | .atMost 0 => simp [verdict, closes]
  | .atMost (n + 1) => simp [verdict, closes]
  | .fault f =>
    by_cases hpipe : f.kind = .brokenPipe
    · simp [verdict, closes, hpipe, Fault.not_isInterruption_of_brokenPipe hpipe]
    · by_cases hf : f.isInterruption <;> simp [verdict, closes, hpipe, hf]

theorem Uptake.verdict_eq_fault {a : Uptake} {f : Fault} : a.verdict = some (.fault f) ↔
    a = .fault f ∧ ¬f.isInterruption ∧ f.kind ≠ .brokenPipe := by
  match a with
  | .atMost 0 => simp [verdict]
  | .atMost (n + 1) => simp [verdict]
  | .fault g =>
    rw [verdict]
    grind

theorem Uptake.verdict_cases {a : Uptake} {e : CallError} (h : a.verdict = some e) :
    e = .channelClosed ∨ ∃ f, e = .fault f := by
  match a with
  | .atMost 0 => exact .inl (Option.some.inj h).symm
  | .fault f =>
    rw [verdict] at h
    grind

theorem Fault.verdict_eq_some {f : Fault} {e : CallError} :
    f.verdict = some e ↔ e = .fault f ∧ ¬f.isInterruption := by
  rw [verdict]
  grind

theorem Fault.verdicts_cons (f : Fault) (rest : List (Option Fault)) :
    verdicts (some f :: rest) = f.verdict.toList ++ verdicts rest := by
  rw [verdicts, List.filterMap_cons, verdicts, Option.bind_some]
  cases f.verdict <;> rfl

theorem Fault.mem_verdicts {outcomes : List (Option Fault)} {e : CallError} :
    e ∈ verdicts outcomes ↔ ∃ f, some f ∈ outcomes ∧ f.verdict = some e := by
  rw [verdicts, List.mem_filterMap]
  constructor
  · rintro ⟨outcome, hmem, hverdict⟩
    obtain ⟨f, rfl, hf⟩ := Option.bind_eq_some_iff.mp hverdict
    exact ⟨f, hmem, hf⟩
  · rintro ⟨f, hmem, hf⟩
    exact ⟨some f, hmem, hf⟩

/-! ## What happens to a sink -/

namespace Sink

/-- How a sink gets from one state to another: the answers to writes and the outcomes of flushes in its plan
that are used up, and the bytes that it takes of each write. -/
structure Passes (s : Sink) (answers : List Uptake) (outcomes : List (Option Fault)) (pieces : List Bytes)
    (s' : Sink) : Prop where
  writes_eq : s.writes = answers ++ s'.writes
  flushes_eq : s.flushes = outcomes ++ s'.flushes
  taken_eq : s'.taken = s.taken ++ pieces

section Passes

variable {s s' s'' : Sink} {answers answers' : List Uptake} {outcomes outcomes' : List (Option Fault)}
  {pieces pieces' : List Bytes}

theorem Passes.refl (s : Sink) : s.Passes [] [] [] s :=
  ⟨rfl, rfl, (List.append_nil _).symm⟩

theorem Passes.trans (h : s.Passes answers outcomes pieces s')
    (h' : s'.Passes answers' outcomes' pieces' s'') :
    s.Passes (answers ++ answers') (outcomes ++ outcomes') (pieces ++ pieces') s'' := by
  constructor
  · rw [h.writes_eq, h'.writes_eq, List.append_assoc]
  · rw [h.flushes_eq, h'.flushes_eq, List.append_assoc]
  · rw [h'.taken_eq, h.taken_eq, List.append_assoc]

/-- What is planned in addition stays. -/
theorem Passes.plan (h : s.Passes answers outcomes pieces s') (writes : List Uptake)
    (flushes : List (Option Fault)) :
    (s.plan writes flushes).Passes answers outcomes pieces (s'.plan writes flushes) := by
  constructor
  · show s.writes ++ writes = answers ++ (s'.writes ++ writes)
    rw [h.writes_eq, List.append_assoc]
  · show s.flushes ++ flushes = outcomes ++ (s'.flushes ++ flushes)
    rw [h.flushes_eq, List.append_assoc]
  · exact h.taken_eq

end Passes

theorem plan_nil (s : Sink) : s.plan [] [] = s := by
  rw [plan, List.append_nil, List.append_nil]

theorem plan_plan (s : Sink) (writes writes' : List Uptake) (flushes flushes' : List (Option Fault)) :
    (s.plan writes flushes).plan writes' flushes' = s.plan (writes ++ writes') (flushes ++ flushes') := by
  rw [plan, plan, plan, List.append_assoc, List.append_assoc]

/-- The same sink without the interruptions of its plan. -/
def calm (s : Sink) : Sink :=
  { s with writes := Uptake.lasting s.writes, flushes := Fault.lasting s.flushes }

@[simp] theorem writes_calm (s : Sink) : s.calm.writes = Uptake.lasting s.writes := rfl

@[simp] theorem flushes_calm (s : Sink) : s.calm.flushes = Fault.lasting s.flushes := rfl

theorem Passes.calm {s s' : Sink} {answers : List Uptake} {outcomes : List (Option Fault)}
    {pieces : List Bytes} (h : s.Passes answers outcomes pieces s') :
    s.calm.Passes (Uptake.lasting answers) (Fault.lasting outcomes) pieces s'.calm := by
  constructor
  · rw [writes_calm, h.writes_eq]
    exact List.filter_append answers s'.writes
  · rw [flushes_calm, h.flushes_eq]
    exact List.filter_append outcomes s'.flushes
  · exact h.taken_eq

theorem plan_calm (s : Sink) (writes : List Uptake) (flushes : List (Option Fault)) :
    (s.plan writes flushes).calm = s.calm.plan (Uptake.lasting writes) (Fault.lasting flushes) := by
  rw [calm, plan, Uptake.lasting, Fault.lasting, List.filter_append, List.filter_append]
  rfl

/-! ### One write, one flush -/

theorem calm_record (s : Sink) (data : Bytes) : (s.record data).calm = s.calm.record data := by
  unfold record
  split <;> rfl

/-- What a write takes is remembered, unless it takes nothing. -/
theorem passes_record (s : Sink) (data : Bytes) :
    ∃ pieces, s.Passes [] [] pieces (s.record data) ∧ pieces.flatten = data := by
  rw [record]
  by_cases hdata : data.isEmpty
  · rw [if_pos hdata, List.isEmpty_iff.mp hdata]
    exact ⟨[], Passes.refl s, rfl⟩
  · rw [if_neg hdata]
    exact ⟨[data], ⟨rfl, rfl, rfl⟩, List.flatten_singleton⟩

variable {s s' : Sink} {data : Bytes} {n : Nat} {f : Fault}

/-- A write that does not fail takes everything at the end of the plan, or as much as is planned. -/
theorem of_write_eq_ok (h : s.write data = (.ok n, s')) :
    (s.writes = [] ∧ n = data.length ∧ s' = s.record data) ∨
    ∃ m rest, s.writes = .atMost m :: rest ∧ n = min m data.length ∧
      s' = Sink.record { s with writes := rest } (data.take m) := by
  unfold write at h
  split at h
  · next hwrites =>
    cases h
    exact .inl ⟨hwrites, rfl, rfl⟩
  · next m rest hwrites =>
    cases h
    exact .inr ⟨m, rest, hwrites, rfl, rfl⟩
  · cases h

theorem of_write_eq_error (h : s.write data = (.error f, s')) :
    ∃ rest, s.writes = .fault f :: rest ∧ s' = { s with writes := rest } := by
  unfold write at h
  split at h
  · cases h
  · cases h
  · next rest hwrites =>
    cases h
    exact ⟨rest, hwrites, rfl⟩

/-- A flush succeeds at the end of the plan, or where that is planned. -/
theorem of_flush_eq_ok (h : s.flush = (.ok (), s')) :
    (s.flushes = [] ∧ s' = { s with flushed := s.flushed + 1 }) ∨
    ∃ rest, s.flushes = none :: rest ∧ s' = { s with flushes := rest, flushed := s.flushed + 1 } := by
  unfold flush at h
  split at h
  · next hflushes =>
    cases h
    exact .inl ⟨hflushes, rfl⟩
  · next rest hflushes =>
    cases h
    exact .inr ⟨rest, hflushes, rfl⟩
  · cases h

theorem of_flush_eq_error (h : s.flush = (.error f, s')) :
    ∃ rest, s.flushes = some f :: rest ∧ s' = { s with flushes := rest } := by
  unfold flush at h
  split at h
  · cases h
  · cases h
  · next rest hflushes =>
    cases h
    exact ⟨rest, hflushes, rfl⟩

theorem passes_of_write_ok (hdata : data ≠ []) (h : s.write data = (.ok n, s')) :
    ∃ answers pieces, s.Passes answers [] pieces s' ∧ pieces.flatten = data.take n ∧
      answers.filterMap Uptake.verdict = if n = 0 then [.channelClosed] else [] := by
  have hpos : 0 < data.length := List.length_pos_iff.mpr hdata
  obtain ⟨-, rfl, rfl⟩ | ⟨m, rest, hwrites, rfl, rfl⟩ := of_write_eq_ok h
  · obtain ⟨pieces, hpasses, hpieces⟩ := s.passes_record data
    refine ⟨[], pieces, hpasses, ?_, ?_⟩
    · rw [hpieces, List.take_length]
    · rw [if_neg (by omega)]
      rfl
  · obtain ⟨pieces, hpasses, hpieces⟩ := passes_record { s with writes := rest } (data.take m)
    have hplan : s.Passes [.atMost m] [] [] { s with writes := rest } := ⟨hwrites, rfl, (List.append_nil _).symm⟩
    refine ⟨[.atMost m], pieces, hplan.trans hpasses, ?_, ?_⟩
    · rw [hpieces, ← List.take_eq_take_min]
    · cases m with
      | zero =>
        rw [if_pos (by omega)]
        rfl
      | succ m =>
        rw [if_neg (by omega)]
        rfl

theorem passes_of_write_error (h : s.write data = (.error f, s')) : s.Passes [.fault f] [] [] s' := by
  obtain ⟨rest, hwrites, rfl⟩ := of_write_eq_error h
  exact ⟨hwrites, rfl, (List.append_nil _).symm⟩

theorem passes_of_flush_ok (h : s.flush = (.ok (), s')) :
    ∃ outcomes, s.Passes [] outcomes [] s' ∧ Fault.verdicts outcomes = [] := by
  obtain ⟨-, rfl⟩ | ⟨rest, hflushes, rfl⟩ := of_flush_eq_ok h
  · exact ⟨[], ⟨rfl, rfl, (List.append_nil _).symm⟩, rfl⟩
  · exact ⟨[none], ⟨rfl, hflushes, (List.append_nil _).symm⟩, rfl⟩

theorem passes_of_flush_error (h : s.flush = (.error f, s')) : s.Passes [] [some f] [] s' := by
  obtain ⟨rest, hflushes, rfl⟩ := of_flush_eq_error h
  exact ⟨rfl, hflushes, (List.append_nil _).symm⟩

/-! ### The same without interruptions -/

theorem write_calm_of_ok (h : s.write data = (.ok n, s')) : s.calm.write data = (.ok n, s'.calm) := by
  obtain ⟨hwrites, rfl, rfl⟩ | ⟨m, rest, hwrites, rfl, rfl⟩ := of_write_eq_ok h
  · have hcalm : s.calm.writes = [] := by rw [writes_calm, hwrites]; rfl
    rw [write, hcalm, calm_record]
  · have hcalm : s.calm.writes = .atMost m :: Uptake.lasting rest := by rw [writes_calm, hwrites]; rfl
    rw [write, hcalm, calm_record]
    rfl

theorem write_calm_of_error (h : s.write data = (.error f, s')) (hf : ¬f.isInterruption) :
    s.calm.write data = (.error f, s'.calm) := by
  obtain ⟨rest, hwrites, rfl⟩ := of_write_eq_error h
  have hcalm : s.calm.writes = .fault f :: Uptake.lasting rest := by
    simp [hwrites, Uptake.lasting, Uptake.isInterruption, hf]
  rw [write, hcalm]
  rfl

theorem calm_of_write_interrupted (h : s.write data = (.error f, s')) (hf : f.isInterruption) :
    s.calm = s'.calm := by
  obtain ⟨rest, hwrites, rfl⟩ := of_write_eq_error h
  simp [calm, hwrites, Uptake.lasting, Uptake.isInterruption, hf]

theorem flush_calm_of_ok (h : s.flush = (.ok (), s')) : s.calm.flush = (.ok (), s'.calm) := by
  obtain ⟨hflushes, rfl⟩ | ⟨rest, hflushes, rfl⟩ := of_flush_eq_ok h <;>
    simp [flush, calm, hflushes, Fault.lasting]

theorem flush_calm_of_error (h : s.flush = (.error f, s')) (hf : ¬f.isInterruption) :
    s.calm.flush = (.error f, s'.calm) := by
  obtain ⟨rest, hflushes, rfl⟩ := of_flush_eq_error h
  have hcalm : s.calm.flushes = some f :: Fault.lasting rest := by simp [hflushes, hf, Fault.lasting]
  rw [flush, hcalm]
  rfl

theorem calm_of_flush_interrupted (h : s.flush = (.error f, s')) (hf : f.isInterruption) :
    s.calm = s'.calm := by
  obtain ⟨rest, hflushes, rfl⟩ := of_flush_eq_error h
  simp [calm, hflushes, hf, Fault.lasting]

end Sink

namespace Outbox

/-! ## Writing and flushing -/

/-- The error that there is, if any. -/
def complaints : Except CallError Unit → List CallError
  | .ok () => []
  | .error e => [e]

theorem mem_complaints {result : Except CallError Unit} {e : CallError} :
    e ∈ complaints result ↔ result = .error e := by
  cases result with
  | ok => simp [complaints]
  | error e' => simp [complaints, eq_comm]

/-- What is asked of a sink, and what it takes, where these bytes are written and flushed. -/
structure Meets (data : Bytes) (s : Sink) (answers : List Uptake) (outcomes : List (Option Fault))
    (pieces : List Bytes) (done : Except CallError Unit × Sink) : Prop where
  passes : s.Passes answers outcomes pieces done.2
  front : pieces.flatten <+: data
  whole : done.1 = .ok () → pieces.flatten = data
  /-- The error, if there is one, is the verdict on one of the answers, and there are no other verdicts. -/
  verdicts : answers.filterMap Uptake.verdict ++ Fault.verdicts outcomes = complaints done.1

section Meets

variable {data : Bytes} {s s' : Sink} {answers : List Uptake} {pieces : List Bytes}
  {done : Except CallError Unit × Sink}

/-- Bytes that are taken, and what comes of those behind them. -/
theorem Meets.behind {taken rest : Bytes} {answers' : List Uptake} {pieces' : List Bytes}
    (h : s.Passes answers [] pieces s') (hpieces : pieces.flatten = taken)
    (hverdicts : answers.filterMap Uptake.verdict = []) (hrest : Meets rest s' answers' [] pieces' done) :
    Meets (taken ++ rest) s (answers ++ answers') [] (pieces ++ pieces') done where
  passes := h.trans hrest.passes
  front := by
    rw [List.flatten_append, hpieces]
    exact (List.prefix_append_right_inj taken).mpr hrest.front
  whole hok := by rw [List.flatten_append, hpieces, hrest.whole hok]
  verdicts := by rw [List.filterMap_append, hverdicts, List.nil_append, hrest.verdicts]

/-- A write that fails takes nothing. -/
theorem meets_of_write_error {f : Fault} {e : CallError} (h : s.write data = (.error f, s'))
    (he : Uptake.verdict (.fault f) = some e) : Meets data s [.fault f] [] [] (.error e, s') where
  passes := Sink.passes_of_write_error h
  front := List.nil_prefix
  whole hok := nomatch hok
  verdicts := by rw [List.filterMap_cons_some he]; rfl

theorem meets_writeAll (data : Bytes) (s : Sink) :
    ∃ answers pieces, Meets data s answers [] pieces (writeAll data s) := by
  fun_induction writeAll data s with
  | case1 s => exact ⟨[], [], Sink.Passes.refl s, List.prefix_rfl, fun _ => rfl, rfl⟩
  | case2 s b bs s' hwrite =>
    obtain ⟨answers, pieces, hpasses, hpieces, hverdicts⟩ :=
      Sink.passes_of_write_ok (List.cons_ne_nil b bs) hwrite
    refine ⟨answers, pieces, ⟨hpasses, ?_, (fun hok => by cases hok), ?_⟩⟩
    · rw [hpieces]
      exact List.nil_prefix
    · rw [Fault.verdicts, List.filterMap_nil, List.append_nil]
      exact hverdicts
  -- some bytes are taken, and the others are written behind them
  | case3 s b bs n s' hwrite ih =>
    obtain ⟨answers, pieces, hpasses, hpieces, hverdicts⟩ :=
      Sink.passes_of_write_ok (List.cons_ne_nil b bs) hwrite
    obtain ⟨answers', pieces', hrest⟩ := ih
    have hsplit : (b :: bs).take (n + 1) ++ bs.drop n = b :: bs := List.take_append_drop (n + 1) (b :: bs)
    have hmeets := Meets.behind hpasses hpieces (by rw [hverdicts, if_neg n.succ_ne_zero]) hrest
    rw [hsplit] at hmeets
    exact ⟨_, _, hmeets⟩
  -- an interrupted write takes nothing, and all is written again
  | case4 s b bs f s' hwrite hkind ih =>
    obtain ⟨answers, pieces, hrest⟩ := ih
    have hverdict : Uptake.verdict (.fault f) = none := if_pos (decide_eq_true hkind)
    have hmeets := Meets.behind (Sink.passes_of_write_error hwrite) List.flatten_nil
      (List.filterMap_cons_none hverdict) hrest
    exact ⟨_, _, hmeets⟩
  | case5 s b bs f s' hwrite hkind =>
    exact ⟨_, _, meets_of_write_error hwrite (Uptake.verdict_eq_closed.mpr (decide_eq_true hkind))⟩
  | case6 s b bs f s' hwrite hkind hpipe =>
    have hlasting : ¬f.isInterruption := fun h => hkind (of_decide_eq_true h)
    exact ⟨_, _, meets_of_write_error hwrite (Uptake.verdict_eq_fault.mpr ⟨rfl, hlasting, hpipe⟩)⟩

theorem meets_flush (s : Sink) : ∃ outcomes, Meets [] s [] outcomes [] (flush s) := by
  fun_induction flush s with
  | case1 s s' hflush =>
    obtain ⟨outcomes, hpasses, hverdicts⟩ := Sink.passes_of_flush_ok hflush
    exact ⟨outcomes, hpasses, List.prefix_rfl, fun _ => rfl, hverdicts⟩
  | case2 s f s' hflush hkind ih =>
    obtain ⟨outcomes, hrest⟩ := ih
    have hverdict : f.verdict = none := if_pos (decide_eq_true hkind)
    have hpasses : s.Passes [] [some f] [] s' := Sink.passes_of_flush_error hflush
    refine ⟨some f :: outcomes, hpasses.trans hrest.passes, hrest.front, hrest.whole, ?_⟩
    rw [Fault.verdicts_cons, hverdict]
    exact hrest.verdicts
  | case3 s f s' hflush hkind =>
    have hlasting : ¬f.isInterruption := fun h => hkind (of_decide_eq_true h)
    have hverdict : f.verdict = some (.fault f) := Fault.verdict_eq_some.mpr ⟨rfl, hlasting⟩
    refine ⟨[some f], Sink.passes_of_flush_error hflush, List.prefix_rfl, (fun hok => by cases hok), ?_⟩
    rw [Fault.verdicts_cons, hverdict]
    rfl

/-- What was written as a whole is flushed. -/
theorem Meets.flush (h : Meets data s answers [] pieces (.ok (), s')) :
    ∃ outcomes, Meets data s answers outcomes pieces (flush s') := by
  obtain ⟨outcomes, hflush⟩ := meets_flush s'
  have hpasses := h.passes.trans hflush.passes
  rw [List.append_nil, List.append_nil, List.nil_append] at hpasses
  have hverdicts : answers.filterMap Uptake.verdict = [] := by
    simpa [complaints, Fault.verdicts] using h.verdicts
  refine ⟨outcomes, hpasses, h.front, fun _ => h.whole rfl, ?_⟩
  rw [hverdicts]
  exact hflush.verdicts

end Meets

section Calm

theorem writeAll_calm (data : Bytes) (s : Sink) :
    writeAll data s.calm = ((writeAll data s).1, (writeAll data s).2.calm) := by
  fun_induction writeAll data s with
  | case1 s => rw [writeAll]
  | case2 s b bs s' hwrite =>
    rw [writeAll]
    split <;> simp_all [Sink.write_calm_of_ok hwrite]
  | case3 s b bs n s' hwrite ih =>
    rw [writeAll]
    split <;> simp_all [Sink.write_calm_of_ok hwrite]
  | case4 s b bs f s' hwrite hkind ih =>
    rw [Sink.calm_of_write_interrupted hwrite (decide_eq_true hkind)]
    exact ih
  | case5 s b bs f s' hwrite hkind =>
    have hlasting : ¬f.isInterruption := Fault.not_isInterruption_of_brokenPipe hkind
    rw [writeAll]
    split <;> simp_all [Sink.write_calm_of_error hwrite hlasting]
  | case6 s b bs f s' hwrite hkind hpipe =>
    have hlasting : ¬f.isInterruption := fun h => hkind (of_decide_eq_true h)
    rw [writeAll]
    split <;> simp_all [Sink.write_calm_of_error hwrite hlasting]

theorem flush_calm (s : Sink) : flush s.calm = ((flush s).1, (flush s).2.calm) := by
  fun_induction flush s with
  | case1 s s' hflush =>
    rw [flush]
    split <;> simp_all [Sink.flush_calm_of_ok hflush]
  | case2 s f s' hflush hkind ih =>
    rw [Sink.calm_of_flush_interrupted hflush (decide_eq_true hkind)]
    exact ih
  | case3 s f s' hflush hkind =>
    have hlasting : ¬f.isInterruption := fun h => hkind (of_decide_eq_true h)
    rw [flush]
    split <;> simp_all [Sink.flush_calm_of_error hflush hlasting]

/-- Interruptions make no difference to a request. -/
theorem send_calm (limit : Nat) (r : Request) (s : Sink) :
    send limit r s.calm = ((send limit r s).1, (send limit r s).2.calm) := by
  rw [send, send]
  rcases r.encode with e | data
  · rfl
  · dsimp only
    by_cases hlimit : limit < data.length
    · rw [if_pos hlimit, if_pos hlimit]
    · rw [if_neg hlimit, if_neg hlimit, writeAll_calm]
      rcases writeAll data s with ⟨e | _, s'⟩
      · rfl
      · exact flush_calm s'

end Calm

/-! ## Sending -/

section Send

variable {limit : Nat} {r : Request}

/-- Whether a request has more bytes than are allowed, or than the length in front of them can tell. -/
def IsLarge (limit : Nat) (r : Request) : Prop :=
  2 ^ 32 ≤ r.length ∨ limit < r.length + 4

theorem send_of_isLarge (h : IsLarge limit r) (s : Sink) :
    ∃ size most, send limit r s = (.error (.tooLarge size most), s) := by
  by_cases hlength : 2 ^ 32 ≤ r.length
  · have hencode : r.encode = .error _ := if_pos hlength
    rw [send, hencode]
    exact ⟨_, _, rfl⟩
  · have hencode : r.encode = .ok _ := if_neg hlength
    rw [send, hencode]
    dsimp only
    rw [Request.length_encode hencode, if_pos (h.resolve_left hlength)]
    exact ⟨_, _, rfl⟩

theorem meets_send (h : ¬IsLarge limit r) (s : Sink) : ∃ data, r.encode = .ok data ∧
    ∃ answers outcomes pieces, Meets data s answers outcomes pieces (send limit r s) := by
  obtain ⟨hlength, hlimit⟩ := not_or.mp h
  have hencode : r.encode = .ok _ := if_neg hlength
  refine ⟨_, hencode, ?_⟩
  have hdata := Request.length_encode hencode
  rw [send, hencode]
  dsimp only
  rw [if_neg (hdata ▸ hlimit)]
  obtain ⟨answers, pieces, hmeets⟩ := meets_writeAll _ s
  rcases hwrite : writeAll _ s with ⟨e | _, s'⟩ <;> rw [hwrite] at hmeets
  · exact ⟨_, _, _, hmeets⟩
  · obtain ⟨outcomes, hflush⟩ := hmeets.flush
    exact ⟨_, _, _, hflush⟩

end Send

end Outbox

/-! ## Reports -/

/-- What happened while a request was sent. -/
structure Report where
  result : Except CallError Unit
  /-- The planned answers that its writes got. -/
  answers : List Uptake
  /-- The planned outcomes of its flushes. -/
  outcomes : List (Option Fault)
  /-- The bytes that the sink took, one write after the other. -/
  pieces : List Bytes

namespace Report

/-- The same without interruptions. -/
def calm (x : Report) : Report :=
  { x with answers := Uptake.lasting x.answers, outcomes := Fault.lasting x.outcomes }

/-- What can be said of the report of a request. -/
structure Tells (limit : Nat) (r : Request) (x : Report) : Prop where
  /-- The sink takes the bytes of this request from the front, none of them twice, and no others. -/
  front : x.pieces = [] ∨ ∃ data, r.encode = .ok data ∧ x.pieces.flatten <+: data
  whole : x.result = .ok () → r.encode = .ok x.pieces.flatten
  tooLarge_iff : (∃ size most, x.result = .error (.tooLarge size most)) ↔
    2 ^ 32 ≤ r.length ∨ limit < r.length + 4
  /-- Nothing is asked of the sink if the request is too large. -/
  untouched : (∃ size most, x.result = .error (.tooLarge size most)) →
    x.answers = [] ∧ x.outcomes = [] ∧ x.pieces = []
  closed_iff : x.result = .error .channelClosed ↔ ∃ a ∈ x.answers, a.closes
  fault_iff : ∀ f, x.result = .error (.fault f) ↔
    f.kind ≠ .interrupted ∧ (.fault f ∈ x.answers ∧ f.kind ≠ .brokenPipe ∨ some f ∈ x.outcomes)
  /-- There are no other errors. -/
  error_cases : ∀ e, x.result = .error e →
    (∃ size most, e = .tooLarge size most) ∨ e = .channelClosed ∨ ∃ f, e = .fault f

end Report

namespace Outbox

/-- The report of a request that is sent to a sink. -/
def report (limit : Nat) (r : Request) (s : Sink) : Report :=
  let (result, s') := send limit r s
  { result
    answers := s.writes.take (s.writes.length - s'.writes.length)
    outcomes := s.flushes.take (s.flushes.length - s'.flushes.length)
    pieces := s'.taken.drop s.taken.length }

section Report

variable {limit : Nat} {r : Request} {s : Sink} {answers : List Uptake} {outcomes : List (Option Fault)}
  {pieces : List Bytes}

theorem report_of_passes (h : s.Passes answers outcomes pieces (send limit r s).2) :
    report limit r s = ⟨(send limit r s).1, answers, outcomes, pieces⟩ := by
  have hanswers : s.writes.take (s.writes.length - (send limit r s).2.writes.length) = answers := by
    rw [h.writes_eq, List.length_append, Nat.add_sub_cancel, List.take_left]
  have houtcomes : s.flushes.take (s.flushes.length - (send limit r s).2.flushes.length) = outcomes := by
    rw [h.flushes_eq, List.length_append, Nat.add_sub_cancel, List.take_left]
  have hpieces : (send limit r s).2.taken.drop s.taken.length = pieces := by
    rw [h.taken_eq, List.drop_left]
  rw [report, ← hanswers, ← houtcomes, ← hpieces]

theorem Meets.mem_iff {data : Bytes} {done : Except CallError Unit × Sink} {e : CallError}
    (h : Meets data s answers outcomes pieces done) : done.1 = .error e ↔
      (∃ a ∈ answers, a.verdict = some e) ∨ ∃ f, some f ∈ outcomes ∧ f.verdict = some e := by
  rw [← mem_complaints, ← h.verdicts, List.mem_append, List.mem_filterMap, Fault.mem_verdicts]

theorem Meets.error_cases {data : Bytes} {done : Except CallError Unit × Sink} {e : CallError}
    (h : Meets data s answers outcomes pieces done) (he : done.1 = .error e) :
    e = .channelClosed ∨ ∃ f, e = .fault f := by
  obtain ⟨a, -, ha⟩ | ⟨f, -, hf⟩ := h.mem_iff.mp he
  · exact Uptake.verdict_cases ha
  · exact .inr ⟨f, (Fault.verdict_eq_some.mp hf).1⟩

theorem Meets.tells {data : Bytes} {done : Except CallError Unit × Sink} (hlarge : ¬IsLarge limit r)
    (hencode : r.encode = .ok data) (h : Meets data s answers outcomes pieces done) :
    Report.Tells limit r ⟨done.1, answers, outcomes, pieces⟩ := by
  have hsmall : ¬∃ size most, done.1 = .error (.tooLarge size most) := by
    intro ⟨size, most, hresult⟩
    obtain h | ⟨f, h⟩ := h.error_cases hresult <;> cases h
  exact {
    front := .inr ⟨data, hencode, h.front⟩
    whole := fun hok => by rw [hencode, h.whole hok]
    tooLarge_iff := iff_of_false hsmall hlarge
    untouched := fun htooLarge => absurd htooLarge hsmall
    closed_iff := by
      have hflushes : ¬∃ f, some f ∈ outcomes ∧ f.verdict = some .channelClosed := by
        intro ⟨f, _, hf⟩
        cases (Fault.verdict_eq_some.mp hf).1
      rw [h.mem_iff, or_iff_left hflushes]
      simp only [Uptake.verdict_eq_closed]
    fault_iff := fun f => by
      rw [h.mem_iff]
      simp only [Uptake.verdict_eq_fault, Fault.verdict_eq_some, CallError.fault.injEq, Fault.isInterruption]
      grind
    error_cases := fun e he => .inr (h.error_cases he) }

theorem report_spec (limit : Nat) (r : Request) (s : Sink) :
    (report limit r s).Tells limit r ∧ s.Passes (report limit r s).answers (report limit r s).outcomes
      (report limit r s).pieces (send limit r s).2 := by
  by_cases hlarge : IsLarge limit r
  · obtain ⟨size, most, hsend⟩ := send_of_isLarge hlarge s
    have hpasses : s.Passes [] [] [] (send limit r s).2 := by
      rw [hsend]
      exact Sink.Passes.refl s
    rw [report_of_passes hpasses, hsend]
    refine ⟨?_, Sink.Passes.refl s⟩
    constructor <;> simp_all [IsLarge]
  · obtain ⟨data, hencode, answers, outcomes, pieces, hmeets⟩ := meets_send hlarge s
    rw [report_of_passes hmeets.passes]
    exact ⟨hmeets.tells hlarge hencode, hmeets.passes⟩

theorem report_calm (limit : Nat) (r : Request) (s : Sink) :
    report limit r s.calm = (report limit r s).calm := by
  have hpasses := (report_spec limit r s).2
  have hcalm : s.calm.Passes (report limit r s).calm.answers (report limit r s).calm.outcomes
      (report limit r s).calm.pieces (send limit r s.calm).2 := by
    rw [send_calm]
    exact hpasses.calm
  rw [report_of_passes hcalm, send_calm]
  rfl

end Report

end Outbox

/-! ## One request after the other -/

/-- A request that is sent, and what is added to the plan of the sink when it is. -/
structure Errand where
  request : Request
  writes : List Uptake
  /-- The outcomes of flushes; a flush that succeeds is the last of its request. -/
  flushes : List (Option Fault)

/-- The same without interruptions. -/
def Errand.calm (e : Errand) : Errand :=
  { e with writes := Uptake.lasting e.writes, flushes := Fault.lasting e.flushes }

namespace Outbox

/-- Sends one request after the other. -/
def carryOut (limit : Nat) : List Errand → Sink → List Report × Sink
  | [], s => ([], s)
  | e :: es, s =>
    let s' := s.plan e.writes e.flushes
    let (xs, last) := carryOut limit es (send limit e.request s').2
    (report limit e.request s' :: xs, last)

theorem carryOut_cons (limit : Nat) (e : Errand) (es : List Errand) (s : Sink) :
    carryOut limit (e :: es) s
      = (report limit e.request (s.plan e.writes e.flushes) ::
          (carryOut limit es (send limit e.request (s.plan e.writes e.flushes)).2).1,
        (carryOut limit es (send limit e.request (s.plan e.writes e.flushes)).2).2) := rfl

theorem tells_carryOut (limit : Nat) (errands : List Errand) (s : Sink) :
    List.Forall₂ (fun e x => Report.Tells limit e.request x) errands (carryOut limit errands s).1 := by
  induction errands generalizing s with
  | nil => exact .nil
  | cons e es ih => exact .cons (report_spec limit e.request _).1 (ih _)

/-- What happens to a sink while requests are sent is what their reports tell, one after the other. -/
theorem passes_carryOut (limit : Nat) (errands : List Errand) (s : Sink) :
    (s.plan (errands.flatMap Errand.writes) (errands.flatMap Errand.flushes)).Passes
      ((carryOut limit errands s).1.flatMap Report.answers) ((carryOut limit errands s).1.flatMap Report.outcomes)
      ((carryOut limit errands s).1.flatMap Report.pieces) (carryOut limit errands s).2 := by
  induction errands generalizing s with
  | nil =>
    show (s.plan [] []).Passes [] [] [] s
    rw [Sink.plan_nil]
    exact Sink.Passes.refl s
  | cons e es ih =>
    have hfirst := (report_spec limit e.request (s.plan e.writes e.flushes)).2
    have hrest := ih (send limit e.request (s.plan e.writes e.flushes)).2
    have hpasses := (hfirst.plan (es.flatMap Errand.writes) (es.flatMap Errand.flushes)).trans hrest
    rw [Sink.plan_plan] at hpasses
    exact hpasses

theorem carryOut_calm (limit : Nat) (errands : List Errand) (s : Sink) :
    carryOut limit (errands.map Errand.calm) s.calm
      = ((carryOut limit errands s).1.map Report.calm, (carryOut limit errands s).2.calm) := by
  induction errands generalizing s with
  | nil => rfl
  | cons e es ih =>
    have hplan : s.calm.plan e.calm.writes e.calm.flushes = (s.plan e.writes e.flushes).calm :=
      (Sink.plan_calm s e.writes e.flushes).symm
    have hrest : carryOut limit (es.map Errand.calm) (send limit e.calm.request (s.plan e.writes e.flushes)).2.calm
        = _ := ih _
    rw [List.map_cons, carryOut_cons, carryOut_cons, hplan, report_calm, send_calm, hrest]
    rfl

/-- A request that fails after some of its bytes, and the next one, whose bytes are taken behind them. -/
example : ((carryOut 28
    [⟨twoRequests[0], [.atMost 5, .fault ⟨.interrupted, ""⟩, .fault ⟨.other, "gone"⟩], []⟩,
      ⟨twoRequests[1], [.atMost 27], [some ⟨.interrupted, ""⟩, none]⟩] {}).1.map
        fun x => (x.result, x.pieces.map List.length))
    = [(.error (.fault ⟨.other, "gone"⟩), [5]), (.ok (), [27, 1])] := by
  decide +kernel

end Outbox

end Wwan
