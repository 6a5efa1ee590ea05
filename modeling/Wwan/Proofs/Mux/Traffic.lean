import Wwan.Mux.Bridge

/-!
# What passes the ends of a bridge

A direction of a bridge reads units from a source (`Gives`) and writes units to a sink (`Offered`), until the
source stops or the sink fails (`Ends`).  A unit that is written is taken in whole and flushed, or else at
most a part of it is left in the sink (`written_writeUnit`).
-/

namespace Wwan

/-- A read gives no more than was asked for. -/
theorem Source.length_read_le {limit : Nat} {s s' : Source} {data : Bytes}
    (h : s.read limit = (.ok data, s')) : data.length ≤ limit := by
  unfold Source.read at h
  split at h
  · cases h
    exact List.length_take_le _ _
  · split at h
    · cases h
      exact Nat.zero_le _
    · cases h
      exact List.length_take_le _ _
    · cases h

namespace Sink

theorem taken_record {data : Bytes} (h : data ≠ []) (s : Sink) :
    (s.record data).taken = s.taken ++ [data] := by
  rw [record, if_neg (by simpa using h)]

/-- No empty byte string is remembered. -/
theorem exists_piece (s : Sink) (data : Bytes) :
    ∃ piece : Option Bytes, (s.record data).taken = s.taken ++ piece.toList ∧ ∀ p ∈ piece, p = data := by
  by_cases h : data = []
  · exact ⟨none, by rw [h]; exact (List.append_nil _).symm, nofun⟩
  · exact ⟨some data, taken_record h s, fun p hp => (Option.mem_some.mp hp).symm⟩

@[simp] theorem flushed_record (s : Sink) (data : Bytes) : (s.record data).flushed = s.flushed := by
  unfold record
  split <;> rfl

variable {s s' : Sink} {data : Bytes}

/-- A write takes the octets that it reports. -/
theorem of_write_ok {n : Nat} (h : s.write data = (.ok n, s')) :
    s'.taken = (s.record (data.take n)).taken ∧ s'.flushed = s.flushed := by
  unfold write at h
  split at h
  · cases h
    rw [List.take_length]
    exact ⟨rfl, flushed_record s data⟩
  · next m rest _ =>
    cases h
    rw [← List.take_eq_take_min]
    refine ⟨?_, flushed_record _ _⟩
    unfold record
    split <;> rfl
  · cases h

theorem of_write_error {f : Fault} (h : s.write data = (.error f, s')) :
    s'.taken = s.taken ∧ s'.flushed = s.flushed := by
  unfold write at h
  split at h <;> cases h
  exact ⟨rfl, rfl⟩

theorem of_flush_ok (h : s.flush = (.ok (), s')) : s'.taken = s.taken ∧ s'.flushed = s.flushed + 1 := by
  unfold flush at h
  split at h <;> cases h <;> exact ⟨rfl, rfl⟩

theorem of_flush_error {f : Fault} (h : s.flush = (.error f, s')) :
    s'.taken = s.taken ∧ s'.flushed = s.flushed := by
  unfold flush at h
  split at h <;> cases h
  exact ⟨rfl, rfl⟩

end Sink

namespace Bridge

/-! ## Reading -/

/-- What a source gives by reads that follow one another: units, with interrupted reads between them. -/
inductive Gives : Source → List Bytes → Source → Prop
  | nil (s : Source) : Gives s [] s
  | again {s s' left : Source} {units : List Bytes} (read : readUnit s = (.again, s'))
      (behind : Gives s' units left) : Gives s units left
  | unit {s s' left : Source} {unit : Bytes} {units : List Bytes} (read : readUnit s = (.unit unit, s'))
      (behind : Gives s' units left) : Gives s (unit :: units) left

/-- A unit is not empty, and no longer than a read asks for. -/
theorem size_of_readUnit {s s' : Source} {unit : Bytes} (h : readUnit s = (.unit unit, s')) :
    unit ≠ [] ∧ unit.length ≤ readSize := by
  unfold readUnit at h
  split at h
  · cases h
  · next heq =>
    cases h
    exact ⟨List.cons_ne_nil _ _, Source.length_read_le heq⟩
  · next f _ _ =>
    split at h <;> cases h

theorem Gives.size_of_mem {s left : Source} {units : List Bytes} (h : Gives s units left) :
    ∀ unit ∈ units, unit ≠ [] ∧ unit.length ≤ readSize := by
  induction h with
  | nil => exact fun _ hmem => absurd hmem List.not_mem_nil
  | again _ _ ih => exact ih
  | unit read _ ih => exact List.forall_mem_cons.mpr ⟨size_of_readUnit read, ih⟩

/-! ## Writing -/

/-- What a write of a unit does to a sink. -/
inductive Written (unit : Bytes) (s : Sink) : Except FrameError Unit × Sink → Prop
  | whole {s' : Sink} (taken_eq : s'.taken = s.taken ++ [unit]) (flushed_eq : s'.flushed = s.flushed + 1) :
      Written unit s (.ok (), s')
  | failed {e : FrameError} {s' : Sink} (piece : Option Bytes)
      (taken_eq : s'.taken = s.taken ++ piece.toList) (of_mem : ∀ p ∈ piece, p <+: unit)
      (flushed_eq : s'.flushed = s.flushed) : Written unit s (.error e, s')

/-- Only what a sink took and how often it was flushed is told of it. -/
theorem Written.congr {unit : Bytes} {s s' : Sink} {r : Except FrameError Unit × Sink}
    (h : Written unit s' r) (htaken : s'.taken = s.taken) (hflushed : s'.flushed = s.flushed) :
    Written unit s r := by
  cases h with
  | whole taken_eq flushed_eq => exact .whole (htaken ▸ taken_eq) (hflushed ▸ flushed_eq)
  | failed piece taken_eq of_mem flushed_eq =>
    exact .failed piece (htaken ▸ taken_eq) of_mem (hflushed ▸ flushed_eq)

/-- A write that takes a part of a unit, or nothing, leaves just that in the sink. -/
theorem written_piece {unit : Bytes} {s s' : Sink} {n : Nat} (h : s.write unit = (.ok n, s'))
    (e : FrameError) : Written unit s (.error e, s') := by
  obtain ⟨htaken, hflushed⟩ := Sink.of_write_ok h
  obtain ⟨piece, hrecord, hmem⟩ := Sink.exists_piece s (unit.take n)
  exact .failed piece (htaken.trans hrecord) (fun p hp => hmem p hp ▸ List.take_prefix n unit) hflushed

theorem written_writeUnit (unit : Bytes) (s : Sink) : Written unit s (writeUnit unit s) := by
  fun_induction writeUnit with
  | case1 s s' hwrite => exact written_piece hwrite _
  | case2 s s' r s'' hflush hwrite hne =>
    -- the whole unit is in the sink, also if the flush fails
    obtain ⟨htaken, hflushed⟩ := Sink.of_write_ok hwrite
    rw [List.take_length, Sink.taken_record (List.ne_nil_of_length_pos (Nat.pos_of_ne_zero hne))] at htaken
    cases r with
    | ok =>
      obtain ⟨htaken', hflushed'⟩ := Sink.of_flush_ok hflush
      exact .whole (htaken'.trans htaken) (by rw [hflushed', hflushed])
    | error f =>
      obtain ⟨htaken', hflushed'⟩ := Sink.of_flush_error hflush
      refine .failed (some unit) (htaken'.trans htaken) (fun p hp => ?_) (hflushed'.trans hflushed)
      exact Option.mem_some.mp hp ▸ List.prefix_rfl
  | case3 s n s' hwrite => exact written_piece hwrite _
  | case4 s f s' hwrite _ ih =>
    obtain ⟨htaken, hflushed⟩ := Sink.of_write_error hwrite
    exact ih.congr htaken hflushed
  | case5 s f s' hwrite =>
    obtain ⟨htaken, hflushed⟩ := Sink.of_write_error hwrite
    exact .failed none (htaken.trans (List.append_nil _).symm) nofun hflushed

/-- A unit that is written to a sink, and what the write came to. -/
structure Offer where
  unit : Bytes
  result : Except FrameError Unit

/-- A unit that is taken in whole. -/
def Offer.taken (unit : Bytes) : Offer where
  unit := unit
  result := .ok ()

/-- Writes that follow one another, each with what it came to. -/
inductive Offered : Sink → List Offer → Sink → Prop
  | nil (s : Sink) : Offered s [] s
  | cons {s s' left : Sink} {offer : Offer} {rest : List Offer}
      (write : writeUnit offer.unit s = (offer.result, s')) (behind : Offered s' rest left) :
      Offered s (offer :: rest) left

theorem Offered.append {s s' left : Sink} {offers more : List Offer} (h : Offered s offers s')
    (hmore : Offered s' more left) : Offered s (offers ++ more) left := by
  induction h with
  | nil => exact hmore
  | cons write _ ih => exact .cons write (ih hmore)

/-- Units that are taken in whole are found in the sink, and each of them has been flushed. -/
theorem Offered.taken_eq {s left : Sink} {units : List Bytes} (h : Offered s (units.map .taken) left) :
    left.taken = s.taken ++ units ∧ left.flushed = s.flushed + units.length := by
  induction units generalizing s with
  | nil =>
    cases h
    exact ⟨(List.append_nil _).symm, rfl⟩
  | cons unit rest ih =>
    cases h with
    | @cons _ s' _ _ _ write behind =>
      have hwritten : Written unit s (.ok (), s') := write ▸ written_writeUnit unit s
      obtain ⟨htaken, hflushed⟩ := ih behind
      cases hwritten with
      | whole taken_eq flushed_eq =>
        rw [taken_eq, List.append_assoc] at htaken
        rw [flushed_eq] at hflushed
        exact ⟨htaken, by rw [hflushed, List.length_cons, Nat.add_assoc, Nat.add_comm 1]⟩

/-- How a direction ends: the source has nothing more to give, or stops, or the sink does not take a unit. -/
inductive Ends (source : Source) (sink : Sink) :
    Option Bytes → Option FrameError → Source → Sink → Prop
  | dry (isDry : source.isDry) : Ends source sink none none source sink
  | stop {e : FrameError} {left : Source} (read : readUnit source = (.stop e, left)) :
      Ends source sink none (some e) left sink
  | refused {unit : Bytes} {e : FrameError} {left : Sink} (write : writeUnit unit sink = (.error e, left)) :
      Ends source sink (some unit) (some e) source left

/-- At the end a part is left in the sink of the unit that it has not taken, at most. -/
theorem Ends.taken_eq {source left : Source} {sink sink' : Sink} {unit : Option Bytes} {e : Option FrameError}
    (h : Ends source sink unit e left sink') : sink'.flushed = sink.flushed ∧
      ∃ piece : Option Bytes, sink'.taken = sink.taken ++ piece.toList ∧ ∀ p ∈ piece, ∃ u ∈ unit, p <+: u := by
  cases h with
  | dry => exact ⟨rfl, none, (List.append_nil _).symm, nofun⟩
  | stop => exact ⟨rfl, none, (List.append_nil _).symm, nofun⟩
  | @refused unit e _ write =>
    have hwritten : Written unit sink (.error e, sink') := write ▸ written_writeUnit unit sink
    cases hwritten with
    | failed piece taken_eq of_mem flushed_eq =>
      exact ⟨flushed_eq, piece, taken_eq, fun p hp => ⟨unit, rfl, of_mem p hp⟩⟩

end Bridge

end Wwan
