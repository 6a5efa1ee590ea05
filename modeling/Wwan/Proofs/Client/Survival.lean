import Wwan.Proofs.Client.Closing
import Wwan.Proofs.Message.Bounds

/-!
# What a reader lives through

Whatever bytes a reader is given, in whatever reads, it goes round its loop at most once for every four
bytes that it has received, and once more (`Reading.Paced`): a message, a unit that is no message and a
unit that is too large, which takes all that is there along, each take four bytes out of what is there
(`Reading.Lap`).  So it goes in the end, and it closes the client when it goes.
-/

namespace Wwan

variable {H : Type}

namespace Reading

/-- A run that has just begun, with a stream that supplies these items. -/
def ofItems (config : ClientConfig) (sink : Sink) (items : List Supply) : Reading H where
  run := .fresh config sink
  inbox := { limit := config.maxMessage }
  source := { items }

/-- How often the reader goes round its loop in the course of a schedule; the time when it goes counts. -/
def laps (d : Reading H) : List (Option (Action H)) → Nat
  | [] => 0
  | some a :: ns => (d.next (some a)).laps ns
  | none :: ns => (if d.ended then 0 else 1) + (d.next none).laps ns

/-- How many turns a schedule gives to the reader. -/
def turns (schedule : List (Option (Action H))) : Nat :=
  schedule.countP Option.isNone

/-! ## One turn -/

/-- What a turn of the reader does for which it receives `got`: it goes on with four bytes less at least than
were there, or goes and closes the client. -/
inductive Lap (d : Reading H) (got : Bytes) (d' : Reading H) : Prop where
  | on (ended_eq : d'.ended = false)
    (four_le : d'.inbox.buffer.length + 4 ≤ (d.inbox.buffer ++ got).length)
    (run_eq : d'.run = d.run ∨ ∃ m, d'.run = d.run.step (.dispatch m))
  | gone (ended_eq : d'.ended = true) (run_eq : d'.run = d.run.step .close)

theorem turn_of_ended {d : Reading H} (h : d.ended = true) : d.turn = d := by
  rw [turn, if_pos h]

theorem turn_lap {d : Reading H} (h : d.ended = false) :
    ∃ got, d.source.left = got ++ d.turn.source.left ∧ Lap d got d.turn := by
  obtain ⟨run, ⟨limit, b⟩, source, ended⟩ := d
  obtain rfl : ended = false := h
  obtain ⟨got, b', s', r, hreceive, hleft, htaken⟩ := Inbox.receive_takes limit b source
  refine ⟨got, ?_⟩
  rw [turn, if_neg Bool.false_ne_true]
  simp only [hreceive]
  cases htaken with
  | message m four_le => exact ⟨hleft, .on rfl four_le (.inr ⟨m, rfl⟩)⟩
  | malformed reason four_le => exact ⟨hleft, .on rfl four_le (.inl rfl)⟩
  | tooLarge size four_le same =>
    -- nothing was taken out, but all of it is dropped
    refine ⟨hleft, .on rfl ?_ (.inl rfl)⟩
    show 0 + 4 ≤ (b ++ got).length
    omega
  | ended same => exact ⟨hleft, .gone rfl rfl⟩
  | fault f same => exact ⟨hleft, .gone rfl rfl⟩

/-! ## All turns -/

/-- How far a reader has got that has received these bytes of the items and gone round so often. -/
structure Paced (items : List Supply) (got : Bytes) (laps : Nat) (d : Reading H) : Prop where
  bytes_eq : supplied items = got ++ d.source.left
  on : d.ended = false → 4 * laps + d.inbox.buffer.length ≤ got.length
  gone : d.ended = true → 4 * laps ≤ got.length + 4

theorem paced_ofItems (config : ClientConfig) (sink : Sink) (items : List Supply) :
    Paced items [] 0 (ofItems config sink items : Reading H) where
  bytes_eq := rfl
  on _ := Nat.le_refl 0
  gone _ := Nat.zero_le 4

theorem Paced.turn {items : List Supply} {got : Bytes} {n : Nat} {d : Reading H} (h : Paced items got n d) :
    ∃ got', Paced items got' (n + if d.ended then 0 else 1) d.turn := by
  by_cases hended : d.ended = true
  · rw [turn_of_ended hended, if_pos hended]
    exact ⟨got, h⟩
  rw [if_neg hended]
  have hgoing : d.ended = false := Bool.not_eq_true _ ▸ hended
  obtain ⟨more, hleft, hlap⟩ := turn_lap hgoing
  have hbound := h.on hgoing
  refine ⟨got ++ more, ?_, ?_, ?_⟩
  · rw [h.bytes_eq, hleft, List.append_assoc]
  · intro hnext
    cases hlap with
    | on ended_eq four_le run_eq =>
      rw [List.length_append] at four_le ⊢
      omega
    | gone ended_eq run_eq => exact absurd (hnext.symm.trans ended_eq) Bool.false_ne_true
  · intro _
    rw [List.length_append]
    omega

theorem Paced.play {items : List Supply} {got : Bytes} {n : Nat} {d : Reading H} (h : Paced items got n d)
    (schedule : List (Option (Action H))) :
    ∃ got', Paced items got' (n + d.laps schedule) (schedule.foldl next d) := by
  -- what somebody else does leaves the reader where it is
  induction schedule generalizing got n d with
  | nil => exact ⟨got, h⟩
  | cons x schedule ih =>
    cases x with
    | some a =>
      have hnext : Paced items got n (d.next (some a)) := ⟨h.bytes_eq, h.on, h.gone⟩
      exact ih hnext
    | none =>
      obtain ⟨got', hnext⟩ := h.turn
      rw [laps, ← Nat.add_assoc]
      exact ih hnext

/-- A reader that has gone has gone for good. -/
theorem ended_next {d : Reading H} (h : d.ended = true) (x : Option (Action H)) : (d.next x).ended = true := by
  cases x with
  | some a => exact h
  | none =>
    rw [next, turn_of_ended h]
    exact h

theorem ended_foldl {d : Reading H} (h : d.ended = true) (schedule : List (Option (Action H))) :
    (schedule.foldl next d).ended = true := by
  induction schedule generalizing d with
  | nil => exact h
  | cons x schedule ih => exact ih (ended_next h x)

/-- As long as it has not gone, the reader has used all its turns. -/
theorem laps_eq_turns {d : Reading H} {schedule : List (Option (Action H))}
    (h : (schedule.foldl next d).ended = false) : d.laps schedule = turns schedule := by
  induction schedule generalizing d with
  | nil => rfl
  | cons x schedule ih =>
    have hrest := ih h
    cases x with
    | some a =>
      rw [laps, hrest]
      rfl
    | none =>
      have hgoing : ¬d.ended = true := by
        intro hended
        rw [ended_foldl hended] at h
        cases h
      rw [laps, if_neg hgoing, hrest, turns, turns, List.countP_cons_of_pos rfl]
      omega

/-! ## The run of a reader -/

/-- A turn of the reader is a step of the run, or none. -/
theorem run_next (d : Reading H) (x : Option (Action H)) :
    ∃ actions : List (Action H), (d.next x).run = actions.foldl Run.step d.run := by
  cases x with
  | some a => exact ⟨[a], rfl⟩
  | none =>
    by_cases hended : d.ended = true
    · rw [next, turn_of_ended hended]
      exact ⟨[], rfl⟩
    · obtain ⟨got, -, hlap⟩ := turn_lap (Bool.not_eq_true _ ▸ hended)
      cases hlap with
      | on _ _ run_eq =>
        obtain run_eq | ⟨m, run_eq⟩ := run_eq
        · exact ⟨[], run_eq⟩
        · exact ⟨[.dispatch m], run_eq⟩
      | gone _ run_eq => exact ⟨[.close], run_eq⟩

/-- The reader closes the client when it goes. -/
theorem run_gone {d : Reading H} {x : Option (Action H)} (hgoing : d.ended = false)
    (hgone : (d.next x).ended = true) : (d.next x).run = d.run.step .close := by
  cases x with
  | some a => exact absurd (hgoing.symm.trans hgone) Bool.false_ne_true
  | none => exact run_turn_gone hgoing hgone

theorem run_foldl (d : Reading H) (schedule : List (Option (Action H))) :
    ∃ actions : List (Action H), (schedule.foldl next d).run = actions.foldl Run.step d.run := by
  induction schedule generalizing d with
  | nil => exact ⟨[], rfl⟩
  | cons x schedule ih =>
    obtain ⟨first, hfirst⟩ := run_next d x
    obtain ⟨actions, hrest⟩ := ih (d.next x)
    refine ⟨first ++ actions, ?_⟩
    rw [List.foldl_cons, hrest, hfirst, List.foldl_append]

/-- The client is closed when the reader has gone. -/
theorem closed_of_ended {d : Reading H} (hgoing : d.ended = false) (schedule : List (Option (Action H)))
    (hended : (schedule.foldl next d).ended = true) :
    (schedule.foldl next d).run.client.table.closed = true := by
  induction schedule generalizing d with
  | nil => exact absurd (hgoing.symm.trans hended) Bool.false_ne_true
  | cons x schedule ih =>
    by_cases hgone : (d.next x).ended = true
    · -- this is where it goes, and what is closed stays closed
      obtain ⟨actions, hrest⟩ := run_foldl (d.next x) schedule
      rw [List.foldl_cons, hrest, run_gone hgoing hgone]
      exact Run.closed_foldl rfl actions
    · exact ih (Bool.not_eq_true _ ▸ hgone) hended

end Reading

namespace Run

/-- Whoever waits for something when the client is closed is told so, whatever happens afterwards. -/
theorem Sound.released {r : Run H} (h : r.Sound) {k : Call} (hk : k ∈ r.client.calls)
    (hticket : k.ticket ≠ .oneWay) (hphase : k.phase = .sending ∨ k.phase = .waiting)
    (actions : List (Action H)) : (actions.foldl Run.step (r.step .close)).Released k := by
  have hclosed : (r.step .close).Sound := h.step .close
  have hcutOff := cutOff_foldl hclosed hticket (cutOff_close h hk hphase) actions
  have hgrows := log_foldl (r.step .close) actions
  have hstarted := mem_starts (hgrows.subset (List.mem_append_left _ (h.ledger.account k hk).started))
  exact hcutOff.released (hclosed.foldl actions) hticket hstarted

end Run

namespace Reading

/-! ## The end -/

/-- The state after a schedule. -/
def after (config : ClientConfig) (sink : Sink) (items : List Supply) (schedule : List (Option (Action H))) :
    Reading H :=
  schedule.foldl next (ofItems config sink items)

/-- What becomes of a reader in the course of a schedule, whatever its stream supplies. -/
structure Survives (config : ClientConfig) (sink : Sink) (items : List Supply)
    (schedule : List (Option (Action H))) : Prop where
  /-- It reads nothing outside its buffer, whatever is in that, and nothing outside the place into which it
  reads. -/
  buffer_in_range : ∀ limit buffer,
    Message.extractChecked limit buffer = some (Message.extract limit buffer)
  read_in_range : ∀ (s s' : Source) (chunk : Bytes), s.read Inbox.chunkSize = (.ok chunk, s') →
    chunk.length ≤ Inbox.chunkSize
  /-- It goes round at most once for every four bytes that it has received, and once more. -/
  laps_le : ∃ got, supplied items = got ++ (after config sink items schedule).source.left ∧
    (ofItems config sink items).laps schedule ≤ got.length / 4 + 1
  /-- It has gone when it has had so many turns. -/
  ends : (supplied items).length / 4 + 1 ≤ turns schedule → (after config sink items schedule).ended = true
  /-- When it has gone, the client is closed and its table without entries. -/
  shut : (after config sink items schedule).ended = true → (after config sink items schedule).run.Shut
  /-- Whoever waits when it goes, without anything in its slot, is told that the channel has ended. -/
  released : ∀ past more, schedule = past ++ none :: more → (after config sink items past).ended = false →
    (after config sink items (past ++ [none])).ended = true →
    ∀ k ∈ (after config sink items past).run.client.calls, k.ticket ≠ .oneWay →
      k.phase = .sending ∨ k.phase = .waiting → k.slot = none →
      k.lastWord = .error .channelClosed ∧ (after config sink items schedule).run.Released k

theorem run_after (config : ClientConfig) (sink : Sink) (items : List Supply)
    (schedule : List (Option (Action H))) : ∃ actions : List (Action H),
      (after config sink items schedule).run = Run.after config sink actions :=
  run_foldl (ofItems config sink items) schedule

theorem after_append (config : ClientConfig) (sink : Sink) (items : List Supply)
    (past more : List (Option (Action H))) : after config sink items (past ++ more)
      = more.foldl next (after config sink items past) :=
  List.foldl_append

/-- Whoever waits when the reader goes is told that the channel has ended. -/
theorem released_after (config : ClientConfig) (sink : Sink) (items : List Supply)
    (past more : List (Option (Action H))) (hgoing : (after config sink items past).ended = false)
    (hgone : (after config sink items (past ++ [none])).ended = true) {k : Call}
    (hk : k ∈ (after config sink items past).run.client.calls) (hticket : k.ticket ≠ .oneWay)
    (hphase : k.phase = .sending ∨ k.phase = .waiting) :
    (after config sink items (past ++ none :: more)).run.Released k := by
  have hsound : (after config sink items past).run.Sound := by
    obtain ⟨actions, hrun⟩ := run_after config sink items past
    rw [hrun]
    exact Run.sound_after config sink actions
  rw [after_append, List.foldl_cons, List.foldl_nil] at hgone
  obtain ⟨later, hlater⟩ := run_foldl ((after config sink items past).next none) more
  rw [after_append, List.foldl_cons, hlater, run_gone hgoing hgone]
  exact hsound.released hk hticket hphase later

/-- A reader lives through whatever its stream supplies: it reads nothing out of range, goes round no more
than once for every four bytes and once more, goes in the end, and closes the client when it goes, so that
all who wait are told. -/
theorem survives_any_input (config : ClientConfig) (sink : Sink) (items : List Supply)
    (schedule : List (Option (Action H))) : Survives config sink items schedule := by
  have hpaced := (paced_ofItems config sink items).play schedule
  rw [Nat.zero_add] at hpaced
  obtain ⟨got, hpaced⟩ := hpaced
  have hbytes : supplied items = got ++ (after config sink items schedule).source.left := hpaced.bytes_eq
  refine ⟨Message.extractChecked_eq, fun s s' chunk hread => (Source.of_read_bytes hread).1,
    ⟨got, hbytes, ?_⟩, ?_, ?_, ?_⟩
  · -- four bytes for each time, but for the last one
    cases hended : (after config sink items schedule).ended with
    | false =>
      have hon := hpaced.on hended
      omega
    | true =>
      have hgone := hpaced.gone hended
      omega
  · intro hturns
    -- if it still went on, each turn would have taken its four bytes, more than there are
    by_contra hended
    have hgoing : (after config sink items schedule).ended = false := Bool.not_eq_true _ ▸ hended
    have hlaps := laps_eq_turns hgoing
    have hon := hpaced.on hgoing
    rw [hbytes, List.length_append] at hturns
    omega
  · intro hended
    obtain ⟨actions, hrun⟩ := run_after config sink items schedule
    have hclosed := closed_of_ended rfl schedule hended
    have hbare := Run.bare_after config sink actions
    rw [← hrun] at hbare
    exact Run.shut_of_closed hclosed (hbare hclosed)
  · intro past more hschedule hgoing hgone k hk hticket hphase hslot
    subst hschedule
    refine ⟨?_, released_after config sink items past more hgoing hgone hk hticket hphase⟩
    rw [Call.lastWord, hslot]

end Reading

end Wwan
