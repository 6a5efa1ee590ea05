import Wwan.Proofs.Client.Ledger

/-!
# Runs without their observers

Whoever waits for the next message has an entry of its own in the table and a call of its own, and no
step of anybody else looks at either.  So what is left of a run without its observers (`Run.unobserved`)
goes on by itself: a step of the run leaves of it what the same step makes of what was left before, and
the results that calls return are those that they return there (`Run.unobserved_step`).
-/

namespace Wwan

variable {H : Type}

/-- The table without its observers. -/
def Table.unobserved (t : Table) : Table :=
  { t with observers := [] }

/-- The client without those who wait for the next message. -/
def Client.unobserved (c : Client H) : Client H :=
  { c with table := c.table.unobserved, calls := c.calls.filter fun k => k.ticket ≠ .observation }

/-- What is left of a run without its observers and its record. -/
def Run.unobserved (r : Run H) : Run H :=
  { r with client := r.client.unobserved, log := [] }

section Projections

variable (c : Client H) (r : Run H)

@[simp] theorem Client.table_unobserved : c.unobserved.table = c.table.unobserved := rfl

@[simp] theorem Client.notices_unobserved : c.unobserved.notices = c.notices := rfl

@[simp] theorem Client.config_unobserved : c.unobserved.config = c.config := rfl

@[simp] theorem Run.client_unobserved : r.unobserved.client = r.client.unobserved := rfl

@[simp] theorem Run.draft_unobserved : r.unobserved.draft = r.draft := rfl

@[simp] theorem Run.sink_unobserved : r.unobserved.sink = r.sink := rfl

end Projections

/-! ## Entries -/

namespace Table

/-- The search for a free number does not look at the observers. -/
theorem seek_unobserved (tries : Nat) (t : Table) :
    seek tries t.unobserved = ((seek tries t).1, (seek tries t).2.unobserved) := by
  induction tries generalizing t with
  | zero => rfl
  | succ tries ih =>
    rw [seek, seek]
    show (if (t.pending? (nextId t.cursor)).isSome then
      seek tries (Table.unobserved { t with cursor := nextId t.cursor }) else _) = _
    by_cases htaken : (t.pending? (nextId t.cursor)).isSome
    · simp only [if_pos htaken]
      exact ih _
    · simp only [if_neg htaken]
      rfl

theorem entry?_unobserved (t : Table) (kind : Message.Kind) : t.unobserved.entry? kind = t.entry? kind := by
  cases kind <;> rfl

end Table

namespace Call

variable {k : Call}

theorem outcome?_unobserved (h : k.ticket ≠ .observation) (t : Table) :
    k.outcome? t.unobserved = k.outcome? t := by
  have hheld : k.isHeld t.unobserved = k.isHeld t := by
    rcases hticket : k.ticket with _ | _ | id | _ <;> simp only [isHeld, hticket]
    · rfl
    · rfl
    · rfl
    · exact absurd hticket h
  rw [outcome?, outcome?, hheld]

theorem retract_unobserved (h : k.ticket ≠ .observation) (t : Table) :
    k.retract t.unobserved = (k.retract t).unobserved := by
  rcases hticket : k.ticket with _ | _ | id | _ <;> simp only [retract, hticket]
  · rfl
  · rfl
  · rfl
  · exact absurd hticket h

theorem withdraw_unobserved (h : k.ticket ≠ .observation) (t : Table) :
    k.withdraw t.unobserved = (k.withdraw t).unobserved := by
  rcases hticket : k.ticket with _ | _ | id | _ <;> simp only [withdraw, hticket]
  · rfl
  · rfl
  · rfl
  · exact absurd hticket h

/-- Who waits for the next message has no other entry. -/
theorem unobserved_withdraw (h : k.ticket = .observation) (t : Table) :
    (k.withdraw t).unobserved = t.unobserved := by
  simp only [withdraw, h]
  rfl

end Call

/-! ## Calls -/

namespace Client

variable {c : Client H}

theorem mem_calls_unobserved {k : Call} :
    k ∈ c.unobserved.calls ↔ k ∈ c.calls ∧ k.ticket ≠ .observation := by
  rw [unobserved, List.mem_filter, decide_eq_true_eq]

theorem Consistent.unobserved (h : c.Consistent) : c.unobserved.Consistent where
  calls_nodup := h.calls_nodup.sublist (List.filter_sublist.map _)
  call_le k hk := h.call_le k (mem_calls_unobserved.mp hk).1
  waiters_nodup := h.waiters_nodup
  waiter_le := h.waiter_le
  ids_nodup := h.ids_nodup
  id_ne_zero := h.id_ne_zero
  owner token ticket hholds := by
    have hticket : ticket ≠ .observation := by
      rintro rfl
      cases hholds
    have hholds' : c.table.Holds token ticket := by
      cases ticket <;> first | exact hholds | contradiction
    obtain ⟨k, hk, htoken, hawaits⟩ := h.owner token ticket hholds'
    exact ⟨k, mem_calls_unobserved.mpr ⟨hk, hawaits.ticket_eq ▸ hticket⟩, htoken, hawaits⟩

/-- A call that is no observer is found among the others, and nobody else is. -/
theorem Consistent.call?_cases (h : c.Consistent) (token : Nat) :
    (∃ k ∈ c.calls, k.token = token ∧ k.ticket ≠ .observation ∧ c.call? token = some k ∧
      c.unobserved.call? token = some k) ∨
    (c.unobserved.call? token = none ∧ ∀ k, c.call? token = some k → k.ticket = .observation) := by
  by_cases hcall : ∃ k ∈ c.calls, k.token = token ∧ k.ticket ≠ .observation
  · obtain ⟨k, hk, rfl, hticket⟩ := hcall
    exact .inl ⟨k, hk, rfl, hticket, h.call?_eq hk,
      h.unobserved.call?_eq (mem_calls_unobserved.mpr ⟨hk, hticket⟩)⟩
  · refine .inr ⟨?_, fun k hk => ?_⟩
    · rw [Option.eq_none_iff_forall_ne_some]
      intro k hk
      obtain ⟨hmem, htoken⟩ := of_call?_eq_some hk
      obtain ⟨hmem, hticket⟩ := mem_calls_unobserved.mp hmem
      exact hcall ⟨k, hmem, htoken, hticket⟩
    · obtain ⟨hmem, htoken⟩ := of_call?_eq_some hk
      by_contra hticket
      exact hcall ⟨k, hmem, htoken, hticket⟩

/-- Leaving calls out and changing the phase of one go in any order. -/
theorem unobserved_update (token : Nat) (phase : Phase) :
    (c.update token fun k => { k with phase }).unobserved
      = c.unobserved.update token fun k => { k with phase } := by
  have hcalls : (c.update token fun k => { k with phase }).unobserved.calls
      = (c.unobserved.update token fun k => { k with phase }).calls := by
    rw [unobserved, update, List.filter_map]
    show List.map _ _ = List.map _ (List.filter _ _)
    congr 2
    funext k
    show decide ((if k.token = token then { k with phase } else k).ticket ≠ .observation) = _
    split <;> rfl
  exact congrArg (fun calls => { c.unobserved with calls }) hcalls

theorem unobserved_sent (token : Nat) : (c.sent token).unobserved = c.unobserved.sent token :=
  unobserved_update token .waiting

theorem unobserved_drop (token : Nat) : (c.drop token).unobserved = c.unobserved.drop token := by
  have hcalls : (c.drop token).unobserved.calls = (c.unobserved.drop token).calls := by
    show List.filter _ (List.filter _ _) = List.filter _ (List.filter _ _)
    rw [List.filter_comm]
  exact congrArg (fun calls => { c.unobserved with calls }) hcalls

/-- Where there is no call with a token, there is nothing to change or to leave out. -/
theorem update_of_none {token : Nat} (h : c.call? token = none) (f : Call → Call) :
    c.update token f = c := by
  have hcalls : (c.update token f).calls = c.calls := by
    rw [call?, List.find?_eq_none] at h
    refine (List.map_congr_left fun k hk => ?_).trans (List.map_id c.calls)
    exact if_neg (by simpa using h k hk)
  exact congrArg (fun calls => { c with calls }) hcalls

theorem drop_of_none {token : Nat} (h : c.call? token = none) : c.drop token = c := by
  have hcalls : (c.drop token).calls = c.calls := by
    rw [call?, List.find?_eq_none] at h
    exact List.filter_eq_self.mpr fun k hk => by simpa using h k hk
  exact congrArg (fun calls => { c with calls }) hcalls

/-! ## Steps of the client -/

theorem enter_unobserved (p : Purpose) (t : Table) :
    enter p t.unobserved = ((enter p t).1, (enter p t).2.unobserved) := by
  rw [enter.eq_def, enter.eq_def]
  show (if t.closed then _ else _) = _
  by_cases hclosed : t.closed
  · simp only [if_pos hclosed]
  simp only [if_neg hclosed]
  cases p with
  | answer => rfl
  | oneWay => rfl
  | transaction =>
    simp only [Table.allocate, Table.seek_unobserved]
    rcases Table.seek 255 t with ⟨_ | id, t'⟩ <;> rfl

/-- No call that begins is an observer. -/
theorem ticket_of_enter {p : Purpose} {t t' : Table} {ticket : Ticket} {token : Nat}
    (h : enter p t = (.ok (ticket, token), t')) : ticket ≠ .observation := by
  rw [enter.eq_def] at h
  by_cases hclosed : t.closed
  · simp [hclosed] at h
  simp only [if_neg hclosed] at h
  cases p with
  | answer =>
    cases h
    simp
  | oneWay =>
    cases h
    simp
  | transaction =>
    rcases hseek : t.allocate with ⟨_ | id, t'⟩ <;> simp only [hseek] at h
    · cases h
    · cases h
      simp

theorem begin_unobserved (p : Purpose) (command : UInt32) (timeout : Span) (c : Client H) :
    c.unobserved.begin p command timeout
      = ((c.begin p command timeout).1, (c.begin p command timeout).2.unobserved) := by
  simp only [begin, table_unobserved, enter_unobserved]
  rcases henter : enter p c.table with ⟨e | ⟨ticket, token⟩, t⟩
  · rfl
  · have hkeep : decide (ticket ≠ .observation) = true := by simpa using ticket_of_enter henter
    simp only [unobserved, List.filter_append, List.filter_cons, List.filter_nil, hkeep, if_true]

/-- A step changes what is left of a client without its observers as it changes the client. -/
theorem Consistent.unobserved_expire (h : c.Consistent) (token : Nat) :
    (c.expire token).unobserved = c.unobserved.expire token := by
  obtain ⟨k, hk, rfl, hticket, hcall, hcall'⟩ | ⟨hnone, hobserver⟩ := h.call?_cases token
  · simp only [expire, hcall, hcall']
    rw [table_unobserved, Call.outcome?_unobserved hticket]
    split
    · exact unobserved_update _ _
    · rfl
  · simp only [expire, hnone]
    rcases hk : c.call? token with _ | k
    · rfl
    dsimp only
    split
    · rw [unobserved_update, update_of_none hnone]
    · rfl

theorem Consistent.unobserved_settle (h : c.Consistent) (token : Nat) :
    (c.settle token).unobserved = c.unobserved.settle token := by
  obtain ⟨k, hk, rfl, hticket, hcall, hcall'⟩ | ⟨hnone, hobserver⟩ := h.call?_cases token
  · simp only [settle, hcall, hcall']
    split
    · rw [unobserved_update, table_unobserved,
        Call.withdraw_unobserved hticket]
      rfl
    · rfl
  · simp only [settle, hnone]
    rcases hk : c.call? token with _ | k
    · rfl
    dsimp only
    split
    · rw [unobserved_update]
      have htable : Client.unobserved { c with table := k.withdraw c.table } = c.unobserved :=
        congrArg (fun table => { c.unobserved with table })
          (Call.unobserved_withdraw (hobserver k hk) c.table)
      rw [htable, update_of_none hnone]
    · rfl

theorem Consistent.unobserved_unsent (h : c.Consistent) {k : Call} (hk : k ∈ c.calls)
    (hticket : k.ticket ≠ .observation) :
    (c.unsent k.token).unobserved = c.unobserved.unsent k.token := by
  rw [h.unsent_eq hk, h.unobserved.unsent_eq (mem_calls_unobserved.mpr ⟨hk, hticket⟩), unobserved_drop,
    table_unobserved, Call.retract_unobserved hticket]
  rfl

/-- What a call returns that is no observer, and what is left then. -/
theorem Consistent.collect_unobserved (h : c.Consistent) {k : Call} (hk : k ∈ c.calls)
    (hticket : k.ticket ≠ .observation) :
    c.unobserved.collect k.token = ((c.collect k.token).1, (c.collect k.token).2.unobserved) := by
  have hcall := h.call?_eq hk
  have hcall' := h.unobserved.call?_eq (mem_calls_unobserved.mpr ⟨hk, hticket⟩)
  simp only [collect, hcall, hcall', Option.bind_some]
  rw [table_unobserved, Call.outcome?_unobserved hticket]
  rcases k.outcome? c.table with _ | result
  · rfl
  · simp only [unobserved_drop]

theorem route_unobserved (kind : Message.Kind) (t : Table) :
    route kind t.unobserved = ((route kind t).1, (route kind t).2.unobserved) := by
  cases kind with
  | response =>
    obtain ⟨closed, cursor, lastToken, waiters, pending, observers⟩ := t
    cases waiters <;> rfl
  | transaction id =>
    have hpending : t.unobserved.pending? id = t.pending? id := rfl
    show Table.advance id t.unobserved = ((Table.advance id t).1, (Table.advance id t).2.unobserved)
    rw [Table.advance, Table.advance, hpending]
    rcases t.pending? id with _ | p
    · rfl
    · dsimp only
      split <;> rfl
  | notice => rfl

/-- Whether a call that is no observer is told of a message does not depend on the observers. -/
theorem Consistent.isTold_unobserved (h : c.Consistent) {k : Call} (hk : k ∈ c.calls)
    (hticket : k.ticket ≠ .observation) (kind : Message.Kind) :
    isTold kind c.table.unobserved k = isTold kind c.table k := by
  have hnone : c.table.observers.contains k.token = false := by
    rw [List.contains_eq_mem, decide_eq_false_iff_not]
    exact fun hmem => hticket (h.of_observer hk hmem)
  rw [isTold, isTold, route_unobserved, hnone]
  rfl

theorem Consistent.unobserved_dispatch (h : c.Consistent) (m : Message) :
    (c.dispatch m).unobserved = c.unobserved.dispatch m := by
  have htable : (c.dispatch m).unobserved.table = (c.unobserved.dispatch m).table := by
    show (c.dispatch m).table.unobserved = _
    rw [table_dispatch, table_dispatch, table_unobserved,
      route_unobserved]
    rfl
  have hcalls : (c.dispatch m).unobserved.calls = (c.unobserved.dispatch m).calls := by
    show (c.dispatch m).calls.filter _ = _
    have hkeep : ((fun k : Call => decide (k.ticket ≠ .observation)) ∘ fun k =>
        if isTold (m.classify c.config.threshold) c.table k
          then k.receive (m.summary c.config.threshold) else k)
        = fun k => decide (k.ticket ≠ .observation) := by
      funext k
      show decide ((if _ then k.receive _ else k).ticket ≠ .observation) = _
      split <;> rfl
    rw [calls_dispatch, calls_dispatch, List.filter_map, hkeep]
    refine List.map_congr_left fun k hk => ?_
    obtain ⟨hmem, hticket⟩ := mem_calls_unobserved.mp hk
    rw [table_unobserved, h.isTold_unobserved hmem hticket]
    rfl
  calc (c.dispatch m).unobserved
    _ = { c.unobserved.dispatch m with
          table := (c.dispatch m).unobserved.table, calls := (c.dispatch m).unobserved.calls } := rfl
    _ = c.unobserved.dispatch m := by rw [htable, hcalls]

/-- Notices are handled whoever else waits. -/
theorem unobserved_handleNext : c.handleNext.unobserved = c.unobserved.handleNext := by
  rw [handleNext, handleNext, notices_unobserved]
  rcases c.notices with _ | ⟨m, rest⟩
  · rfl
  · dsimp only
    rw [handle, handle, show ({ c.unobserved with notices := rest } : Client H).handler? m.command
      = ({ c with notices := rest } : Client H).handler? m.command from rfl]
    rcases ({ c with notices := rest } : Client H).handler? m.command with _ | handler <;> rfl

end Client

/-! ## Steps of a run -/

namespace Run

variable {r : Run H}

/-- Whether an action is that of somebody who waits, or begins to wait, for the next message. -/
def observes (r : Run H) : Action H → Bool
  | .observe _ => true
  | .expire token | .settle token | .collect token =>
    (r.client.call? token).any fun k => k.ticket = .observation
  | _ => false

/-- What calls return in a step, but for those who wait for the next message. -/
def outcome (r : Run H) (a : Action H) : List (Option Nat × Except CallError Reply) :=
  if r.observes a then [] else ((r.step a).log.drop r.log.length).filterMap Event.result?

/-- What a step of a run comes to when its observers are left out. -/
structure Followed (r : Run H) (a : Action H) : Prop where
  unobserved_eq : (r.step a).unobserved = (r.unobserved.step a).unobserved
  log_eq : r.observes a = false → (r.step a).log = r.log ++ (r.unobserved.step a).log
  idle : r.observes a = true → r.unobserved.observes a = true ∨ r.unobserved.step a = r.unobserved

theorem unobserved_unobserved (r : Run H) : r.unobserved.unobserved = r.unobserved := by
  have hcalls : r.unobserved.client.unobserved.calls = r.unobserved.client.calls :=
    List.filter_eq_self.mpr fun k hk => by simpa using (Client.mem_calls_unobserved.mp hk).2
  exact congrArg (fun calls => { r.unobserved with client := { r.unobserved.client with calls } }) hcalls

/-- Of those who are left, nobody waits for the next message. -/
theorem observes_of_unobserved {a : Action H} (h : r.unobserved.observes a = true) :
    r.observes a = true := by
  have hnobody : ∀ token,
      ((r.unobserved.client.call? token).any fun k => k.ticket = .observation) = false := by
    intro token
    rcases hk : r.unobserved.client.call? token with _ | k
    · rfl
    · have hmem := (Client.of_call?_eq_some hk).1
      simpa using (Client.mem_calls_unobserved.mp hmem).2
  cases a with
  | observe timeout => rfl
  | expire token => exact absurd (h.symm.trans (hnobody token)) (by decide)
  | settle token => exact absurd (h.symm.trans (hnobody token)) (by decide)
  | collect token => exact absurd (h.symm.trans (hnobody token)) (by decide)
  | _ => cases h

section Followed

variable {a : Action H}

/-- The results of a step are those of the same step without the observers. -/
theorem Followed.outcome_eq (h : r.Followed a) : r.outcome a = r.unobserved.outcome a := by
  rw [outcome, outcome]
  by_cases hobserves : r.observes a = true
  · rw [if_pos hobserves]
    obtain hobserves' | hidle := h.idle hobserves
    · rw [if_pos hobserves']
    · rw [hidle]
      split <;> rfl
  · have hobserves' : ¬r.unobserved.observes a = true := fun hc => hobserves (observes_of_unobserved hc)
    rw [if_neg hobserves, if_neg hobserves', h.log_eq (Bool.not_eq_true _ ▸ hobserves), List.drop_left]
    rfl

/-- A step that nobody takes notice of but an observer at most. -/
theorem Followed.of_idle (h : r.step a = r) (h' : r.unobserved.step a = r.unobserved) : r.Followed a where
  unobserved_eq := by rw [h, h', unobserved_unobserved]
  log_eq _ := by rw [h, h', unobserved, List.append_nil]
  idle _ := .inr h'

/-- A step of an observer, of which the others take no notice. -/
theorem Followed.of_observer (h : (r.step a).unobserved = r.unobserved)
    (h' : r.unobserved.step a = r.unobserved) (hobserves : r.observes a = true) : r.Followed a where
  unobserved_eq := by rw [h, h', unobserved_unobserved]
  log_eq hc := absurd (hobserves.symm.trans hc) (by decide)
  idle _ := .inr h'

/-- A step of somebody else. -/
theorem Followed.of_step (client : Client H) (sink : Sink) (draft : Option (Nat × Request))
    (events : List Event) (h : r.step a = ⟨client, sink, draft, r.log ++ events⟩)
    (h' : r.unobserved.step a = ⟨client.unobserved, sink, draft, events⟩)
    (hobserves : r.observes a = false) : r.Followed a where
  unobserved_eq := by
    rw [h, h']
    exact (unobserved_unobserved ⟨client, sink, draft, []⟩).symm
  log_eq _ := by rw [h, h']
  idle hc := absurd (hobserves.symm.trans hc) (by decide)

/-- A step of somebody else that changes the client only. -/
theorem Followed.of_client {client : Client H} (h : r.step a = { r with client })
    (h' : r.unobserved.step a = { r.unobserved with client := client.unobserved })
    (hobserves : r.observes a = false) : r.Followed a :=
  .of_step client r.sink r.draft [] (by rw [h, List.append_nil]) h' hobserves

end Followed

theorem followed_start (p : Purpose) (command : UInt32) (body : Bytes) (timeout : Span) (r : Run H) :
    r.Followed (.start p command body timeout) := by
  have hbegin := Client.begin_unobserved p command timeout r.client
  by_cases hbusy : r.draft.isSome
  · exact .of_idle (if_pos hbusy) (if_pos hbusy)
  rcases h : r.client.begin p command timeout with ⟨e | k, c⟩ <;> rw [h] at hbegin
  · refine .of_step c r.sink r.draft [.refused e] ?_ ?_ rfl
    · simp only [step, start, if_neg hbusy, h]
    · have hfree : ¬r.unobserved.draft.isSome := hbusy
      simp only [step, start, if_neg hfree, client_unobserved, hbegin]
      rfl
  · refine .of_step c r.sink (some (k.token, { command, transaction := k.ticket.number?, body }))
      [.started k.token k.ticket] ?_ ?_ rfl
    · simp only [step, start, if_neg hbusy, h]
    · have hfree : ¬r.unobserved.draft.isSome := hbusy
      simp only [step, start, if_neg hfree, client_unobserved, hbegin]
      rfl

theorem followed_write (hc : r.client.Consistent) (hl : r.Ledger) : r.Followed .write := by
  rcases hdraft : r.draft with _ | ⟨token, request⟩
  · refine .of_idle ?_ ?_
    · simp only [step, write, hdraft]
    · simp only [step, write, draft_unobserved, hdraft]
  obtain ⟨k, hk, rfl, hticket, -⟩ := hl.drafted token request hdraft
  rcases hsend : Outbox.send r.client.config.maxMessage request r.sink with ⟨e | _, sink⟩
  · refine .of_step (r.client.unsent k.token) sink none
      [.unwritten k.token, .returned k.token (.error e)] ?_ ?_ rfl
    · simp only [step, write, hdraft, hsend]
    · simp only [step, write, draft_unobserved, hdraft]
      rw [hc.unobserved_unsent hk hticket]
      simp only [client_unobserved, Client.config_unobserved,
        sink_unobserved, hsend]
      rfl
  · refine .of_step (r.client.sent k.token) sink none [.written k.token request] ?_ ?_ rfl
    · simp only [step, write, hdraft, hsend]
    · simp only [step, write, draft_unobserved, hdraft]
      rw [Client.unobserved_sent]
      simp only [client_unobserved, Client.config_unobserved,
        sink_unobserved, hsend]
      rfl

/-- Who begins to wait for the next message takes a token, and nothing else. -/
theorem unobserved_observe (timeout : Span) (r : Run H) : (r.observe timeout).unobserved
    = if r.client.table.closed then r.unobserved
      else { r.unobserved with client := { r.unobserved.client with
        table := { r.unobserved.client.table with lastToken := r.client.table.lastToken + 1 } } } := by
  rw [observe, Client.observe]
  by_cases hclosed : r.client.table.closed
  · rw [if_pos hclosed, if_pos hclosed]
    rfl
  · rw [if_neg hclosed, if_neg hclosed]
    have hcalls : (r.client.calls ++
        [{ token := r.client.table.lastToken + 1, ticket := .observation, command := 0, timeout,
            phase := .waiting : Call }]).filter (fun k => k.ticket ≠ .observation)
          = r.unobserved.client.calls := by
      rw [List.filter_append, List.filter_cons_of_neg (by simp), List.filter_nil, List.append_nil]
      rfl
    exact congrArg (fun calls => { r.unobserved with client := { r.unobserved.client with
      table := { r.unobserved.client.table with lastToken := r.client.table.lastToken + 1 }, calls } })
      hcalls

theorem followed_observe (timeout : Span) (r : Run H) : r.Followed (.observe timeout) := by
  refine ⟨?_, fun h => absurd h (by simp [observes]), fun _ => .inl rfl⟩
  show (r.observe timeout).unobserved = (r.unobserved.observe timeout).unobserved
  rw [unobserved_observe, unobserved_observe, unobserved_unobserved]
  rfl

/-- For a call that is not there nothing can be done. -/
theorem step_of_absent {token : Nat} (h : r.client.call? token = none) :
    r.step (.expire token) = r ∧ r.step (.settle token) = r ∧ r.step (.collect token) = r := by
  refine ⟨?_, ?_, ?_⟩
  · simp only [step, expire, h]
  · simp only [step, settle, h]
  · simp only [step, collect, Client.collect, h, Option.bind_none]

section Calls

variable (hc : r.client.Consistent) (token : Nat)
include hc

theorem followed_expire : r.Followed (.expire token) := by
  have hclient := hc.unobserved_expire token
  obtain ⟨k, hk, rfl, hticket, hcall, hcall'⟩ | ⟨hnone, hobserver⟩ := hc.call?_cases token
  · have houtcome := Call.outcome?_unobserved hticket r.client.table
    by_cases hover : k.phase = .waiting ∧ (k.outcome? r.client.table).isNone
    · refine .of_step (r.client.expire k.token) r.sink r.draft [.expired k.token] ?_ ?_
        (by simp [observes, hcall, hticket])
      · simp only [step, expire, hcall, if_pos hover]
      · rw [← houtcome] at hover
        simp only [step, expire, client_unobserved, hcall', hclient]
        exact if_pos hover
    · refine .of_idle ?_ ?_
      · simp only [step, expire, hcall, if_neg hover]
      · rw [← houtcome] at hover
        simp only [step, expire, client_unobserved, hcall']
        exact if_neg hover
  · -- an observer at most, whom the others do not know
    have hidle : r.unobserved.step (.expire token) = r.unobserved := (step_of_absent hnone).1
    rcases hk : r.client.call? token with _ | k
    · exact .of_idle (step_of_absent hk).1 hidle
    · refine .of_observer ?_ hidle (by simp [observes, hk, hobserver k hk])
      simp only [step, expire, hk]
      split
      · have hsame : (r.client.expire token).unobserved = r.client.unobserved := by
          rw [hclient, Client.expire, hnone]
        exact congrArg (fun client => { r.unobserved with client }) hsame
      · rfl

theorem followed_settle : r.Followed (.settle token) := by
  have hclient := hc.unobserved_settle token
  obtain ⟨k, hk, rfl, hticket, hcall, hcall'⟩ | ⟨hnone, hobserver⟩ := hc.call?_cases token
  · by_cases hover : k.phase = .expired
    · refine .of_step (r.client.settle k.token) r.sink r.draft [.withdrawn k.token] ?_ ?_
        (by simp [observes, hcall, hticket])
      · simp only [step, settle, hcall, if_pos hover]
      · simp only [step, settle, client_unobserved, hcall', hclient]
        exact if_pos hover
    · refine .of_idle ?_ ?_
      · simp only [step, settle, hcall, if_neg hover]
      · simp only [step, settle, client_unobserved, hcall']
        exact if_neg hover
  · -- an observer at most, whom the others do not know
    have hidle : r.unobserved.step (.settle token) = r.unobserved := (step_of_absent hnone).2.1
    rcases hk : r.client.call? token with _ | k
    · exact .of_idle (step_of_absent hk).2.1 hidle
    · refine .of_observer ?_ hidle (by simp [observes, hk, hobserver k hk])
      simp only [step, settle, hk]
      split
      · have hsame : (r.client.settle token).unobserved = r.client.unobserved := by
          rw [hclient, Client.settle, hnone]
        exact congrArg (fun client => { r.unobserved with client }) hsame
      · rfl

theorem followed_collect : r.Followed (.collect token) := by
  obtain ⟨k, hk, rfl, hticket, hcall, hcall'⟩ | ⟨hnone, hobserver⟩ := hc.call?_cases token
  · have hclient := hc.collect_unobserved hk hticket
    rcases hcollect : r.client.collect k.token with ⟨_ | result, client⟩ <;> rw [hcollect] at hclient
    · refine .of_idle ?_ ?_
      · simp only [step, collect, hcollect]
      · simp only [step, collect, client_unobserved, hclient]
    · refine .of_step client r.sink r.draft [.returned k.token result] ?_ ?_
        (by simp [observes, hcall, hticket])
      · simp only [step, collect, hcollect]
      · simp only [step, collect, client_unobserved, hclient]
        rfl
  · -- an observer at most, whom the others do not know
    have hidle : r.unobserved.step (.collect token) = r.unobserved := (step_of_absent hnone).2.2
    rcases hk : r.client.call? token with _ | k
    · exact .of_idle (step_of_absent hk).2.2 hidle
    · refine .of_observer ?_ hidle (by simp [observes, hk, hobserver k hk])
      simp only [step, collect, Client.collect, hk, Option.bind_some]
      rcases k.outcome? r.client.table with _ | result
      · rfl
      · have hsame : (r.client.drop token).unobserved = r.client.unobserved := by
          rw [Client.unobserved_drop, Client.drop_of_none hnone]
        exact congrArg (fun client => { r.unobserved with client }) hsame

theorem followed_dispatch (m : Message) : r.Followed (.dispatch m) := by
  refine .of_step (r.client.dispatch m) r.sink r.draft
    [.arrived m (m.classify r.client.config.threshold)
      (r.client.table.entry? (m.classify r.client.config.threshold))
      (Client.route (m.classify r.client.config.threshold) r.client.table).1] rfl ?_ rfl
  rw [hc.unobserved_dispatch, ← Table.entry?_unobserved]
  simp only [step, dispatch, client_unobserved,
    Client.table_unobserved, Client.route_unobserved]
  rfl

end Calls

/-- A step of a run changes what is left of it without its observers as it changes the run. -/
theorem followed (hc : r.client.Consistent) (hl : r.Ledger) (a : Action H) : r.Followed a := by
  cases a with
  | start p command body timeout => exact followed_start p command body timeout r
  | write => exact followed_write hc hl
  | observe timeout => exact followed_observe timeout r
  | expire token => exact followed_expire hc token
  | settle token => exact followed_settle hc token
  | collect token => exact followed_collect hc token
  | dispatch m => exact followed_dispatch hc m
  | close => exact .of_step r.client.close r.sink r.draft [.closed] rfl rfl rfl
  | handle =>
    refine .of_client rfl ?_ rfl
    rw [Client.unobserved_handleNext]
    rfl
  | register command handler => exact .of_client rfl rfl rfl
  | unregister command => exact .of_client rfl rfl rfl

/-- The results of a step and what it leaves without the observers are those of the same step where the
observers have been left out. -/
theorem unobserved_step (h : r.Sound) (a : Action H) :
    (r.step a).unobserved = (r.unobserved.step a).unobserved ∧ r.outcome a = r.unobserved.outcome a :=
  ⟨(followed h.consistent h.ledger a).unobserved_eq, (followed h.consistent h.ledger a).outcome_eq⟩

/-- A step that does nothing without the observers leaves the others as they are. -/
theorem step_of_idle (h : r.Sound) {a : Action H} (hidle : r.unobserved.step a = r.unobserved) :
    (r.step a).unobserved = r.unobserved ∧ r.outcome a = [] := by
  obtain ⟨hstep, houtcome⟩ := unobserved_step h a
  rw [hstep, houtcome, outcome, hidle, unobserved_unobserved]
  refine ⟨rfl, ?_⟩
  split <;> rfl

end Run

end Wwan
