import Wwan.Proofs.Client.Answers
import Wwan.Proofs.Client.Turns

/-!
# The end of the channel

The channel of a client ends when its reader does or when the client is shut down, while its callers may
be anywhere between taking the writer and returning, and messages may be dispatched afterwards.
`Run.closing_is_final` says what comes of it: the table is empty from then on and takes no entry, whoever
wants to begin a call is refused, and every call that waits returns what it was handed, or else that the
channel has ended.
-/

namespace Wwan

variable {H : Type}

/-! ## A table without entries -/

theorem Table.closed_enroll (token : Nat) (ticket : Ticket) (t : Table) :
    (t.enroll token ticket).closed = t.closed := by
  cases ticket <;> rfl

/-- Whether a table has no entry. -/
structure Table.Bare (t : Table) : Prop where
  waiters_eq : t.waiters = []
  pending_eq : t.pending = []
  observers_eq : t.observers = []

namespace Table.Bare

variable {t : Table}

theorem retract (h : t.Bare) (k : Call) : (k.retract t).Bare := by
  obtain ⟨hwaiters, hpending, hobservers⟩ := h
  rw [Call.retract]
  cases k.ticket <;> constructor <;> simp [forget, release, unobserve, hwaiters, hpending, hobservers]

theorem withdraw (h : t.Bare) (k : Call) : (k.withdraw t).Bare := by
  obtain ⟨hwaiters, hpending, hobservers⟩ := h
  rw [Call.withdraw]
  cases k.ticket <;> constructor <;> simp [abandon, release, unobserve, hwaiters, hpending, hobservers]

/-- A message that meets no entry changes nothing and is handed to nobody. -/
theorem route (h : t.Bare) (kind : Message.Kind) : Client.route kind t = (none, t) := by
  cases kind with
  | response => rw [Client.route, answer, h.waiters_eq]
  | transaction id =>
    have hnone : t.pending? id = none := by rw [pending?, h.pending_eq, List.find?_nil]
    rw [Client.route, advance, hnone]
  | notice => rfl

theorem isHeld (h : t.Bare) (k : Call) : k.isHeld t = false := by
  obtain ⟨hwaiters, hpending, hobservers⟩ := h
  rw [Call.isHeld]
  cases k.ticket <;> simp [hwaiters, hpending, hobservers]

theorem dispatch {c : Client H} (h : c.table.Bare) (m : Message) :
    (c.dispatch m).table.Bare ∧ (c.dispatch m).calls = c.calls := by
  rw [Client.table_dispatch, h.route, Client.calls_dispatch]
  refine ⟨⟨h.waiters_eq, h.pending_eq, rfl⟩, ?_⟩
  refine (List.map_congr_left fun k _ => ?_).trans (List.map_id _)
  have huntold : Client.isTold (m.classify c.config.threshold) c.table k = false := by
    rw [Client.isTold_eq_false_iff, h.route, h.observers_eq]
    simp
  rw [huntold]
  rfl

end Table.Bare

/-- Every move keeps a closed client's table without entries, and closing one takes them away. -/
theorem Move.bare {r r' : Run H} (hmove : Move r r')
    (h : r.client.table.closed = true → r.client.table.Bare)
    (hclosed : r'.client.table.closed = true) : r'.client.table.Bare := by
  cases hmove with
  | idle table_eq _ _ =>
    rw [table_eq] at hclosed ⊢
    exact h hclosed
  | refuse e cursor =>
    obtain ⟨hwaiters, hpending, hobservers⟩ := h hclosed
    exact ⟨hwaiters, hpending, hobservers⟩
  | @start k _ cursor hk =>
    -- nobody enters the table of a closed client
    rw [Table.closed_enroll, hk.isOpen] at hclosed
    cases hclosed
  | @unwritten token _ _ _ _ _ =>
    rw [Client.unsent] at hclosed ⊢
    rcases hk : r.client.call? token with _ | k <;> simp only [hk] at hclosed ⊢
    · exact h hclosed
    · exact (h (Table.closed_retract k _ ▸ hclosed)).retract k
  | @settle k _ _ => exact (h (Table.closed_withdraw k _ ▸ hclosed)).withdraw k
  | dispatch m =>
    have hbefore : r.client.table.closed = true :=
      (Table.closed_route (m.classify r.client.config.threshold) _).symm.trans hclosed
    exact ((h hbefore).dispatch m).1
  | close => exact ⟨rfl, rfl, rfl⟩
  | _ => exact h hclosed

/-- In every state of every run, a closed client's table has no entry. -/
theorem Run.bare_after (config : ClientConfig) (sink : Sink) (actions : List (Action H)) :
    (after config sink actions).client.table.closed = true →
      (after config sink actions).client.table.Bare :=
  after_of_move (P := fun r => r.client.table.closed = true → r.client.table.Bare) (fun h => by cases h)
    (fun hmove h => hmove.bare h) actions

/-! ## Callers who come too late -/

namespace Client

variable {c : Client H}

theorem begin_of_closed (h : c.table.closed = true) (p : Purpose) (command : UInt32) (timeout : Span) :
    c.begin p command timeout = (.error .channelClosed, c) := by
  simp only [begin, enter.eq_def, if_pos h]

theorem observe_of_closed (h : c.table.closed = true) (timeout : Span) :
    c.observe timeout = (.error .channelClosed, c) := by
  rw [observe, if_pos h]

end Client

/-- A client whose channel has ended. -/
structure Run.Shut (r : Run H) : Prop where
  closed_eq : r.client.table.closed = true
  waiters_eq : r.client.table.waiters = []
  pending_eq : r.client.table.pending = []
  observers_eq : r.client.table.observers = []
  /-- Whoever takes the writer to begin a call is refused; nothing is written for it, and it gets neither a
  number nor an entry.  While another has the writer it waits for that, -/
  refused : ∀ p command body timeout, r.step (.start p command body timeout)
    = if r.draft.isSome then r else { r with log := r.log ++ [.refused .channelClosed] }
  /-- and it is refused when that one gives the writer back. -/
  refused_next : ∀ p command body timeout, (r.step .write).step (.start p command body timeout)
    = { r.step .write with log := (r.step .write).log ++ [.refused .channelClosed] }
  /-- Whoever wants to wait for the next message is refused. -/
  unobserved : ∀ timeout, r.step (.observe timeout) = { r with log := r.log ++ [.refused .channelClosed] }

theorem Run.shut_of_closed {r : Run H} (hclosed : r.client.table.closed = true)
    (hbare : r.client.table.Bare) : r.Shut where
  closed_eq := hclosed
  waiters_eq := hbare.waiters_eq
  pending_eq := hbare.pending_eq
  observers_eq := hbare.observers_eq
  refused p command body timeout := by
    rw [step, start, Client.begin_of_closed hclosed]
  refused_next p command body timeout := by
    have hnext : r.write.client.table.closed = true := (move_write r).closed hclosed
    rw [step, step, start, if_neg (by rw [draft_write]; simp), Client.begin_of_closed hnext]
  unobserved timeout := by
    rw [step, observe, Client.observe_of_closed hclosed]

/-! ## Calls that are cut off -/

/-- What a call returns that is cut off: what it makes of the message in its slot, or else that the channel
has ended. -/
def Call.lastWord (k : Call) : Except CallError Reply :=
  match k.slot with
  | some s => k.conclude s
  | none => .error .channelClosed

/-- What has become of a call that was `k` when the channel ended: it gets nothing any more, and at most its
request is written. -/
structure Run.CutOff (k : Call) (r : Run H) : Prop where
  closed_eq : r.client.table.closed = true
  bare : r.client.table.Bare
  call : ∀ k' ∈ r.client.calls, k'.token = k.token →
    k'.ticket = k.ticket ∧ k'.slot = k.slot ∧ (k'.phase = .waiting ∨ k'.phase = .sending ∧ k.phase = .sending)
  returned : ∀ result, .returned k.token result ∈ r.log →
    result = k.lastWord ∨ k.phase = .sending ∧ .unwritten k.token ∈ r.log ∧ ∃ e, result = .error e

/-- A waiting call whose entry is gone is decided. -/
theorem Call.outcome?_of_bare {t : Table} (h : t.Bare) {k : Call} (hticket : k.ticket ≠ .oneWay)
    (hphase : k.phase = .waiting) : k.outcome? t = some k.lastWord := by
  rw [outcome?, hphase, h.isHeld, lastWord]
  simp only [if_neg hticket]
  rcases k.slot with _ | s <;> rfl

theorem Call.lastWord_congr {k k' : Call} (hticket : k'.ticket = k.ticket) (hslot : k'.slot = k.slot) :
    k'.lastWord = k.lastWord := by
  rw [lastWord, lastWord, hslot]
  rcases k.slot with _ | s
  · rfl
  · simp only [conclude, hticket]

namespace Run.CutOff

variable {r : Run H} {k : Call}

/-- What a move has to keep of a call that was cut off. -/
theorem of_step {r' : Run H} (h : r.CutOff k) (hmove : Move r r') (events : List Event)
    (hlog : r'.log = r.log ++ events)
    (hcalls : ∀ k' ∈ r'.client.calls, k'.token = k.token → ∃ k₀ ∈ r.client.calls, k₀.token = k.token ∧
      k'.ticket = k₀.ticket ∧ k'.slot = k₀.slot ∧ (k'.phase = k₀.phase ∨ k'.phase = .waiting))
    (hreturned : ∀ result, .returned k.token result ∈ events → result = k.lastWord ∨
      k.phase = .sending ∧ .unwritten k.token ∈ events ∧ ∃ e, result = .error e) : r'.CutOff k where
  closed_eq := hmove.closed h.closed_eq
  bare := hmove.bare (fun _ => h.bare) (hmove.closed h.closed_eq)
  call k' hk' htoken := by
    obtain ⟨k₀, hk₀, htoken₀, hticket, hslot, hphase⟩ := hcalls k' hk' htoken
    obtain ⟨hticket₀, hslot₀, hphase₀⟩ := h.call k₀ hk₀ htoken₀
    refine ⟨hticket.trans hticket₀, hslot.trans hslot₀, ?_⟩
    obtain hphase | hphase := hphase
    · rwa [hphase]
    · exact .inl hphase
  returned result hmem := by
    rw [hlog, List.mem_append] at hmem
    rw [hlog]
    obtain hmem | hmem := hmem
    · exact (h.returned result hmem).imp_right fun ⟨hphase, hunwritten, he⟩ =>
        ⟨hphase, List.mem_append_left _ hunwritten, he⟩
    · exact (hreturned result hmem).imp_right fun ⟨hphase, hunwritten, he⟩ =>
        ⟨hphase, List.mem_append_right _ hunwritten, he⟩

end Run.CutOff

/-- Every move keeps a call that was cut off so. -/
theorem Move.cutOff {r r' : Run H} (hmove : Move r r') (hc : r.client.Consistent) (hl : r.Ledger)
    {k : Call} (hticket : k.ticket ≠ .oneWay) (h : r.CutOff k) : r'.CutOff k := by
  have hsame : ∀ k' ∈ r.client.calls, k'.token = k.token → ∃ k₀ ∈ r.client.calls, k₀.token = k.token ∧
      k'.ticket = k₀.ticket ∧ k'.slot = k₀.slot ∧ (k'.phase = k₀.phase ∨ k'.phase = .waiting) :=
    fun k' hk' htoken => ⟨k', hk', htoken, rfl, rfl, .inl rfl⟩
  -- a call that has got on to waiting is decided
  have hdecided : ∀ k' ∈ r.client.calls, k'.token = k.token → k'.phase = .waiting →
      k'.outcome? r.client.table = some k.lastWord := by
    intro k' hk' htoken hphase
    obtain ⟨hticket', hslot, -⟩ := h.call k' hk' htoken
    rw [Call.outcome?_of_bare h.bare (hticket' ▸ hticket) hphase, Call.lastWord_congr hticket' hslot]
  cases hmove with
  | idle table_eq calls_eq config_eq =>
    refine h.of_step (.idle table_eq calls_eq config_eq) [] (List.append_nil _).symm ?_ (by simp)
    rw [calls_eq]
    exact hsame
  | refuse e cursor => exact h.of_step (.refuse e cursor) [.refused e] rfl hsame (by simp)
  | start cursor hk =>
    have hopen := hk.isOpen
    rw [h.closed_eq] at hopen
    cases hopen
  | @written token request sink draft_eq send_eq =>
    refine h.of_step (.written draft_eq send_eq) [.written token request] rfl ?_ (by simp)
    intro k' hk' htoken
    obtain ⟨k₀, hk₀, rfl⟩ := Client.mem_calls_update.mp hk'
    by_cases hthis : k₀.token = token
    · rw [if_pos hthis] at htoken ⊢
      exact ⟨k₀, hk₀, htoken, rfl, rfl, .inr rfl⟩
    · rw [if_neg hthis] at htoken ⊢
      exact hsame k₀ hk₀ htoken
  | @unwritten token request sink e draft_eq send_eq =>
    obtain ⟨k₀, hk₀, rfl, -⟩ := hl.drafted token request draft_eq
    refine h.of_step (.unwritten draft_eq send_eq)
      [.unwritten k₀.token, .returned k₀.token (.error e)] rfl ?_ ?_
    · intro k' hk' htoken
      rw [hc.unsent_eq hk₀] at hk'
      exact hsame k' (Client.mem_calls_drop.mp hk').1 htoken
    · intro result hmem
      obtain ⟨htoken, rfl⟩ : k.token = k₀.token ∧ result = .error e := by simpa using hmem
      -- the request is that of the call, so that the call was being sent all the time
      have hphase : k₀.phase = .sending := (hl.writer k₀ hk₀).mpr (by rw [draft_eq]; rfl)
      obtain ⟨-, -, hwaiting | ⟨-, hsending⟩⟩ := h.call k₀ hk₀ htoken.symm
      · rw [hphase] at hwaiting
        cases hwaiting
      · exact .inr ⟨hsending, by simp [htoken], e, rfl⟩
  | @expire k₀ mem phase_eq undecided =>
    have hne : k.token ≠ k₀.token := by
      intro htoken
      rw [hdecided k₀ mem htoken.symm phase_eq] at undecided
      cases undecided
    refine h.of_step (.expire mem phase_eq undecided) [.expired k₀.token] rfl ?_ (by simp)
    exact fun k' hk' htoken => hsame k' (Client.mem_calls_of_update_ne hk' (htoken.trans_ne hne)) htoken
  | @settle k₀ mem phase_eq =>
    have hne : k.token ≠ k₀.token := by
      intro htoken
      obtain ⟨-, -, hphase⟩ := h.call k₀ mem htoken.symm
      simp [phase_eq] at hphase
    refine h.of_step (.settle mem phase_eq) [.withdrawn k₀.token] rfl ?_ (by simp)
    exact fun k' hk' htoken => hsame k' (Client.mem_calls_of_update_ne hk' (htoken.trans_ne hne)) htoken
  | @collect k₀ result mem decided =>
    refine h.of_step (.collect mem decided) [.returned k₀.token result] rfl ?_ ?_
    · exact fun k' hk' htoken => hsame k' (Client.mem_calls_drop.mp hk').1 htoken
    · intro result' hmem
      obtain ⟨htoken, rfl⟩ : k.token = k₀.token ∧ result' = result := by simpa using hmem
      obtain ⟨-, -, hphase | ⟨hphase, -⟩⟩ := h.call k₀ mem htoken.symm
      · rw [hdecided k₀ mem htoken.symm hphase] at decided
        exact .inl (Option.some_inj.mp decided).symm
      · rw [Call.outcome?, hphase] at decided
        cases decided
  | dispatch m =>
    refine h.of_step (.dispatch m) [.arrived m _ _ _] rfl ?_ (by simp)
    show ∀ k' ∈ (r.client.dispatch m).calls, _
    rw [(h.bare.dispatch m).2]
    exact hsame
  | close => exact h.of_step .close [.closed] rfl hsame (by simp)

namespace Run

/-- What becomes of a call that was `k` when the channel ended, in any later state. -/
structure Released (k : Call) (r : Run H) : Prop where
  /-- If it returns, then the reply that was in its slot, or else that the channel has ended; only a call
  whose request was still to be written may also return that this failed. -/
  returned : ∀ result, .returned k.token result ∈ r.log → result = k.lastWord ∨
    k.phase = .sending ∧ .unwritten k.token ∈ r.log ∧ ∃ e, result = .error e
  /-- And it returns as soon as it is asked to, once its request is written. -/
  returns : (∃ result, .returned k.token result ∈ r.log) ∨
    k.phase = .sending ∧ r.draft.map Prod.fst = some k.token ∨
    .returned k.token k.lastWord ∈ (r.step (.collect k.token)).log

theorem CutOff.released {r : Run H} {k : Call} (h : r.CutOff k) (hr : r.Sound)
    (hticket : k.ticket ≠ .oneWay) (hstarted : k.token ∈ starts r.log) : r.Released k where
  returned := h.returned
  returns := by
    obtain hcall | hreturned := hr.ledger.present k.token hstarted
    · obtain ⟨k', hk', htoken⟩ := List.mem_map.mp hcall
      obtain ⟨hticket', hslot, hphase | ⟨hphase, hsending⟩⟩ := h.call k' hk' htoken
      · refine .inr (.inr ?_)
        have hdecided := Call.outcome?_of_bare h.bare (hticket' ▸ hticket) hphase
        rw [Call.lastWord_congr hticket' hslot] at hdecided
        rw [step, ← htoken, log_collect hr.consistent hk' hdecided]
        exact List.mem_append_right _ (List.mem_singleton_self _)
      · exact .inr (.inl ⟨hsending, htoken ▸ (hr.ledger.writer k' hk').mp hphase⟩)
    · exact .inl hreturned

/-- A call in progress is cut off when the channel ends. -/
theorem cutOff_close {r : Run H} (hr : r.Sound) {k : Call} (hk : k ∈ r.client.calls)
    (hphase : k.phase = .sending ∨ k.phase = .waiting) : r.close.CutOff k where
  closed_eq := rfl
  bare := ⟨rfl, rfl, rfl⟩
  call k' hk' htoken := by
    obtain rfl := hr.consistent.eq_of_token hk' hk htoken
    exact ⟨rfl, rfl, hphase.symm.imp_right fun h => ⟨h, h⟩⟩
  returned result hmem := by
    obtain hmem | hmem := List.mem_append.mp hmem
    · exact absurd hmem (hr.ledger.unreturned k hk result)
    · simp at hmem

theorem cutOff_foldl {r : Run H} (hr : r.Sound) {k : Call} (hticket : k.ticket ≠ .oneWay)
    (h : r.CutOff k) (actions : List (Action H)) : (actions.foldl step r).CutOff k := by
  induction actions generalizing r with
  | nil => exact h
  | cons a actions ih =>
    exact ih (hr.step a) ((move_step r a).cutOff hr.consistent hr.ledger hticket h)

theorem closed_foldl {r : Run H} (h : r.client.table.closed = true) (actions : List (Action H)) :
    (actions.foldl step r).client.table.closed = true := by
  induction actions generalizing r with
  | nil => exact h
  | cons a actions ih => exact ih ((move_step r a).closed h)

/-- Once it is closed, a client is shut in all that comes. -/
theorem shut_after {config : ClientConfig} {sink : Sink} {past : List (Action H)}
    (h : (after config sink past).client.table.closed = true) (more : List (Action H)) :
    (after config sink (past ++ more)).Shut := by
  have hlater : (after config sink (past ++ more)).client.table.closed = true := by
    rw [after_append]
    exact closed_foldl h more
  exact shut_of_closed hlater (bare_after config sink _ hlater)

theorem closed_after_close (config : ClientConfig) (sink : Sink) (past : List (Action H)) :
    (after config sink (past ++ [.close])).client.table.closed = true := by
  rw [after_append_singleton]
  rfl

/-- The end of the channel is final and meets everybody, in every run of a client and at any time.  The client is
closed when it is shut down, and when its reader goes; once it is closed it stays so, without an entry in its
table, and refuses whoever comes, whatever else happens; and every call that waits for something when the channel
ends returns what was in its slot then, or else that the channel has ended. -/
theorem closing_is_final (config : ClientConfig) (sink : Sink) (past more : List (Action H)) :
    (after config sink (past ++ .close :: more)).Shut ∧
    (∀ d : Reading H, d.ended = false → d.turn.ended = true → d.turn.run = d.run.step .close) ∧
    ((after config sink past).client.table.closed = true → (after config sink (past ++ more)).Shut) ∧
    ∀ k ∈ (after config sink past).client.calls, k.ticket ≠ .oneWay →
      k.phase = .sending ∨ k.phase = .waiting → (after config sink (past ++ .close :: more)).Released k := by
  refine ⟨?_, fun d hgoing hgone => Reading.run_turn_gone hgoing hgone, fun hclosed => shut_after hclosed more, ?_⟩
  · have hshut := shut_after (closed_after_close config sink past) more
    rwa [List.append_assoc] at hshut
  · intro k hk hticket hphase
    have hr := sound_after config sink past
    have hsplit : after config sink (past ++ .close :: more)
        = more.foldl step (after config sink past).close := List.foldl_append
    have hclosed : (after config sink past).close.Sound := hr.step .close
    have hlater := sound_after config sink (past ++ .close :: more)
    have hgrows := log_foldl (after config sink past).close more
    rw [← hsplit] at hgrows
    have hstarted := mem_starts (hgrows.subset (List.mem_append_left _ (hr.ledger.account k hk).started))
    have hcutOff := cutOff_foldl hclosed hticket (cutOff_close hr hk hphase) more
    rw [← hsplit] at hcutOff
    exact hcutOff.released hlater hticket hstarted

/-- A transaction has its result in its slot, an answer is awaited, somebody waits for the next message and a
request is yet to be written. -/
def busyRun : List (Action Unit) :=
  [.start .transaction 5 [] ⟨0⟩, .write, .dispatch ⟨16, 16, 5, transactionWord 1, []⟩,
    .dispatch ⟨23, 23, 5, transactionWord 1, [2, 4, 0, 0, 0, 1, 7]⟩, .start .answer 6 [] ⟨0⟩, .write,
    .observe ⟨0⟩, .start .answer 7 [] ⟨0⟩]

/-- An answer comes too late, the time of a call passes, the request is written, another call is tried, and all
calls return. -/
def aftermath : List (Action Unit) :=
  [.dispatch ⟨17, 17, 6, syncWord, [8]⟩, .expire 2, .write, .start .transaction 8 [] ⟨0⟩, .collect 1, .collect 2,
    .collect 3, .collect 4]

theorem closing_is_final_busy :
    (after {} {} busyRun).client.table.closed = false ∧ (after {} {} (busyRun ++ .close :: aftermath)).Shut ∧
      (∀ k ∈ (after {} {} busyRun).client.calls, (after {} {} (busyRun ++ .close :: aftermath)).Released k) ∧
      (after {} {} busyRun).client.calls.map (fun k => (k.token, k.lastWord))
        = [(1, .ok (.body [7])), (2, .error .channelClosed), (3, .error .channelClosed), (4, .error .channelClosed)] ∧
      (after {} {} (busyRun ++ .close :: aftermath)).log.filterMap Event.result?
        = [(none, .error .channelClosed), (some 1, .ok (.body [7])), (some 2, .error .channelClosed),
          (some 3, .error .channelClosed), (some 4, .error .channelClosed)] := by
  have hwaiting : ∀ k ∈ (after {} {} busyRun).client.calls,
      k.ticket ≠ .oneWay ∧ (k.phase = .sending ∨ k.phase = .waiting) := by
    decide +kernel
  obtain ⟨hshut, -, -, hreleased⟩ := closing_is_final {} {} busyRun aftermath
  refine ⟨?_, hshut, fun k hk => hreleased k hk (hwaiting k hk).1 (hwaiting k hk).2, ?_, ?_⟩ <;> decide +kernel

end Run

end Wwan
