import Wwan.Proofs.Client.Ledger
import Wwan.Proofs.Message.Outbox

/-!
# Answers in the order of the requests

An answer carries nothing that tells which request it answers, so it is taken for the answer to the
oldest request that has none.  This is right as long as the queue stands in the order in which the
requests were written (`Run.Queued`): what has been answered, followed by the queue, is what has been
written, followed by what is being written.

`answers_match_requests` puts this together with the record of the calls.
-/

namespace Wwan

variable {H : Type}

/-- The request for an answer, or for none, that is being written. -/
def Run.writing (r : Run H) : List Nat :=
  match r.draft with
  | some (token, request) => if request.transaction = none then [token] else []
  | none => []

/-- The queue is what has been asked for and not been answered, in the order of the requests `asked`. -/
structure Run.Queued (asked : List Nat) (r : Run H) : Prop where
  order : answers r.log ++ r.client.table.waiters.map Waiter.token = asked ++ r.writing
  begun : (asked ++ r.writing).Sublist (starts r.log)

/-! ## The queue -/

theorem requests_append (a b : List Event) : requests (a ++ b) = requests a ++ requests b :=
  List.filterMap_append

theorem answers_append (a b : List Event) : answers (a ++ b) = answers a ++ answers b :=
  List.filterMap_append

namespace Run

variable {r : Run H} {asked : List Nat}

/-- An event that is neither an answer nor a start leaves the queue as it is. -/
theorem Queued.append {r' : Run H} (h : r.Queued asked) {e : Event} (hlog : r'.log = r.log ++ [e])
    (hanswers : answers [e] = [])
    (hwaiters : r'.client.table.waiters.map Waiter.token = r.client.table.waiters.map Waiter.token)
    (hwriting : r'.writing = r.writing) : r'.Queued asked where
  order := by
    rw [hlog, answers_append, hanswers, hwaiters, hwriting, List.append_nil]
    exact h.order
  begun := by
    rw [hlog, hwriting, starts_append]
    exact h.begun.trans (List.sublist_append_left _ _)

/-- While nothing is being written, each place in the queue is that of a request without an answer. -/
theorem Queued.count (h : r.Queued asked) (hidle : r.draft = none) :
    r.client.table.waiters.length + (answers r.log).length = asked.length := by
  have hlength := congrArg List.length h.order
  rw [writing, hidle, List.length_append, List.length_append, List.length_map] at hlength
  simp only [List.length_nil] at hlength
  omega

/-- A call that begins takes the last place in the queue, and its request is the next one written. -/
theorem Queued.start (h : r.Queued asked) {k : Call} {draft : Option (Nat × Request)}
    (cursor : UInt8) (hk : Admission r k draft) :
    Queued asked { r with
      client := { r.client with
        table := Table.enroll k.token k.ticket { r.client.table with lastToken := k.token, cursor }
        calls := r.client.calls ++ [k] }
      draft
      log := r.log ++ [.started k.token k.ticket] } := by
  obtain ⟨hticket, -, rfl⟩ | ⟨hne, -, hnone, command, body, rfl⟩ := hk.writer
  · rw [hticket]
    exact h.append rfl rfl rfl rfl
  have hidle : r.writing = [] := by rw [writing, hnone]
  have horder := h.order
  have hbegun := h.begun
  rw [hidle, List.append_nil] at horder hbegun
  constructor
  · show answers (r.log ++ [_]) ++ _ = asked ++ writing _
    rw [answers_append]
    show (answers r.log ++ []) ++ _ = asked ++ _
    rw [List.append_nil, ← horder]
    cases hticket : k.ticket with
    | answer => simp [writing, Ticket.number?, Table.enroll, Table.enqueue]
    | oneWay => simp [writing, Ticket.number?, Table.enroll, Table.enqueue]
    | transaction id => simp [writing, Ticket.number?, Table.enroll, Table.start]
    | observation => exact absurd hticket hne
  · show (asked ++ writing _).Sublist (starts (r.log ++ [_]))
    rw [starts_append]
    refine List.Sublist.append hbegun ?_
    show (if _ then [k.token] else []).Sublist [k.token]
    split
    · exact List.Sublist.refl _
    · exact List.nil_sublist _

/-- A request that was being written has been written. -/
theorem Queued.written (h : r.Queued asked) (token : Nat) (request : Request) (sink : Sink) :
    Queued (asked ++ r.writing)
      { client := r.client.sent token, sink, log := r.log ++ [.written token request] } := by
  constructor
  · show answers (r.log ++ [_]) ++ r.client.table.waiters.map Waiter.token = asked ++ r.writing ++ []
    rw [answers_append, List.append_nil]
    show (answers r.log ++ []) ++ _ = _
    rw [List.append_nil, h.order]
  · show (asked ++ r.writing ++ []).Sublist _
    rw [List.append_nil, starts_append]
    exact h.begun.trans (List.sublist_append_left _ _)

/-- An answer takes the first place in the queue. -/
theorem Queued.dispatch (h : r.Queued asked) (m : Message) : (r.dispatch m).Queued asked := by
  by_cases hkind : m.classify r.client.config.threshold = .response
  · constructor
    · rw [Run.dispatch, hkind]
      show answers (r.log ++ [_]) ++ (r.client.dispatch m).table.waiters.map _ = asked ++ r.writing
      rw [answers_append, Client.table_dispatch, hkind]
      show _ ++ (Client.route .response r.client.table).2.waiters.map _ = asked ++ r.writing
      rw [Client.waiters_route, if_pos rfl, ← h.order, List.append_assoc]
      congr 1
      rcases hw : r.client.table.waiters with _ | ⟨w, ws⟩ <;> simp [answers, Table.entry?, hw]
    · show (asked ++ r.writing).Sublist (starts (r.log ++ [_]))
      rw [starts_append]
      exact h.begun.trans (List.sublist_append_left _ _)
  · refine h.append rfl ?_ ?_ rfl
    · cases hclass : m.classify r.client.config.threshold <;> first | rfl | exact absurd hclass hkind
    · show ((Client.route (m.classify _) r.client.table).2.waiters).map Waiter.token = _
      rw [Client.waiters_route, if_neg hkind]

end Run

section Writer

variable {r r' : Run H}

/-- While nobody gives the writer back, the queue stays in order. -/
theorem Move.queued (hmove : Move r r') (hwriter : r'.draft = r.draft ∨ r.draft = none)
    (hopen : r'.client.table.closed = false) {asked : List Nat} (h : r.Queued asked) :
    r'.Queued asked := by
  cases hmove with
  | idle table_eq _ _ =>
    constructor
    · rw [table_eq]
      exact h.order
    · exact h.begun
  | refuse e cursor => exact h.append rfl rfl rfl rfl
  | start cursor hk => exact h.start cursor hk
  | written draft_eq send_eq => simp [draft_eq] at hwriter
  | unwritten draft_eq send_eq => simp [draft_eq] at hwriter
  | expire mem phase_eq undecided => exact h.append rfl rfl rfl rfl
  | settle mem phase_eq => exact h.append rfl rfl (Table.tokens_withdraw _ _) rfl
  | collect mem decided => exact h.append rfl rfl rfl rfl
  | dispatch m => exact h.dispatch m
  | close => cases hopen

/-- While nobody gives the writer back, nothing is written. -/
theorem Move.requests_eq (hmove : Move r r') (hwriter : r'.draft = r.draft ∨ r.draft = none) :
    requests r'.log = requests r.log := by
  cases hmove with
  | idle => rfl
  | written draft_eq send_eq => simp [draft_eq] at hwriter
  | unwritten draft_eq send_eq => simp [draft_eq] at hwriter
  | _ => exact (requests_append _ _).trans (List.append_nil _)

/-- While the channel is open and every request can be sent, the queue is in order. -/
theorem Move.queued_of_sent (hmove : Move r r') (hsent : ∀ token, .unwritten token ∉ r'.log)
    (hopen : r'.client.table.closed = false) (h : r.Queued (requests r.log)) :
    r'.Queued (requests r'.log) := by
  by_cases hwriter : r'.draft = r.draft ∨ r.draft = none
  · rw [hmove.requests_eq hwriter]
    exact hmove.queued hwriter hopen h
  cases hmove with
  | @written token request sink draft_eq send_eq =>
    have hrequests : requests (r.log ++ [.written token request]) = requests r.log ++ r.writing := by
      rw [requests_append, Run.writing, draft_eq]
      congr 1
      by_cases hsync : request.transaction = none <;> simp [requests, hsync]
    rw [hrequests]
    exact h.written token request sink
  | @unwritten token _ _ _ draft_eq send_eq => exact absurd (by simp) (hsent token)
  | start cursor hk =>
    obtain ⟨-, -, hdraft⟩ | ⟨-, -, hnone, -⟩ := hk.writer
    · exact absurd (.inl hdraft) hwriter
    · exact absurd (.inr hnone) hwriter
  | _ => exact absurd (.inl rfl) hwriter

end Writer

/-- What a move writes is what the record says it writes. -/
theorem Move.content_eq {r r' : Run H} (hmove : Move r r')
    (hsent : ∀ token, .unwritten token ∉ r'.log) :
    ∃ data, r'.sink.content = r.sink.content ++ data ∧ wire r'.log = wire r.log ++ data := by
  cases hmove with
  | written draft_eq send_eq =>
    obtain ⟨data, hencode, -, hcontent⟩ := Outbox.of_send_eq_ok send_eq
    refine ⟨data, hcontent, ?_⟩
    simp [wire, hencode, Except.toOption]
  | @unwritten token _ _ _ draft_eq send_eq => exact absurd (by simp) (hsent token)
  | _ => exact ⟨[], by simp [Run.dispatch, Run.close], by simp [wire, Run.dispatch, Run.close]⟩

theorem Run.queued_after (config : ClientConfig) (sink : Sink) (actions : List (Action H))
    (hsent : ∀ token, .unwritten token ∉ (after config sink actions).log)
    (hopen : (after config sink actions).client.table.closed = false) :
    (after config sink actions).Queued (requests (after config sink actions).log) := by
  refine after_of_move (P := fun r : Run H => (∀ token, .unwritten token ∉ r.log) →
    r.client.table.closed = false → r.Queued (requests r.log)) (fun _ _ => ⟨rfl, List.Sublist.refl _⟩) ?_
    actions hsent hopen
  intro r r' hmove h hsent hopen
  exact hmove.queued_of_sent hsent hopen (h (hmove.sent_of hsent) (hmove.closed_of hopen))

/-- The sink has taken what the record says, in its order. -/
theorem Run.content_after (config : ClientConfig) (sink : Sink) (actions : List (Action H))
    (hsent : ∀ token, .unwritten token ∉ (after config sink actions).log) :
    (after config sink actions).sink.content = sink.content ++ wire (after config sink actions).log := by
  refine after_of_move (P := fun r : Run H => (∀ token, .unwritten token ∉ r.log) →
    r.sink.content = sink.content ++ wire r.log) (fun _ => (List.append_nil _).symm) ?_ actions hsent
  intro r r' hmove h hsent
  obtain ⟨data, hcontent, hwire⟩ := hmove.content_eq hsent
  rw [hcontent, hwire, h (hmove.sent_of hsent), List.append_assoc]

/-! ## What a call returns -/

namespace Call

/-- A call that was handed the answer to its request returns it, once its wait is not just over. -/
theorem outcome?_answer {t : Table} {k : Call} {s : Summary} (hticket : k.ticket = .answer)
    (hslot : k.slot = some s) : k.outcome? t
      = if k.phase = .sending ∨ k.phase = .expired then none else some (.ok (.body s.body)) := by
  have hconclude : k.conclude s = .ok (.body s.body) := by rw [conclude, hticket]
  rcases hphase : k.phase with _ | _ | _ | _ <;>
    simp [outcome?, hphase, hticket, hslot, hconclude]

/-- A body that a call returns is from the message that it was handed. -/
theorem of_outcome?_body {t : Table} {k : Call} {content : Bytes}
    (h : k.outcome? t = some (.ok (.body content))) :
    ∃ s, k.slot = some s ∧ k.conclude s = .ok (.body content) := by
  rw [outcome?] at h
  rcases hphase : k.phase with _ | _ | _ | _ <;> rw [hphase] at h
  · cases h
  · by_cases hticket : k.ticket = .oneWay
    · rw [if_pos hticket] at h
      cases h
    · rw [if_neg hticket] at h
      rcases hslot : k.slot with _ | s <;> rw [hslot] at h
      · by_cases hheld : k.isHeld t
        · simp [hheld] at h
        · simp [hheld] at h
      · exact ⟨s, rfl, Option.some_inj.mp h⟩
  · cases h
  · dsimp only at h
    split at h
    · next s _ hslot => exact ⟨s, hslot, Option.some_inj.mp h⟩
    · cases h

/-- Only calls for an answer and transactions return a body. -/
theorem of_conclude_body {k : Call} {s : Summary} {content : Bytes}
    (h : k.conclude s = .ok (.body content)) : (k.ticket = .answer ∧ content = s.body) ∨
      ∃ id echoed, k.ticket = .transaction id ∧ Message.stripId s.body = some (echoed, content) := by
  rw [conclude] at h
  rcases hticket : k.ticket with _ | _ | id | _ <;> rw [hticket] at h
  · cases h
    exact .inl ⟨rfl, rfl⟩
  · cases h
  · rcases hstrip : Message.stripId s.body with _ | ⟨echoed, rest⟩ <;> simp only [hstrip] at h
    · cases h
    · cases h
      exact .inr ⟨id, echoed, rfl, rfl⟩
  · cases h

end Call

namespace Run

variable {r : Run H}

/-- What a call in progress returns, once that is decided. -/
theorem log_collect (hc : r.client.Consistent) {k : Call} (hk : k ∈ r.client.calls)
    {result : Except CallError Reply} (h : k.outcome? r.client.table = some result) :
    (r.collect k.token).log = r.log ++ [.returned k.token result] := by
  rw [collect, Client.collect, hc.call?_eq hk, Option.bind_some, h]

/-- A call that was handed the answer to its request can return it, whether its time has passed since or
not. -/
theorem returned_mem_of_slot (hc : r.client.Consistent) {k : Call} (hk : k ∈ r.client.calls)
    (hticket : k.ticket = .answer) {s : Summary} (hslot : k.slot = some s)
    (hphase : k.phase ≠ .sending) :
    .returned k.token (.ok (.body s.body)) ∈ ((r.settle k.token).collect k.token).log := by
  have hsettle : r.settle k.token = if k.phase = .expired then
      { r with client := r.client.settle k.token, log := r.log ++ [.withdrawn k.token] } else r := by
    rw [settle, hc.call?_eq hk]
  by_cases hexpired : k.phase = .expired
  · rw [hsettle, if_pos hexpired, Client.settle, hc.call?_eq hk]
    simp only [if_pos hexpired]
    -- the call looks into its slot again after it has withdrawn
    have hsettled : { k with phase := .settled } ∈
        (Client.update k.token (fun k => { k with phase := .settled })
          { r.client with table := k.withdraw r.client.table }).calls :=
      Client.mem_calls_update.mpr ⟨k, hk, if_pos rfl⟩
    have houtcome := Call.outcome?_answer (t := k.withdraw r.client.table)
      (k := { k with phase := .settled }) hticket hslot
    rw [if_neg (by simp)] at houtcome
    rw [log_collect (k := { k with phase := .settled }) (hc.withdraw hk) hsettled houtcome]
    exact List.mem_append_right _ (List.mem_singleton_self _)
  · rw [hsettle, if_neg hexpired, log_collect hc hk
      ((Call.outcome?_answer hticket hslot).trans (if_neg (not_or.mpr ⟨hphase, hexpired⟩)))]
    exact List.mem_append_right _ (List.mem_singleton_self _)

/-- Who is handed an answer waits for it. -/
theorem Ledger.started_answer {r : Run H} (h : r.Ledger) {m : Message} {token : Nat}
    (hmem : .arrived m .response (some token) (some token) ∈ r.log) :
    .started token .answer ∈ r.log := by
  obtain ⟨before, hsub, harrival⟩ := h.arrivals.of_mem hmem
  obtain ⟨ticket, hticket, hstarted⟩ := (harrival m _ _ _ rfl).started token rfl
  cases hticket
  exact hsub hstarted

/-- The account of a call that was handed an answer. -/
theorem Ledger.slot_of_answer {r : Run H} (h : r.Ledger) {m : Message} {token : Nat}
    (hmem : .arrived m .response (some token) (some token) ∈ r.log) {k : Call}
    (haccount : k.Account r.client.config.threshold r.log) (htoken : k.token = token) :
    k.ticket = .answer ∧ k.slot = some (m.summary r.client.config.threshold) := by
  subst htoken
  have hticket := ticket_eq_of_starts h.starts_nodup haccount.started (h.started_answer hmem)
  refine ⟨hticket, haccount.slot_eq (by simp [hticket]) ?_⟩
  exact mem_deliveries.mpr ⟨_, _, hmem⟩

/-- The message whose body a call returned is the only one that it was handed. -/
theorem Ledger.source_of_body {r : Run H} (h : r.Ledger) {token : Nat} {body : Bytes}
    (hmem : .returned token (.ok (.body body)) ∈ r.log) :
    ∃ m kind, deliveries token r.log = [m] ∧ .arrived m kind (some token) (some token) ∈ r.log ∧
      ((kind = .response ∧ .started token .answer ∈ r.log ∧ body = m.body) ∨
        ∃ id echoed, kind = .transaction id ∧ .started token (.transaction id) ∈ r.log ∧
          Message.stripId m.body = some (echoed, body)) := by
  obtain ⟨k, rfl, haccount, hverdict⟩ := h.returned token _ hmem
  cases hverdict with
  | unwritten e result_eq _ => cases result_eq
  | decided t hdecided =>
    obtain ⟨s, hslot, hconclude⟩ := Call.of_outcome?_body hdecided
    have hticket := Call.of_conclude_body hconclude
    have hobs : k.ticket ≠ .observation := by
      obtain ⟨hticket, -⟩ | ⟨id, echoed, hticket, -⟩ := hticket <;> simp [hticket]
    obtain ⟨m, hdeliveries, rfl⟩ := haccount.deliveries_eq hobs hslot
    obtain ⟨kind, entry, harrived⟩ := mem_deliveries.mp
      (hdeliveries ▸ List.mem_singleton_self m : m ∈ deliveries k.token r.log)
    obtain ⟨before, hsub, harrival⟩ := h.arrivals.of_mem harrived
    have harrival := harrival m kind entry _ rfl
    obtain rfl := harrival.entry_eq k.token rfl
    obtain ⟨ticket, hkind, hstarted⟩ := harrival.started k.token rfl
    have hsame := ticket_eq_of_starts h.starts_nodup (hsub hstarted) haccount.started
    refine ⟨m, kind, hdeliveries, harrived, ?_⟩
    rw [hsame] at hkind
    obtain ⟨hticket, rfl⟩ | ⟨id, echoed, hticket, hstrip⟩ := hticket
    · rw [hticket, Message.Kind.ticket?_eq_answer] at hkind
      exact .inl ⟨hkind, hticket ▸ haccount.started, rfl⟩
    · rw [hticket, Message.Kind.ticket?_eq_transaction] at hkind
      exact .inr ⟨id, echoed, hkind, hticket ▸ haccount.started, hstrip⟩

/-! ## Answers and requests -/

/-- How the answers of a run match its requests; the run began with the sink `sink`. -/
structure Matched (config : ClientConfig) (sink : Sink) (r : Run H) : Prop where
  /-- The sink has taken the requests that were written, in the order of the record. -/
  content_eq : r.sink.content = sink.content ++ wire r.log
  /-- The record tells what each message is for. -/
  kind_eq : ∀ m kind entry receiver, .arrived m kind entry receiver ∈ r.log →
    kind = m.classify config.threshold
  /-- Each answer that met an entry met the entry of the oldest request without one. -/
  order : answers r.log <+: requests r.log ++ r.writing
  /-- No call has two requests. -/
  nodup : (requests r.log ++ r.writing).Nodup
  /-- When nothing is being written, the queue is as long as there are requests without an answer. -/
  count : r.draft = none →
    r.client.table.waiters.length + (answers r.log).length = (requests r.log).length
  /-- An answer is handed to the call whose entry it met, if that waits for it and has not withdrawn,
  and to nobody else. -/
  handed : Along (fun before e => ∀ m entry receiver, e = .arrived m .response entry receiver →
    (entry = none ∧ receiver = none) ∨
    (∃ token, entry = some token ∧ receiver = some token ∧
      .started token .answer ∈ before ∧ .withdrawn token ∉ before) ∨
    (∃ token, entry = some token ∧ receiver = none ∧
      (.started token .oneWay ∈ before ∨ .withdrawn token ∈ before))) r.log
  /-- A call that was handed an answer returns nothing else, -/
  returned : ∀ m token, .arrived m .response (some token) (some token) ∈ r.log →
    ∀ result, .returned token result ∈ r.log → result = .ok (.body m.body)
  /-- and unless it has returned, it can return that as soon as its request is written. -/
  returns : ∀ m token, .arrived m .response (some token) (some token) ∈ r.log →
    (∃ result, .returned token result ∈ r.log) ∨ r.writing = [token] ∨
      .returned token (.ok (.body m.body)) ∈ ((r.settle token).collect token).log
  /-- A body is returned by nobody but the one call that was handed the message; who observes messages
  returns summaries. -/
  source : ∀ token body, .returned token (.ok (.body body)) ∈ r.log →
    ∃ m kind, deliveries token r.log = [m] ∧ .arrived m kind (some token) (some token) ∈ r.log ∧
      ((kind = .response ∧ .started token .answer ∈ r.log ∧ body = m.body) ∨
        ∃ id echoed, kind = .transaction id ∧ .started token (.transaction id) ∈ r.log ∧
          Message.stripId m.body = some (echoed, body))

/-- The `k`-th answer is the answer to the `k`-th request, in every run of a client in which the channel
stays open and every request can be sent. -/
theorem answers_match_requests (config : ClientConfig) (sink : Sink) (actions : List (Action H))
    (hsent : ∀ token, .unwritten token ∉ (after config sink actions).log)
    (hopen : (after config sink actions).client.table.closed = false) :
    (after config sink actions).Matched config sink := by
  have hledger := ledger_after config sink actions
  have hconsistent := consistent_after config sink actions
  have hqueued := queued_after config sink actions hsent hopen
  have hcontent := content_after config sink actions hsent
  have hconfig := config_after config sink actions
  generalize after config sink actions = r at *
  refine ⟨hcontent, ?_, ?_, ?_, ?_, ?_, ?_, ?_, ?_⟩
  · intro m kind entry receiver hmem
    obtain ⟨before, -, harrival⟩ := hledger.arrivals.of_mem hmem
    rw [(harrival m kind entry receiver rfl).kind_eq, hconfig]
  · exact ⟨_, hqueued.order⟩
  · exact hledger.starts_nodup.sublist hqueued.begun
  · exact hqueued.count
  · refine hledger.arrivals.mono fun before e harrival m entry receiver he => ?_
    have harrival := harrival m .response entry receiver he
    rcases entry with _ | token
    · refine .inl ⟨rfl, Option.eq_none_iff_forall_ne_some.mpr fun token htoken => ?_⟩
      cases harrival.entry_eq token htoken
    · obtain ⟨hreceiver, hstarted, hpresent⟩ | ⟨hreceiver, hwhy⟩ := harrival.answered rfl token rfl
      · exact .inr (.inl ⟨token, rfl, hreceiver, hstarted, hpresent⟩)
      · exact .inr (.inr ⟨token, rfl, hreceiver, hwhy⟩)
  · intro m token hmem result hreturned
    obtain ⟨k, rfl, haccount, hverdict⟩ := hledger.returned token result hreturned
    obtain ⟨hticket, hslot⟩ := hledger.slot_of_answer hmem haccount rfl
    cases hverdict with
    | unwritten e _ hunwritten => exact absurd hunwritten (hsent _)
    | decided t hdecided =>
      rw [Call.outcome?_answer hticket hslot] at hdecided
      obtain ⟨-, hdecided⟩ := Option.ite_none_left_eq_some.mp hdecided
      exact (Option.some_inj.mp hdecided).symm
  · intro m token hmem
    obtain hcall | hreturned := hledger.present token (mem_starts (hledger.started_answer hmem))
    · obtain ⟨k, hk, rfl⟩ := List.mem_map.mp hcall
      obtain ⟨hticket, hslot⟩ := hledger.slot_of_answer hmem (hledger.account k hk) rfl
      by_cases hphase : k.phase = .sending
      · refine .inr (.inl ?_)
        obtain ⟨⟨token, request⟩, hdraft, htoken⟩ :=
          Option.map_eq_some_iff.mp ((hledger.writer k hk).mp hphase)
        obtain ⟨k', hk', htoken', -, hnumber⟩ := hledger.drafted token request hdraft
        rw [hconsistent.eq_of_token hk' hk (htoken'.trans htoken), hticket] at hnumber
        rw [← htoken, writing, hdraft]
        exact if_pos hnumber
      · exact .inr (.inr (returned_mem_of_slot hconsistent hk hticket hslot hphase))
    · exact .inl hreturned
  · exact fun token body hmem => hledger.source_of_body hmem

/-- The first call gives up, the second waits for nothing, the third is answered: by the third answer. -/
def lateAnswer : List (Action Unit) :=
  [.start .answer 16 [1] ⟨0⟩, .write, .expire 1, .settle 1, .collect 1,
    .start .oneWay 17 [] ⟨0⟩, .write, .start .answer 18 [] ⟨0⟩, .write,
    .dispatch ⟨17, 17, 16, syncWord, [7]⟩, .dispatch ⟨17, 17, 17, syncWord, [8]⟩,
    .dispatch ⟨17, 17, 18, syncWord, [9]⟩, .collect 3]

theorem answers_match_requests_lateAnswer :
    (∀ token, .unwritten token ∉ (after {} {} lateAnswer).log) ∧
      (after {} {} lateAnswer).client.table.closed = false ∧
      (after {} {} lateAnswer).Matched {} {} := by
  have hall : ((after {} {} lateAnswer).log.all fun | .unwritten _ => false | _ => true) = true := by
    decide +kernel
  have hsent : ∀ token, .unwritten token ∉ (after {} {} lateAnswer).log := by
    intro token hmem
    exact Bool.false_ne_true (List.all_eq_true.mp hall _ hmem)
  have hopen : (after {} {} lateAnswer).client.table.closed = false := by
    decide +kernel
  exact ⟨hsent, hopen, answers_match_requests {} {} lateAnswer hsent hopen⟩

example : answers (after {} {} lateAnswer).log = [1, 2, 3] ∧
    deliveries 1 (after {} {} lateAnswer).log = [] ∧
    deliveries 3 (after {} {} lateAnswer).log = [⟨17, 17, 18, syncWord, [9]⟩] := by
  decide +kernel

end Run

end Wwan
