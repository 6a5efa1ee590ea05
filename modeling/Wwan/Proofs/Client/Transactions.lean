import Mathlib.Data.List.Perm.Basic
import Wwan.Proofs.Client.Answers
import Wwan.Proofs.Client.Courses
import Wwan.Proofs.Message.Kind

/-!
# Transactions

* `transactions_complete_in_two_phases`: a transaction returns a result only after exactly two messages
  for its number were dispatched while it lasted, and the result is from the second;
* `numbers_are_not_lost`: the numbers in use belong one to one to the transactions in progress, so that
  all 255 are in use exactly when so many transactions are in progress.

Both hold in every state of every run of a client: whatever callers, the reader of the channel and the
clock do, and also when requests cannot be sent or the channel ends.
-/

namespace Wwan

variable {H : Type}

/-- What the second message for a transaction makes it return. -/
def Message.conclusion (id : UInt8) (m : Message) : Except CallError Reply :=
  if m.body.take 2 = [2, 4] ∧ 6 ≤ m.body.length then .ok (.body (m.body.drop 6))
  else .error (.violation s!"result of transaction {id.toNat} lacks the echoed id")

/-! ## What a transaction returns -/

namespace Call

/-- What a transaction makes of the message in its slot is what the message makes it return. -/
theorem conclude_transaction {k : Call} {id : UInt8} (hticket : k.ticket = .transaction id)
    (threshold : UInt32) (m : Message) : k.conclude (m.summary threshold) = m.conclusion id := by
  by_cases h : m.body.take 2 = fourOctets ∧ 6 ≤ m.body.length
  · have hstrip : Message.stripId (m.summary threshold).body
        = some (Bytes.toWordBE ((m.body.drop 2).take 4), m.body.drop 6) := if_pos h
    simp only [conclude, hticket, hstrip]
    exact (if_pos h).symm
  · have hstrip : Message.stripId (m.summary threshold).body = none := if_neg h
    simp only [conclude, hticket, hstrip]
    exact (if_neg h).symm

/-- What a transaction returns: what is in its slot; or the channel has ended, or its time has passed. -/
theorem outcome?_transaction {t : Table} {k : Call} {id : UInt8} {result : Except CallError Reply}
    (hticket : k.ticket = .transaction id) (h : k.outcome? t = some result) :
    (∃ s, k.slot = some s ∧ result = k.conclude s) ∨
    (k.slot = none ∧ result = .error .channelClosed) ∨
    (k.phase = .settled ∧ result = .error (.timeout k.operation k.timeout)) := by
  rw [outcome?] at h
  rcases hphase : k.phase with _ | _ | _ | _ <;> simp only [hphase, hticket] at h
  · cases h
  · rw [if_neg (by simp)] at h
    rcases hslot : k.slot with _ | s <;> simp only [hslot] at h
    · by_cases hheld : k.isHeld t
      · simp [hheld] at h
      · rw [if_neg hheld] at h
        exact .inr (.inl ⟨rfl, (Option.some_inj.mp h).symm⟩)
    · exact .inl ⟨s, rfl, (Option.some_inj.mp h).symm⟩
  · cases h
  · exact .inr (.inr ⟨rfl, (Option.some_inj.mp h).symm⟩)

end Call

namespace Client

theorem call?_dispatch (token : Nat) (m : Message) (c : Client H) :
    (c.dispatch m).call? token = (c.call? token).map fun k =>
      if isTold (m.classify c.config.threshold) c.table k
        then k.receive (m.summary c.config.threshold) else k := by
  rw [call?, calls_dispatch, List.find?_map, call?]
  congr 2
  funext k
  show decide (Call.token (if _ then _ else k) = token) = decide (k.token = token)
  split <;> rfl

/-- A message that is for another number, or for none, does nothing to a transaction. -/
theorem Consistent.call?_dispatch {c : Client H} (h : c.Consistent) {token : Nat} {id : UInt8}
    (hticket : ∀ k ∈ c.calls, k.token = token → k.ticket = .transaction id) {m : Message}
    (hkind : m.classify c.config.threshold ≠ .transaction id) :
    (c.dispatch m).call? token = c.call? token := by
  rw [Client.call?_dispatch]
  rcases hk : c.call? token with _ | k
  · rfl
  obtain ⟨hmem, rfl⟩ := of_call?_eq_some hk
  have hk := hticket k hmem rfl
  have huntold : isTold (m.classify c.config.threshold) c.table k = false := by
    rw [isTold_eq_false_iff]
    constructor
    · intro hreceiver
      obtain ⟨ticket, hticket', hheld⟩ := holds_of_route hreceiver
      obtain ⟨k', hk', htoken, hawaits⟩ := h.owner k.token ticket hheld
      rw [← hawaits.ticket_eq, h.eq_of_token hk' hmem htoken, hk] at hticket'
      exact hkind (Message.Kind.ticket?_eq_transaction.mp hticket')
    · intro hobserver
      rw [h.of_observer hmem hobserver] at hk
      cases hk
  rw [Option.map_some, huntold]
  rfl

/-- A transaction cannot begin exactly when no number is free. -/
theorem begin_exhausted {c : Client H} (hopen : c.table.closed = false)
    (command : UInt32) (timeout : Span) :
    (c.begin .transaction command timeout).1 = .error .exhausted ↔ c.table.allocate.1 = none := by
  rw [begin, enter, if_neg (by simp [hopen])]
  rcases c.table.allocate with ⟨id?, t⟩
  cases id? <;> simp

end Client

namespace Run

/-- Who was handed the second message for a transaction has it in its slot. -/
theorem Ledger.slot_of_course {r : Run H} (h : r.Ledger) (hturns : Turns r.log) {k : Call}
    (haccount : k.Account r.client.config.threshold r.log) {id : UInt8} {m₁ m₂ : Message}
    (hcourse : course k.token r.log = .finished id [m₁, m₂]) :
    k.ticket = .transaction id ∧ k.slot = some (m₂.summary r.client.config.threshold) := by
  have hstarted := started_of_finished hcourse
  have hticket := ticket_eq_of_starts h.starts_nodup haccount.started hstarted
  obtain ⟨entry, hmem⟩ := hturns.handed_of_course hcourse
  exact ⟨hticket, haccount.slot_eq (by simp [hticket]) (mem_deliveries.mpr ⟨_, _, hmem⟩)⟩

/-- Who has a message in the slot of a transaction was handed the second message for it. -/
theorem Ledger.course_of_slot {r : Run H} (h : r.Ledger) (hturns : Turns r.log) {k : Call}
    (haccount : k.Account r.client.config.threshold r.log) {id : UInt8}
    (hticket : k.ticket = .transaction id) {s : Summary} (hslot : k.slot = some s) :
    ∃ m₁ m₂, course k.token r.log = .finished id [m₁, m₂] ∧
      m₂.summary r.client.config.threshold = s := by
  obtain ⟨m₂, hdeliveries, hs⟩ := haccount.deliveries_eq (by simp [hticket]) hslot
  obtain ⟨kind, entry, hmem⟩ := mem_deliveries.mp
    (hdeliveries ▸ List.mem_singleton_self m₂ : m₂ ∈ deliveries k.token r.log)
  obtain ⟨before, hsub, harrival⟩ := h.arrivals.of_mem hmem
  obtain ⟨ticket, hkind, hstarted⟩ := (harrival m₂ kind entry _ rfl).started k.token rfl
  rw [ticket_eq_of_starts h.starts_nodup (hsub hstarted) haccount.started, hticket] at hkind
  obtain rfl := Message.Kind.ticket?_eq_transaction.mp hkind
  obtain ⟨m₁, hcourse⟩ := hturns.course_of_handed hmem
  exact ⟨m₁, m₂, hcourse, hs⟩

/-- The second message for a transaction ends it, and its wait is not over afterwards if it was not
before. -/
theorem Timely.of_second {r : Run H} (h : r.Timely) (hturns : Turns r.log)
    {token : Nat} {id : UInt8} {before rest : List Event} {m₁ m₂ : Message}
    {entry receiver : Option Nat}
    (hlog : r.log = before ++ .arrived m₂ (.transaction id) entry receiver :: rest)
    (hcourse : course token before = .underway id [m₁]) :
    (.expired token ∈ r.log → .expired token ∈ before) ∧
      course token r.log = .finished id [m₁, m₂] := by
  have hturn := hturns before _ rest hlog m₂ _ entry receiver rfl
  obtain ⟨-, hreceiver⟩ := hturn.matched token id [m₁] hcourse rfl
  rw [if_neg (List.cons_ne_nil m₁ [])] at hreceiver
  subst hreceiver
  constructor
  · exact h.expired_mem hlog (started_of_underway hcourse) (by simp)
  · rw [hlog] at hturns ⊢
    exact hturns.course_of_second hcourse

section Phases

variable {r : Run H} {token : Nat} {id : UInt8}

/-- A transaction that succeeds was handed the second of two messages, with its number in front. -/
theorem Ledger.completed (hl : r.Ledger) (hturns : Turns r.log)
    (hstarted : .started token (.transaction id) ∈ r.log) {reply : Reply}
    (hmem : .returned token (.ok reply) ∈ r.log) :
    ∃ m₁ m₂, course token r.log = .finished id [m₁, m₂] ∧ m₂.body.take 2 = [2, 4] ∧
      6 ≤ m₂.body.length ∧ reply = .body (m₂.body.drop 6) := by
  obtain ⟨k, rfl, haccount, hverdict⟩ := hl.returned token _ hmem
  have hticket := ticket_eq_of_starts hl.starts_nodup haccount.started hstarted
  cases hverdict with
  | unwritten e result_eq _ => cases result_eq
  | decided t hdecided =>
    obtain ⟨s, hslot, hresult⟩ | ⟨-, hresult⟩ | ⟨-, hresult⟩ :=
      Call.outcome?_transaction hticket hdecided
    · obtain ⟨m₁, m₂, hcourse, rfl⟩ := hl.course_of_slot hturns haccount hticket hslot
      rw [Call.conclude_transaction hticket, Message.conclusion] at hresult
      obtain ⟨⟨htag, hlength⟩, hreply⟩ | ⟨-, hreply⟩ := ite_eq_iff.mp hresult.symm
      · cases hreply
        exact ⟨m₁, m₂, hcourse, htag, hlength, rfl⟩
      · cases hreply
    · cases hresult
    · cases hresult

variable {before rest : List Event} {m₁ m₂ : Message} {entry receiver : Option Nat}

/-- What a transaction returns for which there was a second message. -/
theorem Ledger.concluded (hl : r.Ledger) (htimely : r.Timely) (hturns : Turns r.log)
    (hlog : r.log = before ++ .arrived m₂ (.transaction id) entry receiver :: rest)
    (hcourse : course token before = .underway id [m₁]) {result : Except CallError Reply}
    (hmem : .returned token result ∈ r.log) : result = m₂.conclusion id ∨
      (.expired token ∈ before ∧ ∃ operation timeout, result = .error (.timeout operation timeout)) ∨
      (.unwritten token ∈ r.log ∧ ∃ e, result = .error e) := by
  obtain ⟨k, rfl, haccount, hverdict⟩ := hl.returned token _ hmem
  obtain ⟨hexpired, hfinished⟩ := htimely.of_second hturns hlog hcourse
  obtain ⟨hticket, hslot⟩ := hl.slot_of_course hturns haccount hfinished
  cases hverdict with
  | unwritten e result_eq hunwritten => exact .inr (.inr ⟨hunwritten, e, result_eq⟩)
  | decided t hdecided =>
    obtain ⟨s, hs, hresult⟩ | ⟨hnone, -⟩ | ⟨hphase, hresult⟩ :=
      Call.outcome?_transaction hticket hdecided
    · rw [hslot] at hs
      cases hs
      rw [Call.conclude_transaction hticket] at hresult
      exact .inl hresult
    · rw [hslot] at hnone
      cases hnone
    · exact .inr (.inl ⟨hexpired (haccount.expired_iff.mpr (.inr hphase)), _, _, hresult⟩)

/-- A transaction for which there was a second message returns when it is asked to, unless its wait was
over before or its request is still being written. -/
theorem Ledger.returns (hl : r.Ledger) (hc : r.client.Consistent) (htimely : r.Timely)
    (hturns : Turns r.log)
    (hlog : r.log = before ++ .arrived m₂ (.transaction id) entry receiver :: rest)
    (hcourse : course token before = .underway id [m₁]) :
    .expired token ∈ before ∨ (∃ result, .returned token result ∈ r.log) ∨
      r.draft.map Prod.fst = some token ∨
      .returned token (m₂.conclusion id) ∈ (r.collect token).log := by
  obtain ⟨hexpired, hfinished⟩ := htimely.of_second hturns hlog hcourse
  obtain hcall | hreturned := hl.present token (mem_starts (started_of_finished hfinished))
  · obtain ⟨k, hk, rfl⟩ := List.mem_map.mp hcall
    have haccount := hl.account k hk
    obtain ⟨hticket, hslot⟩ := hl.slot_of_course hturns haccount hfinished
    rcases hphase : k.phase with _ | _ | _ | _
    · exact .inr (.inr (.inl ((hl.writer k hk).mp hphase)))
    · have hdecided : k.outcome? r.client.table = some (m₂.conclusion id) := by
        rw [← Call.conclude_transaction hticket r.client.config.threshold]
        simp [Call.outcome?, hphase, hticket, hslot]
      rw [log_collect hc hk hdecided]
      exact .inr (.inr (.inr (List.mem_append_right _ (List.mem_singleton_self _))))
    · exact .inl (hexpired (haccount.expired_iff.mpr (.inl hphase)))
    · exact .inl (hexpired (haccount.expired_iff.mpr (.inr hphase)))
  · exact .inr (.inl hreturned)

/-- A message that is not for its number leaves a transaction as it is. -/
theorem Tracked.undisturbed (h : r.Tracked) (hc : r.client.Consistent) (hl : r.Ledger)
    (hstarted : .started token (.transaction id) ∈ r.log) {m : Message}
    (hkind : m.classify r.client.config.threshold ≠ .transaction id) :
    (r.dispatch m).client.call? token = r.client.call? token ∧
      course token (r.dispatch m).log = course token r.log ∧
      ∀ acknowledged, ⟨id, token, acknowledged⟩ ∈ (r.dispatch m).client.table.pending ↔
        ⟨id, token, acknowledged⟩ ∈ r.client.table.pending := by
  refine ⟨hc.call?_dispatch (fun k hk htoken => ?_) hkind, ?_, fun acknowledged => ?_⟩
  · exact ticket_eq_of_starts hl.starts_nodup (htoken ▸ (hl.account k hk).started) hstarted
  · rw [Run.dispatch, course_append_singleton]
    rcases hcourse : course token r.log with _ | ⟨id', heard⟩ | ⟨id', heard⟩
    · rfl
    · have hsame := ticket_eq_of_starts hl.starts_nodup (started_of_underway hcourse) hstarted
      cases hsame
      rw [← hcourse, (h.turn hc m).next_of_ne hcourse hkind, hcourse]
    · rw [Course.next_finished]
  · show _ ∈ (Client.route (m.classify r.client.config.threshold) r.client.table).2.pending ↔ _
    rw [Client.mem_pending_route hc.ids_nodup]
    exact ⟨fun hmem => hmem.elim And.left fun hc => absurd hc.1 hkind, fun hmem => .inl ⟨hmem, hkind⟩⟩

end Phases

/-- How the transaction `token` with the number `id` goes. -/
structure TwoPhased (config : ClientConfig) (r : Run H) (token : Nat) (id : UInt8) : Prop where
  /-- It has its entry while it is in progress; the entry tells how many messages there were for it. -/
  entry : ∀ acknowledged, ⟨id, token, acknowledged⟩ ∈ r.client.table.pending ↔ ∃ heard,
    course token r.log = .underway id heard ∧ heard.length = if acknowledged then 1 else 0
  /-- Of the messages that were dispatched those are for it that have its word and a command below the
  threshold, and no others. -/
  counts : ∀ m kind entry receiver, .arrived m kind entry receiver ∈ r.log →
    (kind = .transaction id ↔ m.word = transactionWord id ∧ m.command < config.threshold)
  heard : ∀ heard, (course token r.log).told? = some (id, heard) → ∀ m ∈ heard,
    m.word = transactionWord id ∧ m.command < config.threshold
  /-- The first message for it is handed to nobody. -/
  first : Along (fun before e => ∀ m entry receiver, e = .arrived m (.transaction id) entry receiver →
    course token before = .underway id [] →
      receiver = none ∧ course token (before ++ [e]) = .underway id [m]) r.log
  /-- The second message for it is handed to it, and ends it. -/
  second : Along (fun before e => ∀ m₁ m₂ entry receiver,
    e = .arrived m₂ (.transaction id) entry receiver → course token before = .underway id [m₁] →
      receiver = some token ∧ course token (before ++ [e]) = .finished id [m₁, m₂]) r.log
  /-- No other message is handed to it or advances it. -/
  others : Along (fun before e => ∀ m kind entry receiver heard, e = .arrived m kind entry receiver →
    kind ≠ .transaction id → course token before = .underway id heard →
      receiver ≠ some token ∧ course token (before ++ [e]) = .underway id heard) r.log
  /-- It succeeds only with what follows the number in the second of exactly two messages. -/
  completed : ∀ reply, .returned token (.ok reply) ∈ r.log →
    ∃ m₁ m₂, course token r.log = .finished id [m₁, m₂] ∧ m₂.body.take 2 = [2, 4] ∧
      6 ≤ m₂.body.length ∧ reply = .body (m₂.body.drop 6)
  /-- The second message decides what it returns, unless its wait was over before that message was
  dispatched, or its request could not be sent. -/
  concluded : Along (fun before e => ∀ m₁ m₂ entry receiver,
    e = .arrived m₂ (.transaction id) entry receiver → course token before = .underway id [m₁] →
      ∀ result, .returned token result ∈ r.log → result = m₂.conclusion id ∨
        (.expired token ∈ before ∧ ∃ operation timeout, result = .error (.timeout operation timeout)) ∨
        (.unwritten token ∈ r.log ∧ ∃ e, result = .error e)) r.log
  /-- Unless its wait was over by then, or it has returned, it can return that as soon as its request is
  written. -/
  returns : Along (fun before e => ∀ m₁ m₂ entry receiver,
    e = .arrived m₂ (.transaction id) entry receiver → course token before = .underway id [m₁] →
      .expired token ∈ before ∨ (∃ result, .returned token result ∈ r.log) ∨
        r.draft.map Prod.fst = some token ∨
        .returned token (m₂.conclusion id) ∈ (r.collect token).log) r.log
  /-- A message that has another word, or a command that is not below the threshold, leaves it as it
  is. -/
  undisturbed : ∀ m : Message, ¬(m.word = transactionWord id ∧ m.command < config.threshold) →
    (r.dispatch m).client.call? token = r.client.call? token ∧
      course token (r.dispatch m).log = course token r.log ∧
      ∀ acknowledged, ⟨id, token, acknowledged⟩ ∈ (r.dispatch m).client.table.pending ↔
        ⟨id, token, acknowledged⟩ ∈ r.client.table.pending

/-- Whether no transaction was given the number zero. -/
def NumbersFromOne (r : Run H) : Prop :=
  ∀ token id, .started token (.transaction id) ∈ r.log → id ≠ 0

end Run

theorem Move.numbersFromOne {r r' : Run H} (hmove : Move r r') (h : r.NumbersFromOne) : r'.NumbersFromOne := by
  intro token id hmem
  cases hmove with
  | idle => exact h token id hmem
  | start cursor hk =>
    obtain hmem | hmem := List.mem_append.mp hmem
    · exact h token id hmem
    · exact hk.number_ne_zero id (Event.started.inj (List.mem_singleton.mp hmem)).2.symm
  | dispatch m => exact h token id (by simpa [Run.dispatch] using hmem)
  | close => exact h token id (by simpa [Run.close] using hmem)
  | _ => exact h token id (by simpa using hmem)

namespace Run

theorem numbersFromOne_after (config : ClientConfig) (sink : Sink) (actions : List (Action H)) :
    (after config sink actions).NumbersFromOne :=
  after_of_move (P := NumbersFromOne) (fun _ _ hmem => nomatch hmem) Move.numbersFromOne actions

/-- Every transaction of a run goes in two phases. -/
theorem Tracked.twoPhased {config : ClientConfig} {r : Run H} (h : r.Tracked)
    (hc : r.client.Consistent) (hl : r.Ledger) (htimely : r.Timely) (hnumbers : r.NumbersFromOne)
    (hconfig : r.client.config = config) {token : Nat} {id : UInt8}
    (hstarted : .started token (.transaction id) ∈ r.log) : r.TwoPhased config token id := by
  have hturn : Along (fun before e => ∀ m kind entry receiver, e = .arrived m kind entry receiver →
      Turn before m kind entry receiver) r.log := h.turns
  constructor
  case entry => exact fun acknowledged => h.entry_iff ⟨id, token, acknowledged⟩
  case counts =>
    intro m kind entry receiver hmem
    obtain ⟨before, -, harrival⟩ := hl.arrivals.of_mem hmem
    rw [(harrival m _ entry receiver rfl).kind_eq, hconfig, Message.classify_eq_transaction]
    exact and_congr_right fun _ => and_iff_right (hnumbers token id hstarted)
  case heard =>
    intro heard hcourse m hm
    obtain ⟨entry, receiver, hmem⟩ := (of_told? hcourse).2 m hm
    obtain ⟨before, -, harrival⟩ := hl.arrivals.of_mem hmem
    have hkind := (harrival m _ entry receiver rfl).kind_eq
    rw [hconfig] at hkind
    obtain ⟨hword, -, hcommand⟩ := Message.classify_eq_transaction.mp hkind.symm
    exact ⟨hword, hcommand⟩
  case first =>
    refine hturn.mono fun before e hturn m entry receiver he hcourse => ?_
    have hturn := hturn m _ entry receiver he
    obtain ⟨-, hreceiver⟩ := hturn.matched token id [] hcourse rfl
    rw [course_append_singleton, he]
    exact ⟨hreceiver, hturn.next_first hcourse⟩
  case second =>
    refine hturn.mono fun before e hturn m₁ m₂ entry receiver he hcourse => ?_
    have hturn := hturn m₂ _ entry receiver he
    obtain ⟨-, hreceiver⟩ := hturn.matched token id [m₁] hcourse rfl
    rw [course_append_singleton, he]
    exact ⟨hreceiver, hturn.next_second hcourse⟩
  case others =>
    refine hturn.mono fun before e hturn m kind entry receiver heard he hkind hcourse => ?_
    have hturn := hturn m kind entry receiver he
    rw [course_append_singleton, he]
    exact ⟨fun hr => hkind (hturn.only token id heard hcourse hr), hturn.next_of_ne hcourse hkind⟩
  case completed => exact fun reply hmem => hl.completed h.turns hstarted hmem
  case concluded =>
    rintro before _ rest hlog m₁ m₂ entry receiver rfl hcourse result hmem
    exact hl.concluded htimely h.turns hlog hcourse hmem
  case returns =>
    rintro before _ rest hlog m₁ m₂ entry receiver rfl hcourse
    exact hl.returns hc htimely h.turns hlog hcourse
  case undisturbed =>
    intro m hother
    refine h.undisturbed hc hl hstarted fun hkind => ?_
    rw [hconfig] at hkind
    obtain ⟨hword, -, hcommand⟩ := Message.classify_eq_transaction.mp hkind
    exact hother ⟨hword, hcommand⟩

/-- In every run of a client every transaction goes in two phases, and a body that anyone returns is from
the one message that was handed to the one who returns it. -/
theorem transactions_complete_in_two_phases (config : ClientConfig) (sink : Sink)
    (actions : List (Action H)) :
    (∀ token id, .started token (.transaction id) ∈ (after config sink actions).log →
      (after config sink actions).TwoPhased config token id) ∧
    ∀ token body, .returned token (.ok (.body body)) ∈ (after config sink actions).log →
      ∃ m kind, deliveries token (after config sink actions).log = [m] ∧
        .arrived m kind (some token) (some token) ∈ (after config sink actions).log := by
  have hledger := ledger_after config sink actions
  have hconsistent := consistent_after config sink actions
  have htracked := tracked_after config sink actions
  have htimely := timely_after config sink actions
  have hnumbers := numbersFromOne_after config sink actions
  have hconfig := config_after config sink actions
  refine ⟨fun token id hstarted => htracked.twoPhased hconsistent hledger htimely hnumbers hconfig hstarted, ?_⟩
  intro token body hmem
  obtain ⟨m, kind, hdeliveries, harrived, -⟩ := hledger.source_of_body hmem
  exact ⟨m, kind, hdeliveries, harrived⟩

/-- The second message for transaction 1 is its result, whatever comes between the two. -/
example :
    let r := after {} {} ([.start .transaction 5 [] ⟨0⟩, .write,
      .dispatch ⟨16, 16, 5, transactionWord 1, []⟩, .dispatch ⟨16, 16, 5, transactionWord 2, [1]⟩,
      .dispatch ⟨23, 23, 5, transactionWord 1, [2, 4, 0, 0, 0, 1, 7]⟩, .collect 1] : List (Action Unit))
    live r.log = [] ∧ (r.log.filterMap fun | .returned 1 (.ok reply) => some reply | _ => none)
      = [.body [7]] := by
  decide +kernel

/-! ## Numbers in use -/

theorem mem_live {token : Nat} {log : List Event} :
    token ∈ live log ↔ ∃ id heard, course token log = .underway id heard := by
  rw [live, List.mem_filter]
  constructor
  · rintro ⟨-, hunderway⟩
    rcases hcourse : course token log with _ | ⟨id, heard⟩ | _ <;> rw [hcourse] at hunderway
    · cases hunderway
    · exact ⟨id, heard, rfl⟩
    · cases hunderway
  · rintro ⟨id, heard, hcourse⟩
    refine ⟨mem_starts (started_of_underway hcourse), ?_⟩
    rw [hcourse]
    rfl

/-- The tokens of the entries are those of the transactions in progress. -/
theorem Tracked.mem_tokens {r : Run H} (h : r.Tracked) {token : Nat} :
    token ∈ r.client.table.pending.map Pending.token ↔ token ∈ live r.log := by
  rw [List.mem_map, mem_live]
  constructor
  · rintro ⟨p, hp, rfl⟩
    obtain ⟨heard, hcourse, -⟩ := (h.entry_iff p).mp hp
    exact ⟨p.id, heard, hcourse⟩
  · rintro ⟨id, heard, hcourse⟩
    have hlength := h.turns.length_le hcourse
    by_cases hnil : heard.length = 0
    · exact ⟨⟨id, token, false⟩, (h.entry_iff _).mpr ⟨heard, hcourse, hnil⟩, rfl⟩
    · exact ⟨⟨id, token, true⟩, (h.entry_iff _).mpr
        ⟨heard, hcourse, le_antisymm hlength (Nat.pos_of_ne_zero hnil)⟩, rfl⟩

/-- No transaction has two entries. -/
theorem Tracked.tokens_nodup {r : Run H} (h : r.Tracked) (hc : r.client.Consistent) :
    (r.client.table.pending.map Pending.token).Nodup := by
  -- entries of one transaction have its number, and numbers are distinct
  refine (hc.ids_nodup.of_map _).map_on fun p hp q hq htoken => ?_
  obtain ⟨heard, hcourse, -⟩ := (h.entry_iff p).mp hp
  obtain ⟨heard', hcourse', -⟩ := (h.entry_iff q).mp hq
  rw [htoken, hcourse', Course.underway.injEq] at hcourse
  exact List.inj_on_of_nodup_map hc.ids_nodup hp hq hcourse.1.symm

/-- The numbers of a client in the middle of a run. -/
structure Numbered (r : Run H) : Prop where
  /-- The numbers in use are from 1 to 255, and distinct. -/
  range : ∀ p ∈ r.client.table.pending, 1 ≤ p.id.toNat ∧ p.id.toNat ≤ 255
  nodup : (r.client.table.pending.map Pending.id).Nodup
  /-- They belong one to one to the transactions in progress, -/
  owners : (r.client.table.pending.map Pending.token).Perm (live r.log)
  owners_nodup : (live r.log).Nodup
  /-- each of which was given its number, -/
  numbers : ∀ p ∈ r.client.table.pending, .started p.token (.transaction p.id) ∈ r.log
  /-- and none of which has returned. -/
  unreturned : ∀ token result, .returned token result ∈ r.log →
    ∀ p ∈ r.client.table.pending, p.token ≠ token
  /-- Releasing a number in the name of a transaction that is not in progress does nothing, -/
  stale : ∀ id token, token ∉ live r.log → r.client.table.release id token = r.client.table
  /-- and in nobody's name does it take away the entry of somebody else. -/
  others : ∀ id token, ∀ p ∈ r.client.table.pending, p.token ≠ token →
    p ∈ (r.client.table.release id token).pending
  /-- On an open channel a transaction finds no free number exactly when 255 are in progress. -/
  exhausted : r.client.table.closed = false → ∀ command timeout,
    (r.client.begin .transaction command timeout).1 = .error .exhausted ↔ (live r.log).length = 255
  /-- When all transactions have returned no number is in use. -/
  drained : (∀ token id, .started token (.transaction id) ∈ r.log →
    ∃ result, .returned token result ∈ r.log) → r.client.table.pendingIds = []

/-- In every state of every run, the numbers in use belong to the transactions in progress. -/
theorem numbers_are_not_lost (config : ClientConfig) (sink : Sink) (actions : List (Action H)) :
    (after config sink actions).Numbered := by
  have hledger := ledger_after config sink actions
  have hconsistent := consistent_after config sink actions
  have htracked := tracked_after config sink actions
  generalize after config sink actions = r at *
  have howner : ∀ p ∈ r.client.table.pending, ∃ k ∈ r.client.calls, k.token = p.token ∧
      k.ticket = .transaction p.id := by
    intro p hp
    obtain ⟨k, hk, htoken, hawaits⟩ := hconsistent.owner p.token (.transaction p.id) ⟨p, hp, rfl, rfl⟩
    exact ⟨k, hk, htoken, hawaits.ticket_eq⟩
  have hnumbers : ∀ p ∈ r.client.table.pending, .started p.token (.transaction p.id) ∈ r.log := by
    intro p hp
    obtain ⟨k, hk, htoken, hticket⟩ := howner p hp
    rw [← htoken, ← hticket]
    exact (hledger.account k hk).started
  have hunreturned : ∀ token result, .returned token result ∈ r.log →
      ∀ p ∈ r.client.table.pending, p.token ≠ token := by
    intro token result hreturned p hp
    obtain ⟨k, hk, htoken, -⟩ := howner p hp
    rw [← htoken]
    exact hledger.ne_of_returned hreturned hk
  have hlive : (live r.log).Nodup := hledger.starts_nodup.filter _
  have howners : (r.client.table.pending.map Pending.token).Perm (live r.log) :=
    (List.perm_ext_iff_of_nodup (htracked.tokens_nodup hconsistent) hlive).mpr fun _ =>
      htracked.mem_tokens
  refine ⟨?_, hconsistent.ids_nodup, howners, hlive, hnumbers, hunreturned, ?_, ?_, ?_, ?_⟩
  · intro p hp
    have hne : p.id.toNat ≠ 0 := fun hc => hconsistent.id_ne_zero p hp (UInt8.toNat_inj.mp hc)
    have hlt := p.id.toNat_lt
    omega
  · intro id token hstale
    have hkept : r.client.table.pending.filter (fun p => ¬(p.id = id ∧ p.token = token))
        = r.client.table.pending := by
      refine List.filter_eq_self.mpr fun p hp => decide_eq_true fun hc => hstale ?_
      rw [← hc.2]
      exact htracked.mem_tokens.mp (List.mem_map_of_mem hp)
    rw [Table.release, hkept]
  · intro id token p hp hne
    exact List.mem_filter.mpr ⟨hp, decide_eq_true fun hc => hne hc.2⟩
  · intro hopen command timeout
    rw [Client.begin_exhausted hopen, Table.allocate_none, ← howners.length_eq, List.length_map,
      ← List.length_map (f := Pending.id)]
    simp only [Table.pending?_isSome_iff]
    -- no number is free exactly when there are 255 distinct ones in use
    refine (Table.length_eq_iff hconsistent.ids_nodup ?_).symm
    intro id hid
    obtain ⟨p, hp, rfl⟩ := List.mem_map.mp hid
    exact hconsistent.id_ne_zero p hp
  · intro hall
    have hnone : r.client.table.pending = [] := by
      apply List.eq_nil_iff_forall_not_mem.mpr
      intro p hp
      obtain ⟨result, hreturned⟩ := hall p.token p.id (hnumbers p hp)
      exact hunreturned p.token result hreturned p hp rfl
    rw [Table.pendingIds, hnone, List.map_nil, List.mergeSort_nil]

end Run

end Wwan
