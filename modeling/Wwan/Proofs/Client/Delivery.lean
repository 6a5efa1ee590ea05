import Wwan.Proofs.Client.Transactions

/-!
# Replies that come while a call gives up

A call that gives up does so in steps: its wait is over, it withdraws from the table, it returns.  The
reader may hand it its reply between the first two.  A call for an answer looks into its slot once more
after it has withdrawn, and returns such a reply; a transaction does not, and the reply is lost.
`Run.lost_iff_transaction_expired` says that this is the only way to lose a reply: every other call that
is handed a message returns what the message says, and none that has withdrawn is handed anything.
-/

namespace Wwan

variable {H : Type}

/-- What a call returns because of the message that it was handed. -/
def Message.reply (m : Message) : Message.Kind → Except CallError Reply
  | .transaction id => m.conclusion id
  | .response | .notice => .ok (.body m.body)

/-- A call is handed a message for a transaction after its wait was over. -/
def Late (before : List Event) (kind : Message.Kind) (token : Nat) : Prop :=
  (∃ id, kind = .transaction id) ∧ .expired token ∈ before

/-- What becomes of a message that was handed to a call when `before` had happened. -/
structure Run.Handed (r : Run H) (before : List Event) (m : Message) (kind : Message.Kind) (token : Nat) :
    Prop where
  /-- The call began as one for such a message, -/
  started : ∃ ticket, kind.ticket? = some ticket ∧ .started token ticket ∈ before
  /-- and has not withdrawn. -/
  present : .withdrawn token ∉ before
  /-- If its request could be sent, then what it returns is the reply, unless it is a transaction whose
  wait was over; such a one returns that its time has passed. -/
  returned : ∀ result, .returned token result ∈ r.log → .unwritten token ∉ r.log →
    (¬Late before kind token ∧ result = m.reply kind) ∨
    (Late before kind token ∧ ∃ operation timeout, result = .error (.timeout operation timeout))
  /-- And it returns something when it is asked to, as soon as its request is written. -/
  returns : (∃ result, .returned token result ∈ r.log) ∨ r.draft.map Prod.fst = some token ∨
    ∃ result, .returned token result ∈ ((r.settle token).collect token).log

/-! ## Who is handed a message -/

/-- What is known of each message that is dispatched is known at every point of the record. -/
theorem Move.along_arrivals {r r' : Run H} (hmove : Move r r') {P : List Event → Event → Prop}
    (h : Along P r.log)
    (hothers : ∀ before e, (∀ m kind entry receiver, e ≠ .arrived m kind entry receiver) → P before e)
    (harrived : ∀ m, P r.log (.arrived m (m.classify r.client.config.threshold)
      (r.client.table.entry? (m.classify r.client.config.threshold))
      (Client.route (m.classify r.client.config.threshold) r.client.table).1)) : Along P r'.log := by
  cases hmove with
  | idle => exact h
  | dispatch m => exact along_append_singleton.mpr ⟨h, harrived m⟩
  | @unwritten token request sink e =>
    show Along P (r.log ++ [.unwritten token, .returned token (.error e)])
    rw [List.append_cons]
    exact along_append_singleton.mpr
      ⟨along_append_singleton.mpr ⟨h, hothers _ _ (by simp)⟩, hothers _ _ (by simp)⟩
  | _ => exact along_append_singleton.mpr ⟨h, hothers _ _ (by simp)⟩

namespace Run

/-- Nobody who has withdrawn is handed a message. -/
theorem present_of_route {r : Run H} (hc : r.client.Consistent) (hl : r.Ledger) {kind : Message.Kind}
    {token : Nat} (h : (Client.route kind r.client.table).1 = some token) : .withdrawn token ∉ r.log := by
  obtain ⟨ticket, -, hholds⟩ := Client.holds_of_route h
  obtain ⟨k, hk, rfl, hawaits⟩ := hc.owner token ticket hholds
  rw [(hl.account k hk).withdrawn_iff]
  exact hawaits.unsettled

theorem present_after (config : ClientConfig) (sink : Sink) (actions : List (Action H)) :
    Along (fun before e => ∀ m kind entry token, e = .arrived m kind entry (some token) →
      .withdrawn token ∉ before) (after config sink actions).log := by
  refine after_induction (P := fun r : Run H => Along _ r.log) (along_nil _) (fun past r' hmove h => ?_)
    actions
  refine hmove.along_arrivals h (fun before e hother m kind entry token he => (hother _ _ _ _ he).elim) ?_
  intro m m' kind entry token he
  obtain ⟨-, -, -, hreceiver⟩ := Event.arrived.inj he
  exact present_of_route (consistent_after config sink past) (ledger_after config sink past) hreceiver

/-! ## What it returns -/

end Run

namespace Call

variable {t : Table} {k : Call} {s : Summary}

/-- What a transaction returns that has a message in its slot: nothing of it, once its wait was over. -/
theorem of_outcome?_transaction {id : UInt8} {result : Except CallError Reply}
    (hticket : k.ticket = .transaction id) (hslot : k.slot = some s) (h : k.outcome? t = some result) :
    (k.phase = .waiting ∧ result = k.conclude s) ∨
      (k.phase = .settled ∧ result = .error (.timeout k.operation k.timeout)) := by
  rcases hphase : k.phase with _ | _ | _ | _ <;> simp [outcome?, hphase, hticket, hslot] at h
  · exact .inl ⟨rfl, h.symm⟩
  · exact .inr ⟨rfl, h.symm⟩

/-- A call with a message in its slot is decided, unless its wait is just over. -/
theorem outcome?_of_slot (hslot : k.slot = some s) (hphase : k.phase = .waiting ∨ k.phase = .settled) :
    ∃ result, k.outcome? t = some result := by
  obtain hphase | hphase := hphase
  · by_cases hticket : k.ticket = .oneWay <;> simp [outcome?, hphase, hslot, hticket]
  · rw [outcome?, hphase]
    dsimp only
    split <;> exact ⟨_, rfl⟩

end Call

namespace Run

variable {r : Run H}

/-- A call with a message in its slot returns when it is asked to, once its request is written. -/
theorem returns_of_slot (hc : r.client.Consistent) {k : Call} (hk : k ∈ r.client.calls) {s : Summary}
    (hslot : k.slot = some s) (hphase : k.phase ≠ .sending) :
    ∃ result, .returned k.token result ∈ ((r.settle k.token).collect k.token).log := by
  by_cases hexpired : k.phase = .expired
  · have hsettle : r.settle k.token = { r with
        client := Client.update k.token (fun k => { k with phase := .settled })
          { r.client with table := k.withdraw r.client.table }
        log := r.log ++ [.withdrawn k.token] } := by
      simp only [settle, Client.settle, hc.call?_eq hk, if_pos hexpired]
    have hsettled : { k with phase := .settled } ∈ (r.settle k.token).client.calls := by
      rw [hsettle]
      exact Client.mem_calls_update.mpr ⟨k, hk, if_pos rfl⟩
    obtain ⟨result, hdecided⟩ := Call.outcome?_of_slot (t := (r.settle k.token).client.table)
      (k := { k with phase := .settled }) hslot (.inr rfl)
    refine ⟨result, ?_⟩
    rw [log_collect (k := { k with phase := .settled }) (hsettle ▸ hc.withdraw hk) hsettled hdecided]
    exact List.mem_append_right _ (List.mem_singleton_self _)
  · have hsettle : r.settle k.token = r := by
      simp only [settle, hc.call?_eq hk, if_neg hexpired]
    have hdone : k.phase = .waiting ∨ k.phase = .settled := by
      cases h : k.phase <;> simp_all
    obtain ⟨result, hdecided⟩ := Call.outcome?_of_slot (t := r.client.table) hslot hdone
    rw [hsettle, log_collect hc hk hdecided]
    exact ⟨result, List.mem_append_right _ (List.mem_singleton_self _)⟩

section Handed

variable (hl : r.Ledger) {before rest : List Event} {m : Message} {kind : Message.Kind}
  {entry : Option Nat} {token : Nat}
  (hlog : r.log = before ++ .arrived m kind entry (some token) :: rest)
include hl hlog

/-- Who was handed a message has it in its slot. -/
theorem Ledger.slot_of_handed {k : Call} (haccount : k.Account r.client.config.threshold r.log)
    (htoken : k.token = token) :
    kind.ticket? = some k.ticket ∧ k.slot = some (m.summary r.client.config.threshold) := by
  obtain ⟨ticket, hkind, hstarted⟩ :=
    (hl.arrivals before _ rest hlog m kind entry _ rfl).started token rfl
  have hmem : .started token ticket ∈ r.log := hlog ▸ List.mem_append_left _ hstarted
  have hticket : k.ticket = ticket :=
    ticket_eq_of_starts hl.starts_nodup (htoken ▸ haccount.started) hmem
  have hobservation : k.ticket ≠ .observation := by
    rw [hticket]
    rintro rfl
    cases kind <;> cases hkind
  refine ⟨hticket ▸ hkind, haccount.slot_eq hobservation ?_⟩
  rw [htoken, mem_deliveries, hlog]
  exact ⟨kind, entry, List.mem_append_right _ List.mem_cons_self⟩

/-- What a call returns that was handed a message. -/
theorem Ledger.returned_of_handed (htimely : r.Timely) {result : Except CallError Reply}
    (hmem : .returned token result ∈ r.log) (hsent : .unwritten token ∉ r.log) :
    (¬Late before kind token ∧ result = m.reply kind) ∨
      (Late before kind token ∧ ∃ operation timeout, result = .error (.timeout operation timeout)) := by
  obtain ⟨k, rfl, haccount, hverdict⟩ := hl.returned token result hmem
  obtain ⟨hkind, hslot⟩ := hl.slot_of_handed hlog haccount rfl
  cases hverdict with
  | unwritten _ _ hunwritten => exact absurd hunwritten hsent
  | decided t hdecided =>
    cases kind with
    | notice => cases hkind
    | response =>
      -- a call for an answer returns what is in its slot, in whatever phase it is decided
      have hticket : k.ticket = .answer := (Option.some_inj.mp hkind).symm
      rw [Call.outcome?_answer hticket hslot] at hdecided
      obtain ⟨-, hdecided⟩ := Option.ite_none_left_eq_some.mp hdecided
      refine .inl ⟨?_, (Option.some_inj.mp hdecided).symm⟩
      rintro ⟨⟨id, hid⟩, -⟩
      cases hid
    | transaction id =>
      have hticket : k.ticket = .transaction id := (Option.some_inj.mp hkind).symm
      obtain ⟨hphase, hresult⟩ | ⟨hphase, hresult⟩ := Call.of_outcome?_transaction hticket hslot hdecided
      · refine .inl ⟨?_, hresult.trans (Call.conclude_transaction hticket _ m)⟩
        rintro ⟨-, hexpired⟩
        have hmem : .expired k.token ∈ r.log := hlog ▸ List.mem_append_left _ hexpired
        simp [haccount.expired_iff, hphase] at hmem
      · -- the wait was over before the message came, for with a message in its slot no wait ends
        obtain ⟨ticket, hsame, hstarted⟩ :=
          (hl.arrivals before _ rest hlog m _ entry _ rfl).started k.token rfl
        have hexpired : .expired k.token ∈ r.log := haccount.expired_iff.mpr (.inr hphase)
        refine .inr ⟨⟨⟨id, rfl⟩, htimely.expired_mem hlog hstarted ?_ hexpired⟩, _, _, hresult⟩
        rintro rfl
        cases hsame

theorem Ledger.handed (hc : r.client.Consistent) (htimely : r.Timely)
    (hpresent : .withdrawn token ∉ before) : r.Handed before m kind token where
  started := (hl.arrivals before _ rest hlog m kind entry _ rfl).started token rfl
  present := hpresent
  returned _ hmem hsent := hl.returned_of_handed hlog htimely hmem hsent
  returns := by
    obtain ⟨ticket, -, hstarted⟩ :=
      (hl.arrivals before _ rest hlog m kind entry _ rfl).started token rfl
    obtain hcall | hreturned := hl.present token (mem_starts (hlog ▸ List.mem_append_left _ hstarted))
    · obtain ⟨k, hk, rfl⟩ := List.mem_map.mp hcall
      obtain ⟨-, hslot⟩ := hl.slot_of_handed hlog (hl.account k hk) rfl
      by_cases hphase : k.phase = .sending
      · exact .inr (.inl ((hl.writer k hk).mp hphase))
      · exact .inr (.inr (returns_of_slot hc hk hslot hphase))
    · exact .inl hreturned

end Handed

/-- A message that was handed to a call is what the call returns, in every run of a client, unless it was
handed to a transaction whose wait was over; such a one returns that its time has passed, although it had
not withdrawn from the table. -/
theorem lost_iff_transaction_expired (config : ClientConfig) (sink : Sink) (actions : List (Action H)) :
    Along (fun before e => ∀ m kind entry token, e = .arrived m kind entry (some token) →
      (after config sink actions).Handed before m kind token) (after config sink actions).log := by
  rintro before _ rest hlog m kind entry token rfl
  have hpresent := present_after config sink actions before _ rest hlog m kind entry token rfl
  exact (ledger_after config sink actions).handed hlog (consistent_after config sink actions)
    (timely_after config sink actions) hpresent

/-- The result of a transaction comes when its wait is over and it has not withdrawn. -/
def resultWhileGivingUp : List (Action Unit) :=
  [.start .transaction 5 [] ⟨0⟩, .write, .dispatch ⟨16, 16, 5, transactionWord 1, []⟩, .expire 1,
    .dispatch ⟨23, 23, 5, transactionWord 1, [2, 4, 0, 0, 0, 1, 7]⟩, .settle 1, .collect 1]

/-- The transaction is handed its result before it withdraws, and returns nevertheless that its time has
passed. -/
theorem transaction_loses_result :
    ∃ before m entry,
      (after {} {} resultWhileGivingUp).log = before ++ [.arrived m (.transaction 1) entry (some 1),
        .withdrawn 1, .returned 1 (.error (.timeout "transaction 1 (call 0x0005)" ⟨0⟩))] ∧
      .withdrawn 1 ∉ before ∧ m.reply (.transaction 1) = .ok (.body [7]) :=
  ⟨[.started 1 (.transaction 1), .written 1 ⟨5, some 1, []⟩,
      .arrived ⟨16, 16, 5, transactionWord 1, []⟩ (.transaction 1) (some 1) none, .expired 1],
    ⟨23, 23, 5, transactionWord 1, [2, 4, 0, 0, 0, 1, 7]⟩, some 1, by decide +kernel⟩

/-- A call for an answer returns an answer that comes then. -/
example : (after {} {} ([.start .answer 5 [] ⟨0⟩, .write, .expire 1,
      .dispatch ⟨17, 17, 5, syncWord, [7]⟩, .settle 1, .collect 1] : List (Action Unit))).log.getLast?
    = some (.returned 1 (.ok (.body [7]))) := by
  decide +kernel

end Run

end Wwan
