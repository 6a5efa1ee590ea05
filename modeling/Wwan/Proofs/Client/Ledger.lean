import Wwan.Proofs.Client.Entries
import Wwan.Proofs.Client.Record

/-!
# The record and the calls

The record of a run accounts for every call: for those in progress (`Call.Account`), for their places
in the queue (`Waiter.Account`), and for those that have returned, whose result is what their last
state told them to return (`Verdict`).  `Run.Ledger` puts this together; every move keeps it
(`Move.ledger`).

All but one of the moves add one event.  What has to be shown of such a move is a `Posting`.
-/

namespace Wwan

variable {H : Type}

/-- The record tells how far a call has got and what it was handed. -/
structure Call.Account (threshold : UInt32) (log : List Event) (k : Call) : Prop where
  started : .started k.token k.ticket ∈ log
  expired_iff : .expired k.token ∈ log ↔ k.phase = .expired ∨ k.phase = .settled
  withdrawn_iff : .withdrawn k.token ∈ log ↔ k.phase = .settled
  slot : k.ticket ≠ .observation →
    (deliveries k.token log).map (Message.summary threshold) = k.slot.toList

/-- The record tells whether somebody waits at a place in the queue. -/
inductive Waiter.Account (log : List Event) (w : Waiter) : Prop where
  | attended (attended_eq : w.attended = true) (started : .started w.token .answer ∈ log)
      (present : .withdrawn w.token ∉ log)
  | oneWay (attended_eq : w.attended = false) (started : .started w.token .oneWay ∈ log)
  | withdrawn (attended_eq : w.attended = false) (withdrawn : .withdrawn w.token ∈ log)

/-- What the record tells of a message that was dispatched, given what stands before. -/
structure Arrival (threshold : UInt32) (before : List Event) (m : Message) (kind : Message.Kind)
    (entry receiver : Option Nat) : Prop where
  kind_eq : kind = m.classify threshold
  entry_eq : ∀ token, receiver = some token → entry = some token
  started : ∀ token, receiver = some token →
    ∃ ticket, kind.ticket? = some ticket ∧ .started token ticket ∈ before
  answered : kind = .response → ∀ token, entry = some token →
    (receiver = some token ∧ .started token .answer ∈ before ∧ .withdrawn token ∉ before) ∨
    (receiver = none ∧ (.started token .oneWay ∈ before ∨ .withdrawn token ∈ before))

/-- Why a call returned what it did: it was decided, or its request could not be sent. -/
inductive Verdict (log : List Event) (k : Call) (result : Except CallError Reply) : Prop where
  | decided (t : Table) (h : k.outcome? t = some result)
  | unwritten (e : CallError) (result_eq : result = .error e) (mem : .unwritten k.token ∈ log)

/-- The record of a run and its client fit together. -/
structure Run.Ledger (r : Run H) : Prop where
  token_le : ∀ e ∈ r.log, ∀ token, e.token? = some token → token ≤ r.client.table.lastToken
  starts_nodup : (starts r.log).Nodup
  writer : ∀ k ∈ r.client.calls, k.phase = .sending ↔ r.draft.map Prod.fst = some k.token
  drafted : ∀ token request, r.draft = some (token, request) → ∃ k ∈ r.client.calls,
    k.token = token ∧ k.ticket ≠ .observation ∧ request.transaction = k.ticket.number?
  account : ∀ k ∈ r.client.calls, k.Account r.client.config.threshold r.log
  unreturned : ∀ k ∈ r.client.calls, ∀ result, .returned k.token result ∉ r.log
  present : ∀ token ∈ starts r.log, token ∈ r.client.calls.map Call.token ∨
    ∃ result, .returned token result ∈ r.log
  places : ∀ w ∈ r.client.table.waiters, w.Account r.log
  returned : ∀ token result, .returned token result ∈ r.log →
    ∃ k : Call, k.token = token ∧ k.Account r.client.config.threshold r.log ∧ Verdict r.log k result
  arrivals : Along (fun before e => ∀ m kind entry receiver, e = .arrived m kind entry receiver →
    Arrival r.client.config.threshold before m kind entry receiver) r.log

/-- What is to be shown of a move that adds one event, about a call in progress, a new one or none. -/
structure Run.Posting (r r' : Run H) (e : Event) : Prop where
  log_eq : r'.log = r.log ++ [e] := by rfl
  config_eq : r'.client.config = r.client.config := by rfl
  lastToken_le : r.client.table.lastToken ≤ r'.client.table.lastToken
  about : ∀ token, e.token? = some token → token ≤ r'.client.table.lastToken ∧
    (r.client.table.lastToken < token ∨ ∃ k ∈ r.client.calls, k.token = token)
  started : ∀ token ticket, e = .started token ticket →
    r.client.table.lastToken < token ∧ token ∈ r'.client.calls.map Call.token := by simp
  writer : ∀ k ∈ r'.client.calls, k.phase = .sending ↔ r'.draft.map Prod.fst = some k.token
  drafted : ∀ token request, r'.draft = some (token, request) → ∃ k ∈ r'.client.calls,
    k.token = token ∧ k.ticket ≠ .observation ∧ request.transaction = k.ticket.number?
  calls : ∀ k ∈ r'.client.calls, (k ∈ r.client.calls ∧ e.token? ≠ some k.token) ∨
    (k.Account r.client.config.threshold (r.log ++ [e]) ∧
      ∀ result, .returned k.token result ∉ r.log ++ [e])
  present : ∀ k ∈ r.client.calls, k.token ∈ r'.client.calls.map Call.token ∨
    ∃ result, e = .returned k.token result
  places : ∀ w ∈ r'.client.table.waiters,
    (w ∈ r.client.table.waiters ∧ e ≠ .withdrawn w.token) ∨ w.Account (r.log ++ [e])
  returned : ∀ token result, e = .returned token result → ∃ k ∈ r.client.calls,
    k.token = token ∧ Verdict r.log k result := by simp
  arrived : ∀ m kind entry receiver, e = .arrived m kind entry receiver →
    Arrival r.client.config.threshold r.log m kind entry receiver := by simp

/-! ## Events that leave an account as it is -/

/-- An event leaves the account of a call as it is when it neither ends its wait nor hands it anything. -/
theorem Call.Account.append {threshold : UInt32} {log : List Event} {k : Call}
    (h : k.Account threshold log) {e : Event} (hexpired : e ≠ .expired k.token)
    (hwithdrawn : e ≠ .withdrawn k.token)
    (hdeliveries : deliveries k.token (log ++ [e]) = deliveries k.token log) :
    k.Account threshold (log ++ [e]) where
  started := List.mem_append_left _ h.started
  expired_iff := by
    rw [← h.expired_iff, List.mem_append, List.mem_singleton, or_iff_left hexpired.symm]
  withdrawn_iff := by
    rw [← h.withdrawn_iff, List.mem_append, List.mem_singleton, or_iff_left hwithdrawn.symm]
  slot hticket := by
    rw [hdeliveries]
    exact h.slot hticket

/-- An event that changes another call leaves the account of this one as it is. -/
theorem Call.Account.append_of_ne {threshold : UInt32} {log : List Event} {k : Call}
    (h : k.Account threshold log) {e : Event} (hne : e.token? ≠ some k.token) :
    k.Account threshold (log ++ [e]) :=
  h.append (fun he => hne (he ▸ rfl)) (fun he => hne (he ▸ rfl)) (deliveries_of_ne hne log)

theorem Waiter.Account.append {log : List Event} {w : Waiter} (h : w.Account log) {e : Event}
    (hne : e ≠ .withdrawn w.token) : w.Account (log ++ [e]) := by
  cases h with
  | attended attended_eq started present =>
    refine .attended attended_eq (List.mem_append_left _ started) fun hmem => ?_
    obtain hmem | hmem := List.mem_append.mp hmem
    · exact present hmem
    · exact hne (List.mem_singleton.mp hmem).symm
  | oneWay attended_eq started => exact .oneWay attended_eq (List.mem_append_left _ started)
  | withdrawn attended_eq withdrawn =>
    exact .withdrawn attended_eq (List.mem_append_left _ withdrawn)

theorem Verdict.append {log : List Event} {k : Call} {result : Except CallError Reply}
    (h : Verdict log k result) (e : Event) : Verdict (log ++ [e]) k result := by
  cases h with
  | decided t h => exact .decided t h
  | unwritten e' result_eq mem => exact .unwritten e' result_eq (List.mem_append_left _ mem)

/-- A call is handed one message at most, and it is in its slot. -/
theorem Call.Account.deliveries_eq {threshold : UInt32} {log : List Event} {k : Call}
    (h : k.Account threshold log) (hticket : k.ticket ≠ .observation) {s : Summary}
    (hs : k.slot = some s) : ∃ m, deliveries k.token log = [m] ∧ m.summary threshold = s := by
  have hslot := h.slot hticket
  rw [hs] at hslot
  exact List.map_eq_singleton_iff.mp hslot

theorem Call.Account.slot_eq {threshold : UInt32} {log : List Event} {k : Call}
    (h : k.Account threshold log) (hticket : k.ticket ≠ .observation) {m : Message}
    (hm : m ∈ deliveries k.token log) : k.slot = some (m.summary threshold) := by
  have hslot := h.slot hticket
  have hmem := List.mem_map_of_mem (f := Message.summary threshold) hm
  rw [hslot, Option.mem_toList] at hmem
  exact hmem

namespace Run

/-! ## One more event -/

/-- A call that has returned is over: it is not one of those in progress. -/
theorem Ledger.ne_of_returned {r : Run H} (h : r.Ledger) {token : Nat}
    {result : Except CallError Reply} (hreturned : .returned token result ∈ r.log) {k : Call}
    (hk : k ∈ r.client.calls) : k.token ≠ token := by
  rintro rfl
  exact h.unreturned k hk result hreturned

/-- A call that has not begun is not spoken of. -/
theorem Ledger.token_ne_of_lt {r : Run H} (h : r.Ledger) {token : Nat}
    (hlt : r.client.table.lastToken < token) {e : Event} (he : e ∈ r.log) :
    e.token? ≠ some token := by
  intro htoken
  have := h.token_le e he token htoken
  omega

/-- No call begins twice. -/
theorem Posting.starts_nodup {r r' : Run H} {e : Event} (hp : Posting r r' e) (h : r.Ledger) :
    (starts r'.log).Nodup := by
  rw [hp.log_eq, starts, List.filterMap_append]
  cases e with
  | started token ticket =>
    -- a token that is given out is above all that were given out before
    have hfresh : token ∉ starts r.log := by
      intro hc
      obtain ⟨e', he', htoken⟩ := List.mem_filterMap.mp hc
      cases e' <;> cases htoken
      exact h.token_ne_of_lt (hp.started token ticket rfl).1 he' rfl
    have hconcat := h.starts_nodup.concat hfresh
    rwa [List.concat_eq_append] at hconcat
  | _ =>
    show (starts r.log ++ []).Nodup
    rw [List.append_nil]
    exact h.starts_nodup

/-- The accounts of the calls that have returned stay as they are. -/
theorem Posting.verdict {r r' : Run H} {e : Event} (hp : Posting r r' e) (h : r.Ledger) {token : Nat}
    {result : Except CallError Reply} (hmem : .returned token result ∈ r'.log) :
    ∃ k : Call, k.token = token ∧ k.Account r'.client.config.threshold r'.log ∧
      Verdict r'.log k result := by
  rw [hp.log_eq, List.mem_append, List.mem_singleton] at hmem
  rw [hp.log_eq, hp.config_eq]
  obtain hmem | heq := hmem
  · obtain ⟨k, rfl, haccount, hverdict⟩ := h.returned token result hmem
    -- no event is about a call that has returned
    refine ⟨k, rfl, haccount.append_of_ne fun hc => ?_, hverdict.append e⟩
    obtain hlt | ⟨k', hk', htoken⟩ := (hp.about _ hc).2
    · exact h.token_ne_of_lt hlt hmem rfl
    · exact h.ne_of_returned hmem hk' htoken
  · obtain ⟨k, hk, rfl, hverdict⟩ := hp.returned token result heq.symm
    refine ⟨k, rfl, ?_, hverdict.append e⟩
    subst heq
    exact (h.account k hk).append (by simp) (by simp) (deliveries_of_not_arrived (by simp) _)

/-- A call that has begun is in progress or has returned. -/
theorem Posting.present_or_returned {r r' : Run H} {e : Event} (hp : Posting r r' e) (h : r.Ledger)
    {token : Nat} (htoken : token ∈ starts r'.log) :
    token ∈ r'.client.calls.map Call.token ∨ ∃ result, .returned token result ∈ r'.log := by
  rw [hp.log_eq] at htoken ⊢
  rw [starts_append, List.mem_append] at htoken
  obtain hmem | hmem := htoken
  · obtain hcall | ⟨result, hreturned⟩ := h.present token hmem
    · obtain ⟨k, hk, rfl⟩ := List.mem_map.mp hcall
      obtain hkept | ⟨result, he⟩ := hp.present k hk
      · exact .inl hkept
      · exact .inr ⟨result, List.mem_append_right _ (List.mem_singleton.mpr he.symm)⟩
    · exact .inr ⟨result, List.mem_append_left _ hreturned⟩
  · obtain ⟨e', he', htoken⟩ := List.mem_filterMap.mp hmem
    obtain rfl := List.mem_singleton.mp he'
    cases e' <;> cases htoken
    exact .inl (hp.started token _ rfl).2

theorem Ledger.post {r r' : Run H} {e : Event} (h : r.Ledger) (hp : Posting r r' e) :
    r'.Ledger where
  token_le e' he' token htoken := by
    rw [hp.log_eq, List.mem_append, List.mem_singleton] at he'
    obtain he' | rfl := he'
    · exact (h.token_le e' he' token htoken).trans hp.lastToken_le
    · exact (hp.about token htoken).1
  starts_nodup := hp.starts_nodup h
  writer := hp.writer
  drafted := hp.drafted
  account k hk := by
    rw [hp.log_eq, hp.config_eq]
    obtain ⟨hmem, hne⟩ | ⟨haccount, -⟩ := hp.calls k hk
    · exact (h.account k hmem).append_of_ne hne
    · exact haccount
  unreturned k hk result := by
    rw [hp.log_eq]
    obtain ⟨hmem, hne⟩ | ⟨-, hunreturned⟩ := hp.calls k hk
    · rw [List.mem_append, List.mem_singleton]
      rintro (hc | rfl)
      · exact h.unreturned k hmem result hc
      · exact hne rfl
    · exact hunreturned result
  present token htoken := hp.present_or_returned h htoken
  places w hw := by
    rw [hp.log_eq]
    obtain ⟨hmem, hne⟩ | haccount := hp.places w hw
    · exact (h.places w hmem).append hne
    · exact haccount
  returned token result hmem := hp.verdict h hmem
  arrivals := by
    rw [hp.log_eq, hp.config_eq, along_append_singleton]
    exact ⟨h.arrivals, hp.arrived⟩

/-! ## The moves -/

/-- The account of a call that has just begun. -/
theorem Ledger.account_start {r : Run H} (h : r.Ledger) {k : Call} {draft : Option (Nat × Request)}
    (hk : Admission r k draft) :
    k.Account r.client.config.threshold (r.log ++ [.started k.token k.ticket]) := by
  have hlt : r.client.table.lastToken < k.token := by
    rw [hk.token_eq]
    omega
  have hnone : ∀ e ∈ r.log ++ [.started k.token k.ticket], e.token? = some k.token →
      e = .started k.token k.ticket := by
    intro e he htoken
    obtain hmem | hmem := List.mem_append.mp he
    · exact absurd htoken (h.token_ne_of_lt hlt hmem)
    · exact List.mem_singleton.mp hmem
  have hphase : k.phase ≠ .expired ∧ k.phase ≠ .settled := by
    obtain ⟨-, hphase, -⟩ | ⟨-, hphase, -⟩ := hk.writer <;> simp [hphase]
  constructor
  · exact List.mem_append_right _ (List.mem_singleton_self _)
  · refine iff_of_false (fun hmem => ?_) (not_or.mpr hphase)
    have := hnone _ hmem rfl
    cases this
  · refine iff_of_false (fun hmem => ?_) hphase.2
    have := hnone _ hmem rfl
    cases this
  · intro _
    have hdeliveries : deliveries k.token (r.log ++ [.started k.token k.ticket]) = [] := by
      apply List.eq_nil_iff_forall_not_mem.mpr
      intro m hm
      obtain ⟨kind, entry, hmem⟩ := mem_deliveries.mp hm
      have := hnone _ hmem rfl
      cases this
    rw [hdeliveries, hk.slot_eq]
    rfl

theorem Ledger.start {r : Run H} (h : r.Ledger) (hc : r.client.Consistent) {k : Call}
    {draft : Option (Nat × Request)} (cursor : UInt8) (hk : Admission r k draft) :
    Run.Ledger { r with
      client := { r.client with
        table := Table.enroll k.token k.ticket { r.client.table with lastToken := k.token, cursor }
        calls := r.client.calls ++ [k] }
      draft
      log := r.log ++ [.started k.token k.ticket] } := by
  have hlt : r.client.table.lastToken < k.token := by
    rw [hk.token_eq]
    omega
  have hlast : (Table.enroll k.token k.ticket
      { r.client.table with lastToken := k.token, cursor }).lastToken = k.token := by
    cases k.ticket <;> rfl
  have hne : ∀ k' ∈ r.client.calls, k'.token ≠ k.token := fun k' hk' hcontra =>
    hc.fresh_token hk (List.mem_map.mpr ⟨k', hk', hcontra⟩)
  have hunspoken : ∀ e ∈ r.log ++ [.started k.token k.ticket], (∀ ticket, e ≠ .started k.token ticket) →
      e.token? ≠ some k.token := by
    intro e he hstarted
    obtain hmem | hmem := List.mem_append.mp he
    · exact h.token_ne_of_lt hlt hmem
    · exact absurd (List.mem_singleton.mp hmem) (hstarted k.ticket)
  refine h.post (e := .started k.token k.ticket) {
    lastToken_le := (hlt.le.trans hlast.ge)
    about := ?about
    started := ?started
    writer := ?writer
    drafted := ?drafted
    calls := ?calls
    present := ?present
    places := ?places }
  case about =>
    intro token htoken
    obtain rfl : k.token = token := Option.some_inj.mp htoken
    exact ⟨hlast.ge, .inl hlt⟩
  case started =>
    intro token ticket he
    obtain ⟨rfl, rfl⟩ := Event.started.inj he
    exact ⟨hlt, List.mem_map_of_mem (List.mem_append_right _ (List.mem_singleton_self k))⟩
  case writer =>
    intro k' hk'
    obtain hmem | hmem := List.mem_append.mp hk'
    · rw [h.writer k' hmem]
      obtain ⟨-, -, rfl⟩ | ⟨-, -, hnone, command, body, rfl⟩ := hk.writer
      · exact Iff.rfl
      · rw [hnone]
        simp [(hne k' hmem).symm]
    · obtain rfl := List.mem_singleton.mp hmem
      obtain ⟨-, hphase, rfl⟩ | ⟨-, hphase, -, command, body, rfl⟩ := hk.writer
      · rw [hphase]
        refine iff_of_false (by simp) fun hdraft => ?_
        obtain ⟨⟨token, request⟩, hd, htoken⟩ := Option.map_eq_some_iff.mp hdraft
        obtain ⟨k', hk', htoken', -⟩ := h.drafted token request hd
        exact hne k' hk' (htoken'.trans htoken)
      · exact iff_of_true hphase rfl
  case drafted =>
    intro token request hdraft
    obtain ⟨-, -, rfl⟩ | ⟨hticket, -, -, command, body, rfl⟩ := hk.writer
    · obtain ⟨k', hk', hspec⟩ := h.drafted token request hdraft
      exact ⟨k', List.mem_append_left _ hk', hspec⟩
    · cases hdraft
      exact ⟨k, List.mem_append_right _ (List.mem_singleton_self k), rfl, hticket, rfl⟩
  case calls =>
    intro k' hk'
    obtain hmem | hmem := List.mem_append.mp hk'
    · exact .inl ⟨hmem, fun htoken => hne k' hmem (Option.some_inj.mp htoken).symm⟩
    · obtain rfl := List.mem_singleton.mp hmem
      exact .inr ⟨h.account_start hk, fun result hmem => hunspoken _ hmem (by simp) rfl⟩
  case present =>
    exact fun k' hk' => .inl (List.mem_map_of_mem (List.mem_append_left _ hk'))
  case places =>
    intro w hw
    obtain hmem | ⟨hticket, rfl⟩ | ⟨hticket, rfl⟩ := Table.mem_waiters_enroll hw
    · exact .inl ⟨hmem, by simp⟩
    · refine .inr (.attended rfl ?_ fun hmem => hunspoken _ hmem (by simp) rfl)
      rw [hticket]
      exact List.mem_append_right _ (List.mem_singleton_self _)
    · refine .inr (.oneWay rfl ?_)
      rw [hticket]
      exact List.mem_append_right _ (List.mem_singleton_self _)

/-- How a call gets on, and what the record says then. -/
inductive Progress (token : Nat) : Phase → Phase → Event → Prop where
  | written (request : Request) : Progress token .sending .waiting (.written token request)
  | expired : Progress token .waiting .expired (.expired token)
  | withdrawn : Progress token .expired .settled (.withdrawn token)

/-- The account of a call that gets on. -/
theorem Progress.account {threshold : UInt32} {log : List Event} {k : Call} {phase₀ phase : Phase}
    {e : Event} (hprogress : Progress k.token phase₀ phase e) (hphase : k.phase = phase₀)
    (h : k.Account threshold log) : Call.Account threshold (log ++ [e]) { k with phase } where
  started := List.mem_append_left _ h.started
  expired_iff := by
    rw [List.mem_append, h.expired_iff, hphase]
    cases hprogress <;> simp
  withdrawn_iff := by
    rw [List.mem_append, h.withdrawn_iff, hphase]
    cases hprogress <;> simp
  slot hticket := by
    rw [deliveries_of_not_arrived (by cases hprogress <;> simp)]
    exact h.slot hticket

/-- A call in progress gets on; it gives the writer back if it had it. -/
theorem Ledger.advance {r : Run H} (h : r.Ledger) (hc : r.client.Consistent) {k : Call}
    (hk : k ∈ r.client.calls) {phase₀ phase : Phase} (hphase : k.phase = phase₀) {e : Event}
    (hprogress : Progress k.token phase₀ phase e)
    (table : Table) (hlast : table.lastToken = r.client.table.lastToken)
    (hplaces : ∀ w ∈ table.waiters, (w ∈ r.client.table.waiters ∧ e ≠ .withdrawn w.token) ∨
      (w.attended = false ∧ e = .withdrawn w.token)) (sink : Sink) :
    Run.Ledger {
      client := Client.update k.token (fun k => { k with phase }) { r.client with table }
      sink
      draft := if phase₀ = .sending then none else r.draft
      log := r.log ++ [e] } := by
  have hwriter := h.writer k hk
  rw [hphase] at hwriter
  have hsending : phase ≠ .sending := by
    cases hprogress <;> simp
  have habout : e.token? = some k.token := by
    cases hprogress <;> rfl
  refine h.post (e := e) {
    lastToken_le := hlast.ge
    about := ?about
    started := by cases hprogress <;> simp
    writer := ?writer
    drafted := ?drafted
    calls := ?calls
    present := ?present
    places := ?places
    returned := by cases hprogress <;> simp
    arrived := by cases hprogress <;> simp }
  case about =>
    intro token htoken
    obtain rfl : k.token = token := Option.some_inj.mp (habout.symm.trans htoken)
    exact ⟨hlast.ge.trans' (hc.call_le k hk), .inr ⟨k, hk, rfl⟩⟩
  case writer =>
    intro k' hk'
    obtain ⟨k₀, hk₀, rfl⟩ := Client.mem_calls_update.mp hk'
    by_cases htoken : k₀.token = k.token
    · rw [if_pos htoken, htoken]
      refine iff_of_false hsending ?_
      -- the writer is given back exactly by a call that had it
      by_cases hsend : phase₀ = .sending
      · simp [hsend]
      · rw [if_neg hsend]
        exact fun hc => hsend (hwriter.mpr hc)
    · rw [if_neg htoken, h.writer k₀ hk₀]
      by_cases hsend : phase₀ = .sending
      · rw [hwriter.mp hsend, if_pos hsend]
        simp [Ne.symm htoken]
      · rw [if_neg hsend]
  case drafted =>
    intro token request hd
    obtain ⟨-, hd⟩ := (Option.ite_none_left_eq_some).mp hd
    obtain ⟨k₀, hk₀, htoken, hspec⟩ := h.drafted token request hd
    refine ⟨_, Client.mem_calls_update.mpr ⟨k₀, hk₀, rfl⟩, ?_, ?_⟩ <;> split
    · exact htoken
    · exact htoken
    · exact hspec
    · exact hspec
  case calls =>
    intro k' hk'
    obtain ⟨k₀, hk₀, rfl⟩ := Client.mem_calls_update.mp hk'
    by_cases htoken : k₀.token = k.token
    · obtain rfl := hc.eq_of_token hk₀ hk htoken
      rw [if_pos rfl]
      refine .inr ⟨hprogress.account hphase (h.account k₀ hk₀), fun result hmem => ?_⟩
      obtain hmem | hmem := List.mem_append.mp hmem
      · exact h.unreturned k₀ hk₀ result hmem
      · have := List.mem_singleton.mp hmem
        cases hprogress <;> cases this
    · rw [if_neg htoken]
      refine .inl ⟨hk₀, fun he => htoken ?_⟩
      exact (Option.some_inj.mp (habout.symm.trans he)).symm
  case present =>
    intro k' hk'
    rw [Client.tokens_update (f := fun k => { k with phase }) fun _ => rfl]
    exact .inl (List.mem_map_of_mem hk')
  case places =>
    intro w hw
    obtain hold | ⟨hattended, rfl⟩ := hplaces w hw
    · exact .inl hold
    · exact .inr (.withdrawn hattended (List.mem_append_right _ (List.mem_singleton_self _)))

theorem Ledger.written {r : Run H} (h : r.Ledger) (hc : r.client.Consistent) {token : Nat}
    {request : Request} (hdraft : r.draft = some (token, request)) (sink : Sink) :
    Run.Ledger {
      client := r.client.sent token, sink, log := r.log ++ [.written token request] } := by
  obtain ⟨k, hk, rfl, -⟩ := h.drafted token request hdraft
  have hphase : k.phase = .sending := (h.writer k hk).mpr (by rw [hdraft]; rfl)
  have hadvance := h.advance hc hk hphase (.written request) r.client.table rfl
    (fun w hw => .inl ⟨hw, by simp⟩) sink
  rw [if_pos rfl] at hadvance
  exact hadvance

theorem Ledger.expire {r : Run H} (h : r.Ledger) (hc : r.client.Consistent) {k : Call}
    (hk : k ∈ r.client.calls) (hphase : k.phase = .waiting) :
    Run.Ledger { r with
      client := r.client.update k.token fun k => { k with phase := .expired }
      log := r.log ++ [.expired k.token] } := by
  have hadvance := h.advance hc hk hphase .expired r.client.table rfl
    (fun w hw => .inl ⟨hw, by simp⟩) r.sink
  rw [if_neg (by simp)] at hadvance
  exact hadvance

theorem Ledger.settle {r : Run H} (h : r.Ledger) (hc : r.client.Consistent) {k : Call}
    (hk : k ∈ r.client.calls) (hphase : k.phase = .expired) :
    Run.Ledger { r with
      client := Client.update k.token (fun k => { k with phase := .settled })
        { r.client with table := k.withdraw r.client.table }
      log := r.log ++ [.withdrawn k.token] } := by
  have hadvance := h.advance hc hk hphase .withdrawn (k.withdraw r.client.table)
    (Table.trims_withdraw k r.client.table).lastToken_eq ?_ r.sink
  · rw [if_neg (by simp)] at hadvance
    exact hadvance
  intro w hw
  by_cases htoken : w.token = k.token
  · refine .inr ⟨?_, by rw [htoken]⟩
    rw [← Bool.not_eq_true]
    intro hattended
    -- an attended place is the place of the call that withdrew
    have hholds : Table.Holds (k.withdraw r.client.table) k.token .answer := by
      rw [← htoken]
      show Waiter.mk w.token true ∈ _
      rw [← hattended]
      exact hw
    obtain ⟨hheld, hne⟩ := Table.holds_withdraw (t := r.client.table) hholds
    obtain ⟨k', hk', htoken', hawaits⟩ := hc.owner _ _ hheld
    rw [hc.eq_of_token hk' hk htoken'] at hawaits
    exact hne ⟨rfl, hawaits.ticket_eq.symm⟩
  · refine .inl ⟨Table.mem_waiters_withdraw hw htoken, fun he => ?_⟩
    exact htoken (Event.withdrawn.inj he).symm

/-- A call is over: it leaves those in progress, and the writer if it had it. -/
theorem Ledger.leave {r : Run H} (h : r.Ledger) (hc : r.client.Consistent) {k : Call}
    (hk : k ∈ r.client.calls) {result : Except CallError Reply} (hverdict : Verdict r.log k result)
    {table : Table} (htable : table.Trims r.client.table)
    (hplaces : ∀ w ∈ table.waiters, w ∈ r.client.table.waiters) (sink : Sink) :
    Run.Ledger {
      client := Client.drop k.token { r.client with table }
      sink
      draft := if k.phase = .sending then none else r.draft
      log := r.log ++ [.returned k.token result] } := by
  have hwriter := h.writer k hk
  refine h.post (e := .returned k.token result) {
    lastToken_le := htable.lastToken_eq.ge
    about := ?about
    writer := ?writer
    drafted := ?drafted
    calls := ?calls
    present := ?present
    places := fun w hw => .inl ⟨hplaces w hw, by simp⟩
    returned := ?returned }
  case about =>
    intro token htoken
    obtain rfl : k.token = token := Option.some_inj.mp htoken
    exact ⟨htable.lastToken_eq ▸ hc.call_le k hk, .inr ⟨k, hk, rfl⟩⟩
  case writer =>
    intro k' hk'
    obtain ⟨hmem, hne⟩ := Client.mem_calls_drop.mp hk'
    rw [h.writer k' hmem]
    by_cases hphase : k.phase = .sending
    · rw [hwriter.mp hphase, if_pos hphase]
      simp [hne.symm]
    · rw [if_neg hphase]
  case drafted =>
    intro token request hd
    obtain ⟨hphase, hd⟩ := Option.ite_none_left_eq_some.mp hd
    obtain ⟨k', hk', rfl, hspec⟩ := h.drafted token request hd
    refine ⟨k', Client.mem_calls_drop.mpr ⟨hk', fun htoken => hphase (hwriter.mpr ?_)⟩, rfl, hspec⟩
    rw [← htoken]
    exact congrArg (Option.map Prod.fst) hd
  case calls =>
    intro k' hk'
    obtain ⟨hmem, hne⟩ := Client.mem_calls_drop.mp hk'
    exact .inl ⟨hmem, fun htoken => hne (Option.some_inj.mp htoken).symm⟩
  case present =>
    intro k' hk'
    by_cases htoken : k'.token = k.token
    · rw [htoken]
      exact .inr ⟨result, rfl⟩
    · exact .inl (List.mem_map_of_mem (Client.mem_calls_drop.mpr ⟨hk', htoken⟩))
  case returned =>
    intro token result' he
    obtain ⟨rfl, rfl⟩ := Event.returned.inj he
    exact ⟨k, hk, rfl, hverdict⟩

theorem Ledger.unwritten {r : Run H} (h : r.Ledger) (hc : r.client.Consistent) {token : Nat}
    {request : Request} (hdraft : r.draft = some (token, request)) (e : CallError) (sink : Sink) :
    Run.Ledger {
      client := r.client.unsent token
      sink
      log := r.log ++ [.unwritten token, .returned token (.error e)] } := by
  obtain ⟨k, hk, rfl, -⟩ := h.drafted token request hdraft
  have hphase : k.phase = .sending := (h.writer k hk).mpr (by rw [hdraft]; rfl)
  -- the first of the two events says why the call returns
  have hnoted : Run.Ledger { r with log := r.log ++ [.unwritten k.token] } := by
    refine h.post (e := .unwritten k.token) {
      lastToken_le := le_rfl
      about := ?about
      writer := h.writer
      drafted := h.drafted
      calls := ?calls
      present := fun k' hk' => .inl (List.mem_map_of_mem hk')
      places := fun w hw => .inl ⟨hw, by simp⟩ }
    case about =>
      intro token htoken
      obtain rfl : k.token = token := Option.some_inj.mp htoken
      exact ⟨hc.call_le k hk, .inr ⟨k, hk, rfl⟩⟩
    case calls =>
      intro k' hk'
      refine .inr ⟨(h.account k' hk').append (by simp) (by simp)
        (deliveries_of_not_arrived (by simp) _), fun result hmem => ?_⟩
      obtain hmem | hmem := List.mem_append.mp hmem
      · exact h.unreturned k' hk' result hmem
      · simp at hmem
  have hlog : r.log ++ [.unwritten k.token, .returned k.token (.error e)]
      = (r.log ++ [.unwritten k.token]) ++ [.returned k.token (.error e)] := by
    rw [List.append_assoc]
    rfl
  have hleave := hnoted.leave hc hk
    (.unwritten e rfl (List.mem_append_right _ (List.mem_singleton_self _)))
    (Table.trims_retract k _) (fun w hw => Table.mem_waiters_retract hw) sink
  rw [if_pos hphase] at hleave
  rw [hc.unsent_eq hk, hlog]
  exact hleave

theorem Ledger.collect {r : Run H} (h : r.Ledger) (hc : r.client.Consistent) {k : Call}
    (hk : k ∈ r.client.calls) {result : Except CallError Reply}
    (decided : k.outcome? r.client.table = some result) :
    Run.Ledger { r with
      client := r.client.drop k.token, log := r.log ++ [.returned k.token result] } := by
  have hphase : k.phase ≠ .sending := by
    intro hphase
    rw [Call.outcome?, hphase] at decided
    cases decided
  have hleave := h.leave hc hk (.decided _ decided) r.client.table.trims_refl (fun w hw => hw) r.sink
  rw [if_neg hphase] at hleave
  exact hleave

/-- What the record tells of a message that is dispatched is so. -/
theorem Ledger.arrival {r : Run H} (h : r.Ledger) (hc : r.client.Consistent) (m : Message) :
    Arrival r.client.config.threshold r.log m (m.classify r.client.config.threshold)
      (r.client.table.entry? (m.classify r.client.config.threshold))
      (Client.route (m.classify r.client.config.threshold) r.client.table).1 := by
  refine ⟨rfl, fun token htoken => ?_, fun token htoken => ?_, fun hkind token htoken => ?_⟩
  · revert htoken
    rcases m.classify r.client.config.threshold with _ | id | _ <;> intro htoken
    · rw [Client.receiver_response] at htoken
      obtain ⟨w, hw, hreceiver⟩ := Option.bind_eq_some_iff.mp htoken
      obtain ⟨-, hreceiver⟩ := Option.ite_none_right_eq_some.mp hreceiver
      rw [Table.entry?, hw]
      exact hreceiver
    · rw [Client.receiver_transaction] at htoken
      obtain ⟨p, hp, hreceiver⟩ := Option.bind_eq_some_iff.mp htoken
      obtain ⟨-, hreceiver⟩ := Option.ite_none_right_eq_some.mp hreceiver
      rw [Table.entry?, hp]
      exact hreceiver
    · cases htoken
  · obtain ⟨ticket, hticket, hheld⟩ := Client.holds_of_route htoken
    obtain ⟨k, hk, rfl, hawaits⟩ := hc.owner token ticket hheld
    exact ⟨ticket, hticket, hawaits.ticket_eq ▸ (h.account k hk).started⟩
  · rw [hkind] at htoken ⊢
    obtain ⟨w, hw, rfl⟩ := Option.map_eq_some_iff.mp htoken
    rw [Client.receiver_response, hw, Option.bind_some]
    obtain ⟨hattended, hstarted, hpresent⟩ | ⟨hattended, hstarted⟩ | ⟨hattended, hwithdrawn⟩ :=
      h.places w (List.mem_of_head? hw)
    · exact .inl ⟨if_pos hattended, hstarted, hpresent⟩
    · exact .inr ⟨by simp [hattended], .inl hstarted⟩
    · exact .inr ⟨by simp [hattended], .inr hwithdrawn⟩

/-- The account of a call after a message has been dispatched. -/
theorem Ledger.account_dispatch {r : Run H} (h : r.Ledger) (hc : r.client.Consistent) (m : Message)
    {k' : Call} (hk' : k' ∈ (r.client.dispatch m).calls) :
    k'.Account r.client.config.threshold (r.dispatch m).log := by
  obtain ⟨k, hk, htoken, hticket, hphase, heq⟩ := Client.of_mem_calls_dispatch hk'
  have haccount := h.account k hk
  refine ⟨?_, ?_, ?_, fun hobs => ?_⟩
  · rw [htoken, hticket]
    exact List.mem_append_left _ haccount.started
  · rw [htoken, hphase, ← haccount.expired_iff]
    simp [Run.dispatch]
  · rw [htoken, hphase, ← haccount.withdrawn_iff]
    simp [Run.dispatch]
  · rw [hticket] at hobs
    rw [htoken, Run.dispatch, deliveries_append_arrived]
    -- who is handed the message had an empty slot; an observer would have another ticket
    by_cases hr : (Client.route (m.classify r.client.config.threshold) r.client.table).1 = some k.token
    · obtain ⟨k₀, hk₀, htoken₀, hslot⟩ := hc.of_route hr
      rw [hc.eq_of_token hk₀ hk htoken₀] at hslot
      have htold : Client.isTold (m.classify r.client.config.threshold) r.client.table k = true := by
        rw [Client.isTold, hr]
        simp
      have hbefore := haccount.slot hobs
      rw [hslot] at hbefore
      rw [heq, if_pos htold, Call.receive, hslot, if_pos hr, List.map_append, hbefore]
      rfl
    · have huntold : Client.isTold (m.classify r.client.config.threshold) r.client.table k = false :=
        Client.isTold_eq_false_iff.mpr ⟨hr, fun hmem => hobs (hc.of_observer hk hmem)⟩
      rw [heq, huntold, if_neg hr, List.append_nil]
      exact haccount.slot hobs

theorem Ledger.dispatch {r : Run H} (h : r.Ledger) (hc : r.client.Consistent) (m : Message) :
    (r.dispatch m).Ledger := by
  have htrims := Table.trims_route (m.classify r.client.config.threshold) r.client.table
  refine h.post {
    lastToken_le := htrims.lastToken_eq.ge
    about := ?about
    writer := ?writer
    drafted := ?drafted
    calls := ?calls
    present := ?present
    places := ?places
    arrived := ?arrived }
  case about =>
    intro token htoken
    obtain ⟨k, hk, rfl, -⟩ := hc.of_route htoken
    exact ⟨htrims.lastToken_eq ▸ hc.call_le k hk, .inr ⟨k, hk, rfl⟩⟩
  case writer =>
    intro k' hk'
    obtain ⟨k, hk, htoken, -, hphase, -⟩ := Client.of_mem_calls_dispatch hk'
    rw [htoken, hphase]
    exact h.writer k hk
  case drafted =>
    intro token request hd
    obtain ⟨k, hk, rfl, hspec⟩ := h.drafted token request hd
    refine ⟨_, Client.calls_dispatch m r.client ▸ List.mem_map_of_mem hk, ?_, ?_⟩ <;> split
    · rfl
    · rfl
    · exact hspec
    · exact hspec
  case calls =>
    intro k' hk'
    refine .inr ⟨h.account_dispatch hc m hk', fun result hmem => ?_⟩
    obtain ⟨k, hk, htoken, -⟩ := Client.of_mem_calls_dispatch hk'
    rw [htoken] at hmem
    obtain hmem | hmem := List.mem_append.mp hmem
    · exact h.unreturned k hk result hmem
    · simp at hmem
  case present =>
    intro k hk
    show k.token ∈ (r.client.dispatch m).calls.map Call.token ∨ _
    rw [Client.tokens_dispatch]
    exact .inl (List.mem_map_of_mem hk)
  case places =>
    intro w hw
    have hw' : w ∈ (Client.route (m.classify r.client.config.threshold) r.client.table).2.waiters := hw
    rw [Client.waiters_route] at hw'
    refine .inl ⟨?_, by simp⟩
    split at hw'
    · exact List.mem_of_mem_tail hw'
    · exact hw'
  case arrived =>
    intro m' kind entry receiver he
    rw [Event.arrived.injEq] at he
    obtain ⟨rfl, rfl, rfl, rfl⟩ := he
    exact h.arrival hc m

theorem Ledger.close {r : Run H} (h : r.Ledger) : r.close.Ledger :=
  h.post (e := .closed) {
    lastToken_le := le_rfl
    about := by simp [Event.token?]
    writer := h.writer
    drafted := h.drafted
    calls := fun k hk => .inl ⟨hk, by simp [Event.token?]⟩
    present := fun k hk => .inl (List.mem_map_of_mem hk)
    places := fun w hw => absurd hw List.not_mem_nil }

theorem Ledger.refuse {r : Run H} (h : r.Ledger) (e : CallError) (cursor : UInt8) :
    Run.Ledger { r with
      client := { r.client with table := { r.client.table with cursor } }
      log := r.log ++ [.refused e] } :=
  h.post (e := .refused e) {
    lastToken_le := le_rfl
    about := by simp [Event.token?]
    writer := h.writer
    drafted := h.drafted
    calls := fun k hk => .inl ⟨hk, by simp [Event.token?]⟩
    present := fun k hk => .inl (List.mem_map_of_mem hk)
    places := fun w hw => .inl ⟨hw, by simp⟩ }

end Run

/-- Every move of a run keeps its ledger. -/
theorem Move.ledger {r r' : Run H} (hmove : Move r r') (hc : r.client.Consistent) (h : r.Ledger) :
    r'.Ledger := by
  cases hmove with
  | idle table_eq calls_eq config_eq =>
    constructor
    · rw [table_eq]
      exact h.token_le
    · exact h.starts_nodup
    · rw [calls_eq]
      exact h.writer
    · rw [calls_eq]
      exact h.drafted
    · rw [calls_eq, config_eq]
      exact h.account
    · rw [calls_eq]
      exact h.unreturned
    · rw [calls_eq]
      exact h.present
    · rw [table_eq]
      exact h.places
    · rw [config_eq]
      exact h.returned
    · rw [config_eq]
      exact h.arrivals
  | refuse e cursor => exact h.refuse e cursor
  | start cursor hk => exact h.start hc cursor hk
  | written draft_eq send_eq => exact h.written hc draft_eq _
  | unwritten draft_eq send_eq => exact h.unwritten hc draft_eq _ _
  | expire mem phase_eq undecided => exact h.expire hc mem phase_eq
  | settle mem phase_eq => exact h.settle hc mem phase_eq
  | collect mem decided => exact h.collect hc mem decided
  | dispatch m => exact h.dispatch hc m
  | close => exact h.close

/-- In every state of every run the record accounts for every call. -/
theorem Run.ledger_after (config : ClientConfig) (sink : Sink) (actions : List (Action H)) :
    (after config sink actions).Ledger := by
  refine after_induction (P := Run.Ledger) ?_ (fun past r' hmove h => ?_) actions
  · constructor <;> simp [fresh, starts, along_nil]
  · exact hmove.ledger (consistent_after config sink past) h

/-! ## What else every move keeps -/

theorem Move.config_eq {r r' : Run H} (hmove : Move r r') : r'.client.config = r.client.config := by
  cases hmove with
  | idle _ _ config_eq => exact config_eq
  | unwritten =>
    rw [Client.unsent]
    split <;> rfl
  | _ => rfl

/-- Nobody changes the settings of a client. -/
theorem Run.config_after (config : ClientConfig) (sink : Sink) (actions : List (Action H)) :
    (after config sink actions).client.config = config :=
  after_of_move (P := fun r => r.client.config = config) rfl
    (fun hmove h => hmove.config_eq.trans h) actions

/-- The record of a run only grows. -/
theorem Move.log_prefix {r r' : Run H} (hmove : Move r r') : r.log <+: r'.log := by
  cases hmove with
  | idle => exact List.prefix_rfl
  | _ => exact List.prefix_append _ _

/-- If every request could be sent, every earlier request could. -/
theorem Move.sent_of {r r' : Run H} (hmove : Move r r') (hsent : ∀ token, .unwritten token ∉ r'.log) :
    ∀ token, .unwritten token ∉ r.log :=
  fun token hmem => hsent token (hmove.log_prefix.subset hmem)

/-- A channel that has ended does not begin again. -/
theorem Move.closed_of {r r' : Run H} (hmove : Move r r') (hopen : r'.client.table.closed = false) :
    r.client.table.closed = false := by
  cases hmove with
  | idle table_eq => rwa [table_eq] at hopen
  | start cursor hk => exact hk.isOpen
  | unwritten =>
    rw [Client.unsent] at hopen
    split at hopen
    · next k _ => rwa [← Table.closed_retract k]
    · exact hopen
  | settle => rwa [← Table.closed_withdraw]
  | dispatch m => rwa [← Table.closed_route]
  | close => cases hopen
  | _ => exact hopen

/-- A channel that has ended stays so. -/
theorem Move.closed {r r' : Run H} (hmove : Move r r')
    (h : r.client.table.closed = true) : r'.client.table.closed = true := by
  cases hclosed : r'.client.table.closed with
  | true => rfl
  | false =>
    rw [hmove.closed_of hclosed] at h
    cases h

/-- The wait of a call is over only while the call has been handed nothing. -/
def Run.Timely (r : Run H) : Prop :=
  Along (fun before e => ∀ token ticket, e = .expired token → .started token ticket ∈ before →
    ticket ≠ .observation → deliveries token before = []) r.log

/-- A waiting call about which nothing is decided has an empty slot. -/
theorem Call.slot_of_undecided {k : Call} {t : Table} (hphase : k.phase = .waiting)
    (undecided : k.outcome? t = none) : k.slot = none := by
  rw [outcome?, hphase] at undecided
  rcases hslot : k.slot with _ | s
  · rfl
  · by_cases hticket : k.ticket = .oneWay
    · simp [hticket] at undecided
    · simp [hticket, hslot] at undecided

/-- A wait that is over was over before the call was handed anything. -/
theorem Run.Timely.expired_mem {r : Run H} (h : r.Timely) {before rest : List Event} {m : Message}
    {kind : Message.Kind} {entry : Option Nat} {token : Nat}
    (hlog : r.log = before ++ .arrived m kind entry (some token) :: rest) {ticket : Ticket}
    (hstarted : .started token ticket ∈ before) (hticket : ticket ≠ .observation)
    (hexpired : .expired token ∈ r.log) : .expired token ∈ before := by
  rw [hlog, List.mem_append, List.mem_cons] at hexpired
  obtain hexpired | hexpired | hexpired := hexpired
  · exact hexpired
  · cases hexpired
  · obtain ⟨between, rest', rfl⟩ := List.append_of_mem hexpired
    have hnone := h (before ++ .arrived m kind entry (some token) :: between) _ rest'
      (by rw [hlog, List.append_assoc, List.cons_append]) token ticket rfl
      (List.mem_append_left _ hstarted) hticket
    have hmem : m ∈ deliveries token (before ++ .arrived m kind entry (some token) :: between) :=
      mem_deliveries.mpr ⟨kind, entry, List.mem_append_right _ List.mem_cons_self⟩
    rw [hnone] at hmem
    cases hmem

theorem Move.timely {r r' : Run H} (hmove : Move r r') (hl : r.Ledger) (h : r.Timely) : r'.Timely := by
  cases hmove with
  | idle => exact h
  | @expire k mem phase_eq undecided =>
    refine along_append_singleton.mpr ⟨h, fun token ticket he hstarted hticket => ?_⟩
    obtain rfl : k.token = token := Event.expired.inj he
    have haccount := hl.account k mem
    have hsame := ticket_eq_of_starts hl.starts_nodup haccount.started hstarted
    have hslot := haccount.slot (hsame ▸ hticket)
    rw [Call.slot_of_undecided phase_eq undecided] at hslot
    exact List.map_eq_nil_iff.mp hslot
  | @unwritten token request sink e =>
    have hlog : r.log ++ [.unwritten token, .returned token (.error e)]
        = (r.log ++ [.unwritten token]) ++ [.returned token (.error e)] := by
      rw [List.append_assoc]
      rfl
    show Along _ (r.log ++ _)
    rw [hlog]
    refine along_append_singleton.mpr ⟨along_append_singleton.mpr ⟨h, ?_⟩, ?_⟩
    · intro token' ticket he
      cases he
    · intro token' ticket he
      cases he
  | _ =>
    refine along_append_singleton.mpr ⟨h, fun token ticket he => ?_⟩
    cases he

/-- In every run, what a call was handed before its wait was over it has in time. -/
theorem Run.timely_after (config : ClientConfig) (sink : Sink) (actions : List (Action H)) :
    (after config sink actions).Timely := by
  refine after_induction (P := Run.Timely) (along_nil _) (fun past r' hmove h => ?_) actions
  exact hmove.timely (ledger_after config sink past) h

namespace Run

/-- What is true of a run at any time. -/
structure Sound (r : Run H) : Prop where
  consistent : r.client.Consistent
  ledger : r.Ledger

theorem sound_after (config : ClientConfig) (sink : Sink) (actions : List (Action H)) :
    (after config sink actions).Sound :=
  ⟨consistent_after config sink actions, ledger_after config sink actions⟩

theorem Sound.step {r : Run H} (h : r.Sound) (a : Action H) : (r.step a).Sound :=
  ⟨(move_step r a).consistent h.consistent, (move_step r a).ledger h.consistent h.ledger⟩

theorem Sound.foldl {r : Run H} (h : r.Sound) (actions : List (Action H)) : (actions.foldl Run.step r).Sound := by
  induction actions generalizing r with
  | nil => exact h
  | cons a actions ih => exact ih (h.step a)

theorem config_foldl (r : Run H) (actions : List (Action H)) :
    (actions.foldl step r).client.config = r.client.config := by
  induction actions generalizing r with
  | nil => rfl
  | cons a actions ih => exact (ih (r.step a)).trans (move_step r a).config_eq

theorem log_foldl (r : Run H) (actions : List (Action H)) : r.log <+: (actions.foldl step r).log := by
  induction actions generalizing r with
  | nil => exact List.prefix_rfl
  | cons a actions ih =>
    have hmove := move_step r a
    exact hmove.log_prefix.trans (ih (r.step a))

end Run

end Wwan
