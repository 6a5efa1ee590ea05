import Wwan.Proofs.Client.Answers
import Wwan.Proofs.Client.Unobserved

/-!
# What observers are told

Whoever waits for the next message is told of the first that is dispatched after the wait has begun
(`heard`), and everybody who waits then is told the same.
-/

namespace Wwan

variable {H : Type}

/-! ## The first message behind a start -/

/-- Whether an event is the start of a call. -/
def Event.isStart (token : Nat) : Event → Bool
  | .started token' _ => token' = token
  | _ => false

/-- The message that an event tells of. -/
def Event.message? : Event → Option Message
  | .arrived m _ _ _ => some m
  | _ => none

/-- The first message that was dispatched after a call had begun. -/
def heard (token : Nat) : List Event → Option Message
  | [] => none
  | e :: rest => if e.isStart token then rest.findSome? Event.message? else heard token rest

/-- The first message is the first that stands behind the start of the call. -/
theorem of_heard_eq_some {token : Nat} {log : List Event} {m : Message} (h : heard token log = some m) :
    ∃ before ticket between kind entry receiver after,
      log = before ++ .started token ticket :: (between ++ .arrived m kind entry receiver :: after) ∧
      ∀ e ∈ between, e.message? = none := by
  induction log with
  | nil => cases h
  | cons e log ih =>
    rw [heard] at h
    by_cases hstart : e.isStart token
    · rw [if_pos hstart] at h
      obtain ⟨between, e', after, rfl, he', hbetween⟩ := List.findSome?_eq_some_iff.mp h
      obtain ⟨ticket, rfl⟩ : ∃ ticket, e = .started token ticket := by
        cases e <;> simp only [Event.isStart, decide_eq_true_eq, Bool.false_eq_true] at hstart
        exact ⟨_, by rw [hstart]⟩
      obtain ⟨kind, entry, receiver, rfl⟩ : ∃ kind entry receiver, e' = .arrived m kind entry receiver := by
        cases e' <;> cases he'
        exact ⟨_, _, _, rfl⟩
      exact ⟨[], ticket, between, kind, entry, receiver, after, rfl, hbetween⟩
    · rw [if_neg hstart] at h
      obtain ⟨before, ticket, between, kind, entry, receiver, after, rfl, hbetween⟩ := ih h
      exact ⟨e :: before, ticket, between, kind, entry, receiver, after, rfl, hbetween⟩

/-- Nothing is heard before a call has begun. -/
theorem heard_of_not_started {token : Nat} {log : List Event} (h : token ∉ starts log) :
    heard token log = none := by
  rcases hheard : heard token log with _ | m
  · rfl
  · obtain ⟨before, ticket, between, kind, entry, receiver, after, rfl, -⟩ := of_heard_eq_some hheard
    exact absurd (mem_starts (List.mem_append_right _ List.mem_cons_self)) h

/-- Behind the start of a call, what comes later is heard if nothing was heard before. -/
theorem heard_append {token : Nat} {log : List Event} (h : token ∈ starts log) (events : List Event) :
    heard token (log ++ events) = (heard token log).or (events.findSome? Event.message?) := by
  induction log with
  | nil => cases h
  | cons e log ih =>
    rw [List.cons_append, heard, heard]
    by_cases hstart : e.isStart token
    · rw [if_pos hstart, if_pos hstart, List.findSome?_append]
    · rw [if_neg hstart, if_neg hstart]
      obtain ⟨e', he', htoken⟩ := List.mem_filterMap.mp h
      obtain rfl | hmem := List.mem_cons.mp he'
      · cases e' <;> cases htoken
        exact absurd (decide_eq_true rfl) hstart
      · exact ih (List.mem_filterMap.mpr ⟨e', hmem, htoken⟩)

/-- Where no message arrives, none is heard. -/
theorem heard_append_of_none {token : Nat} {log events : List Event}
    (h : ∀ e ∈ events, e.message? = none) : heard token (log ++ events) = heard token log := by
  induction log with
  | nil =>
    rcases hheard : heard token events with _ | m
    · exact hheard
    · obtain ⟨before, ticket, between, kind, entry, receiver, after, rfl, -⟩ := of_heard_eq_some hheard
      have hnone := h (.arrived m kind entry receiver) (by simp)
      cases hnone
  | cons e log ih =>
    rw [List.cons_append, heard, heard]
    by_cases hstart : e.isStart token
    · rw [if_pos hstart, if_pos hstart, List.findSome?_append, List.findSome?_eq_none_iff.mpr h,
        Option.or_none]
    · rw [if_neg hstart, if_neg hstart, ih]

/-- What was heard stays heard. -/
theorem heard_of_grown {token : Nat} {log log' : List Event} {m : Message} (h : heard token log = some m)
    (hgrows : log <+: log') : heard token log' = some m := by
  obtain ⟨events, rfl⟩ := hgrows
  have hstarted : token ∈ starts log := by
    by_contra hnot
    rw [heard_of_not_started hnot] at h
    cases h
  rw [heard_append hstarted, h]
  rfl

namespace Run

/-! ## What observers hold and return -/

/-- What those who wait for the next message hold, and have returned, is the first that was dispatched after
they had begun to wait. -/
structure Observed (r : Run H) : Prop where
  waits : ∀ token ∈ r.client.table.observers, heard token r.log = none
  slot : ∀ k ∈ r.client.calls, k.ticket = .observation → ∀ s, k.slot = some s →
    ∃ m, heard k.token r.log = some m ∧ m.summary r.client.config.threshold = s
  returned : ∀ token reply, .started token .observation ∈ r.log → .returned token (.ok reply) ∈ r.log →
    ∃ m, heard token r.log = some m ∧ reply = .summary (m.summary r.client.config.threshold)

variable {r r' : Run H}

/-- What it takes of a step in which no message is dispatched. -/
theorem Observed.of_silent (h : r.Observed) (events : List Event) (hlog : r'.log = r.log ++ events)
    (hconfig : r'.client.config = r.client.config) (hsilent : ∀ e ∈ events, e.message? = none)
    (hwaits : ∀ token ∈ r'.client.table.observers,
      token ∈ r.client.table.observers ∨ heard token r.log = none)
    (hcalls : ∀ k' ∈ r'.client.calls, k'.slot = none ∨
      ∃ k ∈ r.client.calls, k'.token = k.token ∧ k'.ticket = k.ticket ∧ k'.slot = k.slot)
    (hstarted : ∀ token ticket, .started token ticket ∈ events →
      ∀ result, .returned token result ∉ r.log := by simp)
    (hreturned : ∀ token reply, .returned token (.ok reply) ∈ events → .started token .observation ∈ r.log →
      ∃ m, heard token r.log = some m ∧ reply = .summary (m.summary r.client.config.threshold) := by simp)
    (happart : ∀ token ticket result, .started token ticket ∈ events → .returned token result ∉ events := by
      simp) : r'.Observed where
  waits token hmem := by
    rw [hlog, heard_append_of_none hsilent]
    obtain hmem | hnone := hwaits token hmem
    · exact h.waits token hmem
    · exact hnone
  slot k' hk' hticket s hslot := by
    rw [hlog, heard_append_of_none hsilent, hconfig]
    obtain hnone | ⟨k, hk, htoken, hsame, hslot'⟩ := hcalls k' hk'
    · rw [hnone] at hslot
      cases hslot
    · rw [htoken]
      exact h.slot k hk (hsame.symm.trans hticket) s (hslot'.symm.trans hslot)
  returned token reply hstart hmem := by
    rw [hlog, List.mem_append] at hstart hmem
    rw [hlog, heard_append_of_none hsilent, hconfig]
    obtain hstart | hstart := hstart
    · obtain hmem | hmem := hmem
      · exact h.returned token reply hstart hmem
      · exact hreturned token reply hmem hstart
    · obtain hmem | hmem := hmem
      · exact absurd hmem (hstarted token _ hstart _)
      · exact absurd hmem (happart token _ _ hstart)

end Run

/-- A call that gets on keeps its token, its ticket and its slot. -/
theorem Client.of_mem_calls_update {c : Client H} {token : Nat} {phase : Phase} {k' : Call}
    (h : k' ∈ (c.update token fun k => { k with phase }).calls) :
    ∃ k ∈ c.calls, k'.token = k.token ∧ k'.ticket = k.ticket ∧ k'.slot = k.slot := by
  obtain ⟨k, hk, rfl⟩ := mem_calls_update.mp h
  refine ⟨k, hk, ?_, ?_, ?_⟩ <;> split <;> rfl

/-- Nobody begins to observe when a call withdraws. -/
theorem Table.mem_observers_withdraw {k : Call} {t : Table} {token : Nat}
    (h : token ∈ (k.withdraw t).observers) : token ∈ t.observers := by
  have hheld : (k.withdraw t).Holds token .observation := h
  exact (holds_withdraw hheld).1

theorem Table.mem_observers_retract {k : Call} {t : Table} {token : Nat}
    (h : token ∈ (k.retract t).observers) : token ∈ t.observers := by
  have hheld : (k.retract t).Holds token .observation := h
  exact (holds_retract hheld).1

/-- Who waits for the next message is told of it as an observer. -/
theorem Client.Consistent.observer_of_told {c : Client H} (h : c.Consistent) {k : Call} (hk : k ∈ c.calls)
    (hticket : k.ticket = .observation) {kind : Message.Kind} (htold : Client.isTold kind c.table k = true) :
    k.token ∈ c.table.observers := by
  by_contra hmem
  have hroute : (Client.route kind c.table).1 = some k.token := by
    by_contra hroute
    rw [Client.isTold_eq_false_iff.mpr ⟨hroute, hmem⟩] at htold
    cases htold
  obtain ⟨ticket, hkind, hheld⟩ := Client.holds_of_route hroute
  obtain ⟨k', hk', htoken, hawaits⟩ := h.owner k.token ticket hheld
  rw [← hawaits.ticket_eq, h.eq_of_token hk' hk htoken, hticket] at hkind
  cases kind <;> cases hkind

/-- What somebody who waits for the next message returns is what is in the slot. -/
theorem Call.of_outcome?_observation {k : Call} {t : Table} {reply : Reply} (hticket : k.ticket = .observation)
    (h : k.outcome? t = some (.ok reply)) : ∃ s, k.slot = some s ∧ reply = .summary s := by
  rw [outcome?] at h
  rcases hphase : k.phase with _ | _ | _ | _ <;> simp only [hphase, hticket] at h
  · cases h
  · rcases hslot : k.slot with _ | s <;> simp only [hslot] at h
    · by_cases hheld : k.isHeld t
      · simp [hheld] at h
      · simp [hheld] at h
    · simp only [conclude, hticket] at h
      cases h
      exact ⟨s, rfl, rfl⟩
  · cases h
  · cases h

section Moves

variable {r r' : Run H}

theorem Run.Observed.start (h : r.Observed) (hl : r.Ledger) {k : Call} {draft : Option (Nat × Request)}
    (cursor : UInt8) (hk : Admission r k draft) :
    Run.Observed { r with
      client := { r.client with
        table := Table.enroll k.token k.ticket { r.client.table with lastToken := k.token, cursor }
        calls := r.client.calls ++ [k] }
      draft
      log := r.log ++ [.started k.token k.ticket] } := by
  have hlt : r.client.table.lastToken < k.token := by
    rw [hk.token_eq]
    omega
  have hunspoken : ∀ e ∈ r.log, e.token? ≠ some k.token := fun e he => hl.token_ne_of_lt hlt he
  have hnew : k.token ∉ starts r.log := by
    intro hmem
    obtain ⟨e, he, htoken⟩ := List.mem_filterMap.mp hmem
    cases e <;> cases htoken
    exact hunspoken _ he rfl
  refine h.of_silent [.started k.token k.ticket] rfl rfl (by simp [Event.message?]) ?_ ?_ ?_
  · intro token hmem
    have hheld : Table.Holds (Table.enroll k.token k.ticket
      { r.client.table with lastToken := k.token, cursor }) token .observation := hmem
    obtain hold | ⟨rfl, -⟩ := Table.holds_enroll hheld
    · exact .inl hold
    · exact .inr (heard_of_not_started hnew)
  · intro k' hk'
    obtain hmem | hmem := List.mem_append.mp hk'
    · exact .inr ⟨k', hmem, rfl, rfl, rfl⟩
    · rw [List.mem_singleton.mp hmem]
      exact .inl hk.slot_eq
  · intro token ticket hstarted result hmem
    obtain ⟨rfl, -⟩ := Event.started.inj (List.mem_singleton.mp hstarted)
    exact hunspoken _ hmem rfl

/-- A message that is dispatched is heard by everybody who has heard nothing since the start. -/
theorem Run.heard_dispatch {token : Nat} (h : token ∈ starts r.log) (m : Message) :
    heard token (r.step (.dispatch m)).log = (heard token r.log).or (some m) :=
  heard_append h _

theorem Run.Observed.dispatch (h : r.Observed) (hc : r.client.Consistent) (hl : r.Ledger) (m : Message) :
    (r.step (.dispatch m)).Observed := by
  refine ⟨fun token hmem => absurd hmem List.not_mem_nil, ?_, ?_⟩
  · intro k' hk' hticket s hslot
    obtain ⟨k, hk, htoken, hsame, -, heq⟩ := Client.of_mem_calls_dispatch hk'
    have hstarted := mem_starts (hl.account k hk).started
    rw [htoken, Run.heard_dispatch hstarted]
    rw [hsame] at hticket
    rcases hold : k.slot with _ | s'
    · -- the slot was empty, so that the message is the first
      by_cases htold : Client.isTold (m.classify r.client.config.threshold) r.client.table k = true
      · have hmem := hc.observer_of_told hk hticket htold
        rw [h.waits k.token hmem]
        refine ⟨m, rfl, ?_⟩
        rw [heq, if_pos htold, Call.receive, hold] at hslot
        exact Option.some_inj.mp hslot
      · rw [heq, if_neg htold, hold] at hslot
        cases hslot
    · obtain ⟨m', hm', hs'⟩ := h.slot k hk hticket s' hold
      have hkept : k'.slot = some s' := by
        rw [heq]
        split
        · rw [Call.receive, hold]
          rfl
        · exact hold
      rw [hm']
      refine ⟨m', rfl, ?_⟩
      rw [hkept] at hslot
      exact hs'.trans (Option.some_inj.mp hslot)
  · intro token reply hstarted hreturned
    have hstarted' : .started token .observation ∈ r.log := by simpa [Run.step, Run.dispatch] using hstarted
    have hreturned' : .returned token (.ok reply) ∈ r.log := by simpa [Run.step, Run.dispatch] using hreturned
    obtain ⟨m', hm', hreply⟩ := h.returned token reply hstarted' hreturned'
    rw [Run.heard_dispatch (mem_starts hstarted'), hm']
    exact ⟨m', rfl, hreply⟩

/-- Every move keeps what observers hold and have returned. -/
theorem Move.observed (hmove : Move r r') (hc : r.client.Consistent) (hl : r.Ledger) (h : r.Observed) :
    r'.Observed := by
  cases hmove with
  | idle table_eq calls_eq config_eq =>
    refine h.of_silent [] (List.append_nil _).symm config_eq (by simp) ?_ ?_
    · rw [table_eq]
      exact fun token hmem => .inl hmem
    · rw [calls_eq]
      exact fun k hk => .inr ⟨k, hk, rfl, rfl, rfl⟩
  | refuse e cursor =>
    exact h.of_silent [.refused e] rfl rfl (by simp [Event.message?])
      (fun token hmem => .inl hmem) fun k hk => .inr ⟨k, hk, rfl, rfl, rfl⟩
  | start cursor hk => exact h.start hl cursor hk
  | @written token request sink draft_eq send_eq =>
    exact h.of_silent [.written token request] rfl rfl (by simp [Event.message?])
      (fun token hmem => .inl hmem) fun k hk => .inr (Client.of_mem_calls_update hk)
  | @unwritten token request sink e draft_eq send_eq =>
    obtain ⟨k, hk, rfl, -⟩ := hl.drafted token request draft_eq
    rw [hc.unsent_eq hk]
    exact h.of_silent [.unwritten k.token, .returned k.token (.error e)] rfl rfl
      (by simp [Event.message?]) (fun token hmem => .inl (Table.mem_observers_retract hmem))
      fun k' hk' => .inr ⟨k', (Client.mem_calls_drop.mp hk').1, rfl, rfl, rfl⟩
  | @expire k mem phase_eq undecided =>
    exact h.of_silent [.expired k.token] rfl rfl (by simp [Event.message?])
      (fun token hmem => .inl hmem) fun k hk => .inr (Client.of_mem_calls_update hk)
  | @settle k mem phase_eq =>
    exact h.of_silent [.withdrawn k.token] rfl rfl (by simp [Event.message?])
      (fun token hmem => .inl (Table.mem_observers_withdraw hmem)) fun k hk =>
        .inr (Client.of_mem_calls_update hk)
  | @collect k result mem decided =>
    refine h.of_silent [.returned k.token result] rfl rfl (by simp [Event.message?])
      (fun token hmem => .inl hmem)
      (fun k' hk' => .inr ⟨k', (Client.mem_calls_drop.mp hk').1, rfl, rfl, rfl⟩)
      (by simp) ?_
    intro token reply hreturned hstarted
    obtain ⟨rfl, rfl⟩ := Event.returned.inj (List.mem_singleton.mp hreturned)
    have hticket := ticket_eq_of_starts hl.starts_nodup (hl.account k mem).started hstarted
    obtain ⟨s, hslot, rfl⟩ := Call.of_outcome?_observation hticket decided
    obtain ⟨m, hm, rfl⟩ := h.slot k mem hticket s hslot
    exact ⟨m, hm, rfl⟩
  | dispatch m => exact h.dispatch hc hl m
  | close =>
    exact h.of_silent [.closed] rfl rfl (by simp [Event.message?])
      (fun token hmem => absurd hmem List.not_mem_nil) fun k hk => .inr ⟨k, hk, rfl, rfl, rfl⟩

/-- In every run, what observers hold and have returned is the first message behind their start. -/
theorem Run.observed_after (config : ClientConfig) (sink : Sink) (actions : List (Action H)) :
    (after config sink actions).Observed := by
  refine after_induction (P := Run.Observed) ?_ (fun past r' hmove h => ?_) actions
  · constructor <;> simp [fresh]
  · exact hmove.observed (consistent_after config sink past) (ledger_after config sink past) h

/-! ## Who has been told -/

/-- Somebody who waited for the next message in time has been told of it, and returns it if anything. -/
structure Run.Told (token : Nat) (s : Summary) (r : Run H) : Prop where
  token_le : token ≤ r.client.table.lastToken
  call : ∀ k ∈ r.client.calls, k.token = token →
    k.ticket = .observation ∧ k.slot = some s ∧ k.phase = .waiting
  returned : ∀ result, .returned token result ∈ r.log → result = .ok (.summary s)

variable {token : Nat} {s : Summary}

theorem Call.outcome?_of_told {k : Call} (hticket : k.ticket = .observation) (hslot : k.slot = some s)
    (hphase : k.phase = .waiting) (t : Table) : k.outcome? t = some (.ok (.summary s)) := by
  simp [outcome?, hphase, hticket, hslot, conclude]

/-- What it takes of a step that those who have been told stay told. -/
theorem Run.Told.of_step (h : r.Told token s) (events : List Event) (hlog : r'.log = r.log ++ events)
    (hlast : r.client.table.lastToken ≤ r'.client.table.lastToken)
    (hcalls : ∀ k' ∈ r'.client.calls, k'.token = token → ∃ k ∈ r.client.calls, k.token = token ∧
      k'.ticket = k.ticket ∧ (k.slot = some s → k'.slot = some s) ∧
      (k.phase = .waiting → k'.phase = .waiting))
    (hreturned : ∀ result, .returned token result ∈ events → result = .ok (.summary s) := by simp) :
    r'.Told token s where
  token_le := h.token_le.trans hlast
  call k' hk' htoken := by
    obtain ⟨k, hk, hsame, hticket, hslot, hphase⟩ := hcalls k' hk' htoken
    obtain ⟨hobserves, hs, hwaits⟩ := h.call k hk hsame
    exact ⟨hticket.trans hobserves, hslot hs, hphase hwaits⟩
  returned result hmem := by
    rw [hlog] at hmem
    obtain hmem | hmem := List.mem_append.mp hmem
    · exact h.returned result hmem
    · exact hreturned result hmem

/-- Who has been told stays told. -/
theorem Move.told (hmove : Move r r') (hc : r.client.Consistent) (hl : r.Ledger) (h : r.Told token s) :
    r'.Told token s := by
  cases hmove with
  | idle table_eq calls_eq config_eq =>
    refine h.of_step [] (List.append_nil _).symm (by rw [table_eq]) ?_
    rw [calls_eq]
    exact fun k hk htoken => ⟨k, hk, htoken, rfl, id, id⟩
  | refuse e cursor =>
    exact h.of_step [.refused e] rfl le_rfl fun k hk htoken => ⟨k, hk, htoken, rfl, id, id⟩
  | @start k draft cursor hk =>
    have hlast : (Table.enroll k.token k.ticket
        { r.client.table with lastToken := k.token, cursor }).lastToken = k.token := by
      cases k.ticket <;> rfl
    have hlt : r.client.table.lastToken < k.token := by
      rw [hk.token_eq]
      omega
    refine h.of_step [.started k.token k.ticket] rfl (hlt.le.trans hlast.ge) fun k' hk' htoken => ?_
    obtain hmem | hmem := List.mem_append.mp hk'
    · exact ⟨k', hmem, htoken, rfl, id, id⟩
    · -- a new call has another token
      rw [List.mem_singleton.mp hmem] at htoken
      have hle := h.token_le
      omega
  | @written token' request sink draft_eq send_eq =>
    refine h.of_step [.written token' request] rfl le_rfl fun k' hk' htoken => ?_
    obtain ⟨k, hk, rfl⟩ := Client.mem_calls_update.mp hk'
    by_cases hsame : k.token = token'
    · rw [if_pos hsame] at htoken ⊢
      exact ⟨k, hk, htoken, rfl, id, fun _ => rfl⟩
    · rw [if_neg hsame] at htoken ⊢
      exact ⟨k, hk, htoken, rfl, id, id⟩
  | @unwritten token' request sink e draft_eq send_eq =>
    obtain ⟨k, hk, rfl, hticket, -⟩ := hl.drafted token' request draft_eq
    have hne : token ≠ k.token := fun htoken => hticket (h.call k hk htoken.symm).1
    rw [hc.unsent_eq hk]
    exact h.of_step [.unwritten k.token, .returned k.token (.error e)] rfl
      (Table.trims_retract k _).lastToken_eq.ge
      (fun k' hk' htoken => ⟨k', (Client.mem_calls_drop.mp hk').1, htoken, rfl, id, id⟩) (by simp [hne])
  | @expire k mem phase_eq undecided =>
    have hne : token ≠ k.token := by
      intro htoken
      obtain ⟨hticket, hslot, hphase⟩ := h.call k mem htoken.symm
      rw [Call.outcome?_of_told hticket hslot hphase] at undecided
      cases undecided
    exact h.of_step [.expired k.token] rfl le_rfl fun k' hk' htoken =>
      ⟨k', Client.mem_calls_of_update_ne hk' (htoken.trans_ne hne), htoken, rfl, id, id⟩
  | @settle k mem phase_eq =>
    have hne : token ≠ k.token := by
      intro htoken
      have hwaits := (h.call k mem htoken.symm).2.2
      rw [phase_eq] at hwaits
      cases hwaits
    exact h.of_step [.withdrawn k.token] rfl (Table.trims_withdraw k _).lastToken_eq.ge
      fun k' hk' htoken =>
        ⟨k', Client.mem_calls_of_update_ne hk' (htoken.trans_ne hne), htoken, rfl, id, id⟩
  | @collect k result mem decided =>
    refine h.of_step [.returned k.token result] rfl le_rfl ?_ ?_
    · exact fun k' hk' htoken => ⟨k', (Client.mem_calls_drop.mp hk').1, htoken, rfl, id, id⟩
    · intro result' hmem
      obtain ⟨rfl, rfl⟩ := Event.returned.inj (List.mem_singleton.mp hmem)
      obtain ⟨hticket, hslot, hphase⟩ := h.call k mem rfl
      rw [Call.outcome?_of_told hticket hslot hphase] at decided
      exact (Option.some_inj.mp decided).symm
  | dispatch m =>
    refine h.of_step _ rfl (Table.trims_route _ _).lastToken_eq.ge fun k' hk' htoken => ?_
    obtain ⟨k, hk, hsame, hticket, hphase, heq⟩ := Client.of_mem_calls_dispatch hk'
    refine ⟨k, hk, hsame.symm.trans htoken, hticket, fun hslot => ?_, fun hwaits => hphase.trans hwaits⟩
    rw [heq]
    split
    · rw [Call.receive, hslot]
      rfl
    · exact hslot
  | close =>
    exact h.of_step [.closed] rfl le_rfl fun k hk htoken => ⟨k, hk, htoken, rfl, id, id⟩

/-- A message that is dispatched is told to everybody who waits for it and whose wait is not over. -/
theorem Run.told_dispatch (hr : r.Sound) (hmem : token ∈ r.client.table.observers)
    (hwaits : .expired token ∉ r.log) (m : Message) :
    (r.step (.dispatch m)).Told token (m.summary r.client.config.threshold) := by
  obtain ⟨k, hk, rfl, hawaits⟩ := hr.consistent.owner token .observation hmem
  have hphase : k.phase = .waiting := by
    rcases hphase : k.phase with _ | _ | _ | _
    · -- who waits for the next message has nothing to send
      obtain ⟨⟨token, request⟩, hdraft, htoken⟩ :=
        Option.map_eq_some_iff.mp ((hr.ledger.writer k hk).mp hphase)
      obtain ⟨k', hk', hsame, hticket, -⟩ := hr.ledger.drafted token request hdraft
      rw [hr.consistent.eq_of_token hk' hk (hsame.trans htoken)] at hticket
      exact absurd hawaits.ticket_eq hticket
    · rfl
    · exact absurd ((hr.ledger.account k hk).expired_iff.mpr (.inl hphase)) hwaits
    · exact absurd hphase hawaits.unsettled
  refine ⟨?_, ?_, ?_⟩
  · exact (hr.consistent.call_le k hk).trans (Table.trims_route _ _).lastToken_eq.ge
  · intro k' hk' htoken
    obtain ⟨k₀, hk₀, hsame, hticket, hphase', heq⟩ := Client.of_mem_calls_dispatch hk'
    obtain rfl := hr.consistent.eq_of_token hk₀ hk (hsame.symm.trans htoken)
    have htold : Client.isTold (m.classify r.client.config.threshold) r.client.table k₀ = true := by
      rw [Client.isTold, List.contains_eq_mem, decide_eq_true hmem, Bool.or_true]
    refine ⟨hticket.trans hawaits.ticket_eq, ?_, hphase'.trans hphase⟩
    rw [heq, if_pos htold, Call.receive, hawaits.slot_eq]
    rfl
  · intro result hreturned
    have hreturned' : .returned k.token result ∈ r.log := by simpa [Run.step, Run.dispatch] using hreturned
    exact absurd hreturned' (hr.ledger.unreturned k hk result)

theorem Run.told_foldl (hr : r.Sound) (h : r.Told token s) (actions : List (Action H)) :
    (actions.foldl step r).Told token s := by
  induction actions generalizing r with
  | nil => exact h
  | cons a actions ih => exact ih (hr.step a) ((move_step r a).told hr.consistent hr.ledger h)

/-- Who has been told has returned it, or can return it. -/
theorem Run.Told.returns (h : r.Told token s) (hr : r.Sound) (hstarted : token ∈ starts r.log) :
    .returned token (.ok (.summary s)) ∈ r.log ∨
      .returned token (.ok (.summary s)) ∈ (r.step (.collect token)).log := by
  obtain hcall | ⟨result, hreturned⟩ := hr.ledger.present token hstarted
  · obtain ⟨k, hk, rfl⟩ := List.mem_map.mp hcall
    obtain ⟨hticket, hslot, hphase⟩ := h.call k hk rfl
    have hcollect := log_collect hr.consistent hk (Call.outcome?_of_told hticket hslot hphase r.client.table)
    refine .inr ?_
    show _ ∈ (r.collect k.token).log
    rw [hcollect]
    exact List.mem_append_right _ (List.mem_singleton_self _)
  · rw [h.returned result hreturned] at hreturned
    exact .inl hreturned

/-- What becomes of those who waited for the next message when it was dispatched: nobody waits for it any
more, and whoever returns a message returns this summary of it; somebody whose wait was not over returns
nothing else, and can return it. -/
structure Run.Tells (r : Run H) (m : Message) (s : Summary) (later : Run H) : Prop where
  cleared : (r.step (.dispatch m)).client.table.observers = []
  summary : ∀ token ∈ r.client.table.observers, ∀ reply, .returned token (.ok reply) ∈ later.log →
    reply = .summary s
  timely : ∀ token ∈ r.client.table.observers, .expired token ∉ r.log →
    (∀ result, .returned token result ∈ later.log → result = .ok (.summary s)) ∧
    (.returned token (.ok (.summary s)) ∈ later.log ∨
      .returned token (.ok (.summary s)) ∈ (later.step (.collect token)).log)

theorem Run.tells_after (config : ClientConfig) (sink : Sink) (past : List (Action H)) (m : Message)
    (future : List (Action H)) :
    (after config sink past).Tells m (m.summary config.threshold)
      (after config sink (past ++ .dispatch m :: future)) := by
  have hr := sound_after config sink past
  have hlater := sound_after config sink (past ++ .dispatch m :: future)
  have hobserved := observed_after config sink (past ++ .dispatch m :: future)
  have hsplit : after config sink (past ++ .dispatch m :: future)
      = future.foldl step ((after config sink past).step (.dispatch m)) := List.foldl_append
  have hgrows := log_foldl ((after config sink past).step (.dispatch m)) future
  rw [← hsplit] at hgrows
  have hstarted : ∀ token ∈ (after config sink past).client.table.observers,
      .started token .observation ∈ (after config sink past).log := by
    intro token hmem
    obtain ⟨k, hk, rfl, hawaits⟩ := hr.consistent.owner token .observation hmem
    exact hawaits.ticket_eq ▸ (hr.ledger.account k hk).started
  refine ⟨rfl, ?_, ?_⟩
  · intro token hmem reply hreturned
    have hheard : heard token ((after config sink past).step (.dispatch m)).log = some m := by
      rw [heard_dispatch (mem_starts (hstarted token hmem)),
        (observed_after config sink past).waits token hmem]
      rfl
    have hstarted' : .started token .observation ∈ (after config sink (past ++ .dispatch m :: future)).log :=
      hgrows.subset (List.mem_append_left _ (hstarted token hmem))
    obtain ⟨m', hm', hreply⟩ := hobserved.returned token reply hstarted' hreturned
    rw [heard_of_grown hheard hgrows] at hm'
    obtain rfl := Option.some_inj.mp hm'
    rw [hreply, config_after]
  · intro token hmem hwaits
    have htold := told_foldl (hr.step (.dispatch m)) (told_dispatch hr hmem hwaits m) future
    rw [← hsplit, config_after] at htold
    exact ⟨htold.returned, htold.returns hlater
      (mem_starts (hgrows.subset (List.mem_append_left _ (hstarted token hmem))))⟩

end Moves

end Wwan
