import Mathlib.Data.List.Nodup
import Wwan.Proofs.Client.Run

/-!
# Entries and their owners

Each attended place in the queue, each transaction and each observer of the table belongs to one call
in progress, which still awaits its message.  `Client.Consistent` says so, together with the
distinctness of tokens and numbers that it rests on; every move of a run keeps it
(`Move.consistent`), so it holds in every state of every run (`Run.consistent_after`).
-/

namespace Wwan

variable {H : Type}

/-- What a call that awaits its message looks like. -/
structure Call.Awaits (ticket : Ticket) (k : Call) : Prop where
  ticket_eq : k.ticket = ticket
  slot_eq : k.slot = none
  unsettled : k.phase ≠ .settled

/-- Whether the table has an entry through which the call with a token is to be handed a message. -/
def Table.Holds (t : Table) (token : Nat) : Ticket → Prop
  | .answer => ⟨token, true⟩ ∈ t.waiters
  | .oneWay => False
  | .transaction id => ∃ p ∈ t.pending, p.id = id ∧ p.token = token
  | .observation => token ∈ t.observers

/-- The entry through which a message of this kind is handed on. -/
def Message.Kind.ticket? : Message.Kind → Option Ticket
  | .response => some .answer
  | .transaction id => some (.transaction id)
  | .notice => none

theorem Message.Kind.ticket?_eq_answer {kind : Message.Kind} :
    kind.ticket? = some .answer ↔ kind = .response := by
  cases kind <;> simp [ticket?]

theorem Message.Kind.ticket?_eq_transaction {kind : Message.Kind} {id : UInt8} :
    kind.ticket? = some (.transaction id) ↔ kind = .transaction id := by
  cases kind <;> simp [ticket?]

/-- The calls in progress and the table fit together. -/
structure Client.Consistent (c : Client H) : Prop where
  calls_nodup : (c.calls.map Call.token).Nodup
  call_le : ∀ k ∈ c.calls, k.token ≤ c.table.lastToken
  waiters_nodup : (c.table.waiters.map Waiter.token).Nodup
  waiter_le : ∀ w ∈ c.table.waiters, w.token ≤ c.table.lastToken
  ids_nodup : (c.table.pending.map Pending.id).Nodup
  id_ne_zero : ∀ p ∈ c.table.pending, p.id ≠ 0
  owner : ∀ token ticket, c.table.Holds token ticket →
    ∃ k ∈ c.calls, k.token = token ∧ k.Awaits ticket

/-! ## Calls -/

namespace Client

theorem tokens_update {token : Nat} {f : Call → Call} (hf : ∀ k, (f k).token = k.token)
    (c : Client H) : (c.update token f).calls.map Call.token = c.calls.map Call.token := by
  rw [update, List.map_map]
  refine List.map_congr_left fun k _ => ?_
  show (if k.token = token then f k else k).token = k.token
  split
  · exact hf k
  · rfl

theorem mem_calls_update {token : Nat} {f : Call → Call} {c : Client H} {k : Call} :
    k ∈ (c.update token f).calls ↔ ∃ k₀ ∈ c.calls, (if k₀.token = token then f k₀ else k₀) = k :=
  List.mem_map

/-- Who is another call than the one that gets on was there before. -/
theorem mem_calls_of_update_ne {c : Client H} {token : Nat} {phase : Phase} {k' : Call}
    (h : k' ∈ (c.update token fun k => { k with phase }).calls) (hne : k'.token ≠ token) : k' ∈ c.calls := by
  obtain ⟨k, hk, rfl⟩ := mem_calls_update.mp h
  by_cases htoken : k.token = token
  · rw [if_pos htoken] at hne
    exact absurd htoken hne
  · rwa [if_neg htoken]

theorem mem_calls_drop {token : Nat} {c : Client H} {k : Call} :
    k ∈ (c.drop token).calls ↔ k ∈ c.calls ∧ k.token ≠ token := by
  rw [drop, List.mem_filter, decide_eq_true_eq]

/-- Calls in progress are told apart by their tokens. -/
theorem Consistent.eq_of_token {c : Client H} (h : c.Consistent) {k k' : Call} (hk : k ∈ c.calls)
    (hk' : k' ∈ c.calls) (htoken : k.token = k'.token) : k = k' :=
  List.inj_on_of_nodup_map h.calls_nodup hk hk' htoken

theorem Consistent.call?_eq {c : Client H} (h : c.Consistent) {k : Call} (hk : k ∈ c.calls) :
    c.call? k.token = some k := by
  have hsome : (c.call? k.token).isSome := by
    rw [call?, List.find?_isSome]
    exact ⟨k, hk, decide_eq_true rfl⟩
  obtain ⟨k', hk'⟩ := Option.isSome_iff_exists.mp hsome
  obtain ⟨hmem, htoken⟩ := of_call?_eq_some hk'
  rw [hk', h.eq_of_token hmem hk htoken]

/-- No call has two entries. -/
theorem Consistent.ticket_unique {c : Client H} (h : c.Consistent) {token : Nat} {a b : Ticket}
    (ha : c.table.Holds token a) (hb : c.table.Holds token b) : a = b := by
  obtain ⟨k, hk, htoken, hawaits⟩ := h.owner token a ha
  obtain ⟨k', hk', htoken', hawaits'⟩ := h.owner token b hb
  rw [← hawaits.ticket_eq, ← hawaits'.ticket_eq, h.eq_of_token hk hk' (htoken.trans htoken'.symm)]

/-- An entry's token has been given out. -/
theorem Consistent.holds_le {c : Client H} (h : c.Consistent) {token : Nat} {ticket : Ticket}
    (ht : c.table.Holds token ticket) : token ≤ c.table.lastToken := by
  obtain ⟨k, hk, rfl, -⟩ := h.owner token ticket ht
  exact h.call_le k hk

end Client

/-! ## Entries -/

namespace Table

theorem holds_enroll {t : Table} {token token' : Nat} {ticket ticket' : Ticket}
    (h : (enroll token' ticket' t).Holds token ticket) :
    t.Holds token ticket ∨ token = token' ∧ ticket = ticket' := by
  cases ticket' <;> cases ticket <;>
    simp only [enroll, enqueue, start, observe, Holds, List.mem_append, List.mem_singleton,
      Waiter.mk.injEq] at h ⊢ <;> grind

theorem holds_retract {t : Table} {k : Call} {token : Nat} {ticket : Ticket}
    (h : (k.retract t).Holds token ticket) :
    t.Holds token ticket ∧ ¬(token = k.token ∧ ticket = k.ticket) := by
  rcases hk : k.ticket <;> cases ticket <;>
    simp only [Call.retract, hk, forget, release, unobserve, Holds, List.mem_filter] at h ⊢ <;>
    grind

theorem holds_withdraw {t : Table} {k : Call} {token : Nat} {ticket : Ticket}
    (h : (k.withdraw t).Holds token ticket) :
    t.Holds token ticket ∧ ¬(token = k.token ∧ ticket = k.ticket) := by
  rcases hk : k.ticket <;> cases ticket <;>
    simp only [Call.withdraw, hk, abandon, release, unobserve, Holds, List.mem_filter,
      List.mem_map] at h ⊢ <;>
    grind

/-- A call that is not sent leaves the places of the others as they are. -/
theorem mem_waiters_retract {t : Table} {k : Call} {w : Waiter} (hw : w ∈ (k.retract t).waiters) :
    w ∈ t.waiters := by
  rw [Call.retract] at hw
  rcases hticket : k.ticket with _ | _ | id | _ <;> rw [hticket] at hw
  · exact List.mem_of_mem_filter hw
  · exact List.mem_of_mem_filter hw
  · exact hw
  · exact hw

/-- Where a call withdraws, the places of the others in the queue stay as they are. -/
theorem mem_waiters_withdraw {t : Table} {k : Call} {w : Waiter}
    (hw : w ∈ (k.withdraw t).waiters) (hne : w.token ≠ k.token) : w ∈ t.waiters := by
  have habandon : w ∈ (t.abandon k.token).waiters → w ∈ t.waiters := by
    intro hw
    obtain ⟨w₀, hw₀, heq⟩ := List.mem_map.mp hw
    by_cases htoken : w₀.token = k.token
    · rw [if_pos htoken] at heq
      exact absurd (heq ▸ htoken) hne
    · rw [if_neg htoken] at heq
      exact heq ▸ hw₀
  rw [Call.withdraw] at hw
  rcases hticket : k.ticket with _ | _ | id | _ <;> rw [hticket] at hw
  · exact habandon hw
  · exact habandon hw
  · exact hw
  · exact hw

/-- The first message for a number marks the one entry that has it. -/
theorem mem_pending_first {pending : List Pending} {q : Pending} (hmem : q ∈ pending)
    (hunique : ∀ p ∈ pending, p.id = q.id → p = q) (hack : q.acknowledged = false) {p : Pending} :
    p ∈ pending.map (fun p => if p.id = q.id then { p with acknowledged := true } else p) ↔
      (p ∈ pending ∧ p.id ≠ q.id) ∨
      (p.id = q.id ∧ p.acknowledged = true ∧ { p with acknowledged := false } ∈ pending) := by
  rw [List.mem_map]
  constructor
  · rintro ⟨p', hp', rfl⟩
    by_cases hid : p'.id = q.id
    · obtain rfl := hunique p' hp' hid
      have hsame : { p' with acknowledged := false } = p' := by rw [← hack]
      rw [if_pos rfl]
      refine .inr ⟨rfl, rfl, ?_⟩
      show { p' with acknowledged := false } ∈ pending
      rw [hsame]
      exact hmem
    · rw [if_neg hid]
      exact .inl ⟨hp', hid⟩
  · rintro (⟨hp, hid⟩ | ⟨hid, hacked, hp⟩)
    · exact ⟨p, hp, if_neg hid⟩
    · refine ⟨_, hp, ?_⟩
      rw [if_pos hid, ← hacked]

/-- The second message for a number takes away the one entry that has it. -/
theorem mem_pending_second {pending : List Pending} {q : Pending}
    (hunique : ∀ p ∈ pending, p.id = q.id → p = q) (hack : q.acknowledged = true) {p : Pending} :
    p ∈ pending.filter (fun p => p.id ≠ q.id) ↔
      (p ∈ pending ∧ p.id ≠ q.id) ∨
      (p.id = q.id ∧ p.acknowledged = true ∧ { p with acknowledged := false } ∈ pending) := by
  rw [List.mem_filter, decide_eq_true_eq]
  refine ⟨.inl, fun h => h.elim id ?_⟩
  rintro ⟨hid, -, hp⟩
  rw [← hunique _ hp hid] at hack
  cases hack

theorem mem_pending_advance {t : Table} (nodup : (t.pending.map Pending.id).Nodup) {id : UInt8}
    {p : Pending} : p ∈ (t.advance id).2.pending ↔ (p ∈ t.pending ∧ p.id ≠ id) ∨
      (p.id = id ∧ p.acknowledged = true ∧ { p with acknowledged := false } ∈ t.pending) := by
  rw [advance]
  rcases hq : t.pending? id with _ | q
  · -- no transaction has the number, and the table stays as it is
    rw [pending?_eq_none_iff] at hq
    have hne : ∀ p ∈ t.pending, p.id ≠ id := fun p hp hid => hq (hid ▸ List.mem_map_of_mem hp)
    constructor
    · exact fun hp => .inl ⟨hp, hne p hp⟩
    · rintro (⟨hp, -⟩ | ⟨hid, -, hp⟩)
      · exact hp
      · exact (hne _ hp hid).elim
  · obtain ⟨hmem, rfl⟩ := of_pending?_eq_some hq
    have hunique : ∀ p ∈ t.pending, p.id = q.id → p = q := fun p hp hid =>
      List.inj_on_of_nodup_map nodup hp hmem hid
    cases hack : q.acknowledged with
    | true =>
      simp only [hack, if_true]
      exact mem_pending_second hunique hack
    | false =>
      simp only [hack, Bool.false_eq_true, if_false]
      exact mem_pending_first hmem hunique hack

end Table

/-! ## Dispatching -/

namespace Client

/-- Whether a dispatched message is handed to a call. -/
def isTold (kind : Message.Kind) (t : Table) (k : Call) : Bool :=
  (route kind t).1 = some k.token || t.observers.contains k.token

theorem isTold_eq_false_iff {kind : Message.Kind} {t : Table} {k : Call} :
    isTold kind t k = false ↔ (route kind t).1 ≠ some k.token ∧ k.token ∉ t.observers := by
  rw [isTold, Bool.or_eq_false_iff, decide_eq_false_iff_not, List.contains_eq_mem,
    decide_eq_false_iff_not]

/-- An answer is handed to the first of the queue, if somebody waits there. -/
theorem receiver_response (t : Table) : (route .response t).1
    = t.waiters.head?.bind fun w => if w.attended then some w.token else none := by
  rw [route, Table.answer]
  rcases t.waiters with _ | ⟨w, ws⟩ <;> rfl

/-- The second message for a transaction is handed to its call, the first to nobody. -/
theorem receiver_transaction (id : UInt8) (t : Table) : (route (.transaction id) t).1
    = (t.pending? id).bind fun p => if p.acknowledged then some p.token else none := by
  rw [route, Table.advance]
  rcases t.pending? id with _ | p
  · rfl
  · show (if p.acknowledged then _ else _ : Option Nat × Table).1 = if p.acknowledged then _ else _
    split <;> rfl

/-- A message is handed on through an entry for its kind. -/
theorem holds_of_route {t : Table} {kind : Message.Kind} {token : Nat}
    (h : (route kind t).1 = some token) :
    ∃ ticket, kind.ticket? = some ticket ∧ t.Holds token ticket := by
  cases kind with
  | response =>
    refine ⟨.answer, rfl, ?_⟩
    rw [receiver_response] at h
    obtain ⟨⟨token', attended⟩, hw, hreceiver⟩ := Option.bind_eq_some_iff.mp h
    cases attended <;> cases hreceiver
    exact List.mem_of_head? hw
  | transaction id =>
    refine ⟨.transaction id, rfl, ?_⟩
    rw [receiver_transaction] at h
    obtain ⟨p, hp, hreceiver⟩ := Option.bind_eq_some_iff.mp h
    obtain ⟨hmem, hid⟩ := Table.of_pending?_eq_some hp
    cases hack : p.acknowledged <;> rw [hack] at hreceiver <;> cases hreceiver
    exact ⟨p, hmem, hid, rfl⟩
  | notice => cases h

theorem observers_route (kind : Message.Kind) (t : Table) :
    (route kind t).2.observers = t.observers := by
  cases kind with
  | response =>
    rw [route, Table.answer]
    rcases t.waiters with _ | ⟨w, ws⟩ <;> rfl
  | transaction id =>
    rw [route, Table.advance]
    rcases t.pending? id with _ | p
    · rfl
    · show (if p.acknowledged then _ else _ : Option Nat × Table).2.observers = _
      split <;> rfl
  | notice => rfl

theorem calls_dispatch (m : Message) (c : Client H) :
    (c.dispatch m).calls = c.calls.map fun k =>
      if isTold (m.classify c.config.threshold) c.table k
        then k.receive (m.summary c.config.threshold) else k := by
  have hobservers := observers_route (m.classify c.config.threshold) c.table
  unfold isTold
  rw [← hobservers]
  rfl

theorem table_dispatch (m : Message) (c : Client H) :
    (c.dispatch m).table
      = { (route (m.classify c.config.threshold) c.table).2 with observers := [] } := rfl

theorem tokens_dispatch (m : Message) (c : Client H) :
    (c.dispatch m).calls.map Call.token = c.calls.map Call.token := by
  rw [calls_dispatch, List.map_map]
  refine List.map_congr_left fun k _ => ?_
  show Call.token (if isTold _ _ k then k.receive _ else k) = k.token
  split <;> rfl

/-- The queue after a message has been dispatched. -/
theorem waiters_route (kind : Message.Kind) (t : Table) :
    (route kind t).2.waiters = if kind = .response then t.waiters.tail else t.waiters := by
  cases kind with
  | response =>
    rw [route, Table.answer, if_pos rfl]
    rcases hw : t.waiters with _ | ⟨w, ws⟩ <;> simp [hw]
  | transaction id =>
    rw [route, Table.advance, if_neg (by simp)]
    rcases t.pending? id with _ | p
    · rfl
    · show (if p.acknowledged then _ else _ : Option Nat × Table).2.waiters = _
      split <;> rfl
  | notice => rfl

/-- What a message does to the transactions: the first for a number is noted down, the second ends the
transaction. -/
theorem mem_pending_route {kind : Message.Kind} {t : Table} (nodup : (t.pending.map Pending.id).Nodup)
    {p : Pending} : p ∈ (route kind t).2.pending ↔
      (p ∈ t.pending ∧ kind ≠ .transaction p.id) ∨
      (kind = .transaction p.id ∧ p.acknowledged = true ∧ { p with acknowledged := false } ∈ t.pending)
      := by
  cases kind with
  | response =>
    rw [route, Table.answer]
    rcases t.waiters with _ | ⟨w, ws⟩ <;> simp
  | notice => simp [route]
  | transaction id =>
    rw [route, Table.mem_pending_advance nodup]
    simp only [ne_eq, Message.Kind.transaction.injEq, eq_comm]

/-- Whoever is handed a message is a call in progress that was handed nothing before. -/
theorem Consistent.of_route {c : Client H} (h : c.Consistent) {kind : Message.Kind} {token : Nat}
    (hr : (route kind c.table).1 = some token) :
    ∃ k ∈ c.calls, k.token = token ∧ k.slot = none := by
  obtain ⟨ticket, -, hheld⟩ := holds_of_route hr
  obtain ⟨k, hk, htoken, hawaits⟩ := h.owner token ticket hheld
  exact ⟨k, hk, htoken, hawaits.slot_eq⟩

theorem Consistent.of_observer {c : Client H} (h : c.Consistent) {k : Call} (hk : k ∈ c.calls)
    (hmem : k.token ∈ c.table.observers) : k.ticket = .observation := by
  obtain ⟨k', hk', htoken, hawaits⟩ := h.owner k.token .observation hmem
  rw [← h.eq_of_token hk' hk htoken]
  exact hawaits.ticket_eq

/-- Dispatching a message changes nothing of a call but its slot. -/
theorem of_mem_calls_dispatch {m : Message} {c : Client H} {k' : Call}
    (hk' : k' ∈ (c.dispatch m).calls) : ∃ k ∈ c.calls, k'.token = k.token ∧ k'.ticket = k.ticket ∧
      k'.phase = k.phase ∧ k' = if isTold (m.classify c.config.threshold) c.table k
        then k.receive (m.summary c.config.threshold) else k := by
  rw [calls_dispatch] at hk'
  obtain ⟨k, hk, rfl⟩ := List.mem_map.mp hk'
  refine ⟨k, hk, ?_, ?_, ?_, rfl⟩ <;> split <;> rfl

/-- An entry that is left after a message has been dispatched was there before, and its call was not
handed the message. -/
theorem Consistent.holds_dispatch {c : Client H} (h : c.Consistent) {m : Message} {token : Nat}
    {ticket : Ticket} (ht : (c.dispatch m).table.Holds token ticket) :
    c.table.Holds token ticket ∧
      ∀ k, k.token = token → isTold (m.classify c.config.threshold) c.table k = false := by
  rw [table_dispatch] at ht
  generalize m.classify c.config.threshold = kind at ht ⊢
  have hheld : c.table.Holds token ticket := by
    cases ticket with
    | answer =>
      rw [Table.Holds, waiters_route] at ht
      split at ht
      · exact List.mem_of_mem_tail ht
      · exact ht
    | oneWay => exact ht
    | transaction id =>
      obtain ⟨p, hp, hid, htoken⟩ := ht
      obtain ⟨hmem, -⟩ | ⟨-, -, hmem⟩ := (mem_pending_route h.ids_nodup).mp hp
      · exact ⟨p, hmem, hid, htoken⟩
      · exact ⟨_, hmem, hid, htoken⟩
    | observation => exact absurd ht List.not_mem_nil
  refine ⟨hheld, fun k hk => ?_⟩
  rw [isTold_eq_false_iff, hk]
  constructor
  · intro hreceiver
    obtain ⟨ticket', hkind, hheld'⟩ := holds_of_route hreceiver
    rw [h.ticket_unique hheld' hheld] at hkind
    -- the entry through which a message is handed on does not outlive it
    cases kind <;> cases hkind
    · rw [receiver_response] at hreceiver
      obtain ⟨w, hw, hattended⟩ := Option.bind_eq_some_iff.mp hreceiver
      rw [Table.Holds, waiters_route, if_pos rfl] at ht
      have hnodup := h.waiters_nodup
      rw [List.eq_cons_of_mem_head? hw, List.map_cons, List.nodup_cons] at hnodup
      cases hatt : w.attended <;> rw [hatt] at hattended <;> cases hattended
      exact hnodup.1 (List.mem_map.mpr ⟨_, ht, rfl⟩)
    · obtain ⟨p, hp, rfl, htoken⟩ := ht
      obtain ⟨-, hne⟩ | ⟨-, -, hmem⟩ := (mem_pending_route h.ids_nodup).mp hp
      · exact hne rfl
      · rw [receiver_transaction, Table.pending?_of_mem h.ids_nodup hmem] at hreceiver
        cases hreceiver
  · intro hobserver
    have : ticket = .observation := h.ticket_unique hheld hobserver
    subst this
    exact absurd ht List.not_mem_nil

/-! ## What every move keeps -/

end Client

/-- A table that gives out no token and gets no entry. -/
structure Table.Trims (t' t : Table) : Prop where
  lastToken_eq : t'.lastToken = t.lastToken
  waiters : (t'.waiters.map Waiter.token).Sublist (t.waiters.map Waiter.token)
  ids : (t'.pending.map Pending.id).Sublist (t.pending.map Pending.id)

namespace Table

theorem trims_refl (t : Table) : t.Trims t :=
  ⟨rfl, List.Sublist.refl _, List.Sublist.refl _⟩

theorem trims_retract (k : Call) (t : Table) : (k.retract t).Trims t := by
  rw [Call.retract]
  cases k.ticket
  · exact ⟨rfl, List.filter_sublist.map _, List.Sublist.refl _⟩
  · exact ⟨rfl, List.filter_sublist.map _, List.Sublist.refl _⟩
  · exact ⟨rfl, List.Sublist.refl _, List.filter_sublist.map _⟩
  · exact ⟨rfl, List.Sublist.refl _, List.Sublist.refl _⟩

theorem tokens_abandon (token : Nat) (t : Table) :
    (t.abandon token).waiters.map Waiter.token = t.waiters.map Waiter.token := by
  rw [abandon, List.map_map]
  refine List.map_congr_left fun w _ => ?_
  show Waiter.token (if w.token = token then _ else w) = w.token
  split <;> rfl

theorem tokens_withdraw (k : Call) (t : Table) :
    (k.withdraw t).waiters.map Waiter.token = t.waiters.map Waiter.token := by
  rw [Call.withdraw]
  split
  · exact tokens_abandon _ _
  · exact tokens_abandon _ _
  · rfl
  · rfl

theorem trims_withdraw (k : Call) (t : Table) : (k.withdraw t).Trims t := by
  have habandon : (t.abandon k.token).Trims t :=
    ⟨rfl, by rw [tokens_abandon], List.Sublist.refl _⟩
  rw [Call.withdraw]
  cases k.ticket
  · exact habandon
  · exact habandon
  · exact ⟨rfl, List.Sublist.refl _, List.filter_sublist.map _⟩
  · exact ⟨rfl, List.Sublist.refl _, List.Sublist.refl _⟩

theorem trims_answer (t : Table) : t.answer.2.Trims t := by
  rw [answer]
  rcases hw : t.waiters with _ | ⟨w, ws⟩
  · exact t.trims_refl
  · exact ⟨rfl, by rw [hw]; exact (List.sublist_cons_self w ws).map _, List.Sublist.refl _⟩

theorem trims_advance (id : UInt8) (t : Table) : (t.advance id).2.Trims t := by
  rw [advance]
  rcases t.pending? id with _ | p
  · exact t.trims_refl
  by_cases hack : p.acknowledged
  · simp only [if_pos hack]
    exact ⟨rfl, List.Sublist.refl _, List.filter_sublist.map _⟩
  · simp only [if_neg hack]
    refine ⟨rfl, List.Sublist.refl _, ?_⟩
    rw [List.map_map]
    have : (Pending.id ∘ fun q => if q.id = id then { q with acknowledged := true } else q)
        = Pending.id := by
      funext q
      show Pending.id (if q.id = id then _ else q) = q.id
      split <;> rfl
    rw [this]

theorem trims_route (kind : Message.Kind) (t : Table) : (Client.route kind t).2.Trims t := by
  cases kind with
  | response => exact t.trims_answer
  | transaction id => exact t.trims_advance id
  | notice => exact t.trims_refl

theorem closed_retract (k : Call) (t : Table) : (k.retract t).closed = t.closed := by
  rw [Call.retract]
  split <;> rfl

theorem closed_withdraw (k : Call) (t : Table) : (k.withdraw t).closed = t.closed := by
  rw [Call.withdraw]
  split <;> rfl

theorem closed_route (kind : Message.Kind) (t : Table) : (Client.route kind t).2.closed = t.closed := by
  cases kind with
  | response =>
    rw [Client.route, answer]
    split <;> rfl
  | transaction id =>
    rw [Client.route, advance]
    split
    · rfl
    · split <;> rfl
  | notice => rfl

theorem trims_close (t : Table) : t.close.Trims t :=
  ⟨rfl, List.nil_sublist _, List.nil_sublist _⟩

end Table

namespace Client

/-- A step that leaves calls and entries out, and adds none, need only see to the owners. -/
theorem Consistent.of_trims {c c' : Client H} (h : c.Consistent)
    (hcalls : (c'.calls.map Call.token).Sublist (c.calls.map Call.token))
    (htable : c'.table.Trims c.table)
    (howner : ∀ token ticket, c'.table.Holds token ticket →
      ∃ k ∈ c'.calls, k.token = token ∧ k.Awaits ticket) : c'.Consistent where
  calls_nodup := h.calls_nodup.sublist hcalls
  call_le k hk := by
    obtain ⟨k₀, hk₀, htoken⟩ := List.mem_map.mp (hcalls.subset (List.mem_map_of_mem hk))
    rw [htable.lastToken_eq, ← htoken]
    exact h.call_le k₀ hk₀
  waiters_nodup := h.waiters_nodup.sublist htable.waiters
  waiter_le w hw := by
    obtain ⟨w₀, hw₀, htoken⟩ := List.mem_map.mp (htable.waiters.subset (List.mem_map_of_mem hw))
    rw [htable.lastToken_eq, ← htoken]
    exact h.waiter_le w₀ hw₀
  ids_nodup := h.ids_nodup.sublist htable.ids
  id_ne_zero p hp := by
    obtain ⟨p₀, hp₀, hid⟩ := List.mem_map.mp (htable.ids.subset (List.mem_map_of_mem hp))
    rw [← hid]
    exact h.id_ne_zero p₀ hp₀
  owner := howner

/-- Changing how far a call has got keeps a client consistent, unless the call settles. -/
theorem Consistent.update_phase {c : Client H} (h : c.Consistent) (token : Nat) {phase : Phase}
    (hphase : phase ≠ .settled) :
    (c.update token fun k => { k with phase }).Consistent := by
  refine h.of_trims ?_ c.table.trims_refl fun token' ticket ht => ?_
  · rw [tokens_update (f := fun k => { k with phase }) fun _ => rfl]
  · obtain ⟨k, hk, htoken, hawaits⟩ := h.owner token' ticket ht
    refine ⟨_, mem_calls_update.mpr ⟨k, hk, rfl⟩, ?_, ?_⟩ <;> split
    · exact htoken
    · exact htoken
    · exact ⟨hawaits.ticket_eq, hawaits.slot_eq, hphase⟩
    · exact hawaits

theorem tokens_drop (token : Nat) (c : Client H) :
    ((c.drop token).calls.map Call.token).Sublist (c.calls.map Call.token) :=
  List.filter_sublist.map _

/-- A call whose entry was taken away is not the owner of an entry that is left. -/
theorem Consistent.owner_ne {c : Client H} (h : c.Consistent) {k : Call} (hmem : k ∈ c.calls)
    {token : Nat} {ticket : Ticket} (hheld : c.table.Holds token ticket)
    (hne : ¬(token = k.token ∧ ticket = k.ticket)) :
    ∃ k' ∈ c.calls, k'.token ≠ k.token ∧ k'.token = token ∧ k'.Awaits ticket := by
  obtain ⟨k', hk', htoken, hawaits⟩ := h.owner token ticket hheld
  refine ⟨k', hk', fun hc => hne ?_, htoken, hawaits⟩
  have := h.eq_of_token hk' hmem hc
  exact ⟨htoken ▸ hc, this ▸ hawaits.ticket_eq.symm⟩

/-- A call whose request could not be sent takes its entry back and is gone. -/
theorem Consistent.unsent_eq {c : Client H} (h : c.Consistent) {k : Call} (hmem : k ∈ c.calls) :
    c.unsent k.token = Client.drop k.token { c with table := k.retract c.table } := by
  rw [Client.unsent, h.call?_eq hmem]

theorem Consistent.unsent {c : Client H} (h : c.Consistent) (token : Nat) :
    (c.unsent token).Consistent := by
  rw [Client.unsent]
  rcases hk : c.call? token with _ | k
  · exact h
  obtain ⟨hmem, rfl⟩ := of_call?_eq_some hk
  refine h.of_trims (tokens_drop _ _) (Table.trims_retract k c.table) fun token ticket ht => ?_
  obtain ⟨hheld, hne⟩ := Table.holds_retract (t := c.table) ht
  obtain ⟨k', hk', hne', htoken, hawaits⟩ := h.owner_ne hmem hheld hne
  exact ⟨k', mem_calls_drop.mpr ⟨hk', hne'⟩, htoken, hawaits⟩

theorem Consistent.withdraw {c : Client H} (h : c.Consistent) {k : Call} (hmem : k ∈ c.calls) :
    (Client.update k.token (fun k => { k with phase := .settled })
      { c with table := k.withdraw c.table }).Consistent := by
  refine h.of_trims ?_ (Table.trims_withdraw k c.table) fun token ticket ht => ?_
  · rw [tokens_update (f := fun k => { k with phase := .settled }) fun _ => rfl]
  · obtain ⟨hheld, hne⟩ := Table.holds_withdraw (t := c.table) ht
    obtain ⟨k', hk', hne', htoken, hawaits⟩ := h.owner_ne hmem hheld hne
    exact ⟨k', mem_calls_update.mpr ⟨k', hk', if_neg hne'⟩, htoken, hawaits⟩

/-- A call that awaits its message, and whose entry is there, has nothing to return. -/
theorem outcome?_of_awaits {t : Table} {k : Call} {ticket : Ticket} (hk : k.Awaits ticket)
    (ht : t.Holds k.token ticket) : k.outcome? t = none := by
  have hheld : k.isHeld t := by
    rw [Call.isHeld, hk.ticket_eq]
    cases ticket with
    | answer => exact List.any_eq_true.mpr ⟨_, ht, decide_eq_true rfl⟩
    | oneWay => exact ht.elim
    | transaction id =>
      obtain ⟨p, hp, -, htoken⟩ := ht
      exact List.any_eq_true.mpr ⟨p, hp, decide_eq_true htoken⟩
    | observation => exact List.any_eq_true.mpr ⟨_, ht, decide_eq_true rfl⟩
  have hticket : k.ticket ≠ .oneWay := by
    rw [hk.ticket_eq]
    rintro rfl
    exact ht
  rw [Call.outcome?]
  rcases hphase : k.phase with _ | _ | _ | _
  · rfl
  · simp only [if_neg hticket, hk.slot_eq]
    exact if_pos hheld
  · rfl
  · exact absurd hphase hk.unsettled

theorem Consistent.drop_decided {c : Client H} (h : c.Consistent) {k : Call} (hmem : k ∈ c.calls)
    {result : Except CallError Reply} (decided : k.outcome? c.table = some result) :
    (c.drop k.token).Consistent := by
  refine h.of_trims (tokens_drop _ _) c.table.trims_refl fun token ticket ht => ?_
  obtain ⟨k', hk', htoken, hawaits⟩ := h.owner token ticket ht
  refine ⟨k', mem_calls_drop.mpr ⟨hk', fun hc => ?_⟩, htoken, hawaits⟩
  -- a call that owns an entry has nothing to return
  obtain rfl := h.eq_of_token hk' hmem hc
  subst htoken
  rw [outcome?_of_awaits (t := c.table) hawaits ht] at decided
  cases decided

theorem Consistent.dispatch {c : Client H} (h : c.Consistent) (m : Message) :
    (c.dispatch m).Consistent := by
  have htrims := Table.trims_route (m.classify c.config.threshold) c.table
  refine h.of_trims ?_ ⟨htrims.lastToken_eq, htrims.waiters, htrims.ids⟩ fun token ticket ht => ?_
  · rw [tokens_dispatch]
  · obtain ⟨hheld, huntold⟩ := h.holds_dispatch ht
    obtain ⟨k, hk, htoken, hawaits⟩ := h.owner token ticket hheld
    refine ⟨k, ?_, htoken, hawaits⟩
    rw [calls_dispatch]
    refine List.mem_map.mpr ⟨k, hk, ?_⟩
    rw [huntold k htoken]
    rfl

theorem Consistent.close {c : Client H} (h : c.Consistent) : c.close.Consistent := by
  refine h.of_trims (List.Sublist.refl _) c.table.trims_close fun token ticket ht => ?_
  cases ticket with
  | answer => exact absurd ht List.not_mem_nil
  | oneWay => exact ht.elim
  | transaction id =>
    obtain ⟨p, hp, -⟩ := ht
    exact absurd hp List.not_mem_nil
  | observation => exact absurd ht List.not_mem_nil

end Client

/-- The places in the queue after a call has been enrolled. -/
theorem Table.mem_waiters_enroll {t : Table} {token : Nat} {ticket : Ticket} {w : Waiter}
    (h : w ∈ (t.enroll token ticket).waiters) : w ∈ t.waiters ∨
      ticket = .answer ∧ w = ⟨token, true⟩ ∨ ticket = .oneWay ∧ w = ⟨token, false⟩ := by
  cases ticket <;> simp only [enroll, enqueue, start, observe, List.mem_append, List.mem_singleton] at h
    <;> grind

/-- The transactions after a call has been enrolled. -/
theorem Table.mem_pending_enroll {t : Table} {token : Nat} {ticket : Ticket} {p : Pending} :
    p ∈ (t.enroll token ticket).pending ↔
      p ∈ t.pending ∨ ticket = .transaction p.id ∧ p = ⟨p.id, token, false⟩ := by
  cases ticket <;> simp only [enroll, enqueue, start, observe, List.mem_append, List.mem_singleton]
    <;> grind

namespace Client

variable {r : Run H} {k : Call} {draft : Option (Nat × Request)}

theorem Consistent.fresh_token (h : r.client.Consistent) (hk : Admission r k draft) :
    k.token ∉ r.client.calls.map Call.token := by
  intro hc
  obtain ⟨k', hk', htoken⟩ := List.mem_map.mp hc
  have hle := h.call_le k' hk'
  rw [htoken, hk.token_eq] at hle
  omega

/-- A client stays consistent when it enrolls a call. -/
theorem Consistent.enroll (h : r.client.Consistent) (cursor : UInt8) (hk : Admission r k draft) :
    Client.Consistent { r.client with
      table := Table.enroll k.token k.ticket { r.client.table with lastToken := k.token, cursor }
      calls := r.client.calls ++ [k] } := by
  have hlt : r.client.table.lastToken < k.token := by
    rw [hk.token_eq]
    omega
  have hlast : (Table.enroll k.token k.ticket
      { r.client.table with lastToken := k.token, cursor }).lastToken = k.token := by
    cases k.ticket <;> rfl
  -- the new token is above every token that was given out before
  have hqueue : k.token ∉ r.client.table.waiters.map Waiter.token := by
    intro hc
    obtain ⟨w, hw, htoken⟩ := List.mem_map.mp hc
    have := h.waiter_le w hw
    omega
  constructor
  · rw [List.map_append, List.map_singleton, ← List.concat_eq_append]
    exact h.calls_nodup.concat (h.fresh_token hk)
  · intro k' hk'
    rw [hlast]
    obtain hmem | hmem := List.mem_append.mp hk'
    · have := h.call_le k' hmem
      omega
    · rw [List.mem_singleton.mp hmem]
  · have hconcat := h.waiters_nodup.concat hqueue
    rw [List.concat_eq_append] at hconcat
    cases k.ticket
    · rw [Table.enroll, Table.enqueue, List.map_append]
      exact hconcat
    · rw [Table.enroll, Table.enqueue, List.map_append]
      exact hconcat
    · exact h.waiters_nodup
    · exact h.waiters_nodup
  · intro w hw
    rw [hlast]
    obtain hmem | ⟨-, rfl⟩ | ⟨-, rfl⟩ := Table.mem_waiters_enroll hw
    · have := h.waiter_le w hmem
      omega
    · exact le_rfl
    · exact le_rfl
  · rcases hticket : k.ticket with _ | _ | id | _
    · exact h.ids_nodup
    · exact h.ids_nodup
    · have hconcat := h.ids_nodup.concat
        (Table.pending?_eq_none_iff.mp (hk.number_free id hticket))
      rw [List.concat_eq_append] at hconcat
      rw [Table.enroll, Table.start, List.map_append]
      exact hconcat
    · exact h.ids_nodup
  · intro p hp
    obtain hmem | ⟨hticket, -⟩ := Table.mem_pending_enroll.mp hp
    · exact h.id_ne_zero p hmem
    · exact hk.number_ne_zero p.id hticket
  · intro token ticket ht
    obtain hheld | ⟨rfl, rfl⟩ := Table.holds_enroll ht
    · obtain ⟨k', hk', htoken, hawaits⟩ := h.owner token ticket hheld
      exact ⟨k', List.mem_append_left _ hk', htoken, hawaits⟩
    · refine ⟨k, List.mem_append_right _ (List.mem_singleton_self k), rfl, rfl, hk.slot_eq, ?_⟩
      intro hc
      obtain ⟨-, hphase, -⟩ | ⟨-, hphase, -⟩ := hk.writer <;> rw [hphase] at hc <;> cases hc

end Client

/-- Every move of a run keeps the calls in progress and the table together. -/
theorem Move.consistent {r r' : Run H} (hmove : Move r r') (h : r.client.Consistent) :
    r'.client.Consistent := by
  cases hmove with
  | idle table_eq calls_eq _ =>
    refine h.of_trims ?_ ?_ ?_
    · rw [calls_eq]
    · rw [table_eq]
      exact r.client.table.trims_refl
    · rw [table_eq, calls_eq]
      exact h.owner
  | refuse e cursor =>
    exact h.of_trims (List.Sublist.refl _) ⟨rfl, List.Sublist.refl _, List.Sublist.refl _⟩ h.owner
  | start cursor hk => exact h.enroll cursor hk
  | written draft_eq send_eq => exact h.update_phase _ (by simp)
  | unwritten draft_eq send_eq => exact h.unsent _
  | expire mem phase_eq undecided => exact h.update_phase _ (by simp)
  | settle mem phase_eq => exact h.withdraw mem
  | collect mem decided => exact h.drop_decided mem decided
  | dispatch m => exact h.dispatch m
  | close => exact h.close

/-- In every state of every run the calls in progress and the table fit together. -/
theorem Run.consistent_after (config : ClientConfig) (sink : Sink) (actions : List (Action H)) :
    (after config sink actions).client.Consistent :=
  after_of_move (P := fun r => r.client.Consistent)
    ⟨List.nodup_nil, by simp [fresh], List.nodup_nil, by simp [fresh], List.nodup_nil,
      by simp [fresh], fun token ticket ht => by cases ticket <;> simp [fresh, Table.Holds] at ht⟩
    (fun hmove h => hmove.consistent h) actions

end Wwan
