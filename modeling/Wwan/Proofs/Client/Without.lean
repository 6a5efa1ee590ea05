import Wwan.Proofs.Client.Ledger
import Wwan.Proofs.Client.Renaming

/-!
# A client without one of its calls

A call that is being sent is in the table, and it can be taken out again.  For everybody who does not wait for
the writer, going on and taking the call out can be done in either order (`Client.without_act`): a step leaves
the call where it is, and does to the others what it would have done without it.  The only other thing that a
call leaves behind is a number, which nobody reads who does not begin a call (`Client.act_atCursor`,
`Client.act_rename`).
-/

namespace Wwan

variable {H : Type}

/-! ## Steps of others -/

/-- What an action does to a client where no call begins and no request is written. -/
def Client.act (c : Client H) : Action H → Client H
  | .start _ _ _ _ | .write => c
  | .observe timeout => (c.observe timeout).2
  | .expire token => c.expire token
  | .settle token => c.settle token
  | .collect token => (c.collect token).2
  | .dispatch m => c.dispatch m
  | .close => c.close
  | .handle => c.handleNext
  | .register command handler => (c.register command handler).2
  | .unregister command => (c.unregister command).2

/-- A table that may have lost entries, and has got none in the queue or among the transactions. -/
structure Table.Shrinks (t' t : Table) : Prop where
  lastToken_le : t.lastToken ≤ t'.lastToken
  waiters : (t'.waiters.map Waiter.token).Sublist (t.waiters.map Waiter.token)
  pending : (t'.pending.map fun p => (p.id, p.token)).Sublist (t.pending.map fun p => (p.id, p.token))

namespace Table

theorem shrinks_refl (t : Table) : t.Shrinks t :=
  ⟨le_rfl, List.Sublist.refl _, List.Sublist.refl _⟩

theorem Shrinks.trans {t t' t'' : Table} (h' : t''.Shrinks t') (h : t'.Shrinks t) : t''.Shrinks t :=
  ⟨h.lastToken_le.trans h'.lastToken_le, h'.waiters.trans h.waiters, h'.pending.trans h.pending⟩

theorem shrinks_withdraw (k : Call) (t : Table) : (k.withdraw t).Shrinks t := by
  constructor
  · rw [(trims_withdraw k t).lastToken_eq]
  · exact (trims_withdraw k t).waiters
  · rw [Call.withdraw]
    cases k.ticket with
    | transaction id => exact List.filter_sublist.map _
    | _ => exact List.Sublist.refl _

theorem shrinks_advance (id : UInt8) (t : Table) : (t.advance id).2.Shrinks t := by
  rw [advance]
  rcases t.pending? id with _ | p
  · exact t.shrinks_refl
  dsimp only
  by_cases hack : p.acknowledged
  · rw [if_pos hack]
    exact ⟨le_rfl, List.Sublist.refl _, List.filter_sublist.map _⟩
  · rw [if_neg hack]
    refine ⟨le_rfl, List.Sublist.refl _, ?_⟩
    rw [List.map_map]
    refine (congrArg (List.Sublist · _) (List.map_congr_left fun q _ => ?_)).mpr (List.Sublist.refl _)
    show (fun p : Pending => (p.id, p.token)) (if q.id = id then _ else q) = _
    split <;> rfl

theorem shrinks_route (kind : Message.Kind) (t : Table) : (Client.route kind t).2.Shrinks t := by
  cases kind with
  | response =>
    refine ⟨t.trims_answer.lastToken_eq.ge, t.trims_answer.waiters, ?_⟩
    rw [Client.route, answer]
    split <;> exact List.Sublist.refl _
  | transaction id => exact t.shrinks_advance id
  | notice => exact t.shrinks_refl

/-- Whoever does not begin a call adds nothing to the queue and no transaction. -/
theorem shrinks_act (c : Client H) (a : Action H) : (c.act a).table.Shrinks c.table := by
  cases a with
  | observe timeout =>
    rw [Client.act, Client.observe]
    split
    · exact c.table.shrinks_refl
    · exact ⟨Nat.le_succ _, List.Sublist.refl _, List.Sublist.refl _⟩
  | expire token =>
    rw [Client.act, Client.expire]
    split
    · split <;> exact c.table.shrinks_refl
    · exact c.table.shrinks_refl
  | settle token =>
    rw [Client.act, Client.settle]
    split
    · next k _ =>
      split
      · exact c.table.shrinks_withdraw k
      · exact c.table.shrinks_refl
    · exact c.table.shrinks_refl
  | collect token =>
    rw [Client.act, Client.collect]
    split <;> exact c.table.shrinks_refl
  | dispatch m =>
    obtain ⟨hlast, hwaiters, hpending⟩ := c.table.shrinks_route (m.classify c.config.threshold)
    exact ⟨hlast, hwaiters, hpending⟩
  | close => exact ⟨le_rfl, List.nil_sublist _, List.nil_sublist _⟩
  | handle =>
    rw [Client.act, c.handleNext_frame.1]
    exact c.table.shrinks_refl
  | _ => exact c.table.shrinks_refl

end Table

/-! ## Taking a call out -/

/-- A client without one of its calls and the entry of that call. -/
def Client.without (k : Call) (c : Client H) : Client H :=
  Client.drop k.token { c with table := k.retract c.table }

/-- A call is being sent: no call with its token has got further, nobody stands behind it in the queue, and
nobody else has its number. -/
structure Client.Sends (c : Client H) (k : Call) : Prop where
  token_le : k.token ≤ c.table.lastToken
  ticket_ne : k.ticket ≠ .observation
  sending : ∀ k' ∈ c.calls, k'.token = k.token → k'.phase = .sending ∧ k'.ticket = k.ticket
  last : (c.table.waiters.map Waiter.token).Pairwise fun first _ => first ≠ k.token
  number : ∀ id, k.ticket = .transaction id → ∀ p ∈ c.table.pending, p.id = id → p.token = k.token

namespace Table

variable {t : Table} {k : Call}

theorem observers_retract (hticket : k.ticket ≠ .observation) : (k.retract t).observers = t.observers := by
  rw [Call.retract]
  cases h : k.ticket with
  | observation => exact absurd h hticket
  | _ => rfl

/-- Whether one call is withdrawn or another is taken out first makes no difference. -/
theorem withdraw_retract (k k' : Call) (t : Table) : k'.withdraw (k.retract t) = k.retract (k'.withdraw t) := by
  have habandon : ∀ t : Table, (t.forget k.token).abandon k'.token = (t.abandon k'.token).forget k.token := by
    intro t
    have hwaiters : ((t.abandon k'.token).forget k.token).waiters
        = ((t.forget k.token).abandon k'.token).waiters := by
      refine filter_map_of_iff t.waiters fun w => ?_
      split <;> rfl
    exact congrArg (fun waiters => { t with waiters }) hwaiters.symm
  have hrelease : ∀ (t : Table) (id id' : UInt8),
      (t.release id k.token).release id' k'.token = (t.release id' k'.token).release id k.token := by
    intro t id id'
    exact congrArg (fun pending => { t with pending }) (List.filter_comm _ _ _)
  have hunobserve : ∀ t : Table,
      (t.unobserve k.token).unobserve k'.token = (t.unobserve k'.token).unobserve k.token := by
    intro t
    exact congrArg (fun observers => { t with observers }) (List.filter_comm _ _ _)
  rw [Call.withdraw, Call.retract, Call.withdraw, Call.retract]
  cases k.ticket <;> cases k'.ticket <;> first | rfl | exact habandon _ | exact hrelease _ _ _ | exact hunobserve _

/-- Nobody else in the queue is served otherwise when its last place is taken out. -/
theorem answer_forget {token : Nat} (hlast : (t.waiters.map Waiter.token).Pairwise fun first _ => first ≠ token) :
    (t.forget token).answer.2 = t.answer.2.forget token ∧
      ∀ other ≠ token, (t.forget token).answer.1 = some other ↔ t.answer.1 = some other := by
  rw [answer, answer, forget]
  rcases hw : t.waiters with _ | ⟨w, ws⟩
  · simp [forget, hw]
  by_cases hown : w.token = token
  · -- there are no others
    have hws : ws = [] := by
      rw [hw, List.map_cons, List.pairwise_cons] at hlast
      rw [List.eq_nil_iff_forall_not_mem]
      exact fun w' hw' => hlast.1 w'.token (List.mem_map_of_mem hw') hown
    subst hws
    have hfilter : [w].filter (fun w => w.token ≠ token) = [] := List.filter_cons_of_neg (by simpa using hown)
    dsimp only
    rw [hfilter]
    refine ⟨rfl, fun other hne => ?_⟩
    show none = some other ↔ (if w.attended then some w.token else none) = some other
    rw [hown]
    split <;> simp [Ne.symm hne]
  · have hfilter : (w :: ws).filter (fun w => w.token ≠ token) = w :: ws.filter fun w => w.token ≠ token :=
      List.filter_cons_of_pos (by simpa using hown)
    dsimp only
    rw [hfilter]
    exact ⟨rfl, fun _ _ => Iff.rfl⟩

theorem pending?_release {id number : UInt8} (hne : number ≠ id) (token : Nat) :
    (t.release id token).pending? number = t.pending? number := by
  rw [pending?, pending?, release, List.find?_filter]
  congr 1
  funext p
  grind

/-- No other transaction gets on otherwise when a transaction is taken out. -/
theorem advance_release {id : UInt8} {token : Nat} (hnumber : ∀ p ∈ t.pending, p.id = id → p.token = token)
    (number : UInt8) : ((t.release id token).advance number).2 = (t.advance number).2.release id token ∧
      ∀ other ≠ token, ((t.release id token).advance number).1 = some other ↔ (t.advance number).1 = some other := by
  by_cases hown : number = id
  · subst hown
    have hothers : t.pending.filter (fun p => ¬(p.id = number ∧ p.token = token))
        = t.pending.filter fun p => p.id ≠ number :=
      List.filter_congr fun p hp => decide_eq_decide.mpr (not_congr (and_iff_left_of_imp (hnumber p hp)))
    have hnone : (t.release number token).pending? number = none := by
      rw [pending?, release, hothers, List.find?_eq_none]
      intro p hp
      simpa using List.of_mem_filter hp
    have hkept : ∀ p ∈ t.pending.filter (fun p => p.id ≠ number), p.id ≠ number := by
      intro p hp
      simpa using List.of_mem_filter hp
    rw [advance, advance, hnone]
    rcases hq : t.pending? number with _ | q
    · exact ⟨rfl, fun _ _ => Iff.rfl⟩
    obtain ⟨hmem, hid⟩ := of_pending?_eq_some hq
    dsimp only
    split
    · -- the result takes it out
      refine ⟨congrArg (fun pending => { t with pending }) ?_, fun other hne => ?_⟩
      · refine hothers.trans (List.filter_eq_self.mpr fun p hp => ?_).symm
        exact decide_eq_true fun hc => hkept p hp hc.1
      · rw [hnumber q hmem hid]
        simp [Ne.symm hne]
    · -- the acknowledgement changes nothing of the others
      refine ⟨congrArg (fun pending => { t with pending }) ?_, fun _ _ => Iff.rfl⟩
      have hsame : (t.pending.filter fun p => p.id ≠ number).map (fun p =>
          if p.id = number then { p with acknowledged := true } else p) = t.pending.filter fun p => p.id ≠ number :=
        (List.map_congr_left fun p hp => if_neg (hkept p hp)).trans (List.map_id _)
      rw [← hothers] at hsame
      have hmapped := filter_map_of_iff (q := fun p => ¬(p.id = number ∧ p.token = token))
        (p := fun p => ¬(p.id = number ∧ p.token = token)) t.pending
        (f := fun p => if p.id = number then { p with acknowledged := true } else p)
        fun p => by split <;> rfl
      exact (hmapped.trans hsame).symm
  · rw [advance, advance, pending?_release hown]
    rcases t.pending? number with _ | p
    · exact ⟨rfl, fun _ _ => Iff.rfl⟩
    · dsimp only
      split
      · exact ⟨congrArg (fun pending => { t with pending }) (List.filter_comm _ _ _), fun _ _ => Iff.rfl⟩
      · refine ⟨congrArg (fun pending => { t with pending }) ?_, fun _ _ => Iff.rfl⟩
        refine (filter_map_of_iff t.pending fun p => ?_).symm
        split <;> rfl

/-- The queue is served in the same way without a transaction, -/
theorem answer_release (id : UInt8) (token : Nat) (t : Table) :
    (t.release id token).answer = (t.answer.1, t.answer.2.release id token) := by
  obtain ⟨closed, cursor, lastToken, waiters, pending, observers⟩ := t
  cases waiters <;> rfl

/-- and transactions get on in the same way without a place in the queue. -/
theorem advance_forget (number : UInt8) (token : Nat) (t : Table) :
    (t.forget token).advance number = ((t.advance number).1, (t.advance number).2.forget token) := by
  rw [advance, advance, show (t.forget token).pending? number = t.pending? number from rfl]
  rcases t.pending? number with _ | p
  · rfl
  · dsimp only
    split <;> rfl

/-- Everybody else gets what is dispatched whether or not a call is taken out that is being sent. -/
theorem route_retract {c : Client H} (h : c.Sends k) (kind : Message.Kind) :
    (Client.route kind (k.retract c.table)).2 = k.retract (Client.route kind c.table).2 ∧
      ∀ other ≠ k.token, (Client.route kind (k.retract c.table)).1 = some other ↔
        (Client.route kind c.table).1 = some other := by
  cases kind with
  | response =>
    cases hticket : k.ticket <;> simp only [Call.retract, hticket, Client.route]
    · exact answer_forget h.last
    · exact answer_forget h.last
    · rw [answer_release]
      exact ⟨rfl, fun _ _ => Iff.rfl⟩
    · exact absurd hticket h.ticket_ne
  | transaction number =>
    cases hticket : k.ticket <;> simp only [Call.retract, hticket, Client.route]
    · rw [advance_forget]
      exact ⟨rfl, fun _ _ => Iff.rfl⟩
    · rw [advance_forget]
      exact ⟨rfl, fun _ _ => Iff.rfl⟩
    · exact advance_release (h.number _ hticket) number
    · exact absurd hticket h.ticket_ne
  | notice => exact ⟨rfl, fun _ _ => Iff.rfl⟩

end Table

namespace Call

variable {k k' : Call} {t : Table}

/-- Entries of other calls are there whether or not a call is taken out. -/
theorem isHeld_retract (hne : k'.token ≠ k.token) : k'.isHeld (k.retract t) = k'.isHeld t := by
  have hany : ∀ {α : Type} (l : List α) (p q : α → Bool), (∀ a, q a = true → p a = true) →
      (l.filter p).any q = l.any q := by
    intro α l p q himp
    rw [List.any_filter]
    congr 1
    funext a
    cases hq : q a
    · exact Bool.and_false _
    · rw [himp a hq]
      rfl
  rw [isHeld, isHeld, retract]
  cases k.ticket <;> cases k'.ticket <;> first | rfl | exact hany _ _ _ (by simp; grind)

theorem outcome?_retract (hne : k'.token ≠ k.token) : k'.outcome? (k.retract t) = k'.outcome? t := by
  rw [outcome?, outcome?, isHeld_retract hne]

end Call

namespace Client

variable {c : Client H} {k : Call}

@[simp] theorem table_without (c : Client H) (k : Call) : (c.without k).table = k.retract c.table := rfl

@[simp] theorem config_without (c : Client H) (k : Call) : (c.without k).config = c.config := rfl

theorem call?_without (c : Client H) (k : Call) {token : Nat} (hne : token ≠ k.token) :
    (c.without k).call? token = c.call? token := by
  show List.find? _ (List.filter _ _) = _
  rw [List.find?_filter, call?]
  congr 1
  funext k'
  grind

theorem call?_without_self (c : Client H) (k : Call) : (c.without k).call? k.token = none := by
  rw [call?, List.find?_eq_none]
  intro k' hk'
  simpa using (mem_calls_drop.mp hk').2

theorem without_update (c : Client H) (token : Nat) (phase : Phase) :
    (c.update token fun k => { k with phase }).without k = (c.without k).update token fun k => { k with phase } := by
  have hcalls : ((c.update token fun k => { k with phase }).without k).calls
      = ((c.without k).update token fun k => { k with phase }).calls := by
    refine filter_map_of_iff c.calls fun k' => ?_
    split <;> rfl
  exact congrArg (fun calls => { c.without k with calls }) hcalls

theorem without_drop (c : Client H) (token : Nat) : (c.drop token).without k = (c.without k).drop token :=
  congrArg (fun calls => { c.without k with calls }) (List.filter_comm _ _ _)

/-- A call that is being sent neither expires nor withdraws nor returns. -/
theorem Sends.act_self (h : c.Sends k) :
    c.expire k.token = c ∧ c.settle k.token = c ∧ c.collect k.token = (none, c) := by
  rw [expire, settle, collect]
  rcases hcall : c.call? k.token with _ | k'
  · exact ⟨rfl, rfl, rfl⟩
  · obtain ⟨hmem, htoken⟩ := of_call?_eq_some hcall
    have hphase := (h.sending k' hmem htoken).1
    simp [hphase, Call.outcome?]

theorem without_dispatch (h : c.Sends k) (m : Message) : (c.dispatch m).without k = (c.without k).dispatch m := by
  obtain ⟨htable, hreceiver⟩ := Table.route_retract h (m.classify c.config.threshold)
  have htable' : ((c.dispatch m).without k).table = ((c.without k).dispatch m).table := by
    show k.retract { (route (m.classify c.config.threshold) c.table).2 with observers := [] }
      = { (route (m.classify c.config.threshold) (k.retract c.table)).2 with observers := [] }
    rw [htable]
    rcases hticket : k.ticket <;> simp only [Call.retract, hticket] <;> rfl
  have hcalls : ((c.dispatch m).without k).calls = ((c.without k).dispatch m).calls := by
    have htokens : ((fun k' : Call => decide (k'.token ≠ k.token)) ∘ fun k' =>
        if isTold (m.classify c.config.threshold) c.table k'
          then k'.receive (m.summary c.config.threshold) else k') = fun k' => decide (k'.token ≠ k.token) := by
      funext k'
      show decide ((if _ then k'.receive _ else k').token ≠ k.token) = _
      split <;> rfl
    show (c.dispatch m).calls.filter _ = _
    rw [calls_dispatch, calls_dispatch, List.filter_map, htokens]
    refine List.map_congr_left fun k' hk' => ?_
    have hne : k'.token ≠ k.token := by simpa using List.of_mem_filter hk'
    have htold : isTold (m.classify c.config.threshold) (k.retract c.table) k'
        = isTold (m.classify c.config.threshold) c.table k' := by
      rw [isTold, isTold, Table.observers_retract h.ticket_ne]
      exact congrArg (· || _) (decide_eq_decide.mpr (hreceiver _ hne))
    rw [table_without, config_without, htold]
  calc (c.dispatch m).without k
    _ = { (c.without k).dispatch m with
          table := ((c.dispatch m).without k).table, calls := ((c.dispatch m).without k).calls } := rfl
    _ = (c.without k).dispatch m := by rw [htable', hcalls]

theorem without_expire (h : c.Sends k) (token : Nat) : (c.expire token).without k = (c.without k).expire token := by
  by_cases hown : token = k.token
  · subst hown
    rw [h.act_self.1, expire, call?_without_self]
  rw [expire, expire, call?_without c k hown]
  rcases hcall : c.call? token with _ | k'
  · rfl
  have hne : k'.token ≠ k.token := (of_call?_eq_some hcall).2.trans_ne hown
  dsimp only
  rw [table_without, Call.outcome?_retract hne]
  split
  · exact without_update c token .expired
  · rfl

theorem without_settle (h : c.Sends k) (token : Nat) : (c.settle token).without k = (c.without k).settle token := by
  by_cases hown : token = k.token
  · subst hown
    rw [h.act_self.2.1, settle, call?_without_self]
  rw [settle, settle, call?_without c k hown]
  rcases hcall : c.call? token with _ | k'
  · rfl
  dsimp only
  split
  · rw [without_update, table_without, Table.withdraw_retract]
    rfl
  · rfl

theorem without_collect (h : c.Sends k) (token : Nat) :
    ((c.collect token).2).without k = ((c.without k).collect token).2 := by
  by_cases hown : token = k.token
  · subst hown
    rw [h.act_self.2.2, collect, call?_without_self]
    rfl
  rw [collect, collect, call?_without c k hown]
  rcases hcall : c.call? token with _ | k'
  · rfl
  have hne : k'.token ≠ k.token := (of_call?_eq_some hcall).2.trans_ne hown
  rw [Option.bind_some, Option.bind_some, table_without, Call.outcome?_retract hne]
  rcases k'.outcome? c.table with _ | result
  · rfl
  · exact without_drop c token

theorem without_observe (h : c.Sends k) (timeout : Span) :
    ((c.observe timeout).2).without k = ((c.without k).observe timeout).2 := by
  have hclosed : (c.without k).table.closed = c.table.closed := Table.closed_retract k c.table
  have hlast : (c.without k).table.lastToken = c.table.lastToken := (Table.trims_retract k c.table).lastToken_eq
  rw [observe, observe, hclosed]
  split
  · rfl
  · -- who begins to wait has another token
    have hne : c.table.lastToken + 1 ≠ k.token := by
      have hle := h.token_le
      omega
    have htable : k.retract (c.table.issue.2.observe c.table.issue.1)
        = (c.without k).table.issue.2.observe (c.without k).table.issue.1 := by
      rw [Table.issue, Table.issue, hlast, table_without]
      rcases hticket : k.ticket <;> simp only [Call.retract, hticket, Table.observe]
      · rfl
      · rfl
      · rfl
      · exact absurd hticket h.ticket_ne
    have hcalls : ∀ k' : Call, k'.token = c.table.lastToken + 1 →
        (c.calls ++ [k']).filter (fun k' => k'.token ≠ k.token) = (c.without k).calls ++ [k'] := by
      intro k' hk'
      have hkept : decide (k'.token ≠ k.token) = true := decide_eq_true (hk' ▸ hne)
      rw [List.filter_append, List.filter_singleton, hkept]
      rfl
    have hissue : (c.without k).table.issue.1 = c.table.issue.1 := congrArg (· + 1) hlast
    refine Eq.trans (b := { c.without k with
      table := k.retract (c.table.issue.2.observe c.table.issue.1)
      calls := (c.calls ++ [(⟨c.table.issue.1, .observation, 0, timeout, .waiting, none⟩ : Call)]).filter
        fun k' => k'.token ≠ k.token }) rfl ?_
    rw [htable, hcalls _ rfl, ← hissue]

theorem without_close (c : Client H) (k : Call) : c.close.without k = (c.without k).close := by
  have htable : k.retract c.table.close = (k.retract c.table).close := by
    rcases hticket : k.ticket <;> simp only [Call.retract, hticket] <;> rfl
  exact congrArg (fun table => { c.without k with table }) htable

theorem without_handleNext (c : Client H) (k : Call) : c.handleNext.without k = (c.without k).handleNext := by
  rw [handleNext, handleNext, show (c.without k).notices = c.notices from rfl]
  rcases c.notices with _ | ⟨m, rest⟩
  · rfl
  · dsimp only
    rw [handle, handle, show ({ c.without k with notices := rest } : Client H).handler? m.command
      = ({ c with notices := rest } : Client H).handler? m.command from rfl]
    rcases ({ c with notices := rest } : Client H).handler? m.command with _ | handler <;> rfl

/-- Whatever the others do, they do it in the same way without a call that is being sent. -/
theorem without_act (h : c.Sends k) (a : Action H) : (c.act a).without k = (c.without k).act a := by
  cases a with
  | observe timeout => exact without_observe h timeout
  | expire token => exact without_expire h token
  | settle token => exact without_settle h token
  | collect token => exact without_collect h token
  | dispatch m => exact without_dispatch h m
  | close => exact without_close c k
  | handle => exact without_handleNext c k
  | _ => rfl

/-- No call gets on that has not got the writer, but those that are not being sent. -/
theorem sending_act (h : c.Sends k) (a : Action H) :
    ∀ k' ∈ (c.act a).calls, k'.token = k.token → k'.phase = .sending ∧ k'.ticket = k.ticket := by
  intro k' hk' htoken
  cases a with
  | observe timeout =>
    rw [act, observe] at hk'
    split at hk'
    · exact h.sending k' hk' htoken
    · obtain hmem | hmem := List.mem_append.mp hk'
      · exact h.sending k' hmem htoken
      · have hle := h.token_le
        rw [List.mem_singleton.mp hmem] at htoken
        have hnew : c.table.lastToken + 1 = k.token := htoken
        omega
  | expire token =>
    by_cases hown : token = k.token
    · rw [act, hown, h.act_self.1] at hk'
      exact h.sending k' hk' htoken
    · rw [act, expire] at hk'
      split at hk'
      · split at hk'
        · exact h.sending k' (mem_calls_of_update_ne hk' (htoken.trans_ne (Ne.symm hown))) htoken
        · exact h.sending k' hk' htoken
      · exact h.sending k' hk' htoken
  | settle token =>
    by_cases hown : token = k.token
    · rw [act, hown, h.act_self.2.1] at hk'
      exact h.sending k' hk' htoken
    · rw [act, settle] at hk'
      split at hk'
      · split at hk'
        · exact h.sending k' (mem_calls_of_update_ne hk' (htoken.trans_ne (Ne.symm hown))) htoken
        · exact h.sending k' hk' htoken
      · exact h.sending k' hk' htoken
  | collect token =>
    rw [act, collect] at hk'
    split at hk'
    · exact h.sending k' (mem_calls_drop.mp hk').1 htoken
    · exact h.sending k' hk' htoken
  | dispatch m =>
    obtain ⟨k₀, hk₀, hsame, hticket, hphase, -⟩ := of_mem_calls_dispatch hk'
    rw [hticket, hphase]
    exact h.sending k₀ hk₀ (hsame.symm.trans htoken)
  | handle =>
    rw [act, c.handleNext_frame.2.1] at hk'
    exact h.sending k' hk' htoken
  | _ => exact h.sending k' hk' htoken

/-- A call is being sent until its request is written. -/
theorem Sends.act (h : c.Sends k) (a : Action H) : (c.act a).Sends k := by
  obtain ⟨hlast, hwaiters, hpending⟩ := Table.shrinks_act c a
  refine ⟨h.token_le.trans hlast, h.ticket_ne, sending_act h a, h.last.sublist hwaiters, ?_⟩
  · intro id hticket p hp hid
    have hlabel : (p.id, p.token) ∈ (c.act a).table.pending.map fun p => (p.id, p.token) := List.mem_map_of_mem hp
    obtain ⟨p₀, hp₀, heq⟩ := List.mem_map.mp (hpending.subset hlabel)
    obtain ⟨hid₀, htoken₀⟩ := Prod.mk.inj heq
    rw [← htoken₀]
    exact h.number id hticket p₀ hp₀ (hid₀.trans hid)

/-! ## Numbers -/

/-- A client whose last number is another one. -/
def atCursor (cursor : UInt8) (c : Client H) : Client H :=
  { c with table := { c.table with cursor } }

theorem route_atCursor (cursor : UInt8) (kind : Message.Kind) (t : Table) :
    route kind { t with cursor } = ((route kind t).1, { (route kind t).2 with cursor }) := by
  cases kind with
  | response =>
    obtain ⟨closed, _, lastToken, waiters, pending, observers⟩ := t
    cases waiters <;> rfl
  | transaction id =>
    rw [route, route, Table.advance, Table.advance,
      show ({ t with cursor } : Table).pending? id = t.pending? id from rfl]
    rcases t.pending? id with _ | p
    · rfl
    · dsimp only
      split <;> rfl
  | notice => rfl

/-- Only whoever begins a transaction asks for the last number. -/
theorem act_atCursor (cursor : UInt8) (c : Client H) (a : Action H) :
    (c.atCursor cursor).act a = (c.act a).atCursor cursor := by
  have hcall : ∀ token, (c.atCursor cursor).call? token = c.call? token := fun _ => rfl
  have houtcome : ∀ k : Call, k.outcome? (c.atCursor cursor).table = k.outcome? c.table := fun _ => rfl
  cases a with
  | observe timeout =>
    rw [act, act, observe, observe, show (c.atCursor cursor).table.closed = c.table.closed from rfl]
    split <;> rfl
  | expire token =>
    rw [act, act, expire, expire, hcall]
    rcases c.call? token with _ | k
    · rfl
    · dsimp only
      rw [houtcome]
      split <;> rfl
  | settle token =>
    rw [act, act, settle, settle, hcall]
    rcases c.call? token with _ | k
    · rfl
    · dsimp only
      split
      · rcases hticket : k.ticket <;> simp only [Call.withdraw, hticket] <;> rfl
      · rfl
  | collect token =>
    rw [act, act, collect, collect, hcall, show (fun k : Call => k.outcome? (c.atCursor cursor).table)
      = fun k => k.outcome? c.table from rfl]
    rcases (c.call? token).bind fun k => k.outcome? c.table with _ | result <;> rfl
  | dispatch m =>
    have hroute : route (m.summary c.config.threshold).kind (c.atCursor cursor).table
        = ((route (m.summary c.config.threshold).kind c.table).1,
          { (route (m.summary c.config.threshold).kind c.table).2 with cursor }) := route_atCursor cursor _ c.table
    rw [act, act, dispatch, dispatch, show (c.atCursor cursor).config = c.config from rfl]
    simp only [hroute]
    rfl
  | handle =>
    rw [act, act, handleNext, handleNext, show (c.atCursor cursor).notices = c.notices from rfl]
    rcases c.notices with _ | ⟨m, rest⟩
    · rfl
    · dsimp only
      rw [handle, handle, show ({ c.atCursor cursor with notices := rest } : Client H).handler? m.command
        = ({ c with notices := rest } : Client H).handler? m.command from rfl]
      rcases ({ c with notices := rest } : Client H).handler? m.command with _ | handler <;> rfl
  | _ => rfl

theorem act_rename {ν : Renaming} (h : ν.Next c.table.lastToken) (a : Action H) :
    (c.rename ν).act (a.rename ν) = (c.act a).rename ν := by
  cases a with
  | observe timeout => exact congrArg Prod.snd (observe_rename fun _ => h)
  | expire token => exact expire_rename token
  | settle token => exact settle_rename token
  | collect token => exact congrArg Prod.snd (collect_rename token)
  | dispatch m => exact dispatch_rename m
  | handle => exact handleNext_rename
  | _ => rfl

end Client

end Wwan
