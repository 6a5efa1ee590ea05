import Wwan.Proofs.Client.Without

/-!
# Calls whose requests could not be sent

A call enters the table before its request is written, and it is taken out again when that fails.  Whatever
happens in between, it would have happened in the same way without the call (`Client.without_foldl`), so
nothing is left of the call but the number it was given (`Run.unsent_leaves_no_trace`).
-/

namespace Wwan

variable {H : Type}

/-! ## Runs with a call and without it -/

/-- The names of calls when one more token has been given out behind a number. -/
def Renaming.skip (n : Nat) : Renaming where
  token token := if token ≤ n then token else token + 1
  injective := by
    intro a b h
    dsimp only at h
    split at h <;> split at h <;> omega
  last token := token + 1

theorem Renaming.next_skip {n token : Nat} (h : n ≤ token) : (skip n).Next token where
  token_eq := if_neg (by omega)
  last_eq := rfl

theorem Renaming.token_skip_of_le {n token : Nat} (h : token ≤ n) : (skip n).token token = token :=
  if_pos h

/-- A token where another one has not been given out. -/
def tokenBesides (token other : Nat) : Option Nat :=
  if other = token then none else some (if other < token then other else other - 1)

/-- An action where a call has not begun.  What is about that call is left out, and so is every call that
waits for the writer. -/
def Action.besides (token : Nat) : Action H → Option (Action H)
  | .start _ _ _ _ | .write => none
  | .expire other => (tokenBesides token other).map .expire
  | .settle other => (tokenBesides token other).map .settle
  | .collect other => (tokenBesides token other).map .collect
  | .observe timeout => some (.observe timeout)
  | .dispatch m => some (.dispatch m)
  | .close => some .close
  | .handle => some .handle
  | .register command handler => some (.register command handler)
  | .unregister command => some (.unregister command)

theorem Action.of_besides_eq_some {token : Nat} {a a' : Action H} (h : a.besides token = some a') :
    a' ≠ .write ∧ ∀ p command body timeout, a' ≠ .start p command body timeout := by
  cases a <;> simp only [besides, Option.map_eq_some_iff, reduceCtorEq, Option.some.injEq] at h <;> grind

theorem tokenBesides_eq_some {n other token : Nat} (h : tokenBesides (n + 1) other = some token) :
    (Renaming.skip n).token token = other := by
  rw [tokenBesides] at h
  show (if token ≤ n then token else token + 1) = other
  grind

theorem tokenBesides_eq_none {token other : Nat} (h : tokenBesides token other = none) : other = token := by
  rw [tokenBesides] at h
  grind

namespace Client

variable {c q : Client H} {k : Call} {n : Nat}

/-- Where a call has been taken out, what is about that call changes nothing, and what is not goes by other
names. -/
theorem act_besides (c : Client H) (hk : k.token = n + 1) (a : Action H) :
    (∃ a', a.besides k.token = some a' ∧ a = a'.rename (Renaming.skip n)) ∨
    (a.besides k.token = none ∧ (c.without k).act a = c.without k) := by
  have hnone := call?_without_self c k
  rw [hk] at *
  cases a with
  | expire other =>
    rcases hother : tokenBesides (n + 1) other with _ | token
    · refine .inr ⟨by rw [Action.besides, hother]; rfl, ?_⟩
      rw [act, tokenBesides_eq_none hother, expire, hnone]
    · refine .inl ⟨.expire token, by rw [Action.besides, hother]; rfl, ?_⟩
      rw [Action.rename, tokenBesides_eq_some hother]
  | settle other =>
    rcases hother : tokenBesides (n + 1) other with _ | token
    · refine .inr ⟨by rw [Action.besides, hother]; rfl, ?_⟩
      rw [act, tokenBesides_eq_none hother, settle, hnone]
    · refine .inl ⟨.settle token, by rw [Action.besides, hother]; rfl, ?_⟩
      rw [Action.rename, tokenBesides_eq_some hother]
  | collect other =>
    rcases hother : tokenBesides (n + 1) other with _ | token
    · refine .inr ⟨by rw [Action.besides, hother]; rfl, ?_⟩
      rw [act, tokenBesides_eq_none hother, collect, hnone]
      rfl
    · refine .inl ⟨.collect token, by rw [Action.besides, hother]; rfl, ?_⟩
      rw [Action.rename, tokenBesides_eq_some hother]
  | start p command body timeout => exact .inr ⟨rfl, rfl⟩
  | write => exact .inr ⟨rfl, rfl⟩
  | _ => exact .inl ⟨_, rfl, rfl⟩

theorem shrinks_foldl (c : Client H) (actions : List (Action H)) :
    (actions.foldl act c).table.Shrinks c.table := by
  induction actions generalizing c with
  | nil => exact c.table.shrinks_refl
  | cons a actions ih => exact (ih (c.act a)).trans (Table.shrinks_act c a)

theorem Sends.foldl (h : c.Sends k) (actions : List (Action H)) : (actions.foldl Client.act c).Sends k := by
  induction actions generalizing c with
  | nil => exact h
  | cons a actions ih => exact ih (h.act a)

/-- A client with a call that is being sent and one where it has not begun stay the same but for this call. -/
theorem without_foldl (h : c.Sends k) (hk : k.token = n + 1) (hlast : n ≤ q.table.lastToken) {cursor : UInt8}
    (hsame : c.without k = (q.rename (Renaming.skip n)).atCursor cursor) (actions : List (Action H)) :
    (actions.foldl act c).without k
      = (((actions.filterMap (Action.besides k.token)).foldl act q).rename (Renaming.skip n)).atCursor cursor := by
  induction actions generalizing c q with
  | nil => exact hsame
  | cons a actions ih =>
    obtain ⟨a', hbesides, ha⟩ | ⟨hbesides, hidle⟩ := act_besides c hk a
    · have hnext : (c.act a).without k = ((q.act a').rename (Renaming.skip n)).atCursor cursor := by
        rw [without_act h, hsame, act_atCursor, ha, act_rename (Renaming.next_skip hlast)]
      rw [List.filterMap_cons_some hbesides]
      exact ih (h.act a) (hlast.trans (Table.shrinks_act q a').lastToken_le) hnext
    · rw [List.filterMap_cons_none hbesides]
      exact ih (h.act a) hlast ((without_act h a).trans (hidle.trans hsame))

end Client

namespace Run

/-- A step that has nothing to do with the writer. -/
structure Aside (r r' : Run H) (a : Action H) : Prop where
  client_eq : r'.client = r.client.act a
  draft_eq : r'.draft = r.draft
  sink_eq : r'.sink = r.sink

theorem aside_step (r : Run H) {a : Action H} (hwrite : a ≠ .write)
    (hstart : ∀ p command body timeout, a = .start p command body timeout → r.draft.isSome) :
    r.Aside (r.step a) a := by
  cases a with
  | start p command body timeout =>
    have hidle : r.step (.start p command body timeout) = r := if_pos (hstart _ _ _ _ rfl)
    rw [hidle]
    exact ⟨rfl, rfl, rfl⟩
  | write => exact absurd rfl hwrite
  | observe timeout =>
    show r.Aside (r.observe timeout) _
    rw [observe]
    rcases hobserve : r.client.observe timeout with ⟨e | k, c⟩ <;>
      exact ⟨by rw [Client.act, hobserve], rfl, rfl⟩
  | expire token =>
    show r.Aside (r.expire token) _
    rw [expire]
    rcases hcall : r.client.call? token with _ | k
    · exact ⟨by rw [Client.act, Client.expire, hcall], rfl, rfl⟩
    · dsimp only
      split
      · exact ⟨rfl, rfl, rfl⟩
      · next hwait => exact ⟨by simp only [Client.act, Client.expire, hcall, if_neg hwait], rfl, rfl⟩
  | settle token =>
    show r.Aside (r.settle token) _
    rw [settle]
    rcases hcall : r.client.call? token with _ | k
    · exact ⟨by rw [Client.act, Client.settle, hcall], rfl, rfl⟩
    · dsimp only
      split
      · exact ⟨rfl, rfl, rfl⟩
      · next hphase => exact ⟨by simp only [Client.act, Client.settle, hcall, if_neg hphase], rfl, rfl⟩
  | collect token =>
    show r.Aside (r.collect token) _
    rw [collect]
    rcases hcollect : r.client.collect token with ⟨_ | result, c⟩
    · refine ⟨?_, rfl, rfl⟩
      rw [Client.act, hcollect]
      rw [Client.collect] at hcollect
      split at hcollect <;> cases hcollect
      rfl
    · exact ⟨by rw [Client.act, hcollect], rfl, rfl⟩
  | _ => exact ⟨rfl, rfl, rfl⟩

/-- As long as a request is being written, everybody else who needs the writer waits. -/
theorem foldl_of_held {r : Run H} (hdraft : r.draft.isSome) {actions : List (Action H)}
    (hwrite : .write ∉ actions) : (actions.foldl step r).client = actions.foldl Client.act r.client ∧
      (actions.foldl step r).draft = r.draft ∧ (actions.foldl step r).sink = r.sink := by
  induction actions generalizing r with
  | nil => exact ⟨rfl, rfl, rfl⟩
  | cons a actions ih =>
    obtain ⟨hclient, hheld, hsink⟩ :=
      r.aside_step (Ne.symm (List.ne_of_not_mem_cons hwrite)) fun _ _ _ _ _ => hdraft
    obtain ⟨hclient', hdraft', hsink'⟩ := ih (r := r.step a) (hheld ▸ hdraft) (List.not_mem_of_not_mem_cons hwrite)
    rw [hclient] at hclient'
    exact ⟨hclient', hdraft'.trans hheld, hsink'.trans hsink⟩

/-- Where a call has not begun, nobody needs the writer. -/
theorem foldl_besides (r : Run H) (token : Nat) (actions : List (Action H)) :
    ((actions.filterMap (Action.besides token)).foldl step r).client
      = (actions.filterMap (Action.besides token)).foldl Client.act r.client := by
  induction actions generalizing r with
  | nil => rfl
  | cons a actions ih =>
    rcases hbesides : a.besides token with _ | a'
    · rw [List.filterMap_cons_none hbesides]
      exact ih r
    · obtain ⟨hwrite, hstart⟩ := Action.of_besides_eq_some hbesides
      have haside := r.aside_step hwrite fun p command body timeout h => absurd h (hstart p command body timeout)
      rw [List.filterMap_cons_some hbesides, List.foldl_cons, List.foldl_cons, ih, haside.client_eq]

end Run

/-! ### A call that begins -/

/-- A call that has just entered the table can be taken out again. -/
theorem Table.retract_enroll {t : Table} {k : Call} (hticket : k.ticket ≠ .observation)
    (hwaiters : ∀ w ∈ t.waiters, w.token ≠ k.token) (hpending : ∀ p ∈ t.pending, p.token ≠ k.token) :
    k.retract (Table.enroll k.token k.ticket t) = t := by
  have hqueue : ∀ attended : Bool,
      (t.waiters ++ [Waiter.mk k.token attended]).filter (fun w => w.token ≠ k.token) = t.waiters := by
    intro attended
    rw [List.filter_append, List.filter_eq_self.mpr fun w hw => decide_eq_true (hwaiters w hw),
      List.filter_cons_of_neg (by simp)]
    exact List.append_nil _
  rcases h : k.ticket with _ | _ | id | _ <;> simp only [Call.retract, h, Table.enroll]
  · exact congrArg (fun waiters => { t with waiters }) (hqueue true)
  · exact congrArg (fun waiters => { t with waiters }) (hqueue false)
  · have hothers : t.pending.filter (fun p => ¬(p.id = id ∧ p.token = k.token)) = t.pending :=
      List.filter_eq_self.mpr fun p hp => decide_eq_true fun hc => hpending p hp hc.2
    refine congrArg (fun pending => { t with pending }) ?_
    rw [Table.start, List.filter_append, hothers, List.filter_cons_of_neg (by simp)]
    exact List.append_nil _
  · exact absurd h hticket

theorem Table.lastToken_enroll (token : Nat) (ticket : Ticket) (t : Table) :
    (Table.enroll token ticket t).lastToken = t.lastToken := by
  cases ticket <;> rfl

/-- A call that has just entered the table has nobody behind it. -/
theorem Table.pairwise_enroll {t : Table} {token : Nat} (ticket : Ticket)
    (hwaiters : ∀ w ∈ t.waiters, w.token ≠ token) :
    ((Table.enroll token ticket t).waiters.map Waiter.token).Pairwise fun first _ => first ≠ token := by
  have hqueue : (t.waiters.map Waiter.token).Pairwise fun first _ => first ≠ token :=
    List.pairwise_map.mpr (List.pairwise_of_forall_mem_list fun w hw _ _ => hwaiters w hw)
  have hbehind : ∀ attended : Bool, ((t.waiters ++ [Waiter.mk token attended]).map Waiter.token).Pairwise
      fun first _ => first ≠ token := by
    intro attended
    rw [List.map_append, List.pairwise_append]
    refine ⟨hqueue, List.pairwise_singleton _ _, fun first hfirst _ _ => ?_⟩
    obtain ⟨w, hw, rfl⟩ := List.mem_map.mp hfirst
    exact hwaiters w hw
  cases ticket with
  | answer => exact hbehind true
  | oneWay => exact hbehind false
  | _ => exact hqueue

/-- No place in the queue has another name when a later token is skipped, -/
theorem Table.waiters_rename_skip {t : Table} {n : Nat} (h : ∀ w ∈ t.waiters, w.token ≤ n) :
    (t.rename (Renaming.skip n)).waiters = t.waiters := by
  refine (List.map_congr_left fun w hw => ?_).trans (List.map_id _)
  rw [Waiter.rename, Renaming.token_skip_of_le (h w hw)]
  rfl

/-- and no transaction. -/
theorem Table.pending_rename_skip {t : Table} {n : Nat} (h : ∀ p ∈ t.pending, p.token ≤ n) :
    (t.rename (Renaming.skip n)).pending = t.pending := by
  refine (List.map_congr_left fun p hp => ?_).trans (List.map_id _)
  rw [Pending.rename, Renaming.token_skip_of_le (h p hp)]
  rfl

namespace Client

variable {c : Client H}

theorem Consistent.pending_le (h : c.Consistent) {p : Pending} (hp : p ∈ c.table.pending) :
    p.token ≤ c.table.lastToken :=
  h.holds_le (show c.table.Holds p.token (.transaction p.id) from ⟨p, hp, rfl, rfl⟩)

/-- No call has another name when the next token is skipped. -/
theorem Consistent.rename_skip (h : c.Consistent) : c.rename (Renaming.skip c.table.lastToken)
    = { c with table := { c.table with lastToken := c.table.lastToken + 1 } } := by
  let ν := Renaming.skip c.table.lastToken
  have hcalls : c.calls.map (Call.rename ν) = c.calls := by
    refine (List.map_congr_left fun k hk => ?_).trans (List.map_id _)
    rw [Call.rename, Renaming.token_skip_of_le (h.call_le k hk)]
    rfl
  have hobservers : (c.table.rename ν).observers = c.table.observers := by
    refine (List.map_congr_left fun token htoken => ?_).trans (List.map_id _)
    exact Renaming.token_skip_of_le (h.holds_le (show c.table.Holds token .observation from htoken))
  calc c.rename ν
    _ = { c with
          calls := c.calls.map (Call.rename ν)
          table := { c.table with
            lastToken := c.table.lastToken + 1
            waiters := (c.table.rename ν).waiters
            pending := (c.table.rename ν).pending
            observers := (c.table.rename ν).observers } } := rfl
    _ = { c with table := { c.table with lastToken := c.table.lastToken + 1 } } := by
      rw [hcalls, Table.waiters_rename_skip h.waiter_le, Table.pending_rename_skip fun p hp => h.pending_le hp,
        hobservers]

end Client

namespace Run

/-- A call that has begun is being sent, and without it the client is as it was before but for the numbers that
were given out. -/
theorem sends_start {r : Run H} (hc : r.client.Consistent) (hfree : r.draft = none) {p : Purpose}
    {command : UInt32} {body : Bytes} {timeout : Span} {token : Nat} {request : Request}
    (hbegun : (r.step (.start p command body timeout)).draft = some (token, request)) :
    token = r.client.table.lastToken + 1 ∧ ∃ k : Call, k.token = token ∧
      (r.step (.start p command body timeout)).client.Sends k ∧ ∃ cursor,
      (r.step (.start p command body timeout)).client.without k
        = (r.client.rename (Renaming.skip r.client.table.lastToken)).atCursor cursor := by
  have hfree' : ¬r.draft.isSome := by rw [hfree]; exact Bool.false_ne_true
  rw [step, start, if_neg hfree'] at hbegun ⊢
  obtain ⟨e, cursor, hbegin⟩ | ⟨k, cursor, hbegin, htoken, -, hphase, hticket, -, hnumber⟩ :=
    r.client.begin_cases p command timeout
  · simp only [hbegin, hfree] at hbegun
    cases hbegun
  simp only [hbegin] at hbegun ⊢
  obtain ⟨htoken', -⟩ := Prod.mk.inj (Option.some.inj hbegun)
  have hlt : r.client.table.lastToken < k.token := by omega
  have hcalls : ∀ k' ∈ r.client.calls, k'.token ≠ k.token :=
    fun k' hk' => ((hc.call_le k' hk').trans_lt hlt).ne
  have hwaiters : ∀ w ∈ r.client.table.waiters, w.token ≠ k.token :=
    fun w hw => ((hc.waiter_le w hw).trans_lt hlt).ne
  have hpending : ∀ p ∈ r.client.table.pending, p.token ≠ k.token :=
    fun p hp => ((hc.pending_le hp).trans_lt hlt).ne
  refine ⟨htoken'.symm.trans htoken, k, htoken', ?_, cursor, ?_⟩
  · constructor
    · rw [Table.lastToken_enroll]
    · exact hticket
    · intro k' hk' hsame
      obtain hmem | hmem := List.mem_append.mp hk'
      · exact absurd hsame (hcalls k' hmem)
      · rw [List.mem_singleton.mp hmem]
        exact ⟨hphase, rfl⟩
    · exact Table.pairwise_enroll _ hwaiters
    · intro id hid q hq hsame
      obtain hmem | ⟨-, hq⟩ := Table.mem_pending_enroll.mp hq
      · -- the number was free
        have hnone := (hnumber id hid).2
        rw [Table.pending?_eq_none_iff] at hnone
        exact absurd (List.mem_map.mpr ⟨q, hmem, hsame⟩) hnone
      · rw [hq]
  · have htable := Table.retract_enroll (t := { r.client.table with lastToken := k.token, cursor }) hticket
      hwaiters hpending
    have hdropped : (r.client.calls ++ [k]).filter (fun k' => k'.token ≠ k.token) = r.client.calls := by
      rw [List.filter_append, List.filter_eq_self.mpr fun k' hk' => decide_eq_true (hcalls k' hk'),
        List.filter_cons_of_neg (by simp)]
      exact List.append_nil _
    rw [hc.rename_skip, ← htoken]
    show Client.mk _ (k.retract _) (List.filter _ _) _ _ _ = _
    rw [htable, hdropped]
    rfl

/-- A call whose request cannot be written is taken out. -/
theorem unsent_eq_without {r : Run H} (hr : r.Sound) {k : Call} {request : Request}
    (hk : r.client.Sends k) (hdraft : r.draft = some (k.token, request)) :
    r.client.unsent k.token = r.client.without k := by
  obtain ⟨k', hmem, htoken, -⟩ := hr.ledger.drafted k.token request hdraft
  have hticket : k'.ticket = k.ticket := (hk.sending k' hmem htoken).2
  have hretract : k'.retract = k.retract := by
    funext t
    rw [Call.retract, Call.retract, hticket, htoken]
  rw [← htoken, hr.consistent.unsent_eq hmem, hretract, Client.without, htoken]

section Unsent

variable {r : Run H} {meanwhile : List (Action H)} {p : Purpose} {command : UInt32} {body : Bytes} {timeout : Span}
  {token : Nat} {request : Request} {e : CallError} {s : Sink}

theorem sink_start (p : Purpose) (command : UInt32) (body : Bytes) (timeout : Span) (r : Run H) :
    (r.start p command body timeout).sink = r.sink := by
  rw [start]
  split
  · rfl
  · split <;> rfl

/-- A call whose request could not be written has returned the error, and the client is as it is without the
call but for the numbers. -/
theorem write_of_begun (hr : r.Sound) (hfree : r.draft = none)
    (hbegun : (r.step (.start p command body timeout)).draft = some (token, request)) (hheld : .write ∉ meanwhile)
    (hfails : Outbox.send r.client.config.maxMessage request r.sink = (.error e, s)) :
    token = r.client.table.lastToken + 1 ∧
    [.unwritten token, .returned token (.error e)]
      <:+ (meanwhile.foldl step (r.step (.start p command body timeout))).write.log ∧
    ∃ cursor, (meanwhile.foldl step (r.step (.start p command body timeout))).write.client
      = (((meanwhile.filterMap (Action.besides token)).foldl step r).client.rename
          (Renaming.skip r.client.table.lastToken)).atCursor cursor := by
  obtain ⟨htoken, k, rfl, hsends, cursor, hsame⟩ := sends_start hr.consistent hfree hbegun
  -- while the request is being written, the call is taken along
  obtain ⟨hclient, hdraft, hsink⟩ := foldl_of_held (by rw [hbegun]; rfl) hheld
  have hsound := (hr.step (.start p command body timeout)).foldl meanwhile
  have hconfig := (config_foldl (r.step (.start p command body timeout)) meanwhile).trans (move_step r _).config_eq
  generalize meanwhile.foldl step (r.step (.start p command body timeout)) = held at *
  have hwithout : held.client.without k
      = (((meanwhile.filterMap (Action.besides k.token)).foldl Client.act r.client).rename
          (Renaming.skip r.client.table.lastToken)).atCursor cursor := by
    rw [hclient]
    exact Client.without_foldl hsends htoken le_rfl hsame meanwhile
  -- then it is taken out
  have hwritten : held.write = _ := write_of_error (hdraft.trans hbegun)
    (by rw [hconfig, hsink, step, sink_start]; exact hfails)
  rw [hwritten, foldl_besides]
  refine ⟨htoken, List.suffix_append _ _, cursor, ?_⟩
  exact (unsent_eq_without hsound (hclient ▸ hsends.foldl meanwhile) (hdraft.trans hbegun)).trans hwithout

/-- Where nobody begins a call, no later token is in the table. -/
theorem le_foldl_besides (hc : r.client.Consistent) (token : Nat) (actions : List (Action H)) :
    (∀ w ∈ ((actions.filterMap (Action.besides token)).foldl step r).client.table.waiters,
      w.token ≤ r.client.table.lastToken) ∧
    ∀ p ∈ ((actions.filterMap (Action.besides token)).foldl step r).client.table.pending,
      p.token ≤ r.client.table.lastToken := by
  rw [foldl_besides]
  obtain ⟨-, hwaiters, hpending⟩ :=
    Client.shrinks_foldl r.client (actions.filterMap (Action.besides token))
  constructor
  · intro w hw
    obtain ⟨w₀, hw₀, hsame⟩ := List.mem_map.mp (hwaiters.subset (List.mem_map_of_mem hw))
    exact hsame ▸ hc.waiter_le w₀ hw₀
  · intro p hp
    obtain ⟨p₀, hp₀, hsame⟩ := List.mem_map.mp (hpending.subset (List.mem_map_of_mem hp))
    exact (Prod.mk.inj hsame).2 ▸ hc.pending_le hp₀

end Unsent

/-- A call whose request cannot be sent leaves no trace, whatever kind of call it is, whatever has happened
before and whatever the others do while its request is being written.  It returns the error; its token is
nowhere in the queue or among the transactions, which are the same as in the run without the call; and so is
everything else of the client but for the numbers: a token that was given out since is one higher, and the
last number of a transaction may be that of the call.  In the run without the call everybody else does the
same, while those who wait for the writer in the meantime have not begun in either run. -/
theorem unsent_leaves_no_trace {config : ClientConfig} {sink s : Sink} {past meanwhile : List (Action H)}
    {p : Purpose} {command : UInt32} {body : Bytes} {timeout : Span} {token : Nat} {request : Request}
    {e : CallError} (hfree : (after config sink past).draft = none)
    (hbegun : (after config sink (past ++ [.start p command body timeout])).draft = some (token, request))
    (hheld : .write ∉ meanwhile)
    (hfails : Outbox.send config.maxMessage request (after config sink past).sink = (.error e, s)) :
    let r := after config sink (past ++ .start p command body timeout :: meanwhile ++ [.write])
    let q := after config sink (past ++ meanwhile.filterMap (Action.besides token))
    [.unwritten token, .returned token (.error e)] <:+ r.log ∧
    (∀ w ∈ r.client.table.waiters, w.token ≠ token) ∧
    (∀ p ∈ r.client.table.pending, p.token ≠ token) ∧
    r.client.table.waiters = q.client.table.waiters ∧
    r.client.table.pending = q.client.table.pending ∧
    ∃ cursor, r.client
      = (q.client.rename (Renaming.skip (after config sink past).client.table.lastToken)).atCursor cursor := by
  intro r q
  have hr : r = (meanwhile.foldl step ((after config sink past).step (.start p command body timeout))).write := by
    show after _ _ _ = _
    rw [after_append_singleton, after_append]
    rfl
  have hq : q = (meanwhile.filterMap (Action.besides token)).foldl step (after config sink past) :=
    after_append _ _ _ _
  have hsound : (after config sink past).Sound := sound_after config sink past
  have hconfig : (after config sink past).client.config = config := config_after config sink past
  rw [after_append_singleton] at hbegun
  have hfails' : Outbox.send (after config sink past).client.config.maxMessage request (after config sink past).sink
      = (.error e, s) := by
    rw [hconfig]
    exact hfails
  obtain ⟨htoken, hlog, cursor, hclient⟩ := write_of_begun hsound hfree hbegun hheld hfails'
  obtain ⟨hwaiters, hpending⟩ := le_foldl_besides hsound.consistent token meanwhile
  rw [← hr] at hlog hclient
  rw [← hq] at hclient hwaiters hpending
  have hqueue : r.client.table.waiters = q.client.table.waiters := by
    rw [hclient]
    exact Table.waiters_rename_skip hwaiters
  have hnumbers : r.client.table.pending = q.client.table.pending := by
    rw [hclient]
    exact Table.pending_rename_skip hpending
  refine ⟨hlog, ?_, ?_, hqueue, hnumbers, cursor, hclient⟩
  · intro w hw
    have hle := hwaiters w (hqueue ▸ hw)
    omega
  · intro p hp
    have hle := hpending p (hnumbers ▸ hp)
    omega

/-- Two calls that wait for an answer. -/
def twoCalls : List (Action Unit) :=
  [.start .answer 1 [] ⟨5⟩, .write, .start .answer 2 [] ⟨5⟩, .write]

/-- What happens while another request is being written: the first of the two calls is answered, the wait of the
second one is over, somebody begins to wait for the next message, and somebody else waits for the writer. -/
def bustle : List (Action Unit) :=
  [.dispatch ⟨16, 16, 1, syncWord, []⟩, .observe ⟨5⟩, .expire 2, .settle 2, .start .oneWay 9 [] ⟨5⟩]

/-- A sink that takes two requests. -/
def shortSink : Sink where
  writes := [.atMost 100, .atMost 100, .fault .brokenPipe]

theorem unsent_leaves_no_trace_bustle :
    let r := after {} shortSink (twoCalls ++ .start .transaction 3 [] ⟨5⟩ :: bustle ++ [.write])
    let q := after {} shortSink (twoCalls ++ bustle.filterMap (Action.besides 3))
    [.unwritten 3, .returned 3 (.error .channelClosed)] <:+ r.log ∧
    r.client.table.waiters = q.client.table.waiters ∧ q.client.table.waiters = [⟨2, false⟩] ∧
    r.client.table.pending = q.client.table.pending ∧ q.client.table.observers = [3] := by
  have hfree : (after {} shortSink twoCalls).draft = none := by decide +kernel
  have hbegun : (after {} shortSink (twoCalls ++ [.start .transaction 3 [] ⟨5⟩])).draft
      = some (3, ⟨3, some 1, []⟩) := by decide +kernel
  have hfails : (Outbox.send 65536 ⟨3, some 1, []⟩ (after {} shortSink twoCalls).sink).1
      = .error .channelClosed := by decide +kernel
  have hheld : Action.write ∉ bustle := by simp [bustle]
  obtain ⟨hlog, -, -, hwaiters, hpending, -⟩ := unsent_leaves_no_trace hfree hbegun hheld (Prod.ext hfails rfl)
  refine ⟨hlog, hwaiters, ?_, hpending, ?_⟩ <;> decide +kernel

end Run

end Wwan
