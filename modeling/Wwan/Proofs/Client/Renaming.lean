import Wwan.Proofs.Client.Entries

/-!
# Tokens under other names

The tokens of calls only tell them apart.  So a client whose tokens have been given other names
(`Renaming`) takes the same steps, and returns the same (`Run.rename_step`).
-/

namespace Wwan

variable {H : Type}

/-- Other names for the tokens. -/
structure Renaming where
  token : Nat → Nat
  injective : Function.Injective token
  /-- The token that was given out last, when it was this one before. -/
  last : Nat → Nat

/-- Whether the token behind this one is the next one under the other names, too. -/
structure Renaming.Next (ν : Renaming) (n : Nat) : Prop where
  token_eq : ν.token (n + 1) = ν.last n + 1
  last_eq : ν.last (n + 1) = ν.last n + 1

section Definitions

variable (ν : Renaming)

/-- A place in the queue under another name. -/
def Waiter.rename (w : Waiter) : Waiter :=
  { w with token := ν.token w.token }

/-- A transaction under another name. -/
def Pending.rename (p : Pending) : Pending :=
  { p with token := ν.token p.token }

/-- A call under another name. -/
def Call.rename (k : Call) : Call :=
  { k with token := ν.token k.token }

/-- A table whose tokens have other names. -/
def Table.rename (t : Table) : Table :=
  { t with
    lastToken := ν.last t.lastToken
    waiters := t.waiters.map (Waiter.rename ν)
    pending := t.pending.map (Pending.rename ν)
    observers := t.observers.map ν.token }

/-- A client whose tokens have other names. -/
def Client.rename (c : Client H) : Client H :=
  { c with table := c.table.rename ν, calls := c.calls.map (Call.rename ν) }

/-- An event under other names. -/
def Event.rename : Event → Event
  | .refused e => .refused e
  | .started token ticket => .started (ν.token token) ticket
  | .written token request => .written (ν.token token) request
  | .unwritten token => .unwritten (ν.token token)
  | .expired token => .expired (ν.token token)
  | .withdrawn token => .withdrawn (ν.token token)
  | .returned token result => .returned (ν.token token) result
  | .arrived m kind entry receiver => .arrived m kind (entry.map ν.token) (receiver.map ν.token)
  | .closed => .closed

/-- An action under other names. -/
def Action.rename : Action H → Action H
  | .expire token => .expire (ν.token token)
  | .settle token => .settle (ν.token token)
  | .collect token => .collect (ν.token token)
  | a => a

/-- A run whose tokens have other names. -/
def Run.rename (r : Run H) : Run H where
  client := r.client.rename ν
  sink := r.sink
  draft := r.draft.map (Prod.map ν.token id)
  log := r.log.map (Event.rename ν)

end Definitions

variable {ν : Renaming}

section Projections

variable (k : Call) (t : Table) (c : Client H) (r : Run H)

@[simp] theorem Call.phase_rename : (k.rename ν).phase = k.phase := rfl

@[simp] theorem Table.closed_rename : (t.rename ν).closed = t.closed := rfl

@[simp] theorem Client.table_rename : (c.rename ν).table = c.table.rename ν := rfl

@[simp] theorem Client.notices_rename : (c.rename ν).notices = c.notices := rfl

@[simp] theorem Client.config_rename : (c.rename ν).config = c.config := rfl

@[simp] theorem Run.client_rename : (r.rename ν).client = r.client.rename ν := rfl

@[simp] theorem Run.draft_rename : (r.rename ν).draft = r.draft.map (Prod.map ν.token id) := rfl

@[simp] theorem Run.sink_rename : (r.rename ν).sink = r.sink := rfl

end Projections

/-! ## Lists under other names -/

section Lists

variable {α β : Type} {f : α → β} (l : List α)

theorem map_concat (f : α → β) (a : α) : l.map f ++ [f a] = (l ++ [a]).map f := by
  rw [List.map_append, List.map_singleton]

/-- What is kept under other names is what is kept under the old ones. -/
theorem filter_map_of_iff {p : β → Prop} {q : α → Prop} [DecidablePred p] [DecidablePred q]
    (h : ∀ a, p (f a) ↔ q a) : (l.map f).filter (fun b => p b) = (l.filter fun a => q a).map f := by
  rw [List.filter_map]
  congr 2
  funext a
  exact decide_eq_decide.mpr (h a)

/-- Those who are chosen change under other names as under the old ones. -/
theorem map_ite_map {p : β → Prop} {q : α → Prop} [DecidablePred p] [DecidablePred q]
    {g : β → β} {g' : α → α} (h : ∀ a, p (f a) ↔ q a) (hg : ∀ a, g (f a) = f (g' a)) :
    (l.map f).map (fun b => if p b then g b else b) = (l.map fun a => if q a then g' a else a).map f := by
  rw [List.map_map, List.map_map]
  refine List.map_congr_left fun a _ => ?_
  show (if p (f a) then g (f a) else f a) = f (if q a then g' a else a)
  rw [hg, apply_ite f]
  exact if_congr (h a) rfl rfl

end Lists

/-! ## Entries -/

namespace Table

theorem pending?_rename (id : UInt8) (t : Table) :
    (t.rename ν).pending? id = (t.pending? id).map (Pending.rename ν) := by
  rw [pending?, pending?]
  exact List.find?_map

theorem seek_rename (tries : Nat) (t : Table) :
    seek tries (t.rename ν) = ((seek tries t).1, (seek tries t).2.rename ν) := by
  induction tries generalizing t with
  | zero => rfl
  | succ tries ih =>
    rw [seek, seek, pending?_rename, Option.isSome_map]
    show (if (t.pending? (nextId t.cursor)).isSome then
      seek tries (Table.rename ν { t with cursor := nextId t.cursor }) else _) = _
    by_cases htaken : (t.pending? (nextId t.cursor)).isSome
    · simp only [if_pos htaken]
      exact ih _
    · simp only [if_neg htaken]
      rfl

theorem entry?_rename (t : Table) (kind : Message.Kind) :
    Table.entry? (t.rename ν) kind = (Table.entry? t kind).map ν.token := by
  cases kind with
  | response =>
    rw [Table.entry?, Table.entry?, rename]
    rcases t.waiters with _ | ⟨w, ws⟩ <;> rfl
  | transaction id =>
    rw [Table.entry?, Table.entry?, pending?_rename]
    rcases t.pending? id with _ | p <;> rfl
  | notice => rfl

theorem forget_rename (token : Nat) (t : Table) :
    (t.rename ν).forget (ν.token token) = (t.forget token).rename ν := by
  have hwaiters : ((t.rename ν).forget (ν.token token)).waiters = ((t.forget token).rename ν).waiters :=
    filter_map_of_iff t.waiters fun _ => ν.injective.ne_iff
  exact congrArg (fun waiters => { t.rename ν with waiters }) hwaiters

theorem abandon_rename (token : Nat) (t : Table) :
    (t.rename ν).abandon (ν.token token) = (t.abandon token).rename ν := by
  have hwaiters : ((t.rename ν).abandon (ν.token token)).waiters = ((t.abandon token).rename ν).waiters :=
    map_ite_map t.waiters (fun _ => ν.injective.eq_iff) fun _ => rfl
  exact congrArg (fun waiters => { t.rename ν with waiters }) hwaiters

theorem release_rename (id : UInt8) (token : Nat) (t : Table) :
    (t.rename ν).release id (ν.token token) = (t.release id token).rename ν := by
  have hpending : ((t.rename ν).release id (ν.token token)).pending
      = ((t.release id token).rename ν).pending :=
    filter_map_of_iff t.pending fun _ => not_congr (and_congr_right' ν.injective.eq_iff)
  exact congrArg (fun pending => { t.rename ν with pending }) hpending

theorem unobserve_rename (token : Nat) (t : Table) :
    (t.rename ν).unobserve (ν.token token) = (t.unobserve token).rename ν := by
  have hobservers : ((t.rename ν).unobserve (ν.token token)).observers
      = ((t.unobserve token).rename ν).observers :=
    filter_map_of_iff t.observers fun _ => ν.injective.ne_iff
  exact congrArg (fun observers => { t.rename ν with observers }) hobservers

/-- A new token is the next one under either names. -/
theorem issue_rename {t : Table} (h : ν.Next t.lastToken) :
    (t.rename ν).issue = (ν.token t.issue.1, t.issue.2.rename ν) := by
  obtain ⟨htoken, hlast⟩ := h
  show (ν.last t.lastToken + 1, { t.rename ν with lastToken := ν.last t.lastToken + 1 })
    = (ν.token (t.lastToken + 1), { t.rename ν with lastToken := ν.last (t.lastToken + 1) })
  rw [htoken, hlast]

theorem enqueue_rename (token : Nat) (attended : Bool) (t : Table) :
    (t.rename ν).enqueue (ν.token token) attended = (t.enqueue token attended).rename ν :=
  congrArg (fun waiters => { t.rename ν with waiters })
    (map_concat t.waiters (Waiter.rename ν) ⟨token, attended⟩)

theorem observe_rename (token : Nat) (t : Table) :
    (t.rename ν).observe (ν.token token) = (t.observe token).rename ν :=
  congrArg (fun observers => { t.rename ν with observers })
    (map_concat t.observers ν.token token)

theorem start_rename (id : UInt8) (token : Nat) (t : Table) :
    (t.rename ν).start id (ν.token token) = (t.start id token).rename ν :=
  congrArg (fun pending => { t.rename ν with pending })
    (map_concat t.pending (Pending.rename ν) { id, token })

end Table

namespace Call

variable {k : Call} {t : Table}

theorem isHeld_rename : (k.rename ν).isHeld (t.rename ν) = k.isHeld t := by
  rcases hticket : k.ticket with _ | _ | id | _ <;>
    simp only [isHeld, rename, hticket, Table.rename, List.any_map] <;>
    congr 1 <;>
    funext x <;>
    exact decide_eq_decide.mpr ν.injective.eq_iff

/-- What a call returns does not depend on its name. -/
theorem outcome?_rename : (k.rename ν).outcome? (t.rename ν) = k.outcome? t := by
  rw [outcome?, outcome?, isHeld_rename]
  rfl

theorem retract_rename : (k.rename ν).retract (t.rename ν) = (k.retract t).rename ν := by
  rcases hticket : k.ticket with _ | _ | id | _ <;> simp only [retract, rename, hticket]
  · exact Table.forget_rename _ _
  · exact Table.forget_rename _ _
  · exact Table.release_rename _ _ _
  · exact Table.unobserve_rename _ _

theorem withdraw_rename : (k.rename ν).withdraw (t.rename ν) = (k.withdraw t).rename ν := by
  rcases hticket : k.ticket with _ | _ | id | _ <;> simp only [withdraw, rename, hticket]
  · exact Table.abandon_rename _ _
  · exact Table.abandon_rename _ _
  · exact Table.release_rename _ _ _
  · exact Table.unobserve_rename _ _

end Call

/-! ## Steps of the client -/

namespace Client

variable {c : Client H}

theorem enter_rename {p : Purpose} {t : Table}
    (h : ∀ entry t', enter p t = (.ok entry, t') → ν.Next t.lastToken) :
    enter p (t.rename ν) = ((enter p t).1.map (Prod.map id ν.token), (enter p t).2.rename ν) := by
  rw [enter.eq_def, enter.eq_def] at *
  rw [Table.closed_rename]
  by_cases hclosed : t.closed
  · simp only [if_pos hclosed]
    rfl
  simp only [if_neg hclosed] at h ⊢
  cases p with
  | answer =>
    simp only [Table.issue_rename (h _ _ rfl), Table.enqueue_rename]
    rfl
  | oneWay =>
    simp only [Table.issue_rename (h _ _ rfl), Table.enqueue_rename]
    rfl
  | transaction =>
    simp only [Table.allocate, Table.seek_rename] at h ⊢
    rcases hseek : Table.seek 255 t with ⟨_ | id, t'⟩
    · rfl
    · -- the search for a number gives out no token
      have hlast : t'.lastToken = t.lastToken := by
        rw [(Table.seek_some hseek).1]
      have hnext : ν.Next t'.lastToken := by
        rw [hlast]
        exact h _ _ (by rw [hseek])
      simp only [Table.issue_rename hnext, Table.start_rename]
      rfl

/-- A call begins under other names as under the old ones. -/
theorem begin_rename {p : Purpose} {command : UInt32} {timeout : Span}
    (h : ∀ k c', c.begin p command timeout = (.ok k, c') → ν.Next c.table.lastToken) :
    (c.rename ν).begin p command timeout
      = ((c.begin p command timeout).1.map (Call.rename ν), (c.begin p command timeout).2.rename ν) := by
  have henter := enter_rename (p := p) (t := c.table) (ν := ν) fun entry t' hentry =>
    h _ _ (by rw [begin, hentry])
  rw [begin, begin, table_rename, henter]
  rcases enter p c.table with ⟨e | ⟨ticket, token⟩, t⟩
  · rfl
  · exact congrArg (fun calls => (_, { c.rename ν with table := t.rename ν, calls }))
      (map_concat c.calls (Call.rename ν) ⟨token, ticket, command, timeout, .sending, none⟩)

/-- The same of somebody who begins to wait for the next message. -/
theorem observe_rename {timeout : Span} (h : c.table.closed = false → ν.Next c.table.lastToken) :
    (c.rename ν).observe timeout
      = ((c.observe timeout).1.map (Call.rename ν), (c.observe timeout).2.rename ν) := by
  rw [observe, observe, table_rename,
    Table.closed_rename]
  by_cases hclosed : c.table.closed
  · simp only [if_pos hclosed]
    rfl
  · simp only [if_neg hclosed]
    rw [Table.issue_rename (h (Bool.not_eq_true _ ▸ hclosed))]
    dsimp only
    rw [Table.observe_rename]
    exact congrArg (fun calls => (_, { c.rename ν with
      table := (c.table.issue.2.observe c.table.issue.1).rename ν, calls }))
      (map_concat c.calls (Call.rename ν) ⟨c.table.issue.1, .observation, 0, timeout, .waiting, none⟩)

theorem call?_rename (token : Nat) :
    (c.rename ν).call? (ν.token token) = (c.call? token).map (Call.rename ν) := by
  rw [call?, call?, rename, List.find?_map]
  congr 2
  funext k
  exact decide_eq_decide.mpr ν.injective.eq_iff

theorem update_rename (token : Nat) (phase : Phase) :
    (c.rename ν).update (ν.token token) (fun k => { k with phase })
      = (c.update token fun k => { k with phase }).rename ν := by
  have hcalls : ((c.rename ν).update (ν.token token) (fun k => { k with phase })).calls
      = ((c.update token fun k => { k with phase }).rename ν).calls :=
    map_ite_map c.calls (fun _ => ν.injective.eq_iff) fun _ => rfl
  exact congrArg (fun calls => { c.rename ν with calls }) hcalls

theorem drop_rename (token : Nat) :
    (c.rename ν).drop (ν.token token) = (c.drop token).rename ν := by
  have hcalls : ((c.rename ν).drop (ν.token token)).calls = ((c.drop token).rename ν).calls :=
    filter_map_of_iff c.calls fun _ => ν.injective.ne_iff
  exact congrArg (fun calls => { c.rename ν with calls }) hcalls

theorem unsent_rename (token : Nat) : (c.rename ν).unsent (ν.token token) = (c.unsent token).rename ν := by
  rw [unsent, unsent, call?_rename]
  rcases c.call? token with _ | k
  · rfl
  · dsimp only [Option.map_some]
    rw [← drop_rename]
    exact congrArg (fun table => Client.drop (ν.token token) { c.rename ν with table }) Call.retract_rename

theorem expire_rename (token : Nat) : (c.rename ν).expire (ν.token token) = (c.expire token).rename ν := by
  rw [expire, expire, call?_rename]
  rcases c.call? token with _ | k
  · rfl
  · dsimp only [Option.map_some]
    rw [table_rename, Call.outcome?_rename,
      Call.phase_rename]
    split
    · exact update_rename token .expired
    · rfl

theorem settle_rename (token : Nat) : (c.rename ν).settle (ν.token token) = (c.settle token).rename ν := by
  rw [settle, settle, call?_rename]
  rcases c.call? token with _ | k
  · rfl
  · dsimp only [Option.map_some]
    rw [Call.phase_rename]
    split
    · rw [← update_rename, table_rename, Call.withdraw_rename]
      rfl
    · rfl

theorem collect_rename (token : Nat) : (c.rename ν).collect (ν.token token)
    = ((c.collect token).1, (c.collect token).2.rename ν) := by
  have houtcome : ((c.rename ν).call? (ν.token token)).bind (fun k => k.outcome? (c.rename ν).table)
      = (c.call? token).bind fun k => k.outcome? c.table := by
    rw [call?_rename]
    rcases c.call? token with _ | k
    · rfl
    · exact Call.outcome?_rename
  rw [collect, collect, houtcome]
  rcases (c.call? token).bind fun k => k.outcome? c.table with _ | result
  · rfl
  · exact congrArg (some result, ·) (drop_rename token)

theorem route_rename (kind : Message.Kind) (t : Table) :
    route kind (t.rename ν) = ((route kind t).1.map ν.token, (route kind t).2.rename ν) := by
  cases kind with
  | response =>
    obtain ⟨closed, cursor, lastToken, waiters, pending, observers⟩ := t
    rcases waiters with _ | ⟨⟨token, attended⟩, ws⟩
    · rfl
    · cases attended <;> rfl
  | transaction id =>
    show Table.advance id (t.rename ν)
      = ((Table.advance id t).1.map ν.token, (Table.advance id t).2.rename ν)
    rw [Table.advance, Table.advance, Table.pending?_rename]
    rcases t.pending? id with _ | p
    · rfl
    · dsimp only [Option.map_some]
      rw [show (p.rename ν).acknowledged = p.acknowledged from rfl]
      split
      · have hpending : (t.pending.map (Pending.rename ν)).filter (fun q => q.id ≠ id)
            = (t.pending.filter fun q => q.id ≠ id).map (Pending.rename ν) :=
          filter_map_of_iff t.pending fun _ => Iff.rfl
        exact congrArg (fun pending => (some (ν.token p.token), { t.rename ν with pending })) hpending
      · have hpending : (t.pending.map (Pending.rename ν)).map (fun q =>
              if q.id = id then { q with acknowledged := true } else q)
            = (t.pending.map fun q => if q.id = id then { q with acknowledged := true } else q).map
                (Pending.rename ν) :=
          map_ite_map t.pending (fun _ => Iff.rfl) fun _ => rfl
        exact congrArg (fun pending => (none, { t.rename ν with pending })) hpending
  | notice => rfl

theorem isTold_rename (kind : Message.Kind) (t : Table) (k : Call) :
    isTold kind (t.rename ν) (k.rename ν) = isTold kind t k := by
  have hreceiver : (route kind t).1.map ν.token = some (ν.token k.token) ↔ (route kind t).1 = some k.token :=
    (Option.map_injective ν.injective).eq_iff (b := some k.token)
  have hobserver : (t.observers.map ν.token).contains (ν.token k.token) = t.observers.contains k.token := by
    rw [List.contains_eq_mem, List.contains_eq_mem]
    exact decide_eq_decide.mpr (List.mem_map_of_injective ν.injective)
  rw [isTold, isTold, route_rename]
  exact congrArg₂ (· || ·) (decide_eq_decide.mpr hreceiver) hobserver

theorem dispatch_rename (m : Message) : (c.rename ν).dispatch m = (c.dispatch m).rename ν := by
  have htable : ((c.rename ν).dispatch m).table = (c.dispatch m).table.rename ν := by
    rw [table_dispatch, table_dispatch, table_rename, route_rename]
    rfl
  have hcalls : ((c.rename ν).dispatch m).calls = (c.dispatch m).calls.map (Call.rename ν) := by
    rw [calls_dispatch, calls_dispatch]
    refine map_ite_map c.calls (fun k => ?_) fun _ => rfl
    rw [table_rename, isTold_rename]
    rfl
  calc (c.rename ν).dispatch m
    _ = { (c.dispatch m).rename ν with
          table := ((c.rename ν).dispatch m).table, calls := ((c.rename ν).dispatch m).calls } := rfl
    _ = (c.dispatch m).rename ν := by
        rw [htable, hcalls]
        rfl

theorem handleNext_rename : (c.rename ν).handleNext = c.handleNext.rename ν := by
  rw [handleNext, handleNext, notices_rename]
  rcases c.notices with _ | ⟨m, rest⟩
  · rfl
  · dsimp only
    rw [handle, handle, show ({ c.rename ν with notices := rest } : Client H).handler? m.command
      = ({ c with notices := rest } : Client H).handler? m.command from rfl]
    rcases ({ c with notices := rest } : Client H).handler? m.command with _ | handler <;> rfl

end Client

/-! ## Steps of a run -/

namespace Run

variable {r : Run H}

theorem rename_concat (client : Client H) (sink : Sink) (draft : Option (Nat × Request)) (log : List Event)
    (events : List Event) : Run.rename ν ⟨client, sink, draft, log ++ events⟩
      = ⟨client.rename ν, sink, draft.map (Prod.map ν.token id),
          log.map (Event.rename ν) ++ events.map (Event.rename ν)⟩ := by
  rw [rename, List.map_append]

theorem rename_start {p : Purpose} {command : UInt32} {body : Bytes} {timeout : Span}
    (h : ¬r.draft.isSome → ∀ k c', r.client.begin p command timeout = (.ok k, c') →
      ν.Next r.client.table.lastToken) :
    (r.rename ν).start p command body timeout = (r.start p command body timeout).rename ν := by
  have hbusy : (r.rename ν).draft.isSome = r.draft.isSome := Option.isSome_map
  rw [start, start, hbusy]
  by_cases hdraft : r.draft.isSome
  · rw [if_pos hdraft, if_pos hdraft]
  rw [if_neg hdraft, if_neg hdraft, client_rename,
    Client.begin_rename (h hdraft)]
  rcases r.client.begin p command timeout with ⟨e | k, c⟩
  · exact (rename_concat c r.sink r.draft r.log [.refused e]).symm
  · exact (rename_concat c r.sink (some (k.token, { command, transaction := k.ticket.number?, body }))
      r.log [.started k.token k.ticket]).symm

theorem rename_write : (r.rename ν).write = r.write.rename ν := by
  rw [write, write, draft_rename]
  rcases r.draft with _ | ⟨token, request⟩
  · rfl
  · dsimp only [Option.map_some, Prod.map]
    rw [client_rename, sink_rename,
      Client.config_rename, id]
    rcases Outbox.send r.client.config.maxMessage request r.sink with ⟨e | _, sink⟩
    · dsimp only
      rw [rename_concat, Client.unsent_rename]
      rfl
    · dsimp only
      rw [rename_concat, Client.sent, Client.update_rename]
      rfl

theorem rename_observe {timeout : Span}
    (h : r.client.table.closed = false → ν.Next r.client.table.lastToken) :
    (r.rename ν).observe timeout = (r.observe timeout).rename ν := by
  rw [observe, observe, client_rename, Client.observe_rename h]
  rcases r.client.observe timeout with ⟨e | k, c⟩
  · exact (rename_concat c r.sink r.draft r.log [.refused e]).symm
  · exact (rename_concat c r.sink r.draft r.log [.started k.token k.ticket]).symm

theorem rename_expire (token : Nat) : (r.rename ν).expire (ν.token token) = (r.expire token).rename ν := by
  rw [expire, expire, client_rename, Client.call?_rename,
    Client.expire_rename]
  rcases r.client.call? token with _ | k
  · rfl
  · dsimp only [Option.map_some]
    rw [Client.table_rename, Call.outcome?_rename,
      Call.phase_rename]
    split
    · exact (rename_concat (r.client.expire token) r.sink r.draft r.log [.expired token]).symm
    · rfl

theorem rename_settle (token : Nat) : (r.rename ν).settle (ν.token token) = (r.settle token).rename ν := by
  rw [settle, settle, client_rename, Client.call?_rename,
    Client.settle_rename]
  rcases r.client.call? token with _ | k
  · rfl
  · dsimp only [Option.map_some]
    rw [Call.phase_rename]
    split
    · exact (rename_concat (r.client.settle token) r.sink r.draft r.log [.withdrawn token]).symm
    · rfl

theorem rename_collect (token : Nat) :
    (r.rename ν).collect (ν.token token) = (r.collect token).rename ν := by
  rw [collect, collect, client_rename, Client.collect_rename]
  rcases r.client.collect token with ⟨_ | result, c⟩
  · rfl
  · exact (rename_concat c r.sink r.draft r.log [.returned token result]).symm

theorem rename_dispatch (m : Message) : (r.rename ν).dispatch m = (r.dispatch m).rename ν := by
  rw [dispatch, dispatch, client_rename, Client.dispatch_rename,
    Client.table_rename, Table.entry?_rename, Client.route_rename]
  let kind := m.classify r.client.config.threshold
  exact (rename_concat (r.client.dispatch m) r.sink r.draft r.log
    [.arrived m kind (r.client.table.entry? kind) (Client.route kind r.client.table).1]).symm

/-- Whether an action enters a call into the table. -/
def Enrolls (r : Run H) : Action H → Prop
  | .start p command _ timeout => ¬r.draft.isSome ∧ ∃ k c, r.client.begin p command timeout = (.ok k, c)
  | .observe _ => r.client.table.closed = false
  | _ => False

/-- A run under other names takes the same steps, as long as the next token stays the next one. -/
theorem rename_step {a : Action H} (h : r.Enrolls a → ν.Next r.client.table.lastToken) :
    (r.rename ν).step (a.rename ν) = (r.step a).rename ν := by
  cases a with
  | start p command body timeout => exact rename_start fun hdraft k c hk => h ⟨hdraft, k, c, hk⟩
  | write => exact rename_write
  | observe timeout => exact rename_observe h
  | expire token => exact rename_expire token
  | settle token => exact rename_settle token
  | collect token => exact rename_collect token
  | dispatch m => exact rename_dispatch m
  | close => exact (rename_concat r.client.close r.sink r.draft r.log [.closed]).symm
  | handle =>
    exact congrArg (fun client => { r.rename ν with client }) Client.handleNext_rename
  | register command handler => rfl
  | unregister command => rfl

end Run

end Wwan
