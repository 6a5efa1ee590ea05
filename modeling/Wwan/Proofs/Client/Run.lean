import Wwan.Client.Line
import Wwan.Proofs.Client.Table

/-!
# Runs of a client

A client is shared by any number of callers, by the reader of its channel and by the clock.  Each of
them takes steps that cannot be interrupted, and a run is any list of such steps.  One caller at a time
has the writer: it takes the writer before it enters its call into the table, and gives it back when
its request is written.  A step whose turn it is not leaves the run as it is.

Four things live here:

* `Run.step`, one step of a run, built from the steps of `Client` and from `Outbox.send`;
* the record that a run keeps (`Event`), from which statements about runs are read off;
* `Move`, which says once and for all what a step can do, and `Run.move_step`, that it does nothing
  else;
* `Run.On`: what a `Line` does with its client is a run of such steps.
-/

namespace Wwan

/-- The transaction that a ticket numbers. -/
def Ticket.number? : Ticket → Option UInt8
  | .transaction id => some id
  | _ => none

/-- Whose entry in the table a message of this kind meets. -/
def Table.entry? (t : Table) : Message.Kind → Option Nat
  | .response => t.waiters.head?.map Waiter.token
  | .transaction id => (t.pending? id).map Pending.token
  | .notice => none

/-- Enters a call into the table. -/
def Table.enroll (token : Nat) : Ticket → Table → Table
  | .answer, t => t.enqueue token true
  | .oneWay, t => t.enqueue token false
  | .transaction id, t => t.start id token
  | .observation, t => t.observe token

/-- What can happen next on a client. -/
inductive Action (H : Type) where
  /-- A caller takes the writer and enters its call into the table. -/
  | start (p : Purpose) (command : UInt32) (body : Bytes) (timeout : Span)
  /-- Whoever has the writer writes its request and gives the writer back. -/
  | write
  /-- A caller begins to wait for the next message. -/
  | observe (timeout : Span)
  /-- The wait of a call is over while nothing is decided about it. -/
  | expire (token : Nat)
  /-- A call whose wait is over withdraws from the table. -/
  | settle (token : Nat)
  /-- A call returns. -/
  | collect (token : Nat)
  /-- The reader dispatches a message. -/
  | dispatch (m : Message)
  /-- The channel ends, or is shut down. -/
  | close
  /-- The oldest notice is handled. -/
  | handle
  | register (command : UInt32) (handler : H)
  | unregister (command : UInt32)

/-- What the record of a run tells. -/
inductive Event where
  /-- A call could not begin, and returned this error at once. -/
  | refused (e : CallError)
  /-- A call was entered into the table under this token. -/
  | started (token : Nat) (ticket : Ticket)
  /-- The sink has taken the whole request of a call. -/
  | written (token : Nat) (request : Request)
  /-- The request of a call could not be sent. -/
  | unwritten (token : Nat)
  /-- The wait of a call was over before anything was decided about it. -/
  | expired (token : Nat)
  /-- A call whose wait was over has withdrawn from the table. -/
  | withdrawn (token : Nat)
  | returned (token : Nat) (result : Except CallError Reply)
  /-- A message of this kind was dispatched.  It met an entry of the table, which belongs to the call
  `entry`, and was handed to the call `receiver`. -/
  | arrived (m : Message) (kind : Message.Kind) (entry receiver : Option Nat)
  /-- The channel ended, or was shut down. -/
  | closed

deriving instance DecidableEq for Request, Event

/-- The call that an event changes. -/
def Event.token? : Event → Option Nat
  | .started token _ | .written token _ | .unwritten token | .expired token | .withdrawn token
  | .returned token _ => some token
  | .arrived _ _ _ receiver => receiver
  | .refused _ | .closed => none

/-- A client in the middle of a run. -/
structure Run (H : Type) where
  client : Client H
  sink : Sink := {}
  /-- The call that has the writer, with its request. -/
  draft : Option (Nat × Request) := none
  /-- What has happened so far, oldest first. -/
  log : List Event := []

namespace Run

variable {H : Type}

/-- The run that has just begun. -/
def fresh (config : ClientConfig) (sink : Sink) : Run H :=
  { client := { config }, sink }

/-- A caller takes the writer and enters its call into the table; it waits while another has the
writer. -/
def start (p : Purpose) (command : UInt32) (body : Bytes) (timeout : Span) (r : Run H) : Run H :=
  if r.draft.isSome then r
  else match r.client.begin p command timeout with
    | (.error e, client) => { r with client, log := r.log ++ [.refused e] }
    | (.ok k, client) =>
      { r with
        client
        draft := some (k.token, { command, transaction := k.ticket.number?, body })
        log := r.log ++ [.started k.token k.ticket] }

/-- Whoever has the writer writes its request.  The table takes no part in it, so the writing counts as
one step whatever else happens meanwhile. -/
def write (r : Run H) : Run H :=
  match r.draft with
  | none => r
  | some (token, request) =>
    match Outbox.send r.client.config.maxMessage request r.sink with
    | (.ok (), sink) =>
      { client := r.client.sent token, sink, log := r.log ++ [.written token request] }
    | (.error e, sink) =>
      { client := r.client.unsent token
        sink
        log := r.log ++ [.unwritten token, .returned token (.error e)] }

/-- A caller begins to wait for the next message. -/
def observe (timeout : Span) (r : Run H) : Run H :=
  match r.client.observe timeout with
  | (.error e, client) => { r with client, log := r.log ++ [.refused e] }
  | (.ok k, client) => { r with client, log := r.log ++ [.started k.token k.ticket] }

/-- The wait of a call is over while nothing is decided about it. -/
def expire (token : Nat) (r : Run H) : Run H :=
  match r.client.call? token with
  | none => r
  | some k =>
    if k.phase = .waiting ∧ (k.outcome? r.client.table).isNone then
      { r with client := r.client.expire token, log := r.log ++ [.expired token] }
    else r

/-- A call whose wait is over withdraws from the table. -/
def settle (token : Nat) (r : Run H) : Run H :=
  match r.client.call? token with
  | none => r
  | some k =>
    if k.phase = .expired then
      { r with client := r.client.settle token, log := r.log ++ [.withdrawn token] }
    else r

/-- A call returns, once it is decided what. -/
def collect (token : Nat) (r : Run H) : Run H :=
  match r.client.collect token with
  | (some result, client) => { r with client, log := r.log ++ [.returned token result] }
  | (none, _) => r

/-- A message is dispatched. -/
def dispatch (m : Message) (r : Run H) : Run H :=
  let kind := m.classify r.client.config.threshold
  let arrival := .arrived m kind (r.client.table.entry? kind) (Client.route kind r.client.table).1
  { r with client := r.client.dispatch m, log := r.log ++ [arrival] }

/-- The channel ends, or is shut down. -/
def close (r : Run H) : Run H :=
  { r with client := r.client.close, log := r.log ++ [.closed] }

/-- One step of a run. -/
def step (r : Run H) : Action H → Run H
  | .start p command body timeout => r.start p command body timeout
  | .write => r.write
  | .observe timeout => r.observe timeout
  | .expire token => r.expire token
  | .settle token => r.settle token
  | .collect token => r.collect token
  | .dispatch m => r.dispatch m
  | .close => r.close
  | .handle => { r with client := r.client.handleNext }
  | .register command handler => { r with client := (r.client.register command handler).2 }
  | .unregister command => { r with client := (r.client.unregister command).2 }

/-- The run after some steps. -/
def after (config : ClientConfig) (sink : Sink) (actions : List (Action H)) : Run H :=
  actions.foldl step (fresh config sink)

theorem after_append (config : ClientConfig) (sink : Sink) (past more : List (Action H)) :
    after config sink (past ++ more) = more.foldl step (after config sink past) :=
  List.foldl_append

theorem after_append_singleton (config : ClientConfig) (sink : Sink) (actions : List (Action H))
    (a : Action H) : after config sink (actions ++ [a]) = (after config sink actions).step a :=
  after_append config sink actions [a]

end Run

/-! ## What a step can do -/

section Moves

variable {H : Type}

/-- What a new call may be: it has the next token and an empty slot; a transaction has a number that
is free.  A caller whose call has a request takes the writer, which is free. -/
structure Admission (r : Run H) (k : Call) (draft : Option (Nat × Request)) : Prop where
  token_eq : k.token = r.client.table.lastToken + 1
  slot_eq : k.slot = none
  isOpen : r.client.table.closed = false
  number_ne_zero : ∀ id, k.ticket = .transaction id → id ≠ 0
  number_free : ∀ id, k.ticket = .transaction id → r.client.table.pending? id = none
  writer : (k.ticket = .observation ∧ k.phase = .waiting ∧ draft = r.draft) ∨
    (k.ticket ≠ .observation ∧ k.phase = .sending ∧ r.draft = none ∧
      ∃ command body, draft = some (k.token, ⟨command, k.ticket.number?, body⟩))

/-- What a step of a run can do. -/
inductive Move (r : Run H) : Run H → Prop where
  | idle {client : Client H} (table_eq : client.table = r.client.table)
      (calls_eq : client.calls = r.client.calls) (config_eq : client.config = r.client.config) :
      Move r { r with client }
  | refuse (e : CallError) (cursor : UInt8) :
      Move r { r with
        client := { r.client with table := { r.client.table with cursor } }
        log := r.log ++ [.refused e] }
  | start {k : Call} {draft : Option (Nat × Request)} (cursor : UInt8) (h : Admission r k draft) :
      Move r { r with
        client := { r.client with
          table := Table.enroll k.token k.ticket
            { r.client.table with lastToken := k.token, cursor }
          calls := r.client.calls ++ [k] }
        draft
        log := r.log ++ [.started k.token k.ticket] }
  | written {token : Nat} {request : Request} {sink : Sink} (draft_eq : r.draft = some (token, request))
      (send_eq : Outbox.send r.client.config.maxMessage request r.sink = (.ok (), sink)) :
      Move r {
        client := r.client.sent token, sink, log := r.log ++ [.written token request] }
  | unwritten {token : Nat} {request : Request} {sink : Sink} {e : CallError}
      (draft_eq : r.draft = some (token, request))
      (send_eq : Outbox.send r.client.config.maxMessage request r.sink = (.error e, sink)) :
      Move r {
        client := r.client.unsent token
        sink
        log := r.log ++ [.unwritten token, .returned token (.error e)] }
  | expire {k : Call} (mem : k ∈ r.client.calls) (phase_eq : k.phase = .waiting)
      (undecided : k.outcome? r.client.table = none) :
      Move r { r with
        client := r.client.update k.token fun k => { k with phase := .expired }
        log := r.log ++ [.expired k.token] }
  | settle {k : Call} (mem : k ∈ r.client.calls) (phase_eq : k.phase = .expired) :
      Move r { r with
        client := Client.update k.token (fun k => { k with phase := .settled })
          { r.client with table := k.withdraw r.client.table }
        log := r.log ++ [.withdrawn k.token] }
  | collect {k : Call} {result : Except CallError Reply} (mem : k ∈ r.client.calls)
      (decided : k.outcome? r.client.table = some result) :
      Move r { r with client := r.client.drop k.token, log := r.log ++ [.returned k.token result] }
  | dispatch (m : Message) : Move r (r.dispatch m)
  | close : Move r r.close

/-- A call that is found is one of the calls, and has the token that was looked for. -/
theorem Client.of_call?_eq_some {token : Nat} {c : Client H} {k : Call}
    (h : c.call? token = some k) : k ∈ c.calls ∧ k.token = token :=
  ⟨List.mem_of_find?_eq_some h, by simpa using List.find?_some h⟩

/-- A call that begins has entered the table; one that cannot begin has moved the cursor at most. -/
theorem Client.begin_cases (p : Purpose) (command : UInt32) (timeout : Span) (c : Client H) :
    (∃ e cursor, c.begin p command timeout
      = (.error e, { c with table := { c.table with cursor } })) ∨
    (∃ k cursor, c.begin p command timeout
      = (.ok k, { c with
          table := Table.enroll k.token k.ticket { c.table with lastToken := k.token, cursor }
          calls := c.calls ++ [k] }) ∧
      k.token = c.table.lastToken + 1 ∧ k.slot = none ∧ k.phase = .sending ∧
      k.ticket ≠ .observation ∧ c.table.closed = false ∧
      ∀ id, k.ticket = .transaction id → id ≠ 0 ∧ c.table.pending? id = none) := by
  by_cases hclosed : c.table.closed
  · refine .inl ⟨.channelClosed, c.table.cursor, ?_⟩
    simp only [begin, enter.eq_def, if_pos hclosed]
  have hopen : c.table.closed = false := Bool.not_eq_true _ ▸ hclosed
  cases p with
  | answer =>
    refine .inr ⟨⟨c.table.lastToken + 1, .answer, command, timeout, .sending, none⟩,
      c.table.cursor, ?_, rfl, rfl, rfl, by simp, hopen, by simp⟩
    rw [begin, enter, if_neg hclosed]
    rfl
  | oneWay =>
    refine .inr ⟨⟨c.table.lastToken + 1, .oneWay, command, timeout, .sending, none⟩,
      c.table.cursor, ?_, rfl, rfl, rfl, by simp, hopen, by simp⟩
    rw [begin, enter, if_neg hclosed]
    rfl
  | transaction =>
    -- the search for a number moves the cursor, whether it finds one or not
    rcases h : c.table.allocate with ⟨id?, t⟩
    cases id? with
    | none =>
      obtain ⟨rfl, -⟩ := Table.seek_none h
      refine .inl ⟨.exhausted, Table.nextId^[255] c.table.cursor, ?_⟩
      simp only [begin, enter, if_neg hclosed, h]
    | some id =>
      obtain ⟨rfl, hid, hfree⟩ := Table.seek_some h
      refine .inr ⟨⟨c.table.lastToken + 1, .transaction id, command, timeout, .sending, none⟩,
        id, ?_, rfl, rfl, rfl, by simp, hopen, ?_⟩
      · simp only [begin, enter, if_neg hclosed, h]
        rfl
      · intro id' h'
        cases h'
        exact ⟨hid, hfree⟩

/-- Handling a notice changes neither the table nor the calls. -/
theorem Client.handle_frame (m : Message) (c : Client H) : (c.handle m).table = c.table ∧
    (c.handle m).calls = c.calls ∧ (c.handle m).config = c.config := by
  rw [handle]
  rcases c.handler? m.command with _ | h <;> exact ⟨rfl, rfl, rfl⟩

theorem Client.handleNext_frame (c : Client H) : c.handleNext.table = c.table ∧
    c.handleNext.calls = c.calls ∧ c.handleNext.config = c.config := by
  rw [handleNext]
  rcases c.notices with _ | ⟨m, rest⟩
  · exact ⟨rfl, rfl, rfl⟩
  · exact handle_frame m { c with notices := rest }

namespace Run

theorem move_start (p : Purpose) (command : UInt32) (body : Bytes) (timeout : Span) (r : Run H) :
    Move r (r.start p command body timeout) := by
  rw [start]
  by_cases hd : r.draft.isSome
  · rw [if_pos hd]
    exact .idle rfl rfl rfl
  rw [if_neg hd]
  obtain ⟨e, cursor, h⟩ | ⟨k, cursor, h, htoken, hslot, hphase, hticket, hopen, hnumber⟩ :=
    r.client.begin_cases p command timeout
  · rw [h]
    exact .refuse e cursor
  · rw [h]
    have hnone : r.draft = none := Option.not_isSome_iff_eq_none.mp hd
    exact .start cursor {
      token_eq := htoken
      slot_eq := hslot
      isOpen := hopen
      number_ne_zero := fun id hid => (hnumber id hid).1
      number_free := fun id hid => (hnumber id hid).2
      writer := .inr ⟨hticket, hphase, hnone, command, body, rfl⟩ }

theorem move_write (r : Run H) : Move r r.write := by
  rw [write]
  rcases hd : r.draft with _ | ⟨token, request⟩
  · exact .idle rfl rfl rfl
  · rcases hs : Outbox.send r.client.config.maxMessage request r.sink with ⟨e | u, sink⟩
    · simp only [hs]
      exact .unwritten hd hs
    · simp only [hs]
      exact .written hd hs

theorem move_observe (timeout : Span) (r : Run H) : Move r (r.observe timeout) := by
  rw [observe, Client.observe]
  by_cases hclosed : r.client.table.closed
  · rw [if_pos hclosed]
    exact .refuse .channelClosed r.client.table.cursor
  · rw [if_neg hclosed]
    exact .start (k := ⟨r.client.table.lastToken + 1, .observation, 0, timeout, .waiting, none⟩)
      r.client.table.cursor {
        token_eq := rfl
        slot_eq := rfl
        isOpen := Bool.not_eq_true _ ▸ hclosed
        number_ne_zero := by simp
        number_free := by simp
        writer := .inl ⟨rfl, rfl, rfl⟩ }

theorem move_expire (token : Nat) (r : Run H) : Move r (r.expire token) := by
  rw [expire]
  rcases hk : r.client.call? token with _ | k
  · exact .idle rfl rfl rfl
  obtain ⟨hmem, rfl⟩ := Client.of_call?_eq_some hk
  by_cases hwait : k.phase = .waiting ∧ (k.outcome? r.client.table).isNone
  · simp only [if_pos hwait, Client.expire, hk]
    exact .expire hmem hwait.1 (Option.isNone_iff_eq_none.mp hwait.2)
  · simp only [if_neg hwait]
    exact .idle rfl rfl rfl

theorem move_settle (token : Nat) (r : Run H) : Move r (r.settle token) := by
  rw [settle]
  rcases hk : r.client.call? token with _ | k
  · exact .idle rfl rfl rfl
  obtain ⟨hmem, rfl⟩ := Client.of_call?_eq_some hk
  by_cases hphase : k.phase = .expired
  · simp only [if_pos hphase, Client.settle, hk]
    exact .settle hmem hphase
  · simp only [if_neg hphase]
    exact .idle rfl rfl rfl

theorem move_collect (token : Nat) (r : Run H) : Move r (r.collect token) := by
  rw [collect, Client.collect]
  rcases hk : r.client.call? token with _ | k
  · exact .idle rfl rfl rfl
  obtain ⟨hmem, rfl⟩ := Client.of_call?_eq_some hk
  rw [Option.bind_some]
  rcases hdecided : k.outcome? r.client.table with _ | result
  · exact .idle rfl rfl rfl
  · exact .collect hmem hdecided

/-- A step of a run does nothing but what a move does. -/
theorem move_step (r : Run H) (a : Action H) : Move r (r.step a) := by
  cases a with
  | start p command body timeout => exact move_start p command body timeout r
  | write => exact move_write r
  | observe timeout => exact move_observe timeout r
  | expire token => exact move_expire token r
  | settle token => exact move_settle token r
  | collect token => exact move_collect token r
  | dispatch m => exact .dispatch m
  | close => exact .close
  | handle =>
    obtain ⟨htable, hcalls, hconfig⟩ := r.client.handleNext_frame
    exact .idle htable hcalls hconfig
  | register command handler => exact .idle rfl rfl rfl
  | unregister command => exact .idle rfl rfl rfl

/-- What holds of a run that has just begun, and is kept by every move from a state of the run, holds of
every run. -/
theorem after_induction {P : Run H → Prop} {config : ClientConfig} {sink : Sink}
    (start : P (fresh config sink))
    (next : ∀ past r', Move (after config sink past) r' → P (after config sink past) → P r')
    (actions : List (Action H)) : P (after config sink actions) := by
  -- on the last step, so that what is known of runs is known of the state before it
  induction actions using List.reverseRecOn with
  | nil => exact start
  | append_singleton past a ih =>
    rw [after_append_singleton]
    exact next past _ (move_step _ a) ih

/-- What holds of a run that has just begun, and is kept by every move, holds of every run. -/
theorem after_of_move {P : Run H → Prop} {config : ClientConfig} {sink : Sink}
    (start : P (fresh config sink)) (next : ∀ {r r'}, Move r r' → P r → P r')
    (actions : List (Action H)) : P (after config sink actions) :=
  after_induction start (fun _ _ hmove => next hmove) actions

end Run

/-! ## What a line does -/

namespace Run

/-- A run is where a line is, and nobody has the writer. -/
structure On (r : Run H) (l : Line H) : Prop where
  client_eq : r.client = l.client
  sink_eq : r.sink = l.sink
  idle : r.draft = none

variable {r : Run H} {l : Line H}

theorem write_of_idle (h : r.draft = none) : r.write = r := by
  rw [write, h]

/-- A request that cannot be written. -/
theorem write_of_error {token : Nat} {request : Request} {e : CallError} {s : Sink}
    (hdraft : r.draft = some (token, request))
    (hsend : Outbox.send r.client.config.maxMessage request r.sink = (.error e, s)) :
    r.write = {
      client := r.client.unsent token
      sink := s
      log := r.log ++ [.unwritten token, .returned token (.error e)] } := by
  rw [write, hdraft]
  simp only [hsend]

/-- Whoever has the writer gives it back. -/
theorem draft_write (r : Run H) : r.write.draft = none := by
  rw [write]
  rcases hdraft : r.draft with _ | ⟨token, request⟩
  · exact hdraft
  · rcases hsend : Outbox.send r.client.config.maxMessage request r.sink with ⟨e | _, sink⟩ <;>
      simp only [hsend]

/-- A call that is placed on a line takes the writer and gives it back. -/
theorem On.place (h : r.On l) (p : Purpose) (command : UInt32) (body : Bytes) (timeout : Span) :
    ((r.step (.start p command body timeout)).step .write).On (l.place p command body timeout).2 := by
  have hfree : ¬r.draft.isSome = true := by
    rw [h.idle]
    exact Bool.false_ne_true
  show ((r.start p command body timeout).write).On _
  -- the writer is free, so that the call gets it at once
  rw [start, if_neg hfree, Line.place, h.client_eq]
  rcases l.client.begin p command timeout with ⟨e | k, client⟩
  · have hidle : Run.draft { r with client, log := r.log ++ [.refused e] } = none := h.idle
    show (Run.write { r with client, log := r.log ++ [.refused e] }).On _
    rw [write_of_idle hidle]
    exact ⟨rfl, h.sink_eq, hidle⟩
  · rcases hticket : k.ticket with _ | _ | id | _ <;>
      simp only [write, hticket, Ticket.number?, h.sink_eq] <;>
      generalize Outbox.send client.config.maxMessage _ l.sink = sent <;>
      rcases sent with ⟨e | _, sink⟩ <;>
      exact ⟨rfl, rfl, rfl⟩

theorem On.observe (h : r.On l) (timeout : Span) :
    (r.step (.observe timeout)).On (l.observe timeout).2 := by
  show (r.observe timeout).On _
  rw [Run.observe, Line.observe, h.client_eq]
  rcases l.client.observe timeout with ⟨e | k, client⟩
  · exact ⟨rfl, h.sink_eq, h.idle⟩
  · exact ⟨rfl, h.sink_eq, h.idle⟩

theorem On.expire (h : r.On l) (token : Nat) :
    (r.step (.expire token)).On { l with client := l.client.expire token } := by
  show (r.expire token).On _
  rw [Run.expire, h.client_eq]
  rcases hk : l.client.call? token with _ | k
  · have hsame : l.client.expire token = l.client := by rw [Client.expire, hk]
    rw [hsame]
    exact h
  by_cases hwait : k.phase = .waiting ∧ (k.outcome? l.client.table).isNone
  · simp only [if_pos hwait]
    exact ⟨rfl, h.sink_eq, h.idle⟩
  · have hsame : l.client.expire token = l.client := by simp only [Client.expire, hk, if_neg hwait]
    simp only [if_neg hwait, hsame]
    exact h

theorem On.settle (h : r.On l) (token : Nat) :
    (r.step (.settle token)).On { l with client := l.client.settle token } := by
  show (r.settle token).On _
  rw [Run.settle, h.client_eq]
  rcases hk : l.client.call? token with _ | k
  · have hsame : l.client.settle token = l.client := by rw [Client.settle, hk]
    rw [hsame]
    exact h
  by_cases hphase : k.phase = .expired
  · simp only [if_pos hphase]
    exact ⟨rfl, h.sink_eq, h.idle⟩
  · have hsame : l.client.settle token = l.client := by simp only [Client.settle, hk, if_neg hphase]
    simp only [if_neg hphase, hsame]
    exact h

/-- A call whose time passes on a line withdraws at once. -/
theorem On.lapse (h : r.On l) (token : Nat) :
    ((r.step (.expire token)).step (.settle token)).On (l.lapse token) :=
  (h.expire token).settle token

theorem On.collect (h : r.On l) (token : Nat) :
    (r.step (.collect token)).On (l.collect token).2 := by
  show (r.collect token).On _
  rw [Run.collect, Line.collect, h.client_eq]
  rcases hcollect : l.client.collect token with ⟨result?, client⟩
  cases result? with
  | none =>
    -- nothing is decided, so that nothing changes
    obtain rfl : l.client = client := by
      rw [Client.collect] at hcollect
      rcases hdecided : (l.client.call? token).bind fun k => k.outcome? l.client.table with _ | result <;>
        rw [hdecided] at hcollect <;> cases hcollect
      rfl
    exact ⟨h.client_eq, h.sink_eq, h.idle⟩
  | some result => exact ⟨rfl, h.sink_eq, h.idle⟩

/-- Dispatching messages one by one is a run of steps. -/
theorem On.dispatchAll (messages : List Message) (h : r.On l) :
    ((messages.map Action.dispatch).foldl step r).On
      { l with client := messages.foldl (fun c m => c.dispatch m) l.client } := by
  induction messages generalizing r l with
  | nil => exact h
  | cons m messages ih =>
    have hnext : (r.step (.dispatch m)).On { l with client := l.client.dispatch m } :=
      ⟨congrArg (Client.dispatch m) h.client_eq, h.sink_eq, h.idle⟩
    exact ih hnext

/-- A line that reads bytes dispatches the messages that are complete then. -/
theorem On.receive (h : r.On l) (chunk : Bytes) :
    (((l.inbox.feed chunk).drain.1.map Action.dispatch).foldl step r).On (l.receive chunk) := by
  obtain ⟨hclient, hsink, hidle⟩ := h.dispatchAll (l.inbox.feed chunk).drain.1
  exact ⟨hclient, hsink, hidle⟩

theorem On.finish (h : r.On l) : (r.step .close).On l.finish :=
  ⟨congrArg Client.close h.client_eq, h.sink_eq, h.idle⟩

end Run

end Moves

end Wwan
