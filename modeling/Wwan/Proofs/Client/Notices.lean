import Wwan.Proofs.Client.Plain
import Wwan.Proofs.Client.Survival

/-!
# The thread that handles notices

Notices are kept in the order of their arrival for a thread of their own.  It takes one after the other up,
looks for the handler that the command of the notice has at that moment, and calls it; a handler may end by
panicking, and meanwhile messages arrive and handlers come and go.  `Handling` is a run with its reader and
this thread.  What is kept of a run that neither arrivals nor handlers change is `Run.Apart`; what the thread
does is `Handling.next`, and `Handling.Orderly` says what comes of it.
-/

namespace Wwan

variable {H : Type}

/-! ## Handlers and notices -/

namespace Client

variable {c : Client H}

theorem handler?_unregister (command : UInt32) (c : Client H) (command' : UInt32) :
    (c.unregister command).2.handler? command' = if command' = command then none else c.handler? command' := by
  show ((c.handlers.filter fun h => h.1 ≠ command).find? fun h => h.1 = command').map Prod.snd = _
  rw [List.find?_filter]
  by_cases heq : command' = command
  · subst heq
    rw [if_pos rfl, Option.map_eq_none_iff, List.find?_eq_none]
    intro g _
    simp
  · rw [if_neg heq, handler?]
    congr 2
    ext g
    by_cases hg : g.1 = command' <;> simp [hg, heq]

theorem handler?_register (command : UInt32) (h : H) (c : Client H) (command' : UInt32) :
    (c.register command h).2.handler? command' = if command' = command then some h else c.handler? command' := by
  show (((command, h) :: (c.unregister command).2.handlers).find? fun h => h.1 = command').map Prod.snd = _
  by_cases heq : command' = command
  · subst heq
    rw [if_pos rfl, List.find?_cons_of_pos (by simp)]
    rfl
  · -- the new entry is passed over, and behind it is what `unregister` leaves
    rw [if_neg heq, List.find?_cons_of_neg (by simpa using Ne.symm heq)]
    exact (handler?_unregister command c command').trans (if_neg heq)

theorem handler?_congr {c c' : Client H} (h : c'.handlers = c.handlers) (command : UInt32) :
    c'.handler? command = c.handler? command := by
  rw [handler?, handler?, h]

/-- The oldest notice is handed to the handler that its command has, if it has one. -/
theorem handleNext_cons {c : Client H} {m : Message} {rest : List Message} (h : c.notices = m :: rest) :
    c.handleNext = { c with
      notices := rest
      handled := c.handled ++ ((c.handler? m.command).map fun handler => (handler, m)).toList } := by
  unfold handleNext
  rw [h]
  show ({ c with notices := rest } : Client H).handle m = _
  unfold handle
  have hhandler : ({ c with notices := rest } : Client H).handler? m.command = c.handler? m.command :=
    handler?_congr rfl m.command
  rw [hhandler]
  cases c.handler? m.command with
  | none =>
    show ({ c with notices := rest } : Client H) = _
    rw [Option.map_none, Option.toList_none, List.append_nil]
  | some handler => rfl

end Client

/-- The notices among the messages that were dispatched. -/
def unasked : List Event → List Message :=
  List.filterMap fun
    | .arrived m .notice _ _ => some m
    | _ => none

theorem unasked_append (a b : List Event) : unasked (a ++ b) = unasked a ++ unasked b :=
  List.filterMap_append

/-- The message that an action dispatches. -/
def Action.message? : Action H → Option Message
  | .dispatch m => some m
  | _ => none

/-- The notice that a message is, if there is one and it is a notice. -/
def noticed (threshold : UInt32) (m? : Option Message) : List Message :=
  m?.toList.filter fun m => m.classify threshold = .notice

namespace Run

/-- A step that has nothing to do with handlers, and by which these notices arrive. -/
structure Hears (r r' : Run H) (ms : List Message) : Prop where
  handlers_eq : r'.client.handlers = r.client.handlers
  handled_eq : r'.client.handled = r.client.handled
  notices_eq : r'.client.notices = r.client.notices ++ ms
  unasked_eq : unasked r'.log = unasked r.log ++ ms

/-- No notice arrives when the record goes on with what is no arrival. -/
theorem hears_nothing {r r' : Run H} (events : List Event) (hevents : unasked events = [])
    (hlog : r'.log = r.log ++ events) (hhandlers : r'.client.handlers = r.client.handlers)
    (hhandled : r'.client.handled = r.client.handled) (hnotices : r'.client.notices = r.client.notices) :
    Hears r r' [] where
  handlers_eq := hhandlers
  handled_eq := hhandled
  notices_eq := by rw [hnotices, List.append_nil]
  unasked_eq := by rw [hlog, unasked_append, hevents]

theorem Hears.refl (r : Run H) : Hears r r [] :=
  hears_nothing [] rfl (List.append_nil _).symm rfl rfl rfl

theorem hears_start (p : Purpose) (command : UInt32) (body : Bytes) (timeout : Span) (r : Run H) :
    Hears r (r.start p command body timeout) [] := by
  unfold start
  by_cases hdraft : r.draft.isSome
  · rw [if_pos hdraft]
    exact .refl r
  rw [if_neg hdraft]
  obtain ⟨e, cursor, hbegin⟩ | ⟨k, cursor, hbegin, -⟩ := r.client.begin_cases p command timeout
  · rw [hbegin]
    exact hears_nothing [.refused e] rfl rfl rfl rfl rfl
  · rw [hbegin]
    exact hears_nothing [.started k.token k.ticket] rfl rfl rfl rfl rfl

/-- No notice arrives by a plain step. -/
theorem Plain.hears {r r' : Run H} (h : Plain r r') : Hears r r' [] := by
  obtain ⟨events, hlog, hplain⟩ := h.log_eq
  refine hears_nothing events ?_ hlog h.handlers_eq h.handled_eq h.notices_eq
  refine List.filterMap_eq_nil_iff.mpr fun e he => ?_
  cases e with
  | arrived m kind entry receiver => cases hplain _ he
  | _ => rfl

theorem hears_dispatch (m : Message) (r : Run H) :
    Hears r (r.dispatch m) (noticed r.client.config.threshold (some m)) := by
  by_cases hkind : m.classify r.client.config.threshold = .notice
  · have hnoticed : noticed r.client.config.threshold (some m) = [m] :=
      List.filter_cons_of_pos (by simpa using hkind)
    rw [hnoticed]
    refine ⟨rfl, rfl, if_pos hkind, ?_⟩
    unfold dispatch
    dsimp only
    rw [unasked_append, hkind]
    rfl
  · have hnoticed : noticed r.client.config.threshold (some m) = [] :=
      List.filter_cons_of_neg (by simpa using hkind)
    rw [hnoticed]
    refine hears_nothing [.arrived m _ _ _] ?_ rfl rfl rfl (if_neg hkind)
    cases hcase : m.classify r.client.config.threshold with
    | notice => exact absurd hcase hkind
    | response => rfl
    | transaction id => rfl

end Run

/-! ## The reader -/

namespace Reading

variable {d d' : Reading H}

/-- The message that the reader dispatches when it has its turn. -/
def message? (d : Reading H) : Option Message :=
  if d.ended then none
  else match d.inbox.receive d.source with
    | (.ok m, _, _) => some m
    | (.error _, _, _) => none

theorem hears_turn (d : Reading H) :
    Run.Hears d.run d.turn.run (noticed d.run.client.config.threshold d.message?) := by
  unfold turn message?
  by_cases hended : d.ended = true
  · rw [if_pos hended, if_pos hended]
    exact .refl d.run
  rw [if_neg hended, if_neg hended]
  rcases d.inbox.receive d.source with ⟨e | m, inbox, source⟩
  · cases e with
    | malformed reason => exact .refl d.run
    | tooLarge size limit => exact .refl d.run
    | _ => exact (Run.plain_close d.run).hears
  · exact Run.hears_dispatch m d.run

/-- Whether two readers have the same before them. -/
structure SameStream (d d' : Reading H) : Prop where
  inbox_eq : d.inbox = d'.inbox
  source_eq : d.source = d'.source
  ended_eq : d.ended = d'.ended

theorem SameStream.message?_eq (h : SameStream d d') : d.message? = d'.message? := by
  unfold message?
  rw [h.inbox_eq, h.source_eq, h.ended_eq]

/-- What a reader has before it is changed by its own turns only, and by what it has before it. -/
theorem SameStream.turn (h : SameStream d d') : SameStream d.turn d'.turn := by
  unfold Reading.turn
  rw [h.inbox_eq, h.source_eq, h.ended_eq]
  by_cases hended : d'.ended = true
  · rw [if_pos hended, if_pos hended]
    exact h
  rw [if_neg hended, if_neg hended]
  rcases d'.inbox.receive d'.source with ⟨e | m, inbox, source⟩
  · cases e <;> exact ⟨rfl, rfl, rfl⟩
  · exact ⟨rfl, rfl, rfl⟩

end Reading

/-! ## The thread -/

/-- How a call comes to its end: it returns, or a panic unwinds it, with a text. -/
abbrev Ending := Except String Unit

/-- A guarded call: a panic is caught where the call was made, and unwinds nothing else. -/
def guarded (call : Ending) : Ending := do
  let _ ← observing call

theorem guarded_eq_ok (call : Ending) : guarded call = .ok () := by
  cases call <;> rfl

/-- Where the thread is that handles notices. -/
inductive Post (H : Type) where
  /-- It waits for the next notice. -/
  | free
  /-- It has called a handler with a notice. -/
  | busy (handler : H) (m : Message)
  /-- A panic has ended it. -/
  | gone

/-- Where the thread gets with a notice whose command has this handler, or none. -/
def Post.ofHandler? (m : Message) : Option H → Post H
  | some handler => .busy handler m
  | none => .free

/-- Where the thread gets when what it has called comes to its end: a panic that is not caught ends it. -/
def Post.ofEnding : Ending → Post H
  | .ok () => .free
  | .error _ => .gone

theorem Post.ofHandler?_ne_gone (m : Message) (handler? : Option H) : ofHandler? m handler? ≠ .gone := by
  intro h
  cases handler? <;> cases h

/-- What can happen next. -/
inductive Doing (H : Type) where
  /-- Somebody acts; the thread does so when the oldest notice is handled. -/
  | act (a : Action H)
  /-- It is the reader's turn. -/
  | turn
  /-- The handler that was called comes to its end. -/
  | leave (ending : Ending)

/-- A run with its reader and the thread that handles notices. -/
structure Handling (H : Type) where
  reading : Reading H
  post : Post H := .free
  /-- What has happened so far, oldest first. -/
  past : List (Doing H) := []
  /-- The notices that the thread has taken up, oldest first, each with what had happened before. -/
  taken : List (List (Doing H) × Message) := []

namespace Handling

/-- The thread takes the oldest notice up if it waits for one: it looks for the handler that the command has
now, and calls it. -/
def take (d : Handling H) : Handling H :=
  match d.post, d.reading.run.client.notices with
  | .free, m :: _ =>
    { d with
      reading := d.reading.next (some .handle)
      post := .ofHandler? m (d.reading.run.client.handler? m.command)
      taken := d.taken ++ [(d.past, m)] }
  | _, _ => d

/-- The handler that was called comes to its end.  It was called guarded. -/
def leave (ending : Ending) (d : Handling H) : Handling H :=
  match d.post with
  | .busy _ _ => { d with post := .ofEnding (guarded ending) }
  | .free | .gone => d

/-- What a doing does. -/
def perform (d : Handling H) : Doing H → Handling H
  | .act .handle => d.take
  | .act a => { d with reading := d.reading.next (some a) }
  | .turn => { d with reading := d.reading.next none }
  | .leave ending => d.leave ending

theorem perform_act (d : Handling H) {a : Action H} (h : a ≠ .handle) :
    d.perform (.act a) = { d with reading := d.reading.next (some a) } := by
  cases a with
  | handle => exact absurd rfl h
  | _ => rfl

/-- Something happens. -/
def next (d : Handling H) (doing : Doing H) : Handling H :=
  { d.perform doing with past := d.past ++ [doing] }

/-- The state after all this. -/
def after (config : ClientConfig) (sink : Sink) (items : List Supply) (doings : List (Doing H)) : Handling H :=
  doings.foldl next { reading := .ofItems config sink items }

theorem after_append (config : ClientConfig) (sink : Sink) (items : List Supply) (past more : List (Doing H)) :
    after config sink items (past ++ more) = more.foldl next (after config sink items past) :=
  List.foldl_append

end Handling

/-! ## What should come of it -/

/-- What a doing makes the handler of a command: one that is registered, none, or what it was. -/
def Doing.handler? (command : UInt32) : Doing H → Option (Option H)
  | .act (.register command' h) => if command = command' then some (some h) else none
  | .act (.unregister command') => if command = command' then some none else none
  | _ => none

/-- Who changes a handler registers one or takes one away. -/
theorem Doing.of_handler? {doing : Doing H} (h : ¬∀ command, doing.handler? command = none) :
    (∃ command handler, doing = .act (.register command handler)) ∨ ∃ command, doing = .act (.unregister command) := by
  cases doing with
  | turn => exact absurd (fun _ => rfl) h
  | leave ending => exact absurd (fun _ => rfl) h
  | act a =>
    cases a with
    | register command handler => exact .inl ⟨command, handler, rfl⟩
    | unregister command => exact .inr ⟨command, rfl⟩
    | _ => exact absurd (fun _ => rfl) h

/-- The handler that a command has after all this: the last one registered for it, if none was taken away
since. -/
def registered (command : UInt32) (doings : List (Doing H)) : Option H :=
  (doings.filterMap (Doing.handler? command)).getLast?.join

theorem registered_append_singleton (command : UInt32) (doings : List (Doing H)) (doing : Doing H) :
    registered command (doings ++ [doing]) = (doing.handler? command).getD (registered command doings) := by
  unfold registered
  rw [List.filterMap_append]
  cases hhandler : doing.handler? command with
  | none =>
    have hnone : [doing].filterMap (Doing.handler? command) = [] := by simp [hhandler]
    rw [hnone, List.append_nil]
    rfl
  | some h? =>
    have hsome : [doing].filterMap (Doing.handler? command) = [h?] := by simp [hhandler]
    rw [hsome, List.getLast?_concat]
    rfl

/-- Whether a doing lets messages arrive. -/
def Doing.isArrival : Doing H → Bool
  | .act (.dispatch _) | .turn => true
  | _ => false

/-- The message that a doing dispatches, if the reader is there. -/
def Doing.message? (d : Reading H) : Doing H → Option Message
  | .act a => a.message?
  | .turn => d.message?
  | .leave _ => none

/-- A doing, but that no handler panics. -/
def Doing.calm : Doing H → Doing H
  | .leave _ => .leave (.ok ())
  | doing => doing

/-- The thread has its turn so often, after each of these endings of the handler before. -/
def rounds (endings : List Ending) : List (Doing H) :=
  endings.flatMap fun ending => [.leave ending, .act .handle]

namespace Handling

/-- Each notice is taken up once, in the order of arrival, and handed to the handler that its command has
then. -/
structure Orderly (d : Handling H) : Prop where
  handler_eq : ∀ command, d.reading.run.client.handler? command = registered command d.past
  /-- Those that were taken up, and behind them those that still wait, are the notices that were dispatched. -/
  taken_eq : d.taken.map Prod.snd ++ d.reading.run.client.notices = unasked d.reading.run.log
  /-- Each was taken up at a moment of its own, -/
  moments : d.taken.Pairwise fun s t => s.1 ++ [.act .handle] <+: t.1
  moment_prefix : ∀ t ∈ d.taken, t.1 ++ [.act .handle] <+: d.past
  /-- and the handler of its command at that moment was called with it, and no other. -/
  handled_eq : d.reading.run.client.handled
    = d.taken.filterMap fun t => (registered t.2.command t.1).map fun h => (h, t.2)
  /-- No panic has ended the thread. -/
  post_ne : d.post ≠ .gone

/-! ## One doing -/

variable {d : Handling H}

/-- A doing that has nothing to do with handlers, and by which notices arrive, or none. -/
theorem Orderly.hear (h : d.Orderly) {d' : Handling H} {ms : List Message} {doing : Doing H}
    (hhandler : ∀ command, doing.handler? command = none) (hhears : Run.Hears d.reading.run d'.reading.run ms)
    (htaken : d'.taken = d.taken) (hpast : d'.past = d.past ++ [doing]) (hpost : d'.post ≠ .gone) :
    d'.Orderly where
  handler_eq command := by
    rw [Client.handler?_congr hhears.handlers_eq, h.handler_eq, hpast, registered_append_singleton, hhandler]
    rfl
  taken_eq := by rw [htaken, hhears.notices_eq, hhears.unasked_eq, ← h.taken_eq, List.append_assoc]
  moments := htaken ▸ h.moments
  moment_prefix t ht := by
    rw [hpast]
    exact (h.moment_prefix t (htaken ▸ ht)).trans (List.prefix_append _ _)
  handled_eq := by rw [hhears.handled_eq, htaken, h.handled_eq]
  post_ne := hpost

/-- A doing that changes who handles what. -/
theorem Orderly.enter (h : d.Orderly) {a : Action H} {handlers : List (UInt32 × H)}
    (hnext : d.perform (.act a) = { d with reading := { d.reading with run := { d.reading.run with
      client := { d.reading.run.client with handlers } } } })
    (hhandler : ∀ command, ({ d.reading.run.client with handlers } : Client H).handler? command
      = ((Doing.act a).handler? command).getD (d.reading.run.client.handler? command)) :
    (d.next (.act a)).Orderly := by
  unfold next
  rw [hnext]
  constructor
  · intro command
    show ({ d.reading.run.client with handlers } : Client H).handler? command
      = registered command (d.past ++ [.act a])
    rw [hhandler, registered_append_singleton, h.handler_eq]
  · exact h.taken_eq
  · exact h.moments
  · intro t ht
    exact (h.moment_prefix t ht).trans (List.prefix_append _ _)
  · exact h.handled_eq
  · exact h.post_ne

/-- The thread has nothing to take up, or takes the oldest notice up. -/
theorem take_cases (d : Handling H) : d.take = d ∨ ∃ m rest, d.post = .free ∧
    d.reading.run.client.notices = m :: rest ∧ d.take = { d with
      reading := d.reading.next (some .handle)
      post := .ofHandler? m (d.reading.run.client.handler? m.command)
      taken := d.taken ++ [(d.past, m)] } := by
  unfold take
  cases hpost : d.post with
  | free =>
    cases hnotices : d.reading.run.client.notices with
    | nil => exact .inl rfl
    | cons m rest => exact .inr ⟨m, rest, rfl, rfl, rfl⟩
  | busy handler m => exact .inl rfl
  | gone => exact .inl rfl

theorem Orderly.take (h : d.Orderly) : (d.next (.act .handle)).Orderly := by
  obtain hidle | ⟨m, rest, hfree, hnotices, htake⟩ := d.take_cases
  · have hhears : Run.Hears d.reading.run (d.next (.act .handle)).reading.run [] := by
      show Run.Hears d.reading.run d.take.reading.run []
      rw [hidle]
      exact .refl _
    refine h.hear (fun _ => rfl) hhears ?_ rfl ?_
    · show d.take.taken = d.taken
      rw [hidle]
    · show d.take.post ≠ .gone
      rw [hidle]
      exact h.post_ne
  -- the notice gets from the front of those that wait to the end of those that were taken up
  have hclient : (d.next (.act .handle)).reading.run.client = d.reading.run.client.handleNext := by
    show d.take.reading.run.client = _
    rw [htake]
    rfl
  have htaken : (d.next (.act .handle)).taken = d.taken ++ [(d.past, m)] := by
    show d.take.taken = _
    rw [htake]
  have hpast : (d.next (.act .handle)).past = d.past ++ [.act .handle] := rfl
  rw [Client.handleNext_cons hnotices] at hclient
  constructor
  · intro command
    rw [hclient, hpast, registered_append_singleton]
    exact (Client.handler?_congr rfl command).trans (h.handler_eq command)
  · have hlog : (d.next (.act .handle)).reading.run.log = d.reading.run.log := by
      show d.take.reading.run.log = _
      rw [htake]
      rfl
    rw [hclient, htaken, hlog, ← h.taken_eq, hnotices, List.map_append, List.append_assoc]
    rfl
  · rw [htaken, List.pairwise_append]
    refine ⟨h.moments, List.pairwise_singleton _ _, ?_⟩
    intro s hs t ht
    obtain rfl := List.mem_singleton.mp ht
    exact h.moment_prefix s hs
  · intro t ht
    rw [htaken, List.mem_append, List.mem_singleton] at ht
    obtain ht | rfl := ht
    · exact (h.moment_prefix t ht).trans (List.prefix_append _ _)
    · exact List.prefix_refl _
  · rw [hclient, htaken, List.filterMap_append, ← h.handled_eq]
    dsimp only
    rw [h.handler_eq]
    cases hregistered : registered m.command d.past with
    | none => simp [hregistered]
    | some handler => simp [hregistered]
  · show d.take.post ≠ .gone
    rw [htake]
    exact Post.ofHandler?_ne_gone m _

theorem leave_post (ending : Ending) (h : d.post ≠ .gone) : (d.leave ending).post = .free := by
  unfold leave
  cases hpost : d.post with
  | free => exact hpost
  | busy handler m =>
    show Post.ofEnding (guarded ending) = .free
    rw [guarded_eq_ok]
    rfl
  | gone => exact absurd hpost h

theorem leave_frame (ending : Ending) (d : Handling H) :
    (d.leave ending).reading = d.reading ∧ (d.leave ending).taken = d.taken := by
  unfold leave
  cases d.post <;> exact ⟨rfl, rfl⟩

/-- A doing that has nothing to do with handlers. -/
theorem hears_perform (d : Handling H) {doing : Doing H} (hhandler : ∀ command, doing.handler? command = none)
    (hhandle : doing ≠ .act .handle) :
    Run.Hears d.reading.run (d.perform doing).reading.run
        (noticed d.reading.run.client.config.threshold (doing.message? d.reading)) ∧
      (d.perform doing).taken = d.taken ∧ (d.post ≠ .gone → (d.perform doing).post ≠ .gone) := by
  cases doing with
  | turn => exact ⟨d.reading.hears_turn, rfl, id⟩
  | leave ending =>
    obtain ⟨hreading, htaken⟩ := d.leave_frame ending
    refine ⟨?_, htaken, fun h => ?_⟩
    · show Run.Hears d.reading.run (d.leave ending).reading.run []
      rw [hreading]
      exact .refl _
    · show (d.leave ending).post ≠ .gone
      rw [leave_post ending h]
      simp
  | act a =>
    -- most actions are plain, and by those nothing arrives
    by_cases hplain : a.isPlain = true
    · have hmessage : a.message? = none := by
        cases a with
        | dispatch m => cases hplain
        | _ => rfl
      rw [d.perform_act fun h => hhandle (congrArg Doing.act h)]
      refine ⟨?_, rfl, id⟩
      show Run.Hears d.reading.run (d.reading.run.step a) (noticed _ a.message?)
      rw [hmessage]
      exact (Run.plain_step _ hplain).hears
    · cases a with
      | start p command body timeout => exact ⟨Run.hears_start p command body timeout _, rfl, id⟩
      | dispatch m => exact ⟨Run.hears_dispatch m _, rfl, id⟩
      | handle => exact absurd rfl hhandle
      | register command handler => simpa [Doing.handler?] using hhandler command
      | unregister command => simpa [Doing.handler?] using hhandler command
      | _ => exact absurd rfl hplain

/-- Every doing keeps the order. -/
theorem Orderly.next (h : d.Orderly) (doing : Doing H) : (d.next doing).Orderly := by
  -- the thread's own turn, a change of handlers, or something that concerns neither
  by_cases hhandle : doing = .act .handle
  · subst hhandle
    exact h.take
  by_cases hhandler : ∀ command, doing.handler? command = none
  · obtain ⟨hhears, htaken, hpost⟩ := d.hears_perform hhandler hhandle
    exact h.hear hhandler hhears htaken rfl (hpost h.post_ne)
  · obtain ⟨command, handler, rfl⟩ | ⟨command, rfl⟩ := Doing.of_handler? hhandler
    · apply h.enter rfl
      intro command'
      rw [Doing.handler?]
      refine (Client.handler?_register command handler d.reading.run.client command').trans ?_
      by_cases heq : command' = command
      · rw [if_pos heq, if_pos heq]
        rfl
      · rw [if_neg heq, if_neg heq]
        rfl
    · apply h.enter rfl
      intro command'
      rw [Doing.handler?]
      refine (Client.handler?_unregister command d.reading.run.client command').trans ?_
      by_cases heq : command' = command
      · rw [if_pos heq, if_pos heq]
        rfl
      · rw [if_neg heq, if_neg heq]
        rfl

/-! ## All doings -/

variable (config : ClientConfig) (sink : Sink) (items : List Supply)

theorem orderly_after (doings : List (Doing H)) : (after config sink items doings).Orderly := by
  induction doings using List.reverseRecOn with
  | nil =>
    constructor
    · intro command
      rfl
    · rfl
    · exact .nil
    · intro t ht
      cases ht
    · rfl
    · exact fun h => by cases h
  | append_singleton past doing ih =>
    rw [after_append]
    exact ih.next doing

theorem past_after (doings : List (Doing H)) : (after config sink items doings).past = doings := by
  induction doings using List.reverseRecOn with
  | nil => rfl
  | append_singleton past doing ih =>
    rw [after_append]
    show (after config sink items past).past ++ [doing] = _
    rw [ih]

/-- A doing is a step of the run and its reader, or none. -/
theorem reading_next (d : Handling H) (doing : Doing H) :
    (d.next doing).reading = d.reading ∨ ∃ x, (d.next doing).reading = d.reading.next x := by
  show (d.perform doing).reading = _ ∨ ∃ x, (d.perform doing).reading = _
  cases doing with
  | turn => exact .inr ⟨none, rfl⟩
  | leave ending => exact .inl (d.leave_frame ending).1
  | act a =>
    by_cases hhandle : a = .handle
    · subst hhandle
      obtain hidle | ⟨m, rest, -, -, htake⟩ := d.take_cases
      · exact .inl (congrArg reading hidle)
      · exact .inr ⟨some .handle, congrArg reading htake⟩
    · exact .inr ⟨some a, congrArg reading (d.perform_act hhandle)⟩

/-- What a run with its thread does is what a run with its reader does. -/
theorem reading_after (doings : List (Doing H)) : ∃ schedule : List (Option (Action H)),
    (after config sink items doings).reading = Reading.after config sink items schedule := by
  induction doings using List.reverseRecOn with
  | nil => exact ⟨[], rfl⟩
  | append_singleton past doing ih =>
    obtain ⟨schedule, hschedule⟩ := ih
    rw [after_append, List.foldl_cons, List.foldl_nil]
    obtain hsame | ⟨x, hnext⟩ := reading_next (after config sink items past) doing
    · exact ⟨schedule, hsame.trans hschedule⟩
    · refine ⟨schedule ++ [x], ?_⟩
      rw [hnext, hschedule, Reading.after_append]
      rfl

theorem config_after (doings : List (Doing H)) :
    (after config sink items doings).reading.run.client.config = config := by
  obtain ⟨schedule, hreading⟩ := reading_after config sink items doings
  obtain ⟨actions, hrun⟩ := Reading.run_after config sink items schedule
  rw [hreading, hrun, Run.config_after]

/-! ### What arrives -/

/-- Two states in which the same has arrived and is still to come. -/
structure Echo (d d' : Handling H) : Prop where
  stream : d.reading.SameStream d'.reading
  unasked_eq : unasked d.reading.run.log = unasked d'.reading.run.log

/-- By each doing the notice arrives that it dispatches, if it does. -/
theorem unasked_next (d : Handling H) (doing : Doing H) : unasked (d.next doing).reading.run.log
    = unasked d.reading.run.log ++ noticed d.reading.run.client.config.threshold (doing.message? d.reading) := by
  show unasked (d.perform doing).reading.run.log = _
  by_cases hhandle : doing = .act .handle
  · subst hhandle
    show unasked d.take.reading.run.log = _ ++ []
    rw [List.append_nil]
    obtain hidle | ⟨m, rest, -, -, htake⟩ := d.take_cases
    · rw [hidle]
    · rw [htake]
      rfl
  by_cases hhandler : ∀ command, doing.handler? command = none
  · exact (d.hears_perform hhandler hhandle).1.unasked_eq
  · obtain ⟨command, handler, rfl⟩ | ⟨command, rfl⟩ := Doing.of_handler? hhandler
    · exact (List.append_nil _).symm
    · exact (List.append_nil _).symm

/-- Only its own turns change what the reader has before it. -/
theorem sameStream_next (d : Handling H) {doing : Doing H} (h : doing ≠ .turn) :
    (d.next doing).reading.SameStream d.reading := by
  cases doing with
  | turn => exact absurd rfl h
  | leave ending =>
    show (d.leave ending).reading.SameStream d.reading
    rw [(d.leave_frame ending).1]
    exact ⟨rfl, rfl, rfl⟩
  | act a =>
    show (d.perform (.act a)).reading.SameStream d.reading
    by_cases hhandle : a = .handle
    · subst hhandle
      show d.take.reading.SameStream d.reading
      obtain hidle | ⟨m, rest, -, -, htake⟩ := d.take_cases
      · rw [hidle]
        exact ⟨rfl, rfl, rfl⟩
      · rw [htake]
        exact ⟨rfl, rfl, rfl⟩
    · rw [d.perform_act hhandle]
      exact ⟨rfl, rfl, rfl⟩

/-- What is no arrival makes no difference to what has arrived and is still to come. -/
theorem echo_after (doings : List (Doing H)) :
    Echo (after config sink items doings) (after config sink items (doings.filter Doing.isArrival)) := by
  induction doings using List.reverseRecOn with
  | nil => exact ⟨⟨rfl, rfl, rfl⟩, rfl⟩
  | append_singleton past doing ih =>
    have hconfig := config_after config sink items past
    have hconfig' := config_after config sink items (past.filter Doing.isArrival)
    rw [List.filter_append, after_append]
    by_cases harrival : doing.isArrival = true
    · -- both have the same before them, so that the same arrives in both
      rw [List.filter_cons_of_pos harrival, List.filter_nil, after_append]
      constructor
      · cases doing with
        | turn => exact ih.stream.turn
        | leave ending => cases harrival
        | act a =>
          cases a with
          | dispatch m => exact ⟨ih.stream.inbox_eq, ih.stream.source_eq, ih.stream.ended_eq⟩
          | _ => cases harrival
      · have hmessage : doing.message? (after config sink items past).reading
            = doing.message? (after config sink items (past.filter Doing.isArrival)).reading := by
          cases doing with
          | turn => exact ih.stream.message?_eq
          | leave ending => rfl
          | act a => rfl
        rw [List.foldl_cons, List.foldl_cons, List.foldl_nil, List.foldl_nil, unasked_next, unasked_next, hconfig,
          hconfig', ih.unasked_eq, hmessage]
    · -- nothing arrives here, and the other one does nothing
      rw [List.filter_cons_of_neg harrival, List.filter_nil, List.append_nil, List.foldl_cons, List.foldl_nil]
      have hturn : doing ≠ .turn := by
        rintro rfl
        exact harrival rfl
      have hnone : doing.message? (after config sink items past).reading = none := by
        cases doing with
        | turn => exact absurd rfl hturn
        | leave ending => rfl
        | act a =>
          cases a with
          | dispatch m => exact absurd rfl harrival
          | _ => rfl
      have hstream := sameStream_next (after config sink items past) hturn
      constructor
      · exact ⟨hstream.inbox_eq.trans ih.stream.inbox_eq, hstream.source_eq.trans ih.stream.source_eq,
          hstream.ended_eq.trans ih.stream.ended_eq⟩
      · rw [unasked_next, hnone, ← ih.unasked_eq]
        exact List.append_nil _

/-! ### Panics -/

/-- The same, but that no handler has panicked. -/
def calm (d : Handling H) : Handling H :=
  { d with past := d.past.map Doing.calm, taken := d.taken.map fun t => (t.1.map Doing.calm, t.2) }

theorem calm_take (d : Handling H) : d.take.calm = d.calm.take := by
  obtain ⟨reading, post, past, taken⟩ := d
  unfold take calm
  cases post with
  | free => cases hnotices : reading.run.client.notices <;> simp
  | busy handler m => rfl
  | gone => rfl

theorem calm_leave (ending : Ending) (d : Handling H) : (d.leave ending).calm = d.calm.leave (.ok ()) := by
  obtain ⟨reading, post, past, taken⟩ := d
  unfold leave calm
  cases post with
  | free => rfl
  | busy handler m =>
    dsimp only
    rw [guarded_eq_ok, guarded_eq_ok]
  | gone => rfl

/-- The thread does the same whether the handler panics or not. -/
theorem calm_next (d : Handling H) (doing : Doing H) : (d.next doing).calm = d.calm.next doing.calm := by
  have hperform : (d.perform doing).calm = d.calm.perform doing.calm := by
    cases doing with
    | turn => rfl
    | leave ending => exact calm_leave ending d
    | act a =>
      by_cases hhandle : a = .handle
      · subst hhandle
        exact calm_take d
      · show (d.perform (.act a)).calm = d.calm.perform (.act a)
        rw [d.perform_act hhandle, d.calm.perform_act hhandle]
        rfl
  have hpast : (d.past ++ [doing]).map Doing.calm = d.past.map Doing.calm ++ [doing.calm] := List.map_append
  show { (d.perform doing).calm with past := (d.past ++ [doing]).map Doing.calm } = _
  rw [hperform, hpast]
  rfl

theorem calm_after (doings : List (Doing H)) :
    (after config sink items doings).calm = after config sink items (doings.map Doing.calm) := by
  induction doings using List.reverseRecOn with
  | nil => rfl
  | append_singleton past doing ih =>
    rw [List.map_append, after_append, after_append, ← ih]
    exact calm_next _ doing

/-! ### The thread's turns -/

/-- A thread that waits takes the oldest notice up, if there is one. -/
theorem notices_take {d : Handling H} (hfree : d.post = .free) : (d.next (.act .handle)).post ≠ .gone ∧
    (d.next (.act .handle)).reading.run.client.notices = d.reading.run.client.notices.drop 1 := by
  show d.take.post ≠ .gone ∧ d.take.reading.run.client.notices = _
  unfold take
  rw [hfree]
  cases hnotices : d.reading.run.client.notices with
  | nil =>
    dsimp only
    rw [hfree, hnotices]
    exact ⟨by simp, rfl⟩
  | cons m rest =>
    refine ⟨Post.ofHandler?_ne_gone m _, ?_⟩
    show d.reading.run.client.handleNext.notices = rest
    rw [Client.handleNext_cons hnotices]

/-- The thread takes up as many of the notices that wait as it has turns. -/
theorem notices_rounds {d : Handling H} (hpost : d.post ≠ .gone) (endings : List Ending) :
    ((rounds endings).foldl next d).reading.run.client.notices
        = d.reading.run.client.notices.drop endings.length ∧
      unasked ((rounds endings).foldl next d).reading.run.log = unasked d.reading.run.log := by
  induction endings generalizing d with
  | nil => exact ⟨rfl, rfl⟩
  | cons ending endings ih =>
    -- when the handler before has come to its end, the thread waits again
    have hfree : (d.next (.leave ending)).post = .free := leave_post ending hpost
    have hsame : (d.next (.leave ending)).reading = d.reading := (d.leave_frame ending).1
    obtain ⟨hpost', hnotices⟩ := notices_take hfree
    obtain ⟨hrest, hlog⟩ := ih hpost'
    refine ⟨hrest.trans ?_, hlog.trans ?_⟩
    · rw [hnotices, hsame, List.drop_drop, List.length_cons, Nat.add_comm]
    · rw [unasked_next, hsame]
      exact List.append_nil _

/-- What comes of the notices of a run, whatever has happened. -/
structure Faithful (config : ClientConfig) (sink : Sink) (items : List Supply) (doings : List (Doing H)) :
    Prop where
  past_eq : (after config sink items doings).past = doings
  orderly : (after config sink items doings).Orderly
  /-- Which notices arrive depends on the stream and on the reader's turns alone, and not on whether the client
  has been shut down, nor on what its callers or its handlers do. -/
  arrivals_eq : unasked (after config sink items doings).reading.run.log
    = unasked (after config sink items (doings.filter Doing.isArrival)).reading.run.log
  /-- Whether handlers panic makes no difference to anything. -/
  calm_eq : (after config sink items doings).calm = after config sink items (doings.map Doing.calm)
  /-- When the thread has had its turn often enough, all that have arrived have been taken up. -/
  all_taken : ∀ endings, (after config sink items doings).reading.run.client.notices.length ≤ endings.length →
    (after config sink items (doings ++ rounds endings)).taken.map Prod.snd
      = unasked (after config sink items doings).reading.run.log

/-- In every run, with any handlers registered, replaced and taken away at any time, the notices that arrive
are taken up in the order of their arrival, each once, and each is handed to exactly the handler that its
command has at that moment, or to none; neither a panic nor a shutdown makes any difference. -/
theorem notices_handled_once_in_order (config : ClientConfig) (sink : Sink) (items : List Supply)
    (doings : List (Doing H)) : Faithful config sink items doings where
  past_eq := past_after config sink items doings
  orderly := orderly_after config sink items doings
  arrivals_eq := (echo_after config sink items doings).unasked_eq
  calm_eq := calm_after config sink items doings
  all_taken endings hendings := by
    -- no notice waits any more, so that all are among those that were taken up
    obtain ⟨hnotices, hlog⟩ := notices_rounds (orderly_after config sink items doings).post_ne endings
    rw [← after_append] at hnotices hlog
    have htaken := (orderly_after config sink items (doings ++ rounds endings)).taken_eq
    rw [hnotices, hlog, List.drop_of_length_le hendings, List.append_nil] at htaken
    exact htaken

/-- The handler 7 panics, the client is shut down, and the handler 8 has come in the meantime. -/
example : (after {} {} [] [.act (.register 5 7), .act (.dispatch ⟨16, 16, 5, 0, []⟩),
      .act (.dispatch ⟨16, 16, 6, 0, []⟩), .act .handle, .act (.register 6 8), .act .handle,
      .leave (.error "no"), .act .close, .act .handle, .act (.unregister 5), .leave (.ok ()),
      .act (.dispatch ⟨16, 16, 5, 0, []⟩), .act (.dispatch ⟨17, 17, 6, 0, [1]⟩), .act .handle, .act .handle] :
        Handling Nat).reading.run.client.handled
    = [(7, ⟨16, 16, 5, 0, []⟩), (8, ⟨16, 16, 6, 0, []⟩), (8, ⟨17, 17, 6, 0, [1]⟩)] := by
  decide

end Handling

end Wwan
