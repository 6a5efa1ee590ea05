import Wwan.Proofs.Client.Observers
import Wwan.Proofs.Client.Posted
import Wwan.Proofs.Modem.Dialogue
import Wwan.Proofs.Modem.Waiting

/-!
# Sessions among others

Whoever carries out a session shares the client with other callers, with the reader of the channel, with
the handlers and with the clock.  A `Thread` is a session that is carried out in steps that cannot be
interrupted, and any number of steps of the others may lie between two of its own.  `Thread.Move` says once
what a turn can do.  Whatever the order of the turns, a session does what its law allows
(`Thread.keeps_play`), and each of its deeds was done at a turn (`Thread.exists_turn`).
-/

namespace Wwan

/-- What a call has returned, as a record tells it. -/
def returned? (token : Nat) (log : List Event) : Option (Except CallError Reply) :=
  (log.filterMap fun
    | .returned token' result => if token' = token then some result else none
    | _ => none).getLast?

theorem mem_of_returned? {token : Nat} {log : List Event} {result : Except CallError Reply}
    (h : returned? token log = some result) : .returned token result ∈ log := by
  obtain ⟨e, he, hresult⟩ := List.mem_filterMap.mp (List.mem_of_getLast? h)
  cases e <;> try cases hresult
  next token' result' =>
    by_cases htoken : token' = token
    · simp only [if_pos htoken, Option.some.injEq] at hresult
      rwa [← htoken, ← hresult]
    · simp [htoken] at hresult

theorem exists_returned?_of_mem {token : Nat} {log : List Event} {result : Except CallError Reply}
    (h : .returned token result ∈ log) : ∃ result', returned? token log = some result' := by
  rw [← Option.isSome_iff_exists, returned?, List.getLast?_isSome]
  refine List.ne_nil_of_mem (List.mem_filterMap.mpr ⟨_, h, ?_⟩) (a := result)
  exact if_pos rfl

theorem returned?_concat (token : Nat) (log : List Event) (result : Except CallError Reply) :
    returned? token (log ++ [.returned token result]) = some result := by
  rw [returned?, List.filterMap_append]
  simp

/-! ## What handlers have heard -/

/-- What a handler was told of the leave to attach. -/
def toldLeave : NoticeId × Message → Option Bool
  | (.attachAllowed, m) => Modem.attachAllowed? m.body
  | _ => none

/-- Whether the network last told that attaching is allowed, as far as its notices were handled. -/
def hasLeave (handled : List (NoticeId × Message)) : Bool :=
  handled.foldl (fun allowed x => (toldLeave x).getD allowed) false

theorem hasLeave_append (handled heard : List (NoticeId × Message)) : hasLeave (handled ++ heard)
    = heard.foldl (fun allowed x => (toldLeave x).getD allowed) (hasLeave handled) :=
  List.foldl_append

/-- The confirmations of the mode that were handled. -/
def confirmed (handled : List (NoticeId × Message)) : List Bytes :=
  handled.filterMap fun
    | (.modeSet, m) => some m.body
    | _ => none

theorem confirmed_append (handled heard : List (NoticeId × Message)) :
    confirmed (handled ++ heard) = confirmed handled ++ confirmed heard :=
  List.filterMap_append

/-! ## Threads -/

/-- How far a thread has got with an act. -/
inductive Place where
  | before
  /-- Attaching was seen not to be allowed. -/
  | denied
  /-- What it has entered into the table under this token is to return. -/
  | waiting (token : Nat)

/-- A session that is carried out while others use the client. -/
structure Thread (α : Type) where
  run : Run NoticeId
  /-- What is left of the session, with the act that is being carried out. -/
  session : Session α
  place : Place := .before
  /-- What was done so far. -/
  deeds : List Deed := []
  /-- The calls that were made so far, oldest first: their tokens, if they could begin. -/
  calls : List (Option Nat) := []
  /-- How many confirmations were taken or came before they were waited for. -/
  taken : Nat := 0

/-- What happens next. -/
inductive Thread.Turn where
  /-- Something happens on the client. -/
  | client (a : Action NoticeId)
  /-- The thread goes on.  Should it begin to watch for the next message, it does so for this long. -/
  | thread (slice : Span)
  /-- The thread sees that the time of its act has passed. -/
  | late

/-- Whether an act is neither a call nor a wait for leave. -/
def Act.isOther : Act → Bool
  | .call _ _ _ _ | .attachAllowed _ => false
  | .listen | .unlisten | .confirmation _ | .pause _ => true

namespace Thread

variable {α : Type}

/-- A thread on a client that was used before, and to which the modem's handler was given then. -/
def start (config : ClientConfig) (sink : Sink) (past : List (Action NoticeId)) (session : Session α) :
    Thread α where
  run := (Run.after config sink past).step (.register NoticeId.attachAllowed.code .attachAllowed)
  session := session

/-- An act is done. -/
def finish (a : Act) (r : a.Answer) (session : Session α) (t : Thread α) : Thread α :=
  { t with session, place := .before, deeds := t.deeds ++ [⟨a, r⟩] }

/-- Goes on with a call: makes it once the writer is free, and sees what it returns. -/
def goOnCall (p : Purpose) (command : UInt32) (body : Bytes) (timeout : Span)
    (next : Except CallError Bytes → Session α) (t : Thread α) : Thread α :=
  match t.place with
  | .waiting token =>
    match returned? token t.run.log with
    | some r =>
      let r := r.map Stage.replyBody
      t.finish (.call p command body timeout) r (next r)
    | none => t
  | _ =>
    if t.run.draft.isSome then t
    else
      let run := t.run.step (.start p command body timeout)
      match t.run.client.begin p command timeout with
      | (.ok k, _) => { t with run, place := .waiting k.token, calls := t.calls ++ [some k.token] }
      | (.error e, _) =>
        { t with run, calls := t.calls ++ [none] }.finish (.call p command body timeout) (.error e)
          (next (.error e))

/-- What the end of a watch for the next message decides about the leave to attach. -/
def decides : Except CallError Reply → Option (Except CallError Unit)
  | .error (.timeout _ _) => none
  | r => Stage.leave? (some r)

/-- Goes on with the wait for leave: looks at what the handler has heard, watches for the next message, and
sees what that tells. -/
def goOnLeave (timeout slice : Span) (next : Except CallError Unit → Session α) (t : Thread α) : Thread α :=
  match t.place with
  | .before =>
    if hasLeave t.run.client.handled then t.finish (.attachAllowed timeout) (.ok ()) (next (.ok ()))
    else { t with place := .denied }
  | .denied =>
    let run := t.run.step (.observe slice)
    match t.run.client.observe slice with
    | (.ok k, _) => { t with run, place := .waiting k.token }
    | (.error e, _) => { t with run }.finish (.attachAllowed timeout) (.error e) (next (.error e))
  | .waiting token =>
    match returned? token t.run.log with
    | some r =>
      match decides r with
      | some r => t.finish (.attachAllowed timeout) r (next r)
      | none => { t with place := .before }
    | none => t

/-- One turn. -/
def step (t : Thread α) : Turn → Thread α
  | .client a => { t with run := t.run.step a }
  | .thread slice =>
    match t.session with
    | .pure _ => t
    | .act (.call p command body timeout) next => t.goOnCall p command body timeout next
    | .act .listen next =>
      { t with
        run := t.run.step (.register NoticeId.modeSet.code .modeSet)
        taken := (confirmed t.run.client.handled).length }.finish .listen () (next ())
    | .act .unlisten next =>
      { t with run := t.run.step (.unregister NoticeId.modeSet.code) }.finish .unlisten () (next ())
    | .act (.confirmation timeout) next =>
      match (confirmed t.run.client.handled)[t.taken]? with
      | some body =>
        { t with taken := t.taken + 1 }.finish (.confirmation timeout) (some body) (next (some body))
      | none => t
    | .act (.attachAllowed timeout) next => t.goOnLeave timeout slice next
    | .act (.pause length) next => t.finish (.pause length) () (next ())
  | .late =>
    match t.session, t.place with
    | .act (.confirmation timeout) next, _ =>
      match (confirmed t.run.client.handled)[t.taken]? with
      | some _ => t
      | none => t.finish (.confirmation timeout) none (next none)
    | .act (.attachAllowed timeout) next, .denied =>
      let r := .error (Stage.notAllowedInTime timeout)
      t.finish (.attachAllowed timeout) r (next r)
    | _, _ => t

/-- The thread after some turns. -/
def play (t : Thread α) (turns : List Turn) : Thread α :=
  turns.foldl step t

theorem play_append (t : Thread α) (past more : List Turn) : t.play (past ++ more) = (t.play past).play more :=
  List.foldl_append

theorem play_concat (t : Thread α) (turns : List Turn) (turn : Turn) :
    t.play (turns ++ [turn]) = (t.play turns).step turn :=
  t.play_append turns [turn]

/-! ## What a turn can do -/

/-- Attaching is allowed, as the handler has heard last or as the message that was watched for tells. -/
def LeaveHeard (t : Thread α) : Prop :=
  hasLeave t.run.client.handled = true ∨ ∃ token m, t.place = .waiting token ∧
    returned? token t.run.log = some (.ok (.summary m)) ∧ Stage.tellsAllowed m = true

/-- What a turn can do to a thread when it leaves the client as it is in `run`. -/
inductive Move (t : Thread α) (run : Run NoticeId) : Thread α → Prop where
  | idle : Move t run { t with run }
  | callBegins {p : Purpose} {command : UInt32} {body : Bytes} {timeout : Span}
      {next : Except CallError Bytes → Session α} {token : Nat} {ticket : Ticket} {number : Option UInt8}
      (session_eq : t.session = .act (.call p command body timeout) next)
      (place_ne : ∀ token, t.place ≠ .waiting token) (ticket_ne : ticket ≠ .observation)
      (lastToken_lt : t.run.client.table.lastToken < token)
      (log_eq : run.log = t.run.log ++ [.started token ticket])
      (draft_eq : run.draft = some (token, ⟨command, number, body⟩)) :
      Move t run { t with run, place := .waiting token, calls := t.calls ++ [some token] }
  | callRefused {p : Purpose} {command : UInt32} {body : Bytes} {timeout : Span}
      {next : Except CallError Bytes → Session α} (e : CallError)
      (session_eq : t.session = .act (.call p command body timeout) next)
      (place_ne : ∀ token, t.place ≠ .waiting token) :
      Move t run ({ t with run, calls := t.calls ++ [none] }.finish (.call p command body timeout)
        (.error e) (next (.error e)))
  | callReturns {p : Purpose} {command : UInt32} {body : Bytes} {timeout : Span}
      {next : Except CallError Bytes → Session α} {token : Nat} {r : Except CallError Reply}
      (session_eq : t.session = .act (.call p command body timeout) next)
      (place_eq : t.place = .waiting token) (returned : returned? token t.run.log = some r) :
      Move t run ({ t with run }.finish (.call p command body timeout) (r.map Stage.replyBody)
        (next (r.map Stage.replyBody)))
  | denied {timeout : Span} {next : Except CallError Unit → Session α}
      (session_eq : t.session = .act (.attachAllowed timeout) next) :
      Move t run { t with run, place := .denied }
  | watchBegins {timeout : Span} {next : Except CallError Unit → Session α} {token : Nat}
      (session_eq : t.session = .act (.attachAllowed timeout) next)
      (log_eq : run.log = t.run.log ++ [.started token .observation]) :
      Move t run { t with run, place := .waiting token }
  | watchEnds {timeout : Span} {next : Except CallError Unit → Session α}
      (session_eq : t.session = .act (.attachAllowed timeout) next) :
      Move t run { t with run, place := .before }
  | waited {timeout : Span} {next : Except CallError Unit → Session α} (r : Except CallError Unit)
      (session_eq : t.session = .act (.attachAllowed timeout) next) (heard : r = .ok () → t.LeaveHeard) :
      Move t run ({ t with run }.finish (.attachAllowed timeout) r (next r))
  | other {a : Act} {next : a.Answer → Session α} (r : a.Answer) (taken : Nat)
      (session_eq : t.session = .act a next) (isOther : a.isOther = true) :
      Move t run ({ t with run, taken }.finish a r (next r))

variable {t t' : Thread α} {run : Run NoticeId}

theorem move_goOnCall {p : Purpose} {command : UInt32} {body : Bytes} {timeout : Span}
    {next : Except CallError Bytes → Session α} (h : t.session = .act (.call p command body timeout) next) :
    t.Move (t.goOnCall p command body timeout next).run (t.goOnCall p command body timeout next) := by
  rw [goOnCall.eq_def]
  by_cases hwaits : ∃ token, t.place = .waiting token
  · obtain ⟨token, hplace⟩ := hwaits
    rw [hplace]
    dsimp only
    split
    · next r hr => exact .callReturns h hplace hr
    · exact .idle
  have hplace : ∀ token, t.place ≠ .waiting token := not_exists.mp hwaits
  split
  · next token heq => exact absurd heq (hplace token)
  split
  · exact .idle
  next hfree =>
  obtain ⟨e, cursor, hbegin⟩ | ⟨k, cursor, hbegin, htoken, -, -, hticket, -⟩ :=
    t.run.client.begin_cases p command timeout
  · rw [hbegin]
    exact .callRefused e h hplace
  · rw [hbegin]
    have hlog : (t.run.step (.start p command body timeout)).log = t.run.log ++ [.started k.token k.ticket] := by
      rw [Run.step, Run.start, if_neg hfree, hbegin]
    have hdraft : (t.run.step (.start p command body timeout)).draft
        = some (k.token, ⟨command, k.ticket.number?, body⟩) := by
      rw [Run.step, Run.start, if_neg hfree, hbegin]
    exact .callBegins h hplace hticket (by omega) hlog hdraft

theorem eq_of_decides {r : Except CallError Reply} (h : decides r = some (.ok ())) :
    ∃ m, r = .ok (.summary m) ∧ Stage.tellsAllowed m = true := by
  rcases r with e | reply
  · cases e <;> cases h
  cases reply with
  | summary m =>
    refine ⟨m, rfl, ?_⟩
    have hleave : (if Stage.tellsAllowed m then some (.ok ()) else none)
      = (some (.ok ()) : Option (Except CallError Unit)) := h
    by_contra hnot
    rw [if_neg hnot] at hleave
    cases hleave
  | _ => cases h

theorem move_goOnLeave {timeout : Span} {next : Except CallError Unit → Session α} (slice : Span)
    (h : t.session = .act (.attachAllowed timeout) next) :
    t.Move (t.goOnLeave timeout slice next).run (t.goOnLeave timeout slice next) := by
  rw [goOnLeave.eq_def]
  split
  · split
    · next hleave => exact .waited (.ok ()) h fun _ => .inl hleave
    · exact .denied h
  · rw [Client.observe]
    by_cases hclosed : t.run.client.table.closed
    · simp only [if_pos hclosed]
      exact .waited (.error .channelClosed) h (by simp)
    · simp only [if_neg hclosed]
      refine .watchBegins h ?_
      rw [Run.step, Run.observe, Client.observe, if_neg hclosed]
  · next token hplace =>
    split
    · next r hr =>
      split
      · next r' hr' =>
        refine .waited r' h fun hok => .inr ?_
        obtain ⟨m, rfl, htells⟩ := eq_of_decides (hr'.trans (congrArg some hok))
        exact ⟨token, m, hplace, hr, htells⟩
      · exact .watchEnds h
    · exact .idle

/-- A turn does nothing but what a move does. -/
theorem move_step (t : Thread α) (turn : Turn) : t.Move (t.step turn).run (t.step turn) := by
  cases turn with
  | client a => exact .idle
  | thread slice =>
    rw [step.eq_def]
    dsimp only
    split
    · exact .idle
    · next h => exact move_goOnCall h
    · next h => exact .other () _ h rfl
    · next h => exact .other () _ h rfl
    · next h =>
      split
      · next body _ => exact .other (some body) _ h rfl
      · exact .idle
    · next h => exact move_goOnLeave slice h
    · next h => exact .other () _ h rfl
  | late =>
    rw [step.eq_def]
    dsimp only
    split
    · next h =>
      split
      · exact .idle
      · exact .other none _ h rfl
    · next h _ => exact .waited _ h (by simp)
    · exact .idle

/-! ## Deeds -/

/-- What is done is done by the law. -/
theorem Move.keeps {law : List Deed → Act → Prop} {post : List Deed → α → Prop} (hmove : t.Move run t')
    (h : t.session.Keeps law t.deeds post) : t'.session.Keeps law t'.deeds post := by
  cases hmove with
  | callRefused e session_eq =>
    rw [session_eq] at h
    exact h.2 _
  | callReturns session_eq =>
    rw [session_eq] at h
    exact h.2 _
  | waited r session_eq =>
    rw [session_eq] at h
    exact h.2 _
  | other r taken session_eq =>
    rw [session_eq] at h
    exact h.2 _
  | _ => exact h

/-- A session that keeps a law keeps it whatever the others do between its steps. -/
theorem keeps_play {law : List Deed → Act → Prop} {post : List Deed → α → Prop}
    (h : t.session.Keeps law t.deeds post) (turns : List Turn) :
    (t.play turns).session.Keeps law (t.play turns).deeds post := by
  induction turns generalizing t with
  | nil => exact h
  | cons turn turns ih => exact ih ((t.move_step turn).keeps h)

theorem Move.deeds (hmove : t.Move run t') : t'.deeds = t.deeds ∨ ∃ d, t'.deeds = t.deeds ++ [d] := by
  cases hmove with
  | callRefused => exact .inr ⟨_, rfl⟩
  | callReturns => exact .inr ⟨_, rfl⟩
  | waited => exact .inr ⟨_, rfl⟩
  | other => exact .inr ⟨_, rfl⟩
  | _ => exact .inl rfl

/-- Each deed was done at a turn. -/
theorem exists_turn (hnew : t.deeds = []) {turns : List Turn} {before after : List Deed} {d : Deed}
    (h : (t.play turns).deeds = before ++ d :: after) : ∃ past turn more, turns = past ++ turn :: more ∧
      (t.play past).deeds = before ∧ ((t.play past).step turn).deeds = before ++ [d] := by
  induction turns using List.reverseRecOn generalizing after with
  | nil => exact absurd (hnew.symm.trans h) (by simp)
  | append_singleton turns turn ih =>
    rw [play_concat] at h
    obtain hsame | ⟨d', hdone⟩ := ((t.play turns).move_step turn).deeds
    · obtain ⟨past, turn', more, rfl, hpast, hstep⟩ := ih (hsame.symm.trans h)
      exact ⟨past, turn', more ++ [turn], by simp, hpast, hstep⟩
    · rw [hdone] at h
      -- the deed is the last one, or was done before
      rcases List.eq_nil_or_concat after with rfl | ⟨after', last, rfl⟩
      · obtain ⟨rfl, rfl⟩ := List.append_singleton_inj.mp h
        exact ⟨turns, turn, [], rfl, rfl, hdone⟩
      · have hsplit : before ++ d :: after'.concat last = (before ++ d :: after') ++ [last] := by simp
        obtain ⟨past, turn', more, rfl, hpast, hstep⟩ := ih (List.append_inj' (h.trans hsplit) rfl).1
        exact ⟨past, turn', more ++ [turn], by simp, hpast, hstep⟩

/-- Whoever watches for the next message began to do so at a turn of the same act. -/
theorem exists_watch (hnew : t.place = .before) {turns : List Turn} {timeout : Span}
    {next : Except CallError Unit → Session α} {token : Nat}
    (hsession : (t.play turns).session = .act (.attachAllowed timeout) next)
    (hplace : (t.play turns).place = .waiting token) : ∃ past turn more, turns = past ++ turn :: more ∧
      (t.play past).deeds = (t.play turns).deeds ∧
      ((t.play past).step turn).run.log = (t.play past).run.log ++ [.started token .observation] := by
  induction turns using List.reverseRecOn with
  | nil =>
    rw [show t.play [] = t from rfl, hnew] at hplace
    cases hplace
  | append_singleton turns turn ih =>
    rw [play_concat] at hsession hplace ⊢
    have hmove := (t.play turns).move_step turn
    generalize hrun : ((t.play turns).step turn).run = run at hmove
    generalize hnow : (t.play turns).step turn = now at hmove hsession hplace
    cases hmove with
    | idle =>
      obtain ⟨past, turn', more, rfl, hpast, hlog⟩ := ih hsession hplace
      exact ⟨past, turn', more ++ [turn], by simp, hpast, hlog⟩
    | callBegins session_eq =>
      have hcall := session_eq.symm.trans hsession
      cases hcall
    | watchBegins session_eq log_eq =>
      cases hplace
      exact ⟨turns, turn, [], rfl, rfl, by rw [hrun]; exact log_eq⟩
    | _ => cases hplace

/-! ## The client -/

/-- What the thread does to the client is a step of a run, like what the others do. -/
theorem run_step (t : Thread α) (turn : Turn) : (t.step turn).run = t.run ∨
    ∃ a, (t.step turn).run = t.run.step a ∧ (turn = .client a ∨ ∀ command, a ≠ .register command .attachAllowed) := by
  cases turn with
  | client a => exact .inr ⟨a, rfl, .inl rfl⟩
  | thread slice =>
    rw [step.eq_def]
    dsimp only
    split
    · exact .inl rfl
    · rw [goOnCall.eq_def]
      split
      · split <;> exact .inl rfl
      · split
        · exact .inl rfl
        · split <;> exact .inr ⟨.start _ _ _ _, rfl, .inr (by simp)⟩
    · exact .inr ⟨.register _ .modeSet, rfl, .inr (by simp)⟩
    · exact .inr ⟨.unregister _, rfl, .inr (by simp)⟩
    · split <;> exact .inl rfl
    · rw [goOnLeave.eq_def]
      split
      · split <;> exact .inl rfl
      · split <;> exact .inr ⟨.observe slice, rfl, .inr (by simp)⟩
      · split
        · split <;> exact .inl rfl
        · exact .inl rfl
    · exact .inl rfl
  | late =>
    rw [step.eq_def]
    dsimp only
    split
    · split <;> exact .inl rfl
    · exact .inl rfl
    · exact .inl rfl

/-- What every step of a client keeps, turns keep. -/
theorem play_run {P : Run NoticeId → Prop} (hP : ∀ r a, P r → P (r.step a)) (h : P t.run) (turns : List Turn) :
    P (t.play turns).run := by
  induction turns generalizing t with
  | nil => exact h
  | cons turn turns ih =>
    refine ih ?_
    obtain hsame | ⟨a, hstep, -⟩ := t.run_step turn
    · rw [hsame]
      exact h
    · rw [hstep]
      exact hP t.run a h

/-- A client that is in the middle of a run stays so. -/
theorem after_play {config : ClientConfig} {sink : Sink} (h : ∃ actions, t.run = Run.after config sink actions)
    (turns : List Turn) : ∃ actions, (t.play turns).run = Run.after config sink actions :=
  play_run (P := fun r => ∃ actions, r = Run.after config sink actions)
    (fun r a h => by
      obtain ⟨actions, rfl⟩ := h
      exact ⟨actions ++ [a], (Run.after_append_singleton config sink actions a).symm⟩) h turns

/-- The client of a thread is in the middle of a run, whatever the order of the turns. -/
theorem exists_after (config : ClientConfig) (sink : Sink) (session : Session α) (past : List (Action NoticeId))
    (turns : List Turn) :
    ∃ actions, ((start config sink past session).play turns).run = Run.after config sink actions :=
  after_play ⟨past ++ [.register NoticeId.attachAllowed.code .attachAllowed], by rw [Run.after_append_singleton]; rfl⟩
    turns

/-! ## Requests -/

/-- What became of a call: it could not begin, or it has returned. -/
inductive Backed (log : List Event) (e : Exchange) : Option Nat → Prop where
  | refused (cause : CallError) (answer_eq : e.answer = .error cause) : Backed log e none
  | returned {token : Nat} {r : Except CallError Reply} (mem : .returned token r ∈ log)
      (answer_eq : e.answer = r.map Stage.replyBody) : Backed log e (some token)

/-- The call that is being made. -/
def pending (t : Thread α) : List (Option Nat) :=
  match t.session, t.place with
  | .act (.call _ _ _ _) _, .waiting token => [some token]
  | _, _ => []

theorem pending_of_place (h : ∀ token, t.place ≠ .waiting token) : t.pending = [] := by
  rw [pending.eq_def]
  split
  · next hplace => exact absurd hplace (h _)
  · rfl

theorem pending_of_session {a : Act} {next : a.Answer → Session α} (hsession : t.session = .act a next)
    (ha : ∀ p command body timeout, a ≠ .call p command body timeout) : t.pending = [] := by
  rw [pending.eq_def]
  split
  · next hcall _ =>
    rw [hsession] at hcall
    cases hcall
    exact absurd rfl (ha _ _ _ _)
  · rfl

/-- A call has begun that sends something of a kind. -/
structure Asked (P : UInt32 → Bytes → Prop) (r : Run NoticeId) (token : Nat) : Prop where
  asks : ∃ command body, P command body ∧ r.Asks token command body
  started : ∃ ticket, .started token ticket ∈ r.log ∧ ticket ≠ .observation

/-- The calls of a thread have become what its deeds tell, and what they send is of a kind. -/
structure Billed (P : UInt32 → Bytes → Prop) (t : Thread α) : Prop where
  asked : ∀ token, some token ∈ t.calls → Asked P t.run token
  backed : ∃ made, t.calls = made ++ t.pending ∧ List.Forall₂ (Backed t.run.log) (exchanges t.deeds) made

variable {P : UInt32 → Bytes → Prop}

theorem Backed.mono {log log' : List Event} {e : Exchange} {call : Option Nat} (h : Backed log e call)
    (hgrows : log <+: log') : Backed log' e call := by
  cases h with
  | refused cause answer_eq => exact .refused cause answer_eq
  | returned mem answer_eq => exact .returned (hgrows.subset mem) answer_eq

/-- The client goes on as it does at a turn. -/
structure Goes (r r' : Run NoticeId) : Prop where
  log_grows : r.log <+: r'.log
  asks : ∀ token command body, r.Asks token command body → r'.Asks token command body

theorem goes_step (hl : t.run.Ledger) (turn : Turn) : Goes t.run (t.step turn).run := by
  obtain hsame | ⟨a, hstep, -⟩ := t.run_step turn
  · rw [hsame]
    exact ⟨List.prefix_rfl, fun _ _ _ h => h⟩
  · rw [hstep]
    exact ⟨Move.log_prefix (Run.move_step t.run a), fun _ _ _ h => (Run.move_step t.run a).asks hl h⟩

theorem Asked.mono {r r' : Run NoticeId} {token : Nat} (h : Asked P r token) (hgoes : Goes r r') :
    Asked P r' token := by
  obtain ⟨⟨command, body, hP, hasks⟩, ticket, hstarted, hticket⟩ := h
  exact ⟨⟨command, body, hP, hgoes.asks _ _ _ hasks⟩, ticket, hgoes.log_grows.subset hstarted, hticket⟩

/-- A turn in which the thread makes no call and sees none return. -/
theorem Billed.of_quiet (h : t.Billed P) (hgoes : Goes t.run t'.run) (hcalls : t'.calls = t.calls)
    (hpending : t'.pending = t.pending) (hdeeds : exchanges t'.deeds = exchanges t.deeds) : t'.Billed P := by
  obtain ⟨made, hmade, hbacked⟩ := h.backed
  constructor
  · rw [hcalls]
    exact fun token hmem => (h.asked token hmem).mono hgoes
  · refine ⟨made, ?_, ?_⟩
    · rw [hcalls, hpending]
      exact hmade
    · rw [hdeeds]
      exact hbacked.imp fun _ _ hb => hb.mono hgoes.log_grows

/-- What is done keeps no call waiting. -/
theorem pending_finish (a : Act) (r : a.Answer) (session : Session α) (t : Thread α) :
    (t.finish a r session).pending = [] :=
  pending_of_place (t := t.finish a r session) fun token h => by cases h

/-- A call begins. -/
theorem Billed.callBegins {p : Purpose} {command : UInt32} {body : Bytes} {timeout : Span}
    {next : Except CallError Bytes → Session α} {token : Nat} {ticket : Ticket} {number : Option UInt8}
    (h : t.Billed P) (hP : P command body) (hl : t.run.Ledger) (hgoes : Goes t.run run)
    (session_eq : t.session = .act (.call p command body timeout) next)
    (place_ne : ∀ token, t.place ≠ .waiting token) (ticket_ne : ticket ≠ .observation)
    (lastToken_lt : t.run.client.table.lastToken < token)
    (log_eq : run.log = t.run.log ++ [.started token ticket])
    (draft_eq : run.draft = some (token, ⟨command, number, body⟩)) :
    Billed P { t with run, place := .waiting token, calls := t.calls ++ [some token] } := by
  have hstarted : .started token ticket ∈ run.log := by
    rw [log_eq]
    exact List.mem_concat_self
  obtain ⟨made, hmade, hbacked⟩ := h.backed
  rw [pending_of_place place_ne, List.append_nil] at hmade
  constructor
  · intro token' hmem
    obtain hmem | hmem := List.mem_append.mp hmem
    · exact (h.asked token' hmem).mono hgoes
    obtain rfl := Option.some.inj (List.mem_singleton.mp hmem)
    refine ⟨⟨command, body, hP, mem_starts hstarted, ?_, ?_⟩, ticket, hstarted, ticket_ne⟩
    · intro request hdraft
      obtain ⟨-, rfl⟩ := Prod.mk.inj (Option.some.inj (draft_eq.symm.trans hdraft))
      exact ⟨rfl, rfl⟩
    · -- nothing was written for it before it began
      intro request hwritten
      rw [log_eq, List.mem_append] at hwritten
      obtain hwritten | hwritten := hwritten
      · exact absurd rfl (hl.token_ne_of_lt lastToken_lt hwritten)
      · cases List.mem_singleton.mp hwritten
  · refine ⟨made, ?_, hbacked.imp fun _ _ hb => hb.mono hgoes.log_grows⟩
    show t.calls ++ [some token] = made ++ _
    rw [hmade, pending, session_eq]

theorem Move.billed {law : List Deed → Act → Prop} {post : List Deed → α → Prop}
    (hP : ∀ past p command body timeout, law past (.call p command body timeout) → P command body)
    (hmove : t.Move t'.run t') (hl : t.run.Ledger) (hgoes : Goes t.run t'.run)
    (hkeeps : t.session.Keeps law t.deeds post) (h : t.Billed P) : t'.Billed P := by
  generalize hrun : t'.run = run at hmove hgoes
  -- what has become of the calls so far stays so, as the record only grows
  obtain ⟨made, hmade, hbacked⟩ := h.backed
  have hgrown : List.Forall₂ (Backed run.log) (exchanges t.deeds) made :=
    hbacked.imp fun _ _ hb => hb.mono hgoes.log_grows
  cases hmove with
  | idle => exact h.of_quiet hgoes rfl rfl rfl
  | callBegins session_eq place_ne ticket_ne lastToken_lt log_eq draft_eq =>
    rw [session_eq] at hkeeps
    exact h.callBegins (hP _ _ _ _ _ hkeeps.1) hl hgoes session_eq place_ne ticket_ne lastToken_lt log_eq draft_eq
  | callRefused e session_eq place_ne =>
    rw [pending_of_place place_ne, List.append_nil] at hmade
    constructor
    · intro token hmem
      obtain hmem | hmem := List.mem_append.mp hmem
      · exact (h.asked token hmem).mono hgoes
      · cases List.mem_singleton.mp hmem
    · refine ⟨made ++ [none], ?_, ?_⟩
      · rw [pending_finish, List.append_nil, ← hmade]
        rfl
      · rw [finish, exchanges_call]
        exact List.rel_append hgrown (.cons (.refused e rfl) .nil)
  | @callReturns p command body timeout next token r session_eq place_eq returned =>
    refine ⟨fun token' hmem => (h.asked token' hmem).mono hgoes, made ++ [some token], ?_, ?_⟩
    · have hpending : t.pending = [some token] := by rw [pending, session_eq, place_eq]
      rw [pending_finish, List.append_nil, ← hpending]
      exact hmade
    · have hreturned : .returned token r ∈ run.log := hgoes.log_grows.subset (mem_of_returned? returned)
      rw [finish, exchanges_call]
      exact List.rel_append hgrown (.cons (.returned hreturned rfl) .nil)
  | denied session_eq =>
    refine h.of_quiet hgoes rfl ?_ rfl
    rw [pending_of_session session_eq (by simp)]
    exact pending_of_session (t := { t with run, place := .denied }) session_eq (by simp)
  | @watchBegins timeout next token session_eq log_eq =>
    refine h.of_quiet hgoes rfl ?_ rfl
    rw [pending_of_session session_eq (by simp)]
    exact pending_of_session (t := { t with run, place := .waiting token }) session_eq (by simp)
  | watchEnds session_eq =>
    refine h.of_quiet hgoes rfl ?_ rfl
    rw [pending_of_session session_eq (by simp)]
    exact pending_of_session (t := { t with run, place := .before }) session_eq (by simp)
  | waited r session_eq heard =>
    refine h.of_quiet hgoes rfl ?_ (exchanges_of_none rfl)
    rw [pending_of_session session_eq (by simp)]
    exact pending_finish _ _ _ _
  | @other a next r taken session_eq isOther =>
    refine h.of_quiet hgoes rfl ?_ (exchanges_of_none ?_)
    · rw [pending_of_session session_eq]
      · exact pending_finish _ _ _ _
      · rintro p command body timeout rfl
        cases isOther
    · cases a with
      | call => cases isOther
      | _ => rfl

/-- Whatever the order of the turns, the calls of a thread send what its law allows. -/
theorem billed_play {law : List Deed → Act → Prop} {post : List Deed → α → Prop}
    (hP : ∀ past p command body timeout, law past (.call p command body timeout) → P command body)
    (hsound : t.run.Sound) (hkeeps : t.session.Keeps law t.deeds post) (h : t.Billed P) (turns : List Turn) :
    (t.play turns).Billed P := by
  induction turns generalizing t with
  | nil => exact h
  | cons turn turns ih =>
    have hmove := t.move_step turn
    have hsound' : (t.step turn).run.Sound := play_run (t := t) (fun _ a hr => hr.step a) hsound [turn]
    exact ih hsound' (hmove.keeps hkeeps) (hmove.billed hP hsound.ledger (goes_step hsound.ledger turn) hkeeps h)

/-! ### What was sent -/

/-- What was sent for a call. -/
def sentForCall (log : List Event) (call : Option Nat) : List Request :=
  call.elim [] fun token => sentFor token log

/-- The requests that a thread has sent. -/
def requests (t : Thread α) : List Request :=
  t.calls.flatMap (sentForCall t.run.log)

/-- Nothing was sent for a call, for it could not begin or its request could not be written. -/
def Unsent (log : List Event) (call : Option Nat) : Prop :=
  call = none ∨ ∃ token, call = some token ∧ .unwritten token ∈ log

theorem Billed.of_mem_requests (h : t.Billed P) {request : Request} (hmem : request ∈ t.requests) :
    P request.command request.body := by
  obtain ⟨call, hcall, hsent⟩ := List.mem_flatMap.mp hmem
  cases call with
  | none => cases hsent
  | some token =>
    obtain ⟨command, body, hP, hasks⟩ := (h.asked token hcall).asks
    obtain ⟨rfl, rfl⟩ := hasks.written request (mem_sentFor.mp hsent)
    exact hP

theorem length_sentForCall_le (hp : t.run.Posted) (call : Option Nat) :
    (sentForCall t.run.log call).length ≤ 1 := by
  cases call with
  | none => exact Nat.zero_le 1
  | some token => exact hp.le_one token

/-- A call sends no more than one request. -/
theorem length_requests_le (hp : t.run.Posted) : t.requests.length ≤ t.calls.length := by
  rw [requests]
  induction t.calls with
  | nil => exact Nat.le_refl 0
  | cons call calls ih =>
    have hone := length_sentForCall_le hp call
    rw [List.flatMap_cons, List.length_append, List.length_cons]
    omega

/-- A call that has become something was sent, or it failed before. -/
theorem Billed.sent_or_unsent (h : t.Billed P) (hp : t.run.Posted) (hl : t.run.Ledger) {e : Exchange}
    {call : Option Nat} (hcall : call ∈ t.calls) (hbacked : Backed t.run.log e call) :
    (sentForCall t.run.log call).length = 1 ∨ Unsent t.run.log call ∧ ¬e.Answered := by
  cases hbacked with
  | refused cause answer_eq =>
    refine .inr ⟨.inl rfl, fun ⟨reply, hreply⟩ => ?_⟩
    rw [answer_eq] at hreply
    cases hreply
  | @returned token r mem answer_eq =>
    obtain ⟨ticket, hstarted, hticket⟩ := (h.asked token hcall).started
    obtain hobserves | hsent | ⟨hunwritten, cause, rfl⟩ := hp.returned token r mem
    · exact absurd (ticket_eq_of_starts hl.starts_nodup hstarted hobserves) hticket
    · exact .inl hsent
    · refine .inr ⟨.inr ⟨token, rfl, hunwritten⟩, fun ⟨reply, hreply⟩ => ?_⟩
      rw [answer_eq] at hreply
      cases hreply

/-- Calls that were answered have sent their requests. -/
theorem Billed.length_of_answered (h : t.Billed P) (hp : t.run.Posted) (hl : t.run.Ledger) {es : List Exchange}
    {calls : List (Option Nat)} (hcalls : ∀ call ∈ calls, call ∈ t.calls)
    (hbacked : List.Forall₂ (Backed t.run.log) es calls) (hanswered : ∀ e ∈ es, e.Answered) :
    (calls.flatMap (sentForCall t.run.log)).length = es.length := by
  induction hbacked with
  | nil => rfl
  | @cons e call es calls hfirst _ ih =>
    obtain ⟨hanswer, hothers⟩ := List.forall_mem_cons.mp hanswered
    obtain ⟨hcall, hrest⟩ := List.forall_mem_cons.mp hcalls
    have hsent : (sentForCall t.run.log call).length = 1 :=
      (h.sent_or_unsent hp hl hcall hfirst).resolve_right fun hunsent => hunsent.2 hanswer
    rw [List.flatMap_cons, List.length_append, hsent, ih hrest hothers, List.length_cons]
    omega

/-- Where all calls but the last were answered, each has sent its request, unless the last failed before. -/
theorem Billed.length_requests (h : t.Billed P) (hp : t.run.Posted) (hl : t.run.Ledger) (hnone : t.pending = [])
    {es : List Exchange} {e : Exchange} (hexchanges : exchanges t.deeds = es ++ [e])
    (hanswered : ∀ e' ∈ es, e'.Answered) : t.requests.length = es.length + 1 ∨
      t.requests.length = es.length ∧ ¬e.Answered ∧ ∃ call ∈ t.calls.getLast?, Unsent t.run.log call := by
  obtain ⟨made, hmade, hbacked⟩ := h.backed
  rw [hnone, List.append_nil] at hmade
  subst hmade
  rw [hexchanges] at hbacked
  -- the calls are split as the deeds are: all but the last were answered
  have hothers := (List.forall₂_take_append _ _ _ hbacked.flip).flip
  have hlast := (List.forall₂_drop_append _ _ _ hbacked.flip).flip
  have hsplit := (List.take_append_drop es.length t.calls).symm
  generalize t.calls.take es.length = others at *
  generalize t.calls.drop es.length = rest at *
  obtain ⟨call, _, hcall, hnil, rfl⟩ := List.forall₂_cons_left_iff.mp hlast
  obtain rfl := List.forall₂_nil_left_iff.mp hnil
  have hmem : ∀ call' ∈ others, call' ∈ t.calls := by
    rw [hsplit]
    exact fun call' hcall' => List.mem_append_left _ hcall'
  have hlength : t.requests.length = es.length + (sentForCall t.run.log call).length := by
    rw [requests, hsplit, List.flatMap_append, List.length_append, h.length_of_answered hp hl hmem hothers hanswered]
    simp
  have hone := length_sentForCall_le hp call
  obtain hsent | ⟨hunsent, hfailed⟩ := h.sent_or_unsent hp hl (hsplit ▸ List.mem_concat_self) hcall
  · exact .inl (by omega)
  · by_cases hsent : (sentForCall t.run.log call).length = 1
    · exact .inl (by omega)
    · refine .inr ⟨by omega, hfailed, call, ?_, hunsent⟩
      rw [hsplit, List.getLast?_concat]
      exact rfl

end Thread

end Wwan
