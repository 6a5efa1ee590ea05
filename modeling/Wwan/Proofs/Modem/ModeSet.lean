import Wwan.Proofs.Client.Conclusion
import Wwan.Proofs.Modem.Listening

/-!
# Switching the mode

A switch of the mode asks for the mode with a transaction and waits for a confirmation.  The confirmation
comes through a handler and the reply through the table, so that the modem's messages may come in any order.
`ModeAt` lists how far a switch can have got and what it rests on there (`ModeAt.step`); that it comes to the
same, however the confirmation lies to the reply, is `Modem.setMode_ignores_order`.
-/

namespace Wwan.Modem

open Procedure

/-! ## What is decided -/

/-- What the reply to a request for a mode decides. -/
def modeStatus (mode : UInt32) (reply : Bytes) : Except ModemError Unit := do
  let status ← replyInt .modeSet reply 0
  if status ≠ 0 then throw (.modeSetFailed mode ("status " ++ Text.hex status.toNat))

/-- What a confirmation decides. -/
def modeReport (mode : UInt32) (body : Bytes) : Except ModemError Unit := do
  let reported ← replyInt .modeSet body 1
  if reported ≠ mode then
    throw (.modeSetFailed mode s!"modem reports mode {reported.toNat}, is the FCC lock still engaged?")

/-- What a switch of the mode comes to when it is answered with `reply` and confirmed with `notice`. -/
def modeResult (mode : UInt32) (reply notice : Bytes) : Except ModemError Unit := do
  modeStatus mode reply
  modeReport mode notice

/-- A body holds an integer at a place. -/
def HoldsInt (body : Bytes) (i : Nat) (n : UInt32) : Prop :=
  ∃ values, Value.decodeAll body = .ok values ∧ values[i]? = some (.int n)

theorem HoldsInt.replyInt_eq {body : Bytes} {i : Nat} {n : UInt32} (h : HoldsInt body i n) (id : CallId) :
    replyInt id body i = .ok n := by
  obtain ⟨values, hvalues, hn⟩ := h
  rw [replyInt, replyValues, hvalues]
  show intAt id values i = .ok n
  rw [intAt, hn]
  rfl

theorem modeStatus_eq {mode status : UInt32} {reply : Bytes} (h : HoldsInt reply 0 status) :
    modeStatus mode reply
      = if status ≠ 0 then .error (.modeSetFailed mode ("status " ++ Text.hex status.toNat)) else .ok () := by
  rw [modeStatus, h.replyInt_eq]
  rfl

theorem modeReport_eq {mode reported : UInt32} {notice : Bytes} (h : HoldsInt notice 1 reported) :
    modeReport mode notice = if reported ≠ mode then .error (.modeSetFailed mode
      s!"modem reports mode {reported.toNat}, is the FCC lock still engaged?") else .ok () := by
  rw [modeReport, h.replyInt_eq]
  rfl

theorem replyInt_eq_error {body : Bytes} {i : Nat} (h : ∀ n, ¬HoldsInt body i n) (id : CallId) :
    ∃ reason, replyInt id body i = .error (.badReply id reason) := by
  rw [replyInt, replyValues]
  rcases hvalues : Value.decodeAll body with e | values
  · exact ⟨_, rfl⟩
  show ∃ reason, intAt id values i = _
  rw [intAt]
  rcases hvalue : values[i]? with _ | (n | _)
  · exact ⟨_, rfl⟩
  · exact absurd ⟨values, hvalues, hvalue⟩ (h n)
  · exact ⟨_, rfl⟩

/-- How the first value of the reply and the second one of the confirmation decide on a result. -/
structure Decides (mode : UInt32) (reply notice : Bytes) (result : Except ModemError Unit) : Prop where
  refused : ∀ status, HoldsInt reply 0 status → status ≠ 0 → ∃ reason, result = .error (.modeSetFailed mode reason)
  granted : HoldsInt reply 0 0 → HoldsInt notice 1 mode → result = .ok ()
  denied : HoldsInt reply 0 0 → ∀ reported, HoldsInt notice 1 reported → reported ≠ mode →
    ∃ reason, result = .error (.modeSetFailed mode reason)
  no_status : (∀ status, ¬HoldsInt reply 0 status) → ∃ reason, result = .error (.badReply .modeSet reason)
  no_report : HoldsInt reply 0 0 → (∀ reported, ¬HoldsInt notice 1 reported) →
    ∃ reason, result = .error (.badReply .modeSet reason)

theorem decides_modeResult (mode : UInt32) (reply notice : Bytes) :
    Decides mode reply notice (modeResult mode reply notice) where
  refused status hstatus hrefused := by
    rw [modeResult, modeStatus_eq hstatus, if_pos hrefused]
    exact ⟨_, rfl⟩
  granted hzero hmode := by
    rw [modeResult, modeStatus_eq hzero, modeReport_eq hmode, if_neg (by simp), if_neg (by simp)]
    rfl
  denied hzero reported hreported hother := by
    rw [modeResult, modeStatus_eq hzero, modeReport_eq hreported, if_neg (by simp), if_pos hother]
    exact ⟨_, rfl⟩
  no_status hnone := by
    obtain ⟨reason, hreason⟩ := replyInt_eq_error hnone .modeSet
    rw [modeResult, modeStatus, hreason]
    exact ⟨reason, rfl⟩
  no_report hzero hnone := by
    obtain ⟨reason, hreason⟩ := replyInt_eq_error hnone .modeSet
    rw [modeResult, modeStatus_eq hzero, if_neg (by simp), modeReport, hreason]
    exact ⟨reason, rfl⟩

/-! ## What is left to do -/

/-- Nothing is left but to listen no more. -/
def endListening (result : Except ModemError Unit) : Session (Except ModemError Unit) :=
  .act .unlisten fun _ => .pure result

/-- The confirmation is left to wait for. -/
def awaitReport (c : ModemConfig) (mode : UInt32) : Session (Except ModemError Unit) :=
  .act (.confirmation c.callTimeout) fun
    | some body => endListening (modeReport mode body)
    | none => endListening (.error (.call (.timeout NoticeId.modeSet.name c.callTimeout)))

/-- What is left to do after the answer to the request. -/
def afterAnswer (c : ModemConfig) (mode : UInt32) (answer : Except CallError Bytes) :
    Session (Except ModemError Unit) :=
  match answer.mapError ModemError.call >>= modeStatus mode with
  | .ok () => awaitReport c mode
  | .error e => endListening (.error e)

/-- All is left to do but to begin to listen. -/
def askMode (c : ModemConfig) (mode : UInt32) : Session (Except ModemError Unit) :=
  .act (.call .transaction CallId.modeSet.code (modeSetBody mode) c.callTimeout) (afterAnswer c mode)

/-- The confirmation is waited for and looked at. -/
theorem run_confirmation (c : ModemConfig) (mode : UInt32) :
    (ExceptT.run (do
      let reported ← ofExcept (replyInt .modeSet (← confirmation c) 1)
      if reported ≠ mode then
        throw (.modeSetFailed mode
          s!"modem reports mode {reported.toNat}, is the FCC lock still engaged?")) : Session _).bind endListening
      = awaitReport c mode := by
  refine congrArg (Session.act _) (funext fun notice => ?_)
  rcases notice with _ | body
  · rfl
  dsimp only
  rw [modeReport]
  show (ExceptT.run (ofExcept (replyInt .modeSet body 1) >>= _) : Session _).bind _ = _
  rcases replyInt .modeSet body 1 with e | reported
  · rfl
  show (ExceptT.run (if reported ≠ mode then _ else _) : Session _).bind _
    = endListening (if reported ≠ mode then _ else _)
  by_cases h : reported ≠ mode
  · rw [if_pos h, if_pos h]
    rfl
  · rw [if_neg h, if_neg h]
    rfl

theorem run_setMode (c : ModemConfig) (mode : UInt32) :
    (setMode c mode).run = .act .listen fun _ => askMode c mode := by
  refine congrArg (Session.act _) (funext fun _ => congrArg (Session.act _) (funext fun answer => ?_))
  rcases answer with e | reply
  · rfl
  show _ = match modeStatus mode reply with
    | .ok () => awaitReport c mode
    | .error e => endListening (.error e)
  rw [modeStatus]
  show (ExceptT.run (ofExcept (replyInt .modeSet reply 0) >>= _) : Session _).bind _ = _
  rcases replyInt .modeSet reply 0 with e | status
  · rfl
  show (ExceptT.run (if status ≠ 0 then _ else _) : Session _).bind _
    = match (if status ≠ 0 then _ else _ : Except ModemError Unit) with | .ok () => _ | .error e => _
  by_cases h : status ≠ 0
  · rw [if_pos h, if_pos h]
    rfl
  · rw [if_neg h, if_neg h]
    exact run_confirmation c mode

/-! ## How far it has got -/

variable {c : ModemConfig} {mode : UInt32} {r₀ r₁ : Run NoticeId} {t : Thread (Except ModemError Unit)}
  {α : Type}

/-- A thread has listened since `r₁`, where none of its calls had begun, and has taken no confirmation since. -/
structure Attends (r₁ : Run NoticeId) (t : Thread α) : Prop where
  listens : r₁.Listens t.run
  taken_eq : t.taken = (confirmed r₁.client.handled).length
  fresh : ∀ token, some token ∈ t.calls → ∀ e ∈ r₁.log, e.token? ≠ some token

/-- What a switch of the mode comes to: its call could not begin, or it is decided by what the call returned and
by a confirmation. -/
inductive Grounds (mode : UInt32) (r₀ : Run NoticeId) (t : Thread (Except ModemError Unit))
    (result : Except ModemError Unit) : Prop where
  | refused (calls_eq : t.calls = [none])
  | decided {token : Nat} {answer : Except CallError Reply} (calls_eq : t.calls = [some token])
      (returned : .returned token answer ∈ t.run.log)
      (result_eq : ∀ reply notice, answer = .ok (.body reply) →
        (∀ m ∈ confirmations (r₀.noticesSince t.run), m.body = notice) → result = modeResult mode reply notice)

/-- How far a switch of the mode has got that was begun on the client `r₀`. -/
inductive ModeAt (c : ModemConfig) (mode : UInt32) (r₀ : Run NoticeId) (t : Thread (Except ModemError Unit)) :
    Prop where
  | ahead (session_eq : t.session = .act .listen fun _ => askMode c mode) (calls_eq : t.calls = [])
      (awaits : r₀.Awaits t.run)
  | ready {r₁ : Run NoticeId} (session_eq : t.session = askMode c mode) (place_eq : t.place = .before)
      (calls_eq : t.calls = []) (awaits : r₀.Awaits r₁) (attends : Attends r₁ t)
  | waiting {r₁ : Run NoticeId} {token : Nat} (session_eq : t.session = askMode c mode)
      (place_eq : t.place = .waiting token) (calls_eq : t.calls = [some token]) (awaits : r₀.Awaits r₁)
      (attends : Attends r₁ t)
  | awaiting {r₁ : Run NoticeId} {token : Nat} {answer : Except CallError Reply}
      (session_eq : t.session = awaitReport c mode) (calls_eq : t.calls = [some token])
      (returned : .returned token answer ∈ t.run.log)
      (accepted : (answer.map Stage.replyBody).mapError ModemError.call >>= modeStatus mode = .ok ())
      (awaits : r₀.Awaits r₁) (attends : Attends r₁ t)
  | leaving (result : Except ModemError Unit) (session_eq : t.session = endListening result)
      (grounds : Grounds mode r₀ t result)
  | ended (result : Except ModemError Unit) (session_eq : t.session = .pure result)
      (grounds : Grounds mode r₀ t result)

/-- The record goes on, and the result stays. -/
theorem Grounds.mono {t' : Thread (Except ModemError Unit)} {result : Except ModemError Unit}
    (h : Grounds mode r₀ t result) (hcalls : t'.calls = t.calls) (hgrows : t.run.log <+: t'.run.log) :
    Grounds mode r₀ t' result := by
  cases h with
  | refused calls_eq => exact .refused (hcalls.trans calls_eq)
  | decided calls_eq returned result_eq =>
    refine .decided (hcalls.trans calls_eq) (hgrows.subset returned) fun reply notice hanswer honly => ?_
    refine result_eq reply notice hanswer fun m hm => honly m ?_
    exact List.filter_subset _ (Run.noticesSince_subset hgrows) hm

theorem Attends.of_step {t t' : Thread α} (h : Attends r₁ t) {a : Action NoticeId} (ha : a.SparesModeSet)
    (hrun : t'.run = t.run.step a) (htaken : t'.taken = t.taken) (hcalls : t'.calls = t.calls) : Attends r₁ t' where
  listens := hrun ▸ h.listens.step ha
  taken_eq := htaken.trans h.taken_eq
  fresh := hcalls ▸ h.fresh

/-- What the others do changes nothing, unless it concerns who listens. -/
theorem ModeAt.client (h : ModeAt c mode r₀ t) {a : Action NoticeId} (ha : a.SparesModeSet) :
    ModeAt c mode r₀ (t.step (.client a)) := by
  have hgrows : t.run.log <+: (t.step (.client a)).run.log := Move.log_prefix (Run.move_step t.run a)
  cases h with
  | ahead session_eq calls_eq awaits =>
    refine .ahead session_eq calls_eq (awaits.step ?_)
    rintro command rfl
    exact absurd rfl ha.2
  | ready session_eq place_eq calls_eq awaits attends =>
    exact .ready session_eq place_eq calls_eq awaits (attends.of_step ha rfl rfl rfl)
  | waiting session_eq place_eq calls_eq awaits attends =>
    exact .waiting session_eq place_eq calls_eq awaits (attends.of_step ha rfl rfl rfl)
  | awaiting session_eq calls_eq returned accepted awaits attends =>
    exact .awaiting session_eq calls_eq (hgrows.subset returned) accepted awaits (attends.of_step ha rfl rfl rfl)
  | leaving result session_eq grounds => exact .leaving result session_eq (grounds.mono rfl hgrows)
  | ended result session_eq grounds => exact .ended result session_eq (grounds.mono rfl hgrows)

/-! ### What the thread does itself -/

/-- It begins to listen. -/
theorem ModeAt.listen {slice : Span} (session_eq : t.session = .act .listen fun _ => askMode c mode)
    (calls_eq : t.calls = []) (awaits : r₀.Awaits t.run) : ModeAt c mode r₀ (t.step (.thread slice)) := by
  have hstep : t.step (.thread slice) = Thread.finish .listen () (askMode c mode) { t with
      run := t.run.step (.register NoticeId.modeSet.code .modeSet)
      taken := (confirmed t.run.client.handled).length } := by
    simp only [Thread.step, session_eq]
  have hown : ∀ command, (.register NoticeId.modeSet.code .modeSet : Action NoticeId) = .register command .modeSet →
      command = NoticeId.modeSet.code :=
    fun command h => (Action.register.inj h).1.symm
  have hhandler : (t.run.step (.register NoticeId.modeSet.code .modeSet)).client.handler? NoticeId.modeSet.code
      = some .modeSet :=
    (Client.handler?_register _ _ t.run.client _).trans (if_pos rfl)
  have hnone : ∀ token, some token ∉ t.calls := by simp [calls_eq]
  rw [hstep]
  refine .ready rfl rfl calls_eq (awaits.step hown) ⟨.refl (awaits.tuned.step hown) hhandler, rfl, ?_⟩
  exact fun token hmem => absurd hmem (hnone token)

/-- It makes its call, once the writer is free. -/
theorem ModeAt.ask {slice : Span} (session_eq : t.session = askMode c mode) (place_eq : t.place = .before)
    (calls_eq : t.calls = []) (awaits : r₀.Awaits r₁) (attends : Attends r₁ t) (hl : t.run.Ledger) :
    ModeAt c mode r₀ (t.step (.thread slice)) := by
  have hstep : t.step (.thread slice) = t.goOnCall .transaction CallId.modeSet.code (modeSetBody mode) c.callTimeout
      (afterAnswer c mode) := by
    simp only [Thread.step, session_eq, askMode]
  rw [hstep, Thread.goOnCall, place_eq]
  by_cases hbusy : t.run.draft.isSome
  · simp only [if_pos hbusy]
    exact .ready session_eq place_eq calls_eq awaits attends
  simp only [if_neg hbusy]
  have hlistens := attends.listens.step (a := .start .transaction CallId.modeSet.code (modeSetBody mode) c.callTimeout)
    trivial
  obtain ⟨e, cursor, hbegin⟩ | ⟨k, cursor, hbegin, htoken, -⟩ :=
    t.run.client.begin_cases .transaction CallId.modeSet.code c.callTimeout
  · simp only [hbegin]
    exact .leaving (.error (.call e)) rfl (.refused (by simp [Thread.finish, calls_eq]))
  · simp only [hbegin]
    refine .waiting session_eq rfl (by simp [calls_eq]) awaits ⟨hlistens, attends.taken_eq, ?_⟩
    -- the call begins now, so that nothing was said of it when it began to be listened
    intro token hmem e he
    obtain rfl : token = k.token := by simpa [calls_eq] using hmem
    exact hl.token_ne_of_lt (by omega) (attends.listens.log_grows.subset he)

/-- It sees what its call has returned. -/
theorem ModeAt.returns {slice : Span} {token : Nat} (session_eq : t.session = askMode c mode)
    (place_eq : t.place = .waiting token) (calls_eq : t.calls = [some token]) (awaits : r₀.Awaits r₁)
    (attends : Attends r₁ t) : ModeAt c mode r₀ (t.step (.thread slice)) := by
  rcases hreturned : returned? token t.run.log with _ | answer
  · have hstep : t.step (.thread slice) = t := by
      simp only [Thread.step, session_eq, askMode, Thread.goOnCall, place_eq, hreturned]
    rw [hstep]
    exact .waiting session_eq place_eq calls_eq awaits attends
  have hstep : t.step (.thread slice)
      = t.finish (.call .transaction CallId.modeSet.code (modeSetBody mode) c.callTimeout) (answer.map Stage.replyBody)
        (afterAnswer c mode (answer.map Stage.replyBody)) := by
    simp only [Thread.step, session_eq, askMode, Thread.goOnCall, place_eq, hreturned]
  rw [hstep]
  have hmem := mem_of_returned? hreturned
  rcases hstatus : (answer.map Stage.replyBody).mapError ModemError.call >>= modeStatus mode with e | u
  · refine .leaving (.error e) ?_ (.decided calls_eq hmem ?_)
    · show afterAnswer c mode (answer.map Stage.replyBody) = _
      rw [afterAnswer, hstatus]
    · rintro reply notice rfl -
      -- a refusal does not depend on any confirmation
      have hrefused : modeStatus mode reply = .error e := hstatus
      rw [modeResult, hrefused]
      rfl
  · refine .awaiting ?_ calls_eq hmem hstatus awaits ⟨attends.listens, attends.taken_eq, attends.fresh⟩
    show afterAnswer c mode (answer.map Stage.replyBody) = _
    rw [afterAnswer, hstatus]

/-- It takes the confirmation that was heard. -/
theorem ModeAt.hears {slice : Span} {token : Nat} {answer : Except CallError Reply}
    (session_eq : t.session = awaitReport c mode) (calls_eq : t.calls = [some token])
    (returned : .returned token answer ∈ t.run.log)
    (accepted : (answer.map Stage.replyBody).mapError ModemError.call >>= modeStatus mode = .ok ())
    (awaits : r₀.Awaits r₁) (attends : Attends r₁ t) : ModeAt c mode r₀ (t.step (.thread slice)) := by
  rcases hheard : (confirmed t.run.client.handled)[t.taken]? with _ | body
  · have hstep : t.step (.thread slice) = t := by
      simp only [Thread.step, session_eq, awaitReport, hheard]
    rw [hstep]
    exact .awaiting session_eq calls_eq returned accepted awaits attends
  have hstep : t.step (.thread slice) = Thread.finish (.confirmation c.callTimeout) (some body)
      (endListening (modeReport mode body)) { t with taken := t.taken + 1 } := by
    simp only [Thread.step, session_eq, awaitReport, hheard]
  rw [attends.taken_eq] at hheard
  obtain ⟨m, hm, rfl⟩ := attends.listens.mem_of_heard hheard
  rw [hstep]
  refine .leaving (modeReport mode m.body) rfl (.decided calls_eq returned ?_)
  rintro reply notice rfl honly
  -- what it took has come since `r₀`, as all that was heard since `r₁` has
  have hstatus : modeStatus mode reply = .ok () := accepted
  have hsince := List.filter_subset _ (awaits.noticesSince_subset attends.listens.log_grows) hm
  rw [modeResult, hstatus, honly m hsince]
  rfl

/-- A switch of the mode goes on, whatever the others do meanwhile. -/
theorem ModeAt.step (h : ModeAt c mode r₀ t) (hl : t.run.Ledger) {turn : Thread.Turn}
    (hturn : ∀ a, turn = .client a → a.SparesModeSet) (hlate : turn ≠ .late) : ModeAt c mode r₀ (t.step turn) := by
  cases turn with
  | client a => exact h.client (hturn a rfl)
  | late => exact absurd rfl hlate
  | thread slice =>
    cases h with
    | ahead session_eq calls_eq awaits => exact .listen session_eq calls_eq awaits
    | ready session_eq place_eq calls_eq awaits attends => exact .ask session_eq place_eq calls_eq awaits attends hl
    | waiting session_eq place_eq calls_eq awaits attends =>
      exact .returns session_eq place_eq calls_eq awaits attends
    | awaiting session_eq calls_eq returned accepted awaits attends =>
      exact .hears session_eq calls_eq returned accepted awaits attends
    | leaving result session_eq grounds =>
      have hstep : t.step (.thread slice) = Thread.finish .unlisten () (.pure result)
          { t with run := t.run.step (.unregister NoticeId.modeSet.code) } := by
        simp only [Thread.step, session_eq, endListening]
      rw [hstep]
      exact .ended result rfl (grounds.mono rfl List.prefix_rfl)
    | ended result session_eq grounds =>
      rw [Thread.step_thread_of_pure session_eq]
      exact .ended result session_eq grounds

theorem ModeAt.play (h : ModeAt c mode r₀ t) (hsound : t.run.Sound) {turns : List Thread.Turn}
    (hturns : ∀ a, .client a ∈ turns → a.SparesModeSet) (hlate : .late ∉ turns) :
    ModeAt c mode r₀ (t.play turns) := by
  induction turns generalizing t with
  | nil => exact h
  | cons turn turns ih =>
    have hnext : ModeAt c mode r₀ (t.step turn) :=
      h.step hsound.ledger (fun a ha => hturns a (ha ▸ List.mem_cons_self))
        fun hnow => hlate (hnow ▸ List.mem_cons_self)
    have hsound' : (t.step turn).run.Sound := Thread.play_run (t := t) (fun _ a hr => hr.step a) hsound [turn]
    exact ih hnext hsound' (fun a ha => hturns a (List.mem_cons_of_mem turn ha))
      fun hmem => hlate (List.mem_cons_of_mem turn hmem)

/-! ## What it comes to -/

/-- Since `r₀` one confirmation was there to be heard, with this body, and it came behind the request of a
call. -/
def ConfirmedOnce (r₀ r : Run NoticeId) (token : Nat) (notice : Bytes) : Prop :=
  ∃ before request behind m, r.log = before ++ .written token request :: behind ∧ m ∈ unasked behind ∧
    m.body = notice ∧ confirmations (r₀.noticesSince r) = [m]

theorem ConfirmedOnce.append {r r' : Run NoticeId} {token : Nat} {notice : Bytes}
    (h : ConfirmedOnce r₀ r token notice) {events : List Event} (hlog : r'.log = r.log ++ events)
    (hnone : unasked events = []) : ConfirmedOnce r₀ r' token notice := by
  obtain ⟨before, request, behind, m, hsplit, hm, hbody, honce⟩ := h
  refine ⟨before, request, behind ++ events, m, ?_, ?_, hbody, ?_⟩
  · rw [hlog, hsplit, List.append_assoc, List.cons_append]
  · rw [unasked_append]
    exact List.mem_append_left _ hm
  · rw [Run.noticesSince, hlog, unasked_append, hnone, List.append_nil]
    exact honce

variable {token : Nat} {reply notice : Bytes} {result : Except ModemError Unit}

/-- What the call returned and the confirmation decide together. -/
theorem Grounds.result_eq (h : Grounds mode r₀ t result) (called : some token ∈ t.calls)
    (hanswers : ∀ answer, .returned token answer ∈ t.run.log → answer = .ok (.body reply))
    (hconfirmed : ConfirmedOnce r₀ t.run token notice) : result = modeResult mode reply notice := by
  obtain ⟨-, -, -, m, -, -, hbody, honce⟩ := hconfirmed
  cases h with
  | refused calls_eq => simp [calls_eq] at called
  | decided calls_eq returned result_eq =>
    obtain rfl : token = _ := by simpa [calls_eq] using called
    refine result_eq reply notice (hanswers _ returned) fun m' hm' => ?_
    rw [honce, List.mem_singleton] at hm'
    rw [hm', hbody]

/-- The confirmation was heard when no notice waits any more, although it may have come before the reply. -/
theorem Attends.heard (attends : Attends r₁ t) (awaits : r₀.Awaits r₁) (called : some token ∈ t.calls)
    (hnotices : t.run.client.notices = []) (hconfirmed : ConfirmedOnce r₀ t.run token notice) :
    (confirmed t.run.client.handled)[t.taken]? = some notice := by
  obtain ⟨before, request, behind, m, hlog, hbehind, rfl, honce⟩ := hconfirmed
  have hgrows := attends.listens.log_grows
  have hcommand : m ∈ confirmations (r₀.noticesSince t.run) := by
    rw [honce]
    exact List.mem_singleton_self m
  -- the request was written after it had begun to be listened, so that what came behind it could be heard
  have hfresh : .written token request ∉ r₁.log := fun hmem => attends.fresh token called _ hmem rfl
  have hm : m ∈ confirmations (r₁.noticesSince t.run) :=
    List.mem_filter.mpr ⟨Run.mem_noticesSince hgrows hlog hfresh hbehind, (List.mem_filter.mp hcommand).2⟩
  obtain ⟨body, hbody⟩ := attends.listens.exists_heard hnotices hm
  obtain ⟨m', hm', rfl⟩ := attends.listens.mem_of_heard hbody
  -- and nothing else could, for only one has come since `r₀`
  have hsame := List.filter_subset _ (awaits.noticesSince_subset hgrows) hm'
  rw [show List.filter _ _ = [m] from honce, List.mem_singleton] at hsame
  rw [attends.taken_eq, hbody, hsame]

section Ends

variable (slice : Span) (n : Nat)

theorem play_ended (session_eq : t.session = .pure result) :
    (t.play (List.replicate n (.thread slice))).session = .pure result := by
  induction n with
  | zero => exact session_eq
  | succ n ih =>
    show ((t.step (.thread slice)).play (List.replicate n (.thread slice))).session = _
    rw [Thread.step_thread_of_pure session_eq, ih]

theorem play_leaving (session_eq : t.session = endListening result) :
    (t.play (List.replicate (n + 1) (.thread slice))).session = .pure result :=
  play_ended (t := t.step (.thread slice)) slice n (by simp only [Thread.step, session_eq, endListening, Thread.finish])

theorem play_awaiting (session_eq : t.session = awaitReport c mode)
    (hheard : (confirmed t.run.client.handled)[t.taken]? = some notice) :
    (t.play (List.replicate (n + 2) (.thread slice))).session = .pure (modeReport mode notice) :=
  play_leaving (t := t.step (.thread slice)) slice n
    (by simp only [Thread.step, session_eq, awaitReport, hheard, Thread.finish])

theorem play_waiting (session_eq : t.session = askMode c mode) (place_eq : t.place = .waiting token)
    (hreturned : returned? token t.run.log = some (.ok (.body reply)))
    (hheard : (confirmed t.run.client.handled)[t.taken]? = some notice) :
    (t.play (List.replicate (n + 3) (.thread slice))).session = .pure (modeResult mode reply notice) := by
  have hstep : t.step (.thread slice) = t.finish
      (.call .transaction CallId.modeSet.code (modeSetBody mode) c.callTimeout) (.ok reply)
      (afterAnswer c mode (.ok reply)) := by
    simp only [Thread.step, session_eq, askMode, Thread.goOnCall, place_eq, hreturned]
    rfl
  show ((t.step (.thread slice)).play (List.replicate (n + 2) (.thread slice))).session = _
  rw [hstep, modeResult]
  rcases hstatus : modeStatus mode reply with e | u
  · refine play_leaving (t := t.finish _ _ _) slice (n + 1) ?_
    show (match modeStatus mode reply with | .ok () => _ | .error e => _) = _
    rw [hstatus]
    rfl
  · refine play_awaiting (c := c) (t := t.finish _ _ _) slice n ?_ hheard
    show (match modeStatus mode reply with | .ok () => _ | .error e => _) = _
    rw [hstatus]

end Ends

/-- A switch of the mode that is over has come to what its reply and the confirmation decide. -/
theorem ModeAt.result_eq (h : ModeAt c mode r₀ t) (hsession : t.session = .pure result)
    (called : some token ∈ t.calls)
    (hanswers : ∀ answer, .returned token answer ∈ t.run.log → answer = .ok (.body reply))
    (hconfirmed : ConfirmedOnce r₀ t.run token notice) : result = modeResult mode reply notice := by
  cases h with
  | ended result' session_eq grounds =>
    obtain rfl := Session.pure.inj (session_eq.symm.trans hsession)
    exact grounds.result_eq called hanswers hconfirmed
  | ahead session_eq => cases session_eq.symm.trans hsession
  | ready session_eq => cases session_eq.symm.trans hsession
  | waiting session_eq => cases session_eq.symm.trans hsession
  | awaiting session_eq => cases session_eq.symm.trans hsession
  | leaving result' session_eq => cases session_eq.symm.trans hsession

/-- With the reply and the confirmation there, nothing but its own steps is needed. -/
theorem ModeAt.ends (h : ModeAt c mode r₀ t) (called : some token ∈ t.calls)
    (hreturned : returned? token t.run.log = some (.ok (.body reply)))
    (hanswers : ∀ answer, .returned token answer ∈ t.run.log → answer = .ok (.body reply))
    (hnotices : t.run.client.notices = []) (hconfirmed : ConfirmedOnce r₀ t.run token notice) (slice : Span) :
    (t.play (List.replicate 3 (.thread slice))).session = .pure (modeResult mode reply notice) := by
  cases h with
  | ahead session_eq calls_eq awaits => simp [calls_eq] at called
  | ready session_eq place_eq calls_eq awaits attends => simp [calls_eq] at called
  | waiting session_eq place_eq calls_eq awaits attends =>
    have hheard := attends.heard awaits called hnotices hconfirmed
    obtain rfl : token = _ := by simpa [calls_eq] using called
    exact play_waiting slice 0 session_eq place_eq hreturned hheard
  | awaiting session_eq calls_eq returned accepted awaits attends =>
    have hheard := attends.heard awaits called hnotices hconfirmed
    obtain rfl : token = _ := by simpa [calls_eq] using called
    have hstatus : modeStatus mode reply = .ok () := by
      rw [hanswers _ returned] at accepted
      exact accepted
    rw [modeResult, hstatus]
    exact play_awaiting slice 1 session_eq hheard
  | leaving result session_eq grounds =>
    rw [← grounds.result_eq called hanswers hconfirmed]
    exact play_leaving slice 2 session_eq
  | ended result session_eq grounds =>
    rw [← grounds.result_eq called hanswers hconfirmed]
    exact play_ended slice 3 session_eq

/-- The modem does what a request for a mode asks, in time: behind the request of the thread come both messages
of its transaction, of which the second makes it return `reply`, and one confirmation, `notice`.  They come in any
order, and anything else may come among them. -/
structure Confirmed (t : Thread α) (turns : List Thread.Turn) (token : Nat) (reply notice : Bytes) : Prop where
  called : some token ∈ (t.play turns).calls
  served : Served (t.play turns).run.log token (.ok (.body reply))
  confirmed : ConfirmedOnce t.run (t.play turns).run token notice
  in_time : .late ∉ turns

/-- The handlers catch up, the call is asked to return, and the thread goes on. -/
def settling (t : Thread α) (token : Nat) (slice : Span) : List Thread.Turn :=
  (List.replicate t.run.client.notices.length (.client .handle) ++ [.client (.collect token)])
    ++ List.replicate 3 (.thread slice)

theorem play_handles (t : Thread α) (n : Nat) :
    (t.play (List.replicate n (.client .handle))).calls = t.calls ∧
    (t.play (List.replicate n (.client .handle))).run.log = t.run.log ∧
    (t.play (List.replicate n (.client .handle))).run.client.notices = t.run.client.notices.drop n := by
  induction n generalizing t with
  | zero => exact ⟨rfl, rfl, rfl⟩
  | succ n ih =>
    obtain ⟨hcalls, hlog, hnotices⟩ := ih (t.step (.client .handle))
    refine ⟨hcalls, hlog, hnotices.trans ?_⟩
    show t.run.client.handleNext.notices.drop n = _
    rcases hwaiting : t.run.client.notices with _ | ⟨m, rest⟩
    · rw [Client.handleNext, hwaiting, hwaiting, List.drop_nil, List.drop_nil]
    · rw [Client.handleNext_cons hwaiting, List.drop_succ_cons]

/-- A collected call has returned, or nothing has happened. -/
theorem log_collect_cases (r : Run NoticeId) (token : Nat) : ∃ events,
    (r.step (.collect token)).log = r.log ++ events ∧ unasked events = [] ∧ .expired token ∉ events := by
  show ∃ events, (r.collect token).log = _ ∧ _
  rw [Run.collect]
  rcases r.client.collect token with ⟨_ | result, client⟩
  · exact ⟨[], (List.append_nil _).symm, rfl, List.not_mem_nil⟩
  · exact ⟨[.returned token result], rfl, rfl, by simp⟩

/-- A call that is served returns when it is asked to, and nothing else happens then. -/
theorem collect_served {r : Run NoticeId} {config : ClientConfig} {sink : Sink}
    (hrun : ∃ actions, r = Run.after config sink actions) {answer : Except CallError Reply}
    (h : Served r.log token answer) :
    returned? token (r.step (.collect token)).log = some answer ∧
    (∀ answer', .returned token answer' ∈ (r.step (.collect token)).log → answer' = answer) ∧
    ∃ events, (r.step (.collect token)).log = r.log ++ events ∧ unasked events = [] := by
  obtain ⟨actions, rfl⟩ := hrun
  obtain ⟨events, hevents, hunasked, hunexpired⟩ := log_collect_cases (Run.after config sink actions) token
  have hanswers : ∀ answer',
      .returned token answer' ∈ ((Run.after config sink actions).step (.collect token)).log → answer' = answer := by
    have hserved := h.append hunexpired
    rw [← hevents, ← Run.after_append_singleton] at hserved
    rw [← Run.after_append_singleton]
    exact fun answer' => hserved.result_eq
  obtain ⟨_, hreturned⟩ := h.returns
  obtain ⟨answer', hanswer'⟩ := exists_returned?_of_mem hreturned
  obtain rfl := hanswers answer' (mem_of_returned? hanswer')
  exact ⟨hanswer', hanswers, events, hevents, hunasked⟩

/-- A switch of the mode that is answered and confirmed comes to its end when it may go on. -/
theorem ModeAt.settles (h : ModeAt c mode r₀ t) {config : ClientConfig} {sink : Sink}
    (hrun : ∃ actions, t.run = Run.after config sink actions) (called : some token ∈ t.calls)
    (hserved : Served t.run.log token (.ok (.body reply))) (hconfirmed : ConfirmedOnce r₀ t.run token notice)
    (slice : Span) : (t.play (settling t token slice)).session = .pure (modeResult mode reply notice) := by
  have hsound : t.run.Sound := by
    obtain ⟨actions, hactions⟩ := hrun
    exact hactions ▸ Run.sound_after config sink actions
  -- everything up to the collecting leaves the switch as far as it has got, or further
  rw [settling, Thread.play_append]
  obtain ⟨hcalls, hlog, hnotices⟩ := play_handles t t.run.client.notices.length
  have hat : ModeAt c mode r₀ (t.play
      (List.replicate t.run.client.notices.length (.client .handle) ++ [.client (.collect token)])) := by
    refine h.play hsound (fun a ha => ?_) (by simp)
    obtain ⟨-, rfl⟩ | rfl : _ ∧ a = .handle ∨ a = .collect token := by simpa using ha
    · trivial
    · trivial
  have hrun' := Thread.after_play hrun (List.replicate t.run.client.notices.length (.client .handle))
  rw [Thread.play_concat] at hat ⊢
  generalize t.play (List.replicate t.run.client.notices.length (.client .handle)) = u at *
  have hserved' : Served u.run.log token (.ok (.body reply)) := hlog ▸ hserved
  obtain ⟨hreturned, hanswers, events, hevents, hunasked⟩ := collect_served hrun' hserved'
  have hnone : (u.run.step (.collect token)).client.notices = [] := by
    have hkept := (u.run.plain_collect token).hears.notices_eq
    rw [List.append_nil, hnotices, List.drop_length] at hkept
    exact hkept
  refine hat.ends (hcalls.symm ▸ called : some token ∈ _) hreturned hanswers hnone ?_ slice
  exact hconfirmed.append (hevents.trans (congrArg (· ++ events) hlog)) hunasked

section Main

variable (c : ModemConfig) (mode : UInt32) (config : ClientConfig) (sink : Sink)
  {past : List (Action NoticeId)} {turns : List Thread.Turn}

/-- What a switch of the mode comes to when the modem does what is asked. -/
theorem Confirmed.ends (hpast : ∀ command, .register command .modeSet ∈ past → command = NoticeId.modeSet.code)
    (hturns : ∀ a, .client a ∈ turns → a.SparesModeSet)
    (h : Confirmed (Thread.start config sink past (setMode c mode).run) turns token reply notice) :
    let t := (Thread.start config sink past (setMode c mode).run).play turns
    (∀ result, t.session = .pure result → result = modeResult mode reply notice) ∧
      ∀ slice, (t.play (settling t token slice)).session = .pure (modeResult mode reply notice) := by
  intro t
  have hafter := Thread.exists_after config sink (setMode c mode).run past
  have hsound : (Thread.start config sink past (setMode c mode).run).run.Sound := by
    obtain ⟨actions, hactions⟩ := hafter []
    exact (congrArg Run.Sound hactions).mpr (Run.sound_after config sink actions)
  have htuned : (Thread.start config sink past (setMode c mode).run).run.Tuned :=
    (Run.tuned_after config sink hpast).step (by simp)
  have hat : ModeAt c mode (Thread.start config sink past (setMode c mode).run).run t :=
    ModeAt.play (.ahead (run_setMode c mode) rfl (.refl htuned)) hsound hturns h.in_time
  refine ⟨fun result hsession => ?_, hat.settles (hafter turns) h.called h.served h.confirmed⟩
  obtain ⟨actions, hactions⟩ := hafter turns
  refine hat.result_eq hsession h.called (fun answer hreturned => ?_) h.confirmed
  have hserved := h.served
  rw [hactions] at hserved
  exact hserved.result_eq (hactions ▸ hreturned)

/-- The one confirmation decides as if it came behind the reply, whatever the order in which the modem's messages
come.

Whatever the modem and the others do, no handler of confirmations remains when a switch of the mode is over.  If the
modem does what is asked in time (`Confirmed`), then the switch comes to `modeResult`, which depends on the mode,
the reply and the confirmation alone: that is all that it can end with, and it does end when the handlers catch up and
its thread goes on.  How the two of them decide is told by `Decides`. -/
theorem setMode_ignores_order
    (hpast : ∀ command, .register command .modeSet ∈ past → command = NoticeId.modeSet.code)
    (hturns : ∀ a, .client a ∈ turns → a.SparesModeSet) :
    let first := Thread.start config sink past (setMode c mode).run
    let t := first.play turns
    (∀ result, t.session = .pure result → t.run.client.handler? NoticeId.modeSet.code = none) ∧
    (∀ token reply notice, Confirmed first turns token reply notice →
      (∀ result, t.session = .pure result → result = modeResult mode reply notice) ∧
      ∀ slice, (t.play (settling t token slice)).session = .pure (modeResult mode reply notice)) ∧
    ∀ reply notice, Decides mode reply notice (modeResult mode reply notice) := by
  intro first t
  have hshut : first.Shut := .later (closes_listening (requestMode c mode))
  exact ⟨fun result => Thread.handler?_of_ended (hshut.play hturns),
    fun token reply notice => Confirmed.ends c mode config sink hpast hturns, decides_modeResult mode⟩

end Main

/-! ### A run -/

/-- A message of the transaction that asks for a mode. -/
def modeReply (body : Bytes) : Message :=
  ⟨16, 16, CallId.modeSet.code, 0x11000101, body⟩

/-- The notice that the modem is online. -/
def onlineNotice : Message :=
  ⟨16, 16, NoticeId.modeSet.code, 0, Value.dword 0 ++ Value.dword online⟩

/-- A switch to online begins, and the confirmation comes, and then the acknowledgement. -/
def confirmedEarly : List Thread.Turn :=
  [.thread ⟨0⟩, .thread ⟨0⟩, .client .write, .client (.dispatch onlineNotice), .client (.dispatch (modeReply []))]

/-- The result of the transaction comes last. -/
def confirmedFirst (result : Bytes) : List Thread.Turn :=
  confirmedEarly ++ [.client (.dispatch (modeReply (Value.dword 1 ++ result)))]

/-- A switch to online, on a client that was not used before. -/
def goingOnline : Thread (Except ModemError Unit) :=
  Thread.start {} {} [] (setMode {} online).run

theorem log_confirmedFirst (result : Bytes) : (goingOnline.play (confirmedFirst result)).run.log
    = [.started 1 (.transaction 1)] ++ .written 1 ⟨CallId.modeSet.code, some 1, modeSetBody online⟩ ::
      [.arrived onlineNotice .notice none none, .arrived (modeReply []) (.transaction 1) (some 1) none,
        .arrived (modeReply (Value.dword 1 ++ result)) (.transaction 1) (some 1) (some 1)] := by
  have hearly : (goingOnline.play confirmedEarly).run.log
      = [.started 1 (.transaction 1), .written 1 ⟨CallId.modeSet.code, some 1, modeSetBody online⟩,
        .arrived onlineNotice .notice none none, .arrived (modeReply []) (.transaction 1) (some 1) none] := by
    decide +kernel
  have hentry : (goingOnline.play confirmedEarly).run.client.table.entry? (.transaction 1) = some 1 := by
    decide +kernel
  have hreceiver : (Client.route (.transaction 1) (goingOnline.play confirmedEarly).run.client.table).1 = some 1 := by
    decide +kernel
  have hkind : (modeReply (Value.dword 1 ++ result)).classify
      (goingOnline.play confirmedEarly).run.client.config.threshold = .transaction 1 := by
    rw [show (goingOnline.play confirmedEarly).run.client.config.threshold = 2000 by decide +kernel]
    exact Message.classify_eq_transaction.mpr ⟨rfl, by decide, (by decide : CallId.modeSet.code < 2000)⟩
  rw [confirmedFirst, Thread.play_concat]
  show (goingOnline.play confirmedEarly).run.log ++ [.arrived _ _ _ _] = _
  rw [hkind]
  rw [hearly, hentry, hreceiver]
  rfl

/-- Whatever the result of the transaction is, the modem does what is asked. -/
theorem confirmed_confirmedFirst (result : Bytes) :
    Confirmed goingOnline (confirmedFirst result) 1 result onlineNotice.body := by
  have hlog := log_confirmedFirst result
  have hcalls : (goingOnline.play confirmedEarly).calls = [some 1] := by decide +kernel
  have hnone : goingOnline.run.client.notices = [] ∧ goingOnline.run.log = [] := by decide +kernel
  constructor
  · rw [confirmedFirst, Thread.play_concat]
    show some 1 ∈ (goingOnline.play confirmedEarly).calls
    rw [hcalls]
    exact List.mem_singleton_self _
  · rw [hlog]
    exact ⟨⟨_, List.mem_append_right _ List.mem_cons_self⟩, ⟨1, _, _, rfl, rfl⟩, by simp⟩
  · refine ⟨_, _, _, onlineNotice, hlog, List.mem_cons_self, rfl, ?_⟩
    rw [Run.noticesSince, hnone.1, hnone.2, hlog]
    rfl
  · simp [confirmedFirst, confirmedEarly]

theorem setMode_ignores_order_early :
    Confirmed goingOnline (confirmedFirst (Value.dword 0)) 1 (Value.dword 0) onlineNotice.body ∧
    ((goingOnline.play (confirmedFirst (Value.dword 0))).play
      (settling (goingOnline.play (confirmedFirst (Value.dword 0))) 1 ⟨0⟩)).session = .pure (.ok ()) := by
  have hpast : ∀ command, Action.register command .modeSet ∈ ([] : List (Action NoticeId)) →
      command = NoticeId.modeSet.code := by simp
  have hturns : ∀ a, Thread.Turn.client a ∈ confirmedFirst (Value.dword 0) → a.SparesModeSet := by
    simp [confirmedFirst, confirmedEarly, Action.SparesModeSet]
  obtain ⟨-, hends, -⟩ := setMode_ignores_order {} online {} {} hpast hturns
  have hresult : modeResult online (Value.dword 0) onlineNotice.body = .ok () := by decide +kernel
  have hconfirmed := confirmed_confirmedFirst (Value.dword 0)
  rw [← hresult]
  exact ⟨hconfirmed, (hends 1 _ _ hconfirmed).2 ⟨0⟩⟩

/-- An empty string, where the status is due. -/
def emptyStatus : Bytes :=
  Value.zeros 0

/-- A string in place of the status is not zero, but it is not reported as a refusal of the mode either. -/
theorem string_is_no_refusal : ¬∀ (mode : UInt32) (turns : List Thread.Turn) (token : Nat) (reply notice : Bytes),
    let first := Thread.start {} {} [] (setMode {} mode).run
    Confirmed first turns token reply notice → ¬HoldsInt reply 0 0 → ∃ reason,
      ((first.play turns).play (settling (first.play turns) token ⟨0⟩)).session
        = .pure (.error (.modeSetFailed mode reason)) := by
  intro h
  have hpast : ∀ command, Action.register command .modeSet ∈ ([] : List (Action NoticeId)) →
      command = NoticeId.modeSet.code := by simp
  have hturns : ∀ a, Thread.Turn.client a ∈ confirmedFirst emptyStatus → a.SparesModeSet := by
    simp [confirmedFirst, confirmedEarly, Action.SparesModeSet]
  have hconfirmed := confirmed_confirmedFirst emptyStatus
  have hvalues : Value.decodeAll emptyStatus = .ok [.string .one []] := by decide +kernel
  have hnot : ¬HoldsInt emptyStatus 0 0 := by
    rintro ⟨values, hsame, hzero⟩
    obtain rfl := Except.ok.inj (hvalues.symm.trans hsame)
    cases hzero
  obtain ⟨reason, hfailed⟩ := h online _ 1 emptyStatus _ hconfirmed hnot
  have hends := (Confirmed.ends {} online {} {} hpast hturns hconfirmed).2 ⟨0⟩
  have hbad : modeResult online emptyStatus onlineNotice.body
      = .error (.badReply .modeSet "value 0 is missing or not an integer") := by decide +kernel
  rw [hbad] at hends
  cases hends.symm.trans hfailed

end Wwan.Modem
