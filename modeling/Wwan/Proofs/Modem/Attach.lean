import Wwan.Modem.BringUp
import Wwan.Proofs.Client.Hearing
import Wwan.Proofs.Modem.Thread

/-!
# Attaching to the network

An attach that is rejected is tried once more, and only when the network has told in the meantime that it is
allowed.  What is told reaches the waiting thread in two ways: the handler hears it, or the next message that
the thread watches for tells it.

`AttachDue` and `AttachEnd` list what an attach does and how it ends, whatever its acts give
(`attach_keeps`).  `Modem.attachAllowed?_eq_true_iff` says which notices tell it, `hasLeave_iff` what it takes
that the handler has heard of it, and `Modem.attach_retries_once` puts this together for every order of the
turns.
-/

namespace Wwan

/-! ## Which notices tell it -/

/-- Whether the third value of a notice's body is this integer. -/
def ThirdIs (body : Bytes) (n : UInt32) : Prop :=
  ∃ values, Value.decodeAll body = .ok values ∧ values[2]? = some (.int n)

/-- Whether a notice's body tells that attaching is allowed: its third value is an integer and not zero. -/
def GivesLeave (body : Bytes) : Prop :=
  ∃ n, ThirdIs body n ∧ n ≠ 0

namespace Modem

/-- A notice that tells anything has an integer as its third value. -/
theorem attachAllowed?_eq_some_iff {body : Bytes} {b : Bool} :
    attachAllowed? body = some b ↔ ∃ n, ThirdIs body n ∧ decide (n ≠ 0) = b := by
  rw [attachAllowed?]
  unfold ThirdIs
  rcases Value.decodeAll body with e | values
  · simp
  -- a string in the third place is no integer, and neither is a missing value
  have hint : ∀ n, values[2]?.bind Value.int? = some n ↔ values[2]? = some (.int n) := by
    intro n
    rcases values[2]? with _ | ⟨k⟩ | _ <;> simp [Value.int?]
  simp only [Option.map_eq_some_iff, hint, Except.ok.injEq, exists_eq_left']

theorem attachAllowed?_eq_true_iff {body : Bytes} : attachAllowed? body = some true ↔ GivesLeave body := by
  simp [attachAllowed?_eq_some_iff, GivesLeave]

theorem attachAllowed?_eq_false_iff {body : Bytes} : attachAllowed? body = some false ↔ ThirdIs body 0 := by
  simp [attachAllowed?_eq_some_iff]

end Modem

/-! ## What the handler has heard -/

theorem of_toldLeave_eq_some {x : NoticeId × Message} {b : Bool} (h : toldLeave x = some b) :
    ∃ m, x = (.attachAllowed, m) ∧ Modem.attachAllowed? m.body = some b := by
  obtain ⟨id, m⟩ := x
  cases id <;> first | exact ⟨m, rfl, h⟩ | cases h

theorem hasLeave_concat (handled : List (NoticeId × Message)) (x : NoticeId × Message) :
    hasLeave (handled ++ [x]) = (toldLeave x).getD (hasLeave handled) :=
  hasLeave_append handled [x]

/-- The last notice that told the handler anything told it that attaching is allowed: no later one has zero as
its third value. -/
def LeaveHandled (handled : List (NoticeId × Message)) : Prop :=
  ∃ before m after, handled = before ++ (.attachAllowed, m) :: after ∧ GivesLeave m.body ∧
    ∀ m', (.attachAllowed, m') ∈ after → ¬ThirdIs m'.body 0

/-- What the handler is told last counts. -/
theorem hasLeave_iff {handled : List (NoticeId × Message)} : hasLeave handled = true ↔ LeaveHandled handled := by
  simp only [LeaveHandled, ← Modem.attachAllowed?_eq_true_iff, ← Modem.attachAllowed?_eq_false_iff]
  induction handled using List.reverseRecOn with
  | nil =>
    refine iff_of_false Bool.false_ne_true ?_
    rintro ⟨before, m, after, hnil, -⟩
    exact absurd hnil.symm (by simp)
  | append_singleton handled x ih =>
    rw [hasLeave_concat]
    constructor
    · intro h
      rcases htold : toldLeave x with _ | b <;> rw [htold] at h
      · -- what tells nothing changes nothing
        obtain ⟨before, m, after, rfl, htells, hafter⟩ := ih.mp h
        refine ⟨before, m, after ++ [x], by simp, htells, fun m' hm' => ?_⟩
        obtain hm' | hm' := List.mem_append.mp hm'
        · exact hafter m' hm'
        · rw [← List.mem_singleton.mp hm'] at htold
          have hnone : Modem.attachAllowed? m'.body = none := htold
          simp [hnone]
      · obtain rfl : b = true := h
        obtain ⟨m, rfl, htells⟩ := of_toldLeave_eq_some htold
        exact ⟨handled, m, [], rfl, htells, by simp⟩
    · rintro ⟨before, m, after, hhandled, htells, hafter⟩
      rcases List.eq_nil_or_concat after with rfl | ⟨after', last, rfl⟩
      · obtain ⟨-, hx⟩ := List.append_inj' hhandled rfl
        obtain rfl := List.singleton_inj.mp hx
        have htold : toldLeave (.attachAllowed, m) = some true := htells
        rw [htold]
        rfl
      · have hsplit : before ++ (.attachAllowed, m) :: after'.concat last
            = (before ++ (.attachAllowed, m) :: after') ++ [last] := by simp
        obtain ⟨hhandled', hx⟩ := List.append_inj' (hhandled.trans hsplit) rfl
        obtain rfl := List.singleton_inj.mp hx
        have hbefore : hasLeave handled = true := by
          refine ih.mpr ⟨before, m, after', hhandled', htells, fun m' hm' => hafter m' ?_⟩
          rw [List.concat_eq_append]
          exact List.mem_append_left _ hm'
        rcases htold : toldLeave x with _ | b
        · exact hbefore
        cases b with
        | true => rfl
        | false =>
          obtain ⟨m', rfl, hdenies⟩ := of_toldLeave_eq_some htold
          exact absurd hdenies (hafter m' (by simp))

/-! ### Where it comes from -/

/-- The modem's handler has its command only, and was called with what had arrived as a notice. -/
structure Informed (r : Run NoticeId) : Prop where
  handler : ∀ command, r.client.handler? command = some .attachAllowed → command = NoticeId.attachAllowed.code
  notices : ∀ m ∈ r.client.notices, m ∈ unasked r.log
  handled : ∀ m, (.attachAllowed, m) ∈ r.client.handled →
    m.command = NoticeId.attachAllowed.code ∧ m ∈ unasked r.log

variable {r r' : Run NoticeId}

theorem Informed.hears (h : Informed r) {ms : List Message} (hhears : Run.Hears r r' ms) : Informed r' := by
  constructor
  · intro command hcommand
    rw [Client.handler?_congr hhears.handlers_eq] at hcommand
    exact h.handler command hcommand
  · intro m hm
    rw [hhears.notices_eq, List.mem_append] at hm
    rw [hhears.unasked_eq, List.mem_append]
    exact hm.imp_left (h.notices m)
  · intro m hm
    rw [hhears.handled_eq] at hm
    rw [hhears.unasked_eq, List.mem_append]
    exact ⟨(h.handled m hm).1, .inl (h.handled m hm).2⟩

theorem Informed.handle (h : Informed r) : Informed (r.step .handle) := by
  rcases hnotices : r.client.notices with _ | ⟨m, rest⟩
  · have hidle : r.step .handle = r := by
      rw [Run.step, Client.handleNext, hnotices]
    rw [hidle]
    exact h
  have hclient : (r.step .handle).client = r.client.handleNext := rfl
  have hlog : (r.step .handle).log = r.log := rfl
  rw [Client.handleNext_cons hnotices] at hclient
  constructor
  · rw [hclient]
    exact h.handler
  · rw [hclient, hlog]
    exact fun m' hm' => h.notices m' (hnotices ▸ List.mem_cons_of_mem m hm')
  · intro m' hm'
    rw [hclient] at hm'
    rw [hlog]
    obtain hm' | hm' := List.mem_append.mp hm'
    · exact h.handled m' hm'
    · -- the notice that is handled now
      obtain ⟨id, hid, heq⟩ := Option.map_eq_some_iff.mp (Option.mem_toList.mp hm')
      obtain ⟨rfl, rfl⟩ := Prod.mk.inj heq
      exact ⟨h.handler m.command hid, h.notices m (hnotices ▸ List.mem_cons_self)⟩

/-- Nobody else gets the modem's handler. -/
theorem Informed.step (h : Informed r) {a : Action NoticeId}
    (ha : ∀ command, a = .register command .attachAllowed → command = NoticeId.attachAllowed.code) :
    Informed (r.step a) := by
  cases a with
  | handle => exact h.handle
  | register command id =>
    refine ⟨fun command' hcommand => ?_, h.notices, h.handled⟩
    have hcommand' : (r.client.register command id).2.handler? command' = some .attachAllowed := hcommand
    rw [Client.handler?_register] at hcommand'
    split at hcommand'
    · next hsame =>
      rw [hsame]
      exact ha command (by rw [Option.some.inj hcommand'])
    · exact h.handler command' hcommand'
  | unregister command =>
    refine ⟨fun command' hcommand => ?_, h.notices, h.handled⟩
    have hcommand' : (r.client.unregister command).2.handler? command' = some .attachAllowed := hcommand
    rw [Client.handler?_unregister] at hcommand'
    split at hcommand'
    · cases hcommand'
    · exact h.handler command' hcommand'
  | _ => exact h.hears (r.hears_step rfl)

/-! ## What an attach does -/

namespace Modem

/-- The status that a call for an attach gives. -/
def attachStatus (answer : Except CallError Bytes) : Except ModemError UInt32 := do
  replyInt .netAttach (← answer.mapError .call) 1

/-- A call for an attach was made. -/
def attempt (c : ModemConfig) (answer : Except CallError Bytes) : Deed :=
  ⟨.call .transaction CallId.netAttach.code netAttachBody c.callTimeout, answer⟩

/-- A wait for leave was over. -/
def waited (c : ModemConfig) (r : Except CallError Unit) : Deed :=
  ⟨.attachAllowed c.attachWait, r⟩

/-- What an attach does next, after what it has done. -/
inductive AttachDue (c : ModemConfig) : List Deed → Act → Prop where
  | first : AttachDue c [] (.call .transaction CallId.netAttach.code netAttachBody c.callTimeout)
  | wait {answer : Except CallError Bytes} (rejected : attachStatus answer = .ok attachRejected) :
      AttachDue c [attempt c answer] (.attachAllowed c.attachWait)
  | again {answer : Except CallError Bytes} (rejected : attachStatus answer = .ok attachRejected) :
      AttachDue c [attempt c answer, waited c (.ok ())]
        (.call .transaction CallId.netAttach.code netAttachBody c.callTimeout)

/-- What a second attempt makes of the status. -/
def secondResult : Except ModemError UInt32 → Except ModemError Unit
  | .ok status => if status = attachRejected then .error (.attachFailed status) else .ok ()
  | .error e => .error e

/-- How an attach ends after what it has done. -/
inductive AttachEnd (c : ModemConfig) : List Deed → Except ModemError Unit → Prop where
  | once {answer : Except CallError Bytes} (accepted : attachStatus answer ≠ .ok attachRejected) :
      AttachEnd c [attempt c answer] ((attachStatus answer).map fun _ => ())
  | notAllowed {answer : Except CallError Bytes} (e : CallError)
      (rejected : attachStatus answer = .ok attachRejected) :
      AttachEnd c [attempt c answer, waited c (.error e)] (.error (.call e))
  | twice {answer : Except CallError Bytes} (answer' : Except CallError Bytes)
      (rejected : attachStatus answer = .ok attachRejected) :
      AttachEnd c [attempt c answer, waited c (.ok ()), attempt c answer'] (secondResult (attachStatus answer'))

/-- A request for an attach gives the status that its call gives. -/
theorem run_requestAttach (c : ModemConfig) : (requestAttach c).run
    = .act (.call .transaction CallId.netAttach.code netAttachBody c.callTimeout) fun answer =>
        .pure (attachStatus answer) := by
  refine congrArg (Session.act _) (funext fun answer => ?_)
  rcases answer with e | reply
  · rfl
  · show (ofExcept (replyInt .netAttach reply 1) : Procedure UInt32).run = .pure (replyInt .netAttach reply 1)
    rcases replyInt .netAttach reply 1 with e | status <;> rfl

/-- Whatever the acts of an attach give, it does what is due, and ends as it should. -/
theorem attach_keeps (c : ModemConfig) : (attach c).run.Keeps (AttachDue c) [] (AttachEnd c) := by
  show ((requestAttach c).run.bind _).Keeps _ _ _
  rw [run_requestAttach]
  refine ⟨.first, fun answer => ?_⟩
  dsimp only [Session.pure_bind]
  by_cases hrejected : attachStatus answer = .ok attachRejected
  · rw [hrejected]
    refine ⟨.wait hrejected, fun r => ?_⟩
    cases r with
    | error e => exact .notAllowed e hrejected
    | ok u =>
      show ((requestAttach c).run.bind _).Keeps _ _ _
      rw [run_requestAttach]
      refine ⟨.again hrejected, fun answer' => ?_⟩
      -- the second status decides, whatever it is
      have hend := AttachEnd.twice (c := c) answer' hrejected
      dsimp only [Session.pure_bind]
      rcases hstatus : attachStatus answer' with e | status <;> rw [hstatus] at hend
      · exact hend
      · show Session.Keeps _ _ (ExceptT.run (if status = attachRejected then _ else _)) _
        rw [secondResult] at hend
        by_cases hagain : status = attachRejected
        · rw [if_pos hagain] at hend ⊢
          exact hend
        · rw [if_neg hagain] at hend ⊢
          exact hend
  · -- a first attempt that is not rejected is the last one
    have hend := AttachEnd.once (c := c) hrejected
    rcases hstatus : attachStatus answer with e | status <;> rw [hstatus] at hend hrejected
    · exact hend
    · show Session.Keeps _ _ (ExceptT.run (if status = attachRejected then _ else _)) _
      rw [if_neg fun h => hrejected (congrArg Except.ok h)]
      exact hend

/-! ### What the replies decide -/

/-- A call for an attach was answered, and the attach accepted. -/
def Accepted (e : Exchange) : Prop :=
  ∃ status, attachStatus e.answer = .ok status ∧ status ≠ attachRejected

/-- A call for an attach was answered, and the attach rejected. -/
def Rejected (e : Exchange) : Prop :=
  attachStatus e.answer = .ok attachRejected

theorem Rejected.not_accepted {e : Exchange} (h : Rejected e) : ¬Accepted e := by
  rintro ⟨status, hstatus, hne⟩
  exact hne (Except.ok.inj (hstatus.symm.trans h))

theorem Rejected.answered {e : Exchange} (h : Rejected e) : e.Answered := by
  obtain ⟨purpose, command, body, answer⟩ := e
  rcases answer with cause | reply
  · cases h
  · exact ⟨reply, rfl⟩

/-- The request of an attempt, with what its call gave. -/
def asked (answer : Except CallError Bytes) : Exchange :=
  ⟨.transaction, CallId.netAttach.code, netAttachBody, answer⟩

section Places

variable {c : ModemConfig} {answer answer' : Except CallError Bytes} {r : Except CallError Unit}

theorem exchanges_once : exchanges [attempt c answer] = [asked answer] := rfl

theorem exchanges_waited : exchanges [attempt c answer, waited c r] = [asked answer] := rfl

theorem exchanges_twice :
    exchanges [attempt c answer, waited c r, attempt c answer'] = [asked answer, asked answer'] := rfl

/-- A first attempt that is not rejected succeeds if it is accepted. -/
theorem once_eq_ok_iff (h : attachStatus answer ≠ .ok attachRejected) :
    (attachStatus answer).map (fun _ => ()) = .ok () ↔ Accepted (asked answer) := by
  rcases hstatus : attachStatus answer with e | status
  · refine iff_of_false (fun hok => by cases hok) ?_
    rintro ⟨status, hok, -⟩
    cases hstatus.symm.trans hok
  · refine iff_of_true rfl ⟨status, hstatus, ?_⟩
    rintro rfl
    exact h hstatus

theorem secondResult_eq_ok_iff : secondResult (attachStatus answer) = .ok () ↔ Accepted (asked answer) := by
  rcases hstatus : attachStatus answer with e | status
  · refine iff_of_false (fun hok => by cases hok) ?_
    rintro ⟨status, hok, -⟩
    cases hstatus.symm.trans hok
  · rw [secondResult]
    by_cases hrejected : status = attachRejected
    · rw [if_pos hrejected]
      rw [hrejected] at hstatus
      exact iff_of_false (fun hok => by cases hok) (Rejected.not_accepted hstatus)
    · rw [if_neg hrejected]
      exact iff_of_true rfl ⟨status, hstatus, hrejected⟩

/-- A call that fails does not say that the attach was rejected. -/
theorem attachStatus_ne_failed (answer : Except CallError Bytes) (status : UInt32) :
    attachStatus answer ≠ .error (.attachFailed status) := by
  rcases answer with e | reply
  · intro h
    cases h
  · show (do intAt .netAttach (← replyValues .netAttach reply) 1) ≠ _
    rw [replyValues]
    rcases Value.decodeAll reply with e | values
    · intro h
      cases h
    · show intAt .netAttach values 1 ≠ _
      rw [intAt]
      rcases values[1]?.bind Value.int? with _ | n <;>
        · intro h
          cases h

theorem secondResult_eq_failed_iff :
    (∃ status, secondResult (attachStatus answer) = .error (.attachFailed status)) ↔ Rejected (asked answer) := by
  have hnever := attachStatus_ne_failed answer
  have hrejected : Rejected (asked answer) ↔ attachStatus answer = .ok attachRejected := Iff.rfl
  rw [hrejected]
  rcases hstatus : attachStatus answer with e | status <;> rw [hstatus] at hnever
  · refine iff_of_false ?_ (fun hok => by cases hok)
    rintro ⟨status, hfailed⟩
    cases hfailed
    exact hnever status rfl
  · rw [secondResult, Except.ok.injEq]
    by_cases hagain : status = attachRejected
    · rw [if_pos hagain]
      exact iff_of_true ⟨status, rfl⟩ hagain
    · rw [if_neg hagain]
      refine iff_of_false ?_ hagain
      rintro ⟨status', hfailed⟩
      cases hfailed

/-- What is left of an attach, behind what it has done. -/
def AttachAt (c : ModemConfig) (session : Session (Except ModemError Unit)) (deeds : List Deed) : Prop :=
  session.Keeps (AttachDue c) deeds (AttachEnd c)

variable {session : Session (Except ModemError Unit)} {deeds : List Deed}

/-- An attach succeeds when the last call for it was answered and accepted, and only then. -/
theorem AttachAt.succeeds_iff (h : AttachAt c session deeds) :
    session = .pure (.ok ()) ↔ ∃ e ∈ (exchanges deeds).getLast?, Accepted e := by
  cases session with
  | pure r =>
    have hend : AttachEnd c deeds r := h
    rw [Session.pure.injEq]
    cases hend with
    | once accepted => simpa [exchanges_once] using once_eq_ok_iff accepted
    | notAllowed e rejected =>
      refine iff_of_false (fun hok => by cases hok) ?_
      simpa [exchanges_waited] using Rejected.not_accepted (e := asked _) rejected
    | twice answer' rejected => simpa [exchanges_twice] using secondResult_eq_ok_iff
  | act a next =>
    have hdue : AttachDue c deeds a := h.1
    refine iff_of_false (fun hok => by cases hok) ?_
    cases hdue with
    | first => simp [exchanges]
    | wait rejected => simpa [exchanges_once] using Rejected.not_accepted (e := asked _) rejected
    | again rejected => simpa [exchanges_waited] using Rejected.not_accepted (e := asked _) rejected

/-- An attach fails for being rejected when two calls for it were answered and rejected, and only then. -/
theorem AttachAt.fails_iff (h : AttachAt c session deeds) :
    (∃ status, session = .pure (.error (.attachFailed status))) ↔
      (exchanges deeds).length = 2 ∧ ∀ e ∈ exchanges deeds, Rejected e := by
  cases session with
  | pure r =>
    have hend : AttachEnd c deeds r := h
    simp only [Session.pure.injEq]
    cases hend with
    | @once answer accepted =>
      refine iff_of_false ?_ (by simp [exchanges_once])
      rintro ⟨status, hfailed⟩
      rcases hstatus : attachStatus answer with e | status' <;> rw [hstatus] at hfailed
      · cases hfailed
        exact attachStatus_ne_failed answer status hstatus
      · cases hfailed
    | notAllowed e rejected =>
      refine iff_of_false ?_ (by simp [exchanges_waited])
      rintro ⟨status, hfailed⟩
      cases hfailed
    | @twice answer answer' rejected =>
      have hfirst : Rejected (asked answer) := rejected
      rw [secondResult_eq_failed_iff, exchanges_twice]
      simp [hfirst]
  | act a next =>
    have hdue : AttachDue c deeds a := h.1
    refine iff_of_false ?_ ?_
    · rintro ⟨status, hfailed⟩
      cases hfailed
    · cases hdue with
      | first => simp [exchanges]
      | wait rejected => simp [exchanges_once]
      | again rejected => simp [exchanges_waited]

/-- An attach that is over has made one call or two. -/
theorem AttachEnd.one_or_two {r : Except ModemError Unit} (h : AttachEnd c deeds r) :
    (exchanges deeds).length = 1 ∨ (exchanges deeds).length = 2 := by
  cases h with
  | once => exact .inl rfl
  | notAllowed => exact .inl rfl
  | twice => exact .inr rfl

end Places

end Modem

/-! ## Where the leave comes from -/

namespace Thread

variable {α : Type} {t t' : Thread α}

/-- A wait that ends well does so because leave was heard. -/
theorem Move.leaveHeard {run : Run NoticeId} (hmove : t.Move run t') {timeout : Span}
    (h : t'.deeds = t.deeds ++ [⟨.attachAllowed timeout, .ok ()⟩]) :
    t.LeaveHeard ∧ ∃ next, t.session = .act (.attachAllowed timeout) next := by
  cases hmove with
  | callRefused e session_eq place_ne =>
    have hlast := List.append_cancel_left h
    cases hlast
  | callReturns session_eq place_eq returned =>
    have hlast := List.append_cancel_left h
    cases hlast
  | @waited timeout' next r session_eq heard =>
    have hlast := List.append_cancel_left h
    cases hlast
    exact ⟨heard rfl, next, session_eq⟩
  | other r taken session_eq isOther =>
    have hlast := List.append_cancel_left h
    cases hlast
    cases isOther
  | _ => exact absurd h (by simp)

/-- Behind some deeds and before the next one, attaching was heard to be allowed: by the modem's handler, which
was told nothing else later, or by a watch that began then and was told of this message. -/
inductive LeaveFound (t : Thread α) (turns : List Turn) (deeds : List Deed) : Prop where
  | handled {past more : List Turn} (turns_eq : turns = past ++ more) (deeds_eq : (t.play past).deeds = deeds)
      (leave : LeaveHandled (t.play past).run.client.handled)
      (received : ∀ m, (.attachAllowed, m) ∈ (t.play past).run.client.handled →
        m.command = NoticeId.attachAllowed.code ∧ m ∈ unasked (t.play past).run.log)
  | watched {past during more : List Turn} {token : Nat} {m : Message} (turns_eq : turns = past ++ during ++ more)
      (begins : (t.play past).deeds = deeds) (fresh : token ∉ starts (t.play past).run.log)
      (ends : (t.play (past ++ during)).deeds = deeds)
      (heard_eq : heard token (t.play (past ++ during)).run.log = some m)
      (returned : .returned token (.ok (.summary (m.summary t.run.client.config.threshold)))
        ∈ (t.play (past ++ during)).run.log)
      (command_eq : m.command = NoticeId.attachAllowed.code) (leave : GivesLeave m.body)

theorem log_play (t : Thread α) (turns : List Turn) : t.run.log <+: (t.play turns).run.log :=
  play_run (P := fun r => t.run.log <+: r.log)
    (fun r a h => h.trans (Move.log_prefix (Run.move_step r a))) List.prefix_rfl turns

theorem config_play (t : Thread α) (turns : List Turn) :
    (t.play turns).run.client.config = t.run.client.config :=
  play_run (P := fun r => r.client.config = t.run.client.config)
    (fun r a h => (Run.move_step r a).config_eq.trans h) rfl turns

/-- A wait that has ended well has found leave. -/
theorem leaveFound {turns : List Turn} (hnew : t.deeds = []) (hplace : t.place = .before) (hsound : t.run.Sound)
    (hobserved : ∀ past, (t.play past).run.Observed)
    (hinformed : ∀ past, past <+: turns → Informed (t.play past).run)
    {before after : List Deed} {timeout : Span}
    (h : (t.play turns).deeds = before ++ ⟨.attachAllowed timeout, .ok ()⟩ :: after) : t.LeaveFound turns before := by
  -- the turn at which the wait ended is where leave was heard
  obtain ⟨past, turn, more, rfl, hpast, hdone⟩ := exists_turn hnew h
  rw [← hpast] at hdone
  obtain ⟨hleave | ⟨token, m, hwaits, hreturned, htells⟩, next, hsession⟩ :=
    ((t.play past).move_step turn).leaveHeard hdone
  · exact .handled rfl hpast (hasLeave_iff.mp hleave) (hinformed past (List.prefix_append _ _)).handled
  -- the watch began at a turn before
  obtain ⟨past', turn', during, rfl, hbegins, hlog⟩ := exists_watch hplace hsession hwaits
  have hsound' : ((t.play past').step turn').run.Sound := by
    rw [← play_concat]
    exact play_run (P := Run.Sound) (fun _ a hr => hr.step a) hsound _
  have hstarted : .started token .observation ∈ (t.play (past' ++ turn' :: during)).run.log := by
    have hgrows := log_play ((t.play past').step turn') during
    rw [hlog] at hgrows
    rw [play_append]
    exact hgrows.subset List.mem_concat_self
  have hfresh : token ∉ starts (t.play past').run.log := by
    have hnodup := hsound'.ledger.starts_nodup
    rw [hlog, starts_append] at hnodup
    exact fun hmem => (List.nodup_append.mp hnodup).2.2 token hmem token (by simp [starts]) rfl
  obtain ⟨m', hheard, hsummary⟩ := (hobserved _).returned token _ hstarted (mem_of_returned? hreturned)
  rw [config_play] at hsummary
  obtain rfl := Reply.summary.inj hsummary
  obtain ⟨hcommand, hbody⟩ := of_decide_eq_true htells
  have hreturned' := mem_of_returned? hreturned
  have hleave : GivesLeave m'.body := Modem.attachAllowed?_eq_true_iff.mp hbody
  exact .watched rfl (hbegins.trans hpast) hfresh hpast hheard hreturned' hcommand hleave

/-- The modem's handler stays where it is, as long as nobody else gets it. -/
theorem informed_play (h : Informed t.run) {turns : List Turn}
    (hturns : ∀ command, .client (.register command .attachAllowed) ∉ turns) : Informed (t.play turns).run := by
  induction turns generalizing t with
  | nil => exact h
  | cons turn turns ih =>
    refine ih ?_ fun command hmem => hturns command (List.mem_cons_of_mem turn hmem)
    obtain hsame | ⟨a, hstep, hturn⟩ := t.run_step turn
    · rw [hsame]
      exact h
    · rw [hstep]
      refine h.step fun command ha => ?_
      obtain rfl | hown := hturn
      · exact absurd (ha ▸ List.mem_cons_self) (hturns command)
      · exact absurd ha (hown command)

section Start

variable (config : ClientConfig) (sink : Sink) {past : List (Action NoticeId)} (session : Session α)

theorem informed_start (hpast : ∀ command, .register command .attachAllowed ∉ past) :
    Informed (start config sink past session).run := by
  suffices h : Informed (Run.after config sink past) from
    h.step fun command ha => (Action.register.inj ha).1.symm
  have hfold : ∀ {r : Run NoticeId}, Informed r → Informed (past.foldl Run.step r) := by
    induction past with
    | nil => exact id
    | cons a past ih =>
      intro r hr
      refine ih (fun command hmem => hpast command (List.mem_cons_of_mem a hmem)) (hr.step fun command ha => ?_)
      exact absurd (ha ▸ List.mem_cons_self) (hpast command)
  refine hfold ⟨?_, ?_, ?_⟩
  · intro command h
    cases h
  · intro m h
    cases h
  · intro m h
    cases h

end Start

end Thread

/-! ## Attaching among others -/

namespace Modem

variable {c : ModemConfig} {t : Thread (Except ModemError Unit)}

/-- What an attach sends. -/
def IsAttach (command : UInt32) (body : Bytes) : Prop :=
  command = CallId.netAttach.code ∧ body = netAttachBody

theorem AttachDue.isAttach {deeds : List Deed} {p : Purpose} {command : UInt32} {body : Bytes} {timeout : Span}
    (h : AttachDue c deeds (.call p command body timeout)) : IsAttach command body := by
  cases h <;> exact ⟨rfl, rfl⟩

/-- The calls that an attach has made: those that have become something, and the one that is being made. -/
theorem AttachAt.calls_cases (h : AttachAt c t.session t.deeds) (hbilled : t.Billed IsAttach) :
    t.calls.length ≤ 1 ∨ t.calls.length = 2 ∧ ∃ answer after, attachStatus answer = .ok attachRejected ∧
      t.deeds = attempt c answer :: waited c (.ok ()) :: after := by
  obtain ⟨made, hmade, hbacked⟩ := hbilled.backed
  -- a call has become something, and is among the deeds, or is still being made
  have hlength : t.calls.length = (exchanges t.deeds).length + t.pending.length := by
    rw [hmade, List.length_append, hbacked.length_eq]
  have hpending : t.pending.length ≤ 1 := by
    rw [Thread.pending.eq_def]
    split <;> simp
  rcases hsession : t.session with r | ⟨a, next⟩ <;> rw [hsession] at h
  · have hend : AttachEnd c t.deeds r := h
    have hnone : t.pending = [] := by rw [Thread.pending, hsession]
    rw [hnone, List.length_nil] at hlength
    generalize t.deeds = deeds at hend hlength
    cases hend with
    | once => exact .inl (by rw [hlength, exchanges_once]; simp)
    | notAllowed => exact .inl (by rw [hlength, exchanges_waited]; simp)
    | @twice answer answer' rejected =>
      exact .inr ⟨by rw [hlength, exchanges_twice]; simp, answer, _, rejected, rfl⟩
  · have hdue : AttachDue c t.deeds a := h.1
    generalize hdeeds : t.deeds = deeds at hdue hlength
    cases hdue with
    | first =>
      refine .inl ?_
      rw [show exchanges [] = [] from rfl, List.length_nil] at hlength
      omega
    | wait rejected =>
      have hnone : t.pending = [] := Thread.pending_of_session hsession (by simp)
      rw [hnone, exchanges_once] at hlength
      exact .inl hlength.le
    | @again answer rejected =>
      rw [exchanges_waited, List.length_singleton] at hlength
      by_cases hone : t.pending.length = 1
      · exact .inr ⟨by omega, answer, [], rejected, rfl⟩
      · exact .inl (by omega)

/-- When an attach is over, each of its calls has sent its request, unless the last one failed before. -/
theorem AttachAt.length_requests (h : AttachAt c t.session t.deeds) (hbilled : t.Billed IsAttach)
    (hp : t.run.Posted) (hl : t.run.Ledger) {r : Except ModemError Unit} (hsession : t.session = .pure r) :
    t.requests.length = (exchanges t.deeds).length ∨ t.requests.length + 1 = (exchanges t.deeds).length ∧
      (∃ e ∈ (exchanges t.deeds).getLast?, ¬e.Answered) ∧ ∃ call ∈ t.calls.getLast?, Thread.Unsent t.run.log call := by
  rw [hsession] at h
  have hend : AttachEnd c t.deeds r := h
  have hnone : t.pending = [] := by rw [Thread.pending, hsession]
  have hlast : ∀ es e, exchanges t.deeds = es ++ [e] → (∀ e' ∈ es, e'.Answered) → t.requests.length = es.length + 1 ∨
      t.requests.length + 1 = es.length + 1 ∧ (∃ e' ∈ (es ++ [e]).getLast?, ¬e'.Answered) ∧
        ∃ call ∈ t.calls.getLast?, Thread.Unsent t.run.log call := by
    intro es e hexchanges hanswered
    obtain hall | ⟨hfewer, hfailed, hunsent⟩ := hbilled.length_requests hp hl hnone hexchanges hanswered
    · exact .inl hall
    · exact .inr ⟨by omega, ⟨e, by simp, hfailed⟩, hunsent⟩
  generalize t.deeds = deeds at hend hlast
  cases hend with
  | once => exact hlast [] _ exchanges_once (by simp)
  | notAllowed => exact hlast [] _ exchanges_waited (by simp)
  | @twice answer answer' rejected =>
    have hfirst : (asked answer).Answered := Rejected.answered rejected
    exact hlast [asked answer] (asked answer') exchanges_twice (by simpa using hfirst)

/-- Attaching is tried once more at most, and only after leave was heard, whatever the modem does and in
whatever order the turns of the thread, of the other callers, of the reader and of the handlers come.

No more than two requests are sent, and they ask for an attach.  An attach that is over has made one call or
two, and each has sent its request, unless the last one failed before.  A second call is made only after the
first was answered with the rejection, and leave was found behind it.  The attach has succeeded if and only if
its last call was answered and accepted, and has failed for being rejected if and only if two calls were
answered and rejected. -/
theorem attach_retries_once (c : ModemConfig) (config : ClientConfig) (sink : Sink)
    {past : List (Action NoticeId)} {turns : List Thread.Turn}
    (hpast : ∀ command, .register command .attachAllowed ∉ past)
    (hturns : ∀ command, .client (.register command .attachAllowed) ∉ turns) :
    let first := Thread.start config sink past (attach c).run
    let t := first.play turns
    let made := exchanges t.deeds
    (t.requests.length ≤ t.calls.length ∧ t.calls.length ≤ 2) ∧
    (∀ request ∈ t.requests, IsAttach request.command request.body) ∧
    (∀ r, t.session = .pure r → (made.length = 1 ∨ made.length = 2) ∧
      (t.requests.length = made.length ∨ t.requests.length + 1 = made.length ∧
        (∃ e ∈ made.getLast?, ¬e.Answered) ∧ ∃ call ∈ t.calls.getLast?, Thread.Unsent t.run.log call)) ∧
    (1 < t.calls.length → ∃ answer, attachStatus answer = .ok attachRejected ∧
      made.head? = some (asked answer) ∧ first.LeaveFound turns [attempt c answer]) ∧
    (t.session = .pure (.ok ()) ↔ ∃ e ∈ made.getLast?, Accepted e) ∧
    ((∃ status, t.session = .pure (.error (.attachFailed status))) ↔
      made.length = 2 ∧ ∀ e ∈ made, Rejected e) := by
  intro first t made
  have hafter := Thread.exists_after config sink (attach c).run past
  have hsound : first.run.Sound := by
    obtain ⟨actions, hactions⟩ := hafter []
    exact (congrArg Run.Sound hactions).mpr (Run.sound_after config sink actions)
  have hrun : t.run.Sound ∧ t.run.Posted := by
    obtain ⟨actions, hactions⟩ := hafter turns
    rw [show t.run = _ from hactions]
    exact ⟨Run.sound_after config sink actions, Run.posted_after config sink actions⟩
  have hobserved : ∀ past, (first.play past).run.Observed := by
    intro past
    obtain ⟨actions, hactions⟩ := hafter past
    rw [hactions]
    exact Run.observed_after config sink actions
  have hinformed : ∀ past, past <+: turns → Informed (first.play past).run := fun past hearlier =>
    Thread.informed_play (Thread.informed_start config sink _ hpast) fun command hmem =>
      hturns command (hearlier.subset hmem)
  have hat : AttachAt c t.session t.deeds := Thread.keeps_play (attach_keeps c) turns
  have hbilled : t.Billed IsAttach := by
    refine Thread.billed_play (fun _ _ _ _ _ hdue => hdue.isAttach) hsound (attach_keeps c) ⟨?_, [], ?_, .nil⟩ turns
    · exact fun token hmem => absurd hmem List.not_mem_nil
    · exact (Thread.pending_of_place (t := first) fun token hplace => by cases hplace).symm
  refine ⟨⟨Thread.length_requests_le hrun.2, ?_⟩, fun request => hbilled.of_mem_requests, ?_, ?_,
    hat.succeeds_iff, hat.fails_iff⟩
  · obtain hle | ⟨htwo, -⟩ := hat.calls_cases hbilled <;> omega
  · intro r hsession
    refine ⟨?_, hat.length_requests hbilled hrun.2 hrun.1.ledger hsession⟩
    rw [hsession] at hat
    exact AttachEnd.one_or_two hat
  · intro htwo
    obtain hle | ⟨-, answer, after, hrejected, hdeeds⟩ := hat.calls_cases hbilled
    · omega
    · refine ⟨answer, hrejected, ?_, Thread.leaveFound rfl rfl hsound hobserved hinformed hdeeds⟩
      show (exchanges t.deeds).head? = _
      rw [hdeeds]
      rfl

/-- A message of the transaction that asks for an attach. -/
def attachReply (word : UInt32) (body : Bytes) : Message :=
  ⟨16, 16, CallId.netAttach.code, word, body⟩

/-- The notice that attaching is allowed. -/
def leaveNotice : Message :=
  ⟨16, 16, NoticeId.attachAllowed.code, 0, Value.dword 0 ++ Value.dword 0 ++ Value.dword 1⟩

/-- An attach is rejected, the thread watches and is told of leave before any handler is, and the second attempt
is accepted. -/
def watchedLeave : List Thread.Turn :=
  [.thread ⟨0⟩, .client .write, .client (.dispatch (attachReply 0x11000101 [])),
    .client (.dispatch (attachReply 0x11000101 (Value.dword 1 ++ Value.dword 0 ++ Value.dword attachRejected))),
    .client (.collect 1), .thread ⟨0⟩, .thread ⟨0⟩, .thread ⟨5⟩,
    .client (.dispatch leaveNotice), .client (.collect 2), .thread ⟨0⟩,
    .thread ⟨0⟩, .client .write, .client (.dispatch (attachReply 0x11000102 [])),
    .client (.dispatch (attachReply 0x11000102 (Value.dword 2 ++ Value.dword 0 ++ Value.dword 0))),
    .client (.collect 3), .thread ⟨0⟩]

theorem attach_retries_once_watched :
    let first := Thread.start {} {} [] (attach {}).run
    let t := first.play watchedLeave
    t.requests.length = 2 ∧ (exchanges t.deeds).length = 2 ∧ hasLeave t.run.client.handled = false ∧
      ∃ answer, attachStatus answer = .ok attachRejected ∧ first.LeaveFound watchedLeave [attempt {} answer] := by
  have hpast : ∀ command, Action.register command .attachAllowed ∉ ([] : List (Action NoticeId)) := by simp
  have hturns : ∀ command, Thread.Turn.client (.register command .attachAllowed) ∉ watchedLeave := by
    simp [watchedLeave]
  obtain ⟨-, -, -, hagain, -⟩ := attach_retries_once {} {} {} hpast hturns
  obtain ⟨answer, hrejected, -, hfound⟩ := hagain (by decide +kernel)
  exact ⟨by decide +kernel, by decide +kernel, by decide +kernel, answer, hrejected, hfound⟩

/-- A station whose channel has ended, and a modem that sends nothing. -/
def endedStage : Stage where
  station := { Station.start {} with line := (Station.start {}).line.finish }
  peer := fun _ _ => []

/-- An attach does not always send a request: on a channel that has ended it sends none. -/
theorem attach_sends_nothing : ¬∀ (c : ModemConfig) (w : Stage),
    (w.run (attach c).run).2.asked = w.asked + 1 ∨ (w.run (attach c).run).2.asked = w.asked + 2 := by
  intro h
  have hasked : (endedStage.run (attach {}).run).2.asked = 0 := by decide +kernel
  obtain hone | htwo := h {} endedStage
  · rw [hasked] at hone
    cases hone
  · rw [hasked] at htwo
    cases htwo

end Modem

end Wwan
