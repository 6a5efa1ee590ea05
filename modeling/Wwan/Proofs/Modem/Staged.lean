import Wwan.Proofs.Client.Hearing
import Wwan.Proofs.Modem.Thread
import Wwan.Proofs.Modem.Vain

/-!
# Sessions at a station

A station carries a session out as if nobody else used the client: what happens comes after each request,
and all notices are handled at once.  That is one of the orders in which the turns of a `Thread` can come
(`Stage.run_isPlayed`), so what holds of a thread in every order holds of the session that a station carries
out.
-/

namespace Wwan

/-! ## What a line does -/

/-- What is collected on a line is what the call returns in the run that is there. -/
theorem Run.On.log_collect {H : Type} {r : Run H} {l : Line H} (h : r.On l) {token : Nat}
    {result : Except CallError Reply} (hresult : (l.collect token).1 = some result) :
    (r.step (.collect token)).log = r.log ++ [.returned token result] := by
  show (r.collect token).log = _
  rw [Line.collect] at hresult
  rw [Run.collect, h.client_eq]
  rcases hcollect : l.client.collect token with ⟨_ | result', client⟩ <;> rw [hcollect] at hresult
  · cases hresult
  · cases hresult
    rfl

/-- A call that is placed on a line cannot begin, or begins and is sent, or returns that it could not be. -/
theorem Run.On.place_cases {H : Type} {r : Run H} {l : Line H} (h : r.On l) (p : Purpose) (command : UInt32)
    (body : Bytes) (timeout : Span) :
    (∃ e, (r.client.begin p command timeout).1 = .error e ∧ (l.place p command body timeout).1 = .error e) ∨
    ∃ k, (r.client.begin p command timeout).1 = .ok k ∧ ((l.place p command body timeout).1 = .ok k.token ∨
      ∃ e past, (l.place p command body timeout).1 = .error e ∧
        ((r.step (.start p command body timeout)).step .write).log = past ++ [.returned k.token (.error e)]) := by
  have hfree : ¬r.draft.isSome = true := by
    rw [h.idle]
    exact Bool.false_ne_true
  show _ ∨ ∃ k, _ ∧ (_ ∨ ∃ e past, _ ∧ ((r.start p command body timeout).write).log = _)
  rw [start, if_neg hfree, Line.place, h.client_eq]
  rcases l.client.begin p command timeout with ⟨e | k, client⟩
  · exact .inl ⟨e, rfl, rfl⟩
  · refine .inr ⟨k, rfl, ?_⟩
    -- whichever ticket the call was given, its request is taken by the sink or not
    rcases hticket : k.ticket with _ | _ | id | _ <;>
      simp only [write, hticket, Ticket.number?, h.sink_eq] <;>
      generalize Outbox.send client.config.maxMessage _ l.sink = sent <;>
      rcases sent with ⟨e | _, sink⟩
    all_goals
      first
      | exact .inl rfl
      | exact .inr ⟨e, r.log ++ [.started k.token k.ticket, .unwritten k.token], rfl, by simp [hticket]⟩

/-- A call that is changed is found under its token as before. -/
theorem Client.call?_update {H : Type} {c : Client H} {token : Nat} {k : Call} (hk : c.call? token = some k)
    {f : Call → Call} (hf : ∀ k, (f k).token = k.token) : (c.update token f).call? token = some (f k) := by
  have htoken := (of_call?_eq_some hk).2
  -- no change touches a token, so the search meets the same call
  have hsame : (fun k : Call => decide ((if k.token = token then f k else k).token = token))
      = fun k => decide (k.token = token) := by
    funext k'
    split
    · rw [hf]
    · rfl
  rw [call?] at hk ⊢
  show (c.calls.map fun k => if k.token = token then f k else k).find? _ = _
  rw [List.find?_map]
  show (c.calls.find? fun k => decide ((if k.token = token then f k else k).token = token)).map _ = _
  rw [hsame, hk, Option.map_some, if_pos htoken]

/-- A call that has withdrawn empty-handed returns that its time has passed. -/
theorem Call.outcome?_of_settled {k : Call} {t : Table} (hphase : k.phase = .settled) (hslot : k.slot = none) :
    k.outcome? t = some (.error (.timeout k.operation k.timeout)) := by
  rw [outcome?, hphase, hslot]
  rcases k.ticket with _ | _ | id | _ <;> rfl

/-- A call that is given up while nothing is decided returns that its time has passed. -/
theorem Stage.collectLate_of_none {s : Station} {token : Nat} (hwaits : s.line.client.Waits token)
    (hnone : s.answer? token = none) :
    ∃ operation after, (collectLate token s).1 = some (.error (.timeout operation after)) := by
  obtain ⟨k, hk, hphase⟩ := hwaits
  have hundecided : k.outcome? s.line.client.table = none := by
    rwa [Station.answer?, hk] at hnone
  have hslot := Call.slot_of_undecided hphase hundecided
  -- the call still waits when its time passes, and withdraws before it looks into its slot again
  have hexpired : s.line.client.expire token = s.line.client.update token fun k => { k with phase := .expired } := by
    rw [Client.expire, hk]
    exact if_pos ⟨hphase, by rw [hundecided]; rfl⟩
  have hk' := Client.call?_update hk (f := fun k => { k with phase := .expired }) fun _ => rfl
  rw [← hexpired] at hk'
  have hsettled : ((s.line.client.expire token).settle token).call? token
      = some { k with phase := .settled } := by
    rw [Client.settle, hk']
    dsimp only
    rw [if_pos rfl]
    exact Client.call?_update (c := { s.line.client.expire token with table := _ }) hk' fun _ => rfl
  have htimeout := Call.outcome?_of_settled (k := { k with phase := .settled })
    (t := (s.line.lapse token).client.table) rfl hslot
  refine ⟨_, _, Eq.trans ?_ htimeout⟩
  rw [collectLate, Station.fst_collect, Station.answer?]
  show (((s.line.client.expire token).settle token).call? token).bind _ = _
  rw [hsettled, Option.bind_some]

theorem Stage.takeConfirmation_of_nil {s : Station} (h : s.confirmations = []) :
    takeConfirmation s = (none, s) := by
  rw [takeConfirmation, h]

theorem Stage.takeConfirmation_of_cons {s : Station} {body : Bytes} {rest : List Bytes}
    (h : s.confirmations = body :: rest) : takeConfirmation s = (some body, { s with confirmations := rest }) := by
  rw [takeConfirmation, h]

/-! ## What a station hears -/

namespace Station

variable {s : Station}

theorem allowed_foldl_hear (heard : List (NoticeId × Message)) (s : Station) : (heard.foldl hear s).allowed
    = heard.foldl (fun allowed x => (toldLeave x).getD allowed) s.allowed := by
  induction heard generalizing s with
  | nil => rfl
  | cons x heard ih =>
    have hfirst : (hear s x).allowed = (toldLeave x).getD s.allowed := by
      obtain ⟨id, m⟩ := x
      cases id with
      | attachAllowed =>
        rw [hear, toldLeave]
        rcases Modem.attachAllowed? m.body with _ | allowed <;> rfl
      | _ => rfl
    rw [List.foldl_cons, ih, hfirst, List.foldl_cons]

theorem confirmations_foldl_hear (heard : List (NoticeId × Message)) (s : Station) :
    (heard.foldl hear s).confirmations = s.confirmations ++ confirmed heard := by
  induction heard generalizing s with
  | nil => exact (List.append_nil _).symm
  | cons x heard ih =>
    have hfirst : (hear s x).confirmations = s.confirmations ++ confirmed [x] := by
      obtain ⟨id, m⟩ := x
      cases id with
      | attachAllowed =>
        rw [hear]
        rcases Modem.attachAllowed? m.body with _ | allowed <;> exact (List.append_nil _).symm
      | modeSet => rfl
      | _ => exact (List.append_nil _).symm
    rw [List.foldl_cons, ih, hfirst, List.append_assoc, ← confirmed_append, List.singleton_append]

theorem collect_of_some {token : Nat} {r : Except CallError Reply} (h : s.answer? token = some r) :
    Stage.collect token s = (some r, (Stage.collect token s).2) :=
  Prod.ext ((fst_collect token s).trans h) rfl

/-- Whoever begins to wait for the next message is told nothing yet. -/
theorem answer?_observe (hc : s.line.client.Consistent) {timeout : Span} {token : Nat} {line : Line NoticeId}
    (h : s.line.observe timeout = (.ok token, line)) : answer? token { s with line } = none := by
  have hc' := Line.keeps_observe (P := Client.Consistent) Move.consistent hc timeout
  rw [h] at hc'
  rw [Line.observe, Client.observe] at h
  by_cases hclosed : s.line.client.table.closed
  · rw [if_pos hclosed] at h
    cases h
  · rw [if_neg hclosed] at h
    obtain ⟨htoken, rfl⟩ := Prod.mk.inj h
    obtain rfl := Except.ok.inj htoken
    have hk := hc'.call?_eq List.mem_concat_self
    rw [answer?]
    refine (congrArg (Option.bind · _) hk).trans ?_
    simp [Call.outcome?, Call.isHeld, Table.observe]

/-- The station when its line has gone on, and the handlers have heard what they were called with. -/
def heed (line : Line NoticeId) (s : Station) : Station :=
  line.client.handled.foldl hear { s with line := { line with client := { line.client with handled := [] } } }

theorem heed_of_nil {line : Line NoticeId} (h : line.client.handled = []) (s : Station) :
    s.heed line = { s with line } := by
  rw [heed, h, List.foldl_nil, ← h]

end Station

namespace Thread

variable {α : Type}

/-- A thread gets somewhere by turns, while nobody registers the modem's handler. -/
def Reaches (t t' : Thread α) : Prop :=
  ∃ turns, (∀ command, .client (.register command .attachAllowed) ∉ turns) ∧ t.play turns = t'

variable {t t' t'' : Thread α}

theorem Reaches.refl (t : Thread α) : t.Reaches t :=
  ⟨[], by simp, rfl⟩

theorem Reaches.trans (h : t.Reaches t') (h' : t'.Reaches t'') : t.Reaches t'' := by
  obtain ⟨turns, hturns, rfl⟩ := h
  obtain ⟨more, hmore, rfl⟩ := h'
  refine ⟨turns ++ more, fun command hmem => ?_, t.play_append turns more⟩
  obtain hmem | hmem := List.mem_append.mp hmem
  · exact hturns command hmem
  · exact hmore command hmem

theorem reaches_thread (t : Thread α) (slice : Span) : t.Reaches (t.step (.thread slice)) :=
  ⟨[.thread slice], by simp, rfl⟩

theorem reaches_late (t : Thread α) : t.Reaches (t.step .late) :=
  ⟨[.late], by simp, rfl⟩

/-- Whatever else happens on the client. -/
theorem reaches_client (t : Thread α) {actions : List (Action NoticeId)}
    (hactions : ∀ command, .register command .attachAllowed ∉ actions) :
    t.Reaches { t with run := actions.foldl Run.step t.run } := by
  refine ⟨actions.map .client, fun command hmem => ?_, ?_⟩
  · obtain ⟨a, ha, heq⟩ := List.mem_map.mp hmem
    cases heq
    exact hactions command ha
  · clear hactions
    induction actions generalizing t with
    | nil => rfl
    | cons a actions ih => exact ih { t with run := t.run.step a }

/-! ## Where a station is -/

/-- A thread is where a station is, and knows what its handlers have heard. -/
structure At (t : Thread α) (s : Station) : Prop where
  on : t.run.unheard.On s.line
  leave_eq : hasLeave t.run.client.handled = s.allowed
  confirmations_eq : (confirmed t.run.client.handled).drop t.taken = s.confirmations
  taken_le : t.taken ≤ (confirmed t.run.client.handled).length

variable {s : Station}

theorem At.congr (h : t.At s) (hrun : t'.run = t.run) (htaken : t'.taken = t.taken) : t'.At s := by
  constructor
  · rw [hrun]
    exact h.on
  · rw [hrun]
    exact h.leave_eq
  · rw [hrun, htaken]
    exact h.confirmations_eq
  · rw [hrun, htaken]
    exact h.taken_le

theorem At.handled_eq (h : t.At s) : s.line.client.handled = [] := by
  rw [← h.on.client_eq]
  rfl

/-- The thread is where the station is when its line has gone on. -/
theorem At.heed (h : t.At s) {actions : List (Action NoticeId)} {line : Line NoticeId}
    (hon : (actions.foldl Run.step t.run.unheard).On line) :
    At { t with run := actions.foldl Run.step t.run } (s.heed line) := by
  obtain ⟨hon', hhandled⟩ := hon.foldl_unheard
  constructor
  · rw [Station.heed, Station.line_foldl_hear]
    exact hon'
  · show hasLeave (actions.foldl Run.step t.run).client.handled = _
    rw [hhandled, hasLeave_append, h.leave_eq, Station.heed, Station.allowed_foldl_hear]
  · show (confirmed (actions.foldl Run.step t.run).client.handled).drop t.taken = _
    rw [hhandled, confirmed_append, List.drop_append_of_le_length h.taken_le, h.confirmations_eq, Station.heed,
      Station.confirmations_foldl_hear]
  · show t.taken ≤ (confirmed (actions.foldl Run.step t.run).client.handled).length
    rw [hhandled, confirmed_append, List.length_append]
    exact Nat.le_add_right_of_le h.taken_le

/-- The thread is where the station is when its line has gone on, and no notice was handled meanwhile. -/
theorem At.unread (h : t.At s) {actions : List (Action NoticeId)} {line : Line NoticeId}
    (hon : (actions.foldl Run.step t.run.unheard).On line) (hunread : s.line.Unread line) :
    At { t with run := actions.foldl Run.step t.run } { s with line } := by
  have hnone : line.client.handled = [] := hunread.handled_eq.trans h.handled_eq
  rw [← s.heed_of_nil hnone]
  exact h.heed hon

/-! ## What happens at a station -/

/-- The thread gets to where the station is, by what happens on the client only. -/
def Follows (t : Thread α) (s : Station) : Prop :=
  ∃ run, t.Reaches { t with run } ∧ At { t with run } s

theorem At.receive (h : t.At s) (supplies : List Supply) : t.Follows (s.receive supplies) := by
  obtain ⟨actions, hserves, hon⟩ := (h.on.arriveAll supplies).trans Run.On.handleAll
  refine ⟨actions.foldl Run.step t.run, t.reaches_client fun command hmem => ?_, h.heed hon⟩
  cases hserves _ hmem

/-- The thread gets to where the station is when what a call returns is looked for there. -/
theorem At.collect (h : t.At s) (token : Nat) : ∃ run, t.Reaches { t with run } ∧
    At { t with run } (Stage.collect token s).2 ∧
      ∀ r, (Stage.collect token s).1 = some r → returned? token run.log = some r := by
  have hon : ([Action.collect token].foldl Run.step t.run.unheard).On _ := h.on.collect token
  refine ⟨_, t.reaches_client (by simp), h.unread hon (Line.unread_collect token _), fun r hr => ?_⟩
  have hlog : ([Action.collect token].foldl Run.step t.run.unheard).log = _ := h.on.log_collect hr
  rw [Run.log_foldl_unheard, hlog]
  exact returned?_concat token _ r

theorem At.lapse (h : t.At s) (token : Nat) : t.Follows { s with line := s.line.lapse token } := by
  have hon : ([Action.expire token, .settle token].foldl Run.step t.run.unheard).On _ := h.on.lapse token
  exact ⟨_, t.reaches_client (by simp), h.unread hon (Line.unread_lapse token _)⟩

/-- The thread gets to where the station is when a call is given up there. -/
theorem At.collectLate (h : t.At s) (token : Nat) : ∃ run, t.Reaches { t with run } ∧
    At { t with run } (Stage.collectLate token s).2 ∧
      ∀ r, (Stage.collectLate token s).1 = some r → returned? token run.log = some r := by
  obtain ⟨run, hreaches, hat⟩ := h.lapse token
  obtain ⟨run', hreaches', hat', hreturned⟩ := hat.collect token
  exact ⟨run', hreaches.trans hreaches', hat', hreturned⟩

/-- The thread gets to where the station is, and a call has returned what was found there. -/
def Finds (t : Thread α) (token : Nat) (found : Option (Except CallError Reply)) (s : Station) : Prop :=
  ∃ run r, t.Reaches { t with run } ∧ At { t with run } s ∧ found = some r ∧ returned? token run.log = some r

theorem At.finds (h : t.At s) {token : Nat} {r : Except CallError Reply} (hanswer : s.answer? token = some r) :
    t.Finds token (some r) (Stage.collect token s).2 := by
  obtain ⟨run, hreaches, hat, hreturned⟩ := h.collect token
  exact ⟨run, r, hreaches, hat, rfl, hreturned r ((Station.fst_collect token s).trans hanswer)⟩

theorem At.findsLate (h : t.At s) {token : Nat} (hwaits : s.line.client.Waits token)
    (hnone : s.answer? token = none) :
    t.Finds token (Stage.collectLate token s).1 (Stage.collectLate token s).2 := by
  obtain ⟨run, hreaches, hat, hreturned⟩ := h.collectLate token
  obtain ⟨operation, after, htimeout⟩ := Stage.collectLate_of_none hwaits hnone
  exact ⟨run, _, hreaches, hat, htimeout, hreturned _ htimeout⟩

theorem Finds.of_reaches {run : Run NoticeId} {token : Nat} {found : Option (Except CallError Reply)}
    (hreaches : t.Reaches { t with run }) (h : Finds { t with run } token found s) : t.Finds token found s := by
  obtain ⟨run', r, hreaches', hfound⟩ := h
  exact ⟨run', r, hreaches.trans hreaches', hfound⟩

/-- A thread waits as it is waited at a station, whatever for: what comes meanwhile is received, until something
is found or it is late. -/
theorem waits_await {β : Type} {check late : Station → Option β × Station} {P : Thread α → Station → Prop}
    {Q : Thread α → Option β → Station → Prop}
    (hreceive : ∀ {t s}, P t s → ∀ supplies, ∃ run, t.Reaches { t with run } ∧
      P { t with run } (s.receive supplies))
    (hback : ∀ {t run b s}, t.Reaches { t with run } → Q { t with run } b s → Q t b s)
    (hfound : ∀ {t s b s'}, P t s → check s = (some b, s') → Q t (some b) s')
    (hmissed : ∀ {t s s'}, P t s → check s = (none, s') → s' = s ∧ Q t (late s).1 (late s).2)
    (h : P t s) (ahead : List Happening) :
    Q t (Stage.await check late s ahead).1 (Stage.await check late s ahead).2.1 := by
  induction ahead generalizing t s with
  | nil =>
    rcases hcheck : check s with ⟨_ | b, s'⟩
    · obtain ⟨rfl, hlate⟩ := hmissed h hcheck
      simp only [Stage.await, hcheck]
      exact hlate
    · rw [Stage.await_of_some hcheck]
      exact hfound h hcheck
  | cons happening ahead ih =>
    rcases hcheck : check s with ⟨_ | b, s'⟩
    · obtain ⟨rfl, hlate⟩ := hmissed h hcheck
      cases happening with
      | lapse =>
        simp only [Stage.await, hcheck]
        exact hlate
      | burst supplies =>
        obtain ⟨run, hreaches, hnow⟩ := hreceive h supplies
        rw [Stage.await_of_none hcheck]
        exact hback hreaches (ih hnow)
    · rw [Stage.await_of_some hcheck]
      exact hfound h hcheck

/-- A call that waits at a station returns what is found there. -/
theorem At.await (h : t.At s) {token : Nat} (hwaits : s.line.client.Waits token) (ahead : List Happening) :
    t.Finds token (Stage.await (Stage.collect token) (Stage.collectLate token) s ahead).1
      (Stage.await (Stage.collect token) (Stage.collectLate token) s ahead).2.1 := by
  refine waits_await (P := fun t s => t.At s ∧ s.line.client.Waits token) (Q := fun t => t.Finds token)
    ?_ Finds.of_reaches ?_ ?_ ⟨h, hwaits⟩ ahead
  · intro t s h supplies
    obtain ⟨run, hreaches, hat⟩ := h.1.receive supplies
    exact ⟨run, hreaches, hat, Station.waits_receive h.2 supplies⟩
  · intro t s r s' h hcheck
    have hanswer : s.answer? token = some r := by rw [← Station.fst_collect, hcheck]
    have hstation : (Stage.collect token s).2 = s' := by rw [hcheck]
    exact hstation ▸ h.1.finds hanswer
  · intro t s s' h hcheck
    have hnone : s.answer? token = none := by rw [← Station.fst_collect, hcheck]
    rw [Station.collect_of_none hnone] at hcheck
    exact ⟨(Prod.mk.inj hcheck).2.symm, h.1.findsLate h.2 hnone⟩

/-! ## Acts -/

/-- The thread does an act with this answer, and gets to where the station is. -/
def Does (t : Thread α) (a : Act) (r : a.Answer) (session : Session α) (s : Station) : Prop :=
  ∃ t', t.Reaches t' ∧ t'.At s ∧ t'.session = session ∧ t'.place = .before ∧ t'.deeds = t.deeds ++ [⟨a, r⟩]

variable {a : Act} {r : a.Answer} {session : Session α}

/-- The thread gets on, and then does the act. -/
theorem Does.of_reaches (hreaches : t.Reaches t') (hdeeds : t'.deeds = t.deeds) (h : t'.Does a r session s) :
    t.Does a r session s := by
  obtain ⟨t'', hreaches', hat, hsession, hplace, hdone⟩ := h
  exact ⟨t'', hreaches.trans hreaches', hat, hsession, hplace, hdone.trans (by rw [hdeeds])⟩

/-- The act is done at a turn of the thread. -/
theorem At.does (h : t'.At s) (hreaches : t.Reaches (t'.finish a r session)) (hdeeds : t'.deeds = t.deeds) :
    t.Does a r session s :=
  ⟨_, hreaches, h.congr rfl rfl, rfl, rfl, congrArg (· ++ _) hdeeds⟩

section Call

variable {p : Purpose} {command : UInt32} {body : Bytes} {timeout : Span}
  {next : Except CallError Bytes → Session α} {token : Nat}

theorem step_callRefused (hsession : t.session = .act (.call p command body timeout) next)
    (hplace : t.place = .before) (hfree : t.run.draft = none) {e : CallError}
    (hbegin : (t.run.client.begin p command timeout).1 = .error e) :
    t.step (.thread ⟨0⟩) = finish (.call p command body timeout) (.error e) (next (.error e))
      { t with run := t.run.step (.start p command body timeout), calls := t.calls ++ [none] } := by
  rcases hbegun : t.run.client.begin p command timeout with ⟨begun, client⟩
  rw [hbegun] at hbegin
  obtain rfl : begun = .error e := hbegin
  simp [step, hsession, goOnCall, hplace, hfree, hbegun]

theorem step_callBegins (hsession : t.session = .act (.call p command body timeout) next)
    (hplace : t.place = .before) (hfree : t.run.draft = none) {k : Call}
    (hbegin : (t.run.client.begin p command timeout).1 = .ok k) :
    t.step (.thread ⟨0⟩) = { t with
      run := t.run.step (.start p command body timeout)
      place := .waiting k.token
      calls := t.calls ++ [some k.token] } := by
  rcases hbegun : t.run.client.begin p command timeout with ⟨begun, client⟩
  rw [hbegun] at hbegin
  obtain rfl : begun = .ok k := hbegin
  simp [step, hsession, goOnCall, hplace, hfree, hbegun]

/-- What a call has returned is seen. -/
theorem At.returns (h : t.At s) (hsession : t.session = .act (.call p command body timeout) next)
    (hplace : t.place = .waiting token) {r : Except CallError Reply}
    (hreturned : returned? token t.run.log = some r) :
    t.Does (.call p command body timeout) (r.map Stage.replyBody) (next (r.map Stage.replyBody)) s := by
  have hstep : t.step (.thread ⟨0⟩)
      = t.finish (.call p command body timeout) (r.map Stage.replyBody) (next (r.map Stage.replyBody)) := by
    simp only [step, hsession, goOnCall, hplace, hreturned]
  exact h.does (hstep ▸ t.reaches_thread ⟨0⟩) rfl

theorem Finds.returns {found : Option (Except CallError Reply)} (h : t.Finds token found s)
    (hsession : t.session = .act (.call p command body timeout) next) (hplace : t.place = .waiting token) :
    t.Does (.call p command body timeout) ((found.getD (.error .channelClosed)).map Stage.replyBody)
      (next ((found.getD (.error .channelClosed)).map Stage.replyBody)) s := by
  obtain ⟨run, r, hreaches, hat, rfl, hreturned⟩ := h
  exact .of_reaches hreaches rfl (hat.returns hsession hplace hreturned)

/-- A call is made as it is made at a station. -/
theorem At.call {w : Stage} (h : t.At w.station) (hs : w.station.Intact)
    (hsession : t.session = .act (.call p command body timeout) next) (hplace : t.place = .before) :
    t.Does (.call p command body timeout) (w.call p command body timeout).1
      (next (w.call p command body timeout).1) (w.call p command body timeout).2.station := by
  have hon : ([.start p command body timeout, .write].foldl Run.step t.run.unheard).On _ :=
    h.on.place p command body timeout
  have hat := h.unread hon (Line.unread_place p command body timeout _)
  have hlog : ((t.run.step (.start p command body timeout)).step .write).log = _ :=
    Run.log_foldl_unheard [.start p command body timeout, .write] t.run
  have hfree : t.run.draft = none := h.on.idle
  -- the thread begins the call, and its request is written before anything else happens
  have hgoes : t.Reaches ((t.step (.thread ⟨0⟩)).step (.client .write)) :=
    (reaches_thread t ⟨0⟩).trans ⟨[.client .write], by simp, rfl⟩
  have hcases := h.on.place_cases p command body timeout
  rw [← Run.fst_begin_unheard] at hcases
  rw [Stage.call]
  rcases hresult : w.station.line.place p command body timeout with ⟨placed, line⟩
  rw [hresult] at hat hcases
  obtain ⟨e, hbegin, rfl⟩ | ⟨k, hbegin, hplaced⟩ := hcases
  · have hat' : At { t with
        run := (t.run.step (.start p command body timeout)).step .write
        calls := t.calls ++ [none] } { w.station with line } := hat.congr rfl rfl
    rw [step_callRefused hsession hplace hfree hbegin] at hgoes
    exact hat'.does hgoes rfl
  have hat' : At { t with
      run := (t.run.step (.start p command body timeout)).step .write
      place := .waiting k.token
      calls := t.calls ++ [some k.token] } { w.station with line } := hat.congr rfl rfl
  rw [step_callBegins hsession hplace hfree hbegin] at hgoes
  refine .of_reaches hgoes rfl ?_
  obtain rfl | ⟨e, past, rfl, hreturned⟩ := hplaced
  · -- the request was written, and the call waits
    have hwaits := Line.waits_place hs.consistent hresult
    have hfinds := hat'.await hwaits (w.ahead ++ w.peer w.asked
      (line.sink.taken.drop w.station.line.sink.taken.length).flatten)
    exact hfinds.returns hsession rfl
  · -- the request could not be written, and the call has returned
    have hreturned' : returned? k.token ((t.run.step (.start p command body timeout)).step .write).log
        = some (.error e) := by
      rw [hlog.trans hreturned]
      exact returned?_concat k.token past _
    exact hat'.returns hsession rfl hreturned'

end Call

/-! ### Waiting for leave -/

section Leave

variable {timeout : Span} {next : Except CallError Unit → Session α} {token : Nat}

theorem step_before (hsession : t.session = .act (.attachAllowed timeout) next) (hplace : t.place = .before)
    (hleave : hasLeave t.run.client.handled = false) : t.step (.thread ⟨0⟩) = { t with place := .denied } := by
  simp [step, hsession, goOnLeave, hplace, hleave]

theorem step_denied_late (hsession : t.session = .act (.attachAllowed timeout) next)
    (hplace : t.place = .denied) : t.step .late = t.finish (.attachAllowed timeout)
      (.error (Stage.notAllowedInTime timeout)) (next (.error (Stage.notAllowedInTime timeout))) := by
  simp [step, hsession, hplace]

theorem step_decided (hsession : t.session = .act (.attachAllowed timeout) next) (hplace : t.place = .waiting token)
    {reply : Except CallError Reply} (hreturned : returned? token t.run.log = some reply)
    {r : Except CallError Unit} (hdecides : decides reply = some r) :
    t.step (.thread ⟨0⟩) = t.finish (.attachAllowed timeout) r (next r) := by
  simp only [step, hsession, goOnLeave, hplace, hreturned, hdecides]

theorem step_undecided (hsession : t.session = .act (.attachAllowed timeout) next)
    (hplace : t.place = .waiting token) {reply : Except CallError Reply}
    (hreturned : returned? token t.run.log = some reply) (hdecides : decides reply = none) :
    t.step (.thread ⟨0⟩) = { t with place := .before } := by
  simp only [step, hsession, goOnLeave, hplace, hreturned, hdecides]

/-- Where leave was not heard in time, the wait ends. -/
theorem At.notInTime (h : t.At s) (hsession : t.session = .act (.attachAllowed timeout) next)
    (hplace : t.place = .before) (hnot : s.allowed = false) :
    t.Does (.attachAllowed timeout) (.error (Stage.notAllowedInTime timeout))
      (next (.error (Stage.notAllowedInTime timeout))) s := by
  have hdenied : t.Reaches { t with place := .denied } := by
    rw [← step_before hsession hplace (h.leave_eq.trans hnot)]
    exact t.reaches_thread ⟨0⟩
  have hlate := reaches_late { t with place := .denied }
  rw [step_denied_late (t := { t with place := .denied }) hsession rfl] at hlate
  have hat : At { t with place := .denied } s := h.congr rfl rfl
  exact hat.does (hdenied.trans hlate) rfl

/-- The wait for leave is over at once, as at a station, or begins with a watch for the next message. -/
theorem At.beginWait (h : t.At s) (hs : s.Intact) (hsession : t.session = .act (.attachAllowed timeout) next)
    (hplace : t.place = .before) :
    (∃ r s', Stage.beginWait timeout s = (.inl r, s') ∧ t.Does (.attachAllowed timeout) r (next r) s') ∨
    ∃ token s' run, Stage.beginWait timeout s = (.inr token, s') ∧
      t.Reaches { t with run, place := .waiting token } ∧ At { t with run, place := .waiting token } s' ∧
      s'.Intact ∧ s'.line.client.Waits token ∧ s'.answer? token = none ∧ s'.allowed = false := by
  rw [Stage.beginWait]
  by_cases hallowed : s.allowed = true
  · rw [if_pos hallowed]
    have hstep : t.step (.thread ⟨0⟩) = t.finish (.attachAllowed timeout) (.ok ()) (next (.ok ())) := by
      simp only [step, hsession, goOnLeave, hplace, h.leave_eq, if_pos hallowed]
    exact .inl ⟨_, _, rfl, h.does (hstep ▸ t.reaches_thread ⟨0⟩) rfl⟩
  have hnot : s.allowed = false := Bool.not_eq_true _ ▸ hallowed
  rw [if_neg hallowed]
  by_cases hlength : timeout.nanos = 0
  · rw [if_pos hlength]
    exact .inl ⟨_, _, rfl, h.notInTime hsession hplace hnot⟩
  rw [if_neg hlength]
  have hdenied : t.Reaches { t with place := .denied } := by
    rw [← step_before hsession hplace (h.leave_eq.trans hnot)]
    exact t.reaches_thread ⟨0⟩
  have hgoes := hdenied.trans (reaches_thread _ timeout)
  have hon : ([Action.observe timeout].foldl Run.step t.run.unheard).On _ := h.on.observe timeout
  have hat := h.unread hon (Line.unread_observe timeout _)
  have hintact := Station.steady_intact.observe hs timeout
  -- the thread and the station begin the same watch, or are refused it
  have hsame : (s.line.observe timeout).1 = (t.run.client.observe timeout).1.map Call.token := by
    rw [Run.fst_observe_unheard, h.on.client_eq, Line.observe]
    rcases s.line.client.observe timeout with ⟨e | k, client⟩ <;> rfl
  rcases hresult : s.line.observe timeout with ⟨begun, line⟩
  rw [hresult] at hat hintact hsame
  rcases hbegun : t.run.client.observe timeout with ⟨e | k, client⟩ <;> rw [hbegun] at hsame
  · obtain rfl : begun = .error e := hsame
    have hstep : step { t with place := .denied } (.thread timeout) = finish (.attachAllowed timeout) (.error e)
        (next (.error e)) { t with run := t.run.step (.observe timeout), place := .denied } := by
      simp only [step, hsession, goOnLeave, hbegun]
    have hat' : At { t with run := t.run.step (.observe timeout), place := .denied } { s with line } :=
      hat.congr rfl rfl
    exact .inl ⟨_, _, rfl, hat'.does (hstep ▸ hgoes) rfl⟩
  · obtain rfl : begun = .ok k.token := hsame
    have hstep : step { t with place := .denied } (.thread timeout)
        = { t with run := t.run.step (.observe timeout), place := .waiting k.token } := by
      simp only [step, hsession, goOnLeave, hbegun]
    refine .inr ⟨k.token, _, _, rfl, hstep ▸ hgoes, hat.congr rfl rfl, hintact, ?_, ?_, hnot⟩
    · exact Line.waits_observe hs.consistent hresult
    · exact Station.answer?_observe hs.consistent hresult

/-- What the watch was told ends the wait. -/
theorem Finds.decided {found : Option (Except CallError Reply)} (h : t.Finds token found s)
    (hsession : t.session = .act (.attachAllowed timeout) next) (hplace : t.place = .waiting token)
    {r : Except CallError Unit} (hdecides : found.bind decides = some r) :
    t.Does (.attachAllowed timeout) r (next r) s := by
  obtain ⟨run, reply, hreaches, hat, rfl, hreturned⟩ := h
  have hstep := step_decided (t := { t with run }) hsession hplace hreturned hdecides
  exact hat.does (hreaches.trans (hstep ▸ reaches_thread _ ⟨0⟩)) rfl

/-- What the watch was told decides nothing. -/
theorem Finds.undecided {found : Option (Except CallError Reply)} (h : t.Finds token found s)
    (hsession : t.session = .act (.attachAllowed timeout) next) (hplace : t.place = .waiting token)
    (hdecides : found.bind decides = none) :
    ∃ run, t.Reaches { t with run, place := .before } ∧ At { t with run, place := .before } s := by
  obtain ⟨run, reply, hreaches, hat, rfl, hreturned⟩ := h
  have hstep := step_undecided (t := { t with run }) hsession hplace hreturned hdecides
  exact ⟨run, hreaches.trans (hstep ▸ reaches_thread _ ⟨0⟩), hat.congr rfl rfl⟩

/-- A watch that was told nothing is given up. -/
theorem At.givesUp (h : t.At s) (hsession : t.session = .act (.attachAllowed timeout) next)
    (hplace : t.place = .waiting token) (hwaits : s.line.client.Waits token) (hnone : s.answer? token = none) :
    ∃ run, t.Reaches { t with run, place := .before } ∧
      At { t with run, place := .before } (Stage.collectLate token s).2 := by
  obtain ⟨operation, after, htimeout⟩ := Stage.collectLate_of_none hwaits hnone
  have hfinds := h.findsLate hwaits hnone
  rw [htimeout] at hfinds
  exact hfinds.undecided hsession hplace rfl

theorem decides_eq {r : Except CallError Reply} (h : ∀ operation after, r ≠ .error (.timeout operation after)) :
    decides r = Stage.leave? (some r) := by
  rw [decides.eq_def]
  split
  · next operation after => exact absurd rfl (h operation after)
  · rfl

/-- The thread gets to where the station goes on to wait. -/
theorem At.goOn (h : t.At s) (token : Nat) (found : Option (Except CallError Reply)) :
    t.Follows (Stage.goOn token (found, s)) := by
  rw [Stage.goOn.eq_def]
  split
  · exact ⟨t.run, .refl t, h⟩
  · obtain ⟨run, hreaches, hat, -⟩ := h.collectLate token
    exact ⟨run, hreaches, hat⟩

/-- It is waited for leave as it is waited for it at a station. -/
theorem At.awaitAllowed (h : t.At s) (hs : s.Intact) (hsession : t.session = .act (.attachAllowed timeout) next)
    (hplace : t.place = .before) (ahead : List Happening) :
    t.Does (.attachAllowed timeout) (Stage.awaitAllowed timeout s ahead).1
      (next (Stage.awaitAllowed timeout s ahead).1) (Stage.awaitAllowed timeout s ahead).2.1 := by
  induction ahead generalizing t s with
  | nil =>
    obtain ⟨r, s', hbegun, hdoes⟩ | ⟨token, s', run, hbegun, hreaches, hat, -, hwaits, hnone, hnot⟩ :=
      h.beginWait hs hsession hplace
    · rw [Stage.awaitAllowed_of_begun hbegun]
      exact hdoes
    · rw [Stage.awaitAllowed, hbegun]
      obtain ⟨run', hreaches', hat'⟩ := hat.givesUp hsession rfl hwaits hnone
      exact .of_reaches (hreaches.trans hreaches') rfl (hat'.notInTime hsession rfl hnot)
  | cons happening ahead ih =>
    obtain ⟨r, s', hbegun, hdoes⟩ | ⟨token, s', run, hbegun, hreaches, hat, hintact, hwaits, hnone, hnot⟩ :=
      h.beginWait hs hsession hplace
    · rw [Stage.awaitAllowed_of_begun hbegun]
      exact hdoes
    cases happening with
    | lapse =>
      rw [Stage.awaitAllowed, hbegun]
      obtain ⟨run', hreaches', hat'⟩ := hat.givesUp hsession rfl hwaits hnone
      exact .of_reaches (hreaches.trans hreaches') rfl (hat'.notInTime hsession rfl hnot)
    | burst supplies =>
      obtain ⟨run₂, hreaches₂, hat₂⟩ := hat.receive supplies
      have hwaits₂ := Station.waits_receive hwaits supplies
      have hintact₂ := hintact.receive supplies
      refine .of_reaches (hreaches.trans hreaches₂) rfl ?_
      rw [Stage.awaitAllowed_burst hbegun]
      generalize s'.receive supplies = s₂ at hat₂ hwaits₂ hintact₂
      rcases hanswer : s₂.answer? token with _ | reply
      · -- nothing came that the watch is told of
        rw [Station.collect_of_none hanswer]
        obtain ⟨run₃, hreaches₃, hat₃⟩ := hat₂.givesUp hsession rfl hwaits₂ hanswer
        have hintact₃ := Station.steady_intact.collectLate hintact₂ token
        exact .of_reaches hreaches₃ rfl (ih hat₃ hintact₃ hsession rfl)
      · rw [Station.collect_of_some hanswer]
        have hdecides : decides reply = Stage.leave? (some reply) := decides_eq fun operation after htimeout =>
          Station.answer?_ne_timeout hwaits₂ operation after (htimeout ▸ hanswer)
        have hfinds := hat₂.finds hanswer
        rcases hleave : Stage.leave? (some reply) with _ | r
        · obtain ⟨run₃, hreaches₃, hat₃⟩ := hfinds.undecided hsession rfl (hdecides.trans hleave)
          obtain ⟨run₄, hreaches₄, hat₄⟩ := hat₃.goOn token (some reply)
          have hintact₃ := Station.steady_intact.collect hintact₂ token
          have hintact₄ := Station.steady_intact.goOn hintact₃ token (some reply)
          exact .of_reaches (hreaches₃.trans hreaches₄) rfl (ih hat₄ hintact₄ hsession rfl)
        · exact hfinds.decided hsession rfl (hdecides.trans hleave)

end Leave

/-! ### The other acts -/

/-- The oldest confirmation that the station has kept is the next one that the thread takes. -/
theorem At.confirmed_eq (h : t.At s) : (confirmed t.run.client.handled)[t.taken]? = s.confirmations.head? := by
  rw [← h.confirmations_eq, List.head?_drop]

section Confirmation

variable {timeout : Span} {next : Option Bytes → Session α}

theorem At.takesConfirmation (h : t.At s) (hsession : t.session = .act (.confirmation timeout) next)
    {body : Bytes} {rest : List Bytes} (hkept : s.confirmations = body :: rest) :
    t.Does (.confirmation timeout) (some body) (next (some body)) { s with confirmations := rest } := by
  have hnext : (confirmed t.run.client.handled)[t.taken]? = some body := by
    rw [h.confirmed_eq, hkept]
    rfl
  have hstep : t.step (.thread ⟨0⟩) = finish (.confirmation timeout) (some body) (next (some body))
      { t with taken := t.taken + 1 } := by
    simp only [step, hsession, hnext]
  have hrest : (confirmed t.run.client.handled).drop (t.taken + 1) = rest := by
    rw [← List.tail_drop, h.confirmations_eq, hkept]
    rfl
  have hat : At { t with taken := t.taken + 1 } { s with confirmations := rest } :=
    ⟨h.on, h.leave_eq, hrest, (List.getElem?_eq_some_iff.mp hnext).1⟩
  exact hat.does (hstep ▸ t.reaches_thread ⟨0⟩) rfl

theorem At.missesConfirmation (h : t.At s) (hsession : t.session = .act (.confirmation timeout) next)
    (hkept : s.confirmations = []) : t.Does (.confirmation timeout) none (next none) s := by
  have hnone : (confirmed t.run.client.handled)[t.taken]? = none := by
    rw [h.confirmed_eq, hkept]
    rfl
  have hstep : t.step .late = t.finish (.confirmation timeout) none (next none) := by
    simp only [step, hsession, hnone]
  exact h.does (hstep ▸ t.reaches_late) rfl

/-- It is waited for a confirmation as it is waited for one at a station. -/
theorem At.confirmation (h : t.At s) (hsession : t.session = .act (.confirmation timeout) next)
    (ahead : List Happening) :
    t.Does (.confirmation timeout) (Stage.await Stage.takeConfirmation Stage.takeConfirmation s ahead).1
      (next (Stage.await Stage.takeConfirmation Stage.takeConfirmation s ahead).1)
      (Stage.await Stage.takeConfirmation Stage.takeConfirmation s ahead).2.1 := by
  refine waits_await (P := fun t s => t.At s ∧ t.session = .act (.confirmation timeout) next)
    (Q := fun t r => t.Does (.confirmation timeout) r (next r)) ?_ ?_ ?_ ?_ ⟨h, hsession⟩ ahead
  · intro t s h supplies
    obtain ⟨run, hreaches, hat⟩ := h.1.receive supplies
    exact ⟨run, hreaches, hat, h.2⟩
  · intro t run r s hreaches hdoes
    exact .of_reaches hreaches rfl hdoes
  · intro t s body s' h hcheck
    rcases hkept : s.confirmations with _ | ⟨body', rest⟩
    · rw [Stage.takeConfirmation_of_nil hkept] at hcheck
      cases hcheck
    · rw [Stage.takeConfirmation_of_cons hkept] at hcheck
      cases hcheck
      exact h.1.takesConfirmation h.2 hkept
  · intro t s s' h hcheck
    rcases hkept : s.confirmations with _ | ⟨body', rest⟩
    · have hnone := Stage.takeConfirmation_of_nil hkept
      rw [hnone] at hcheck ⊢
      exact ⟨(Prod.mk.inj hcheck).2.symm, h.1.missesConfirmation h.2 hkept⟩
    · rw [Stage.takeConfirmation_of_cons hkept] at hcheck
      cases hcheck

end Confirmation

/-- Time passes as it does at a station. -/
theorem At.pause (h : t.At s) {length : Span} {next : Unit → Session α}
    (hsession : t.session = .act (.pause length) next) (ahead : List Happening) :
    t.Does (.pause length) () (next ()) (Stage.pause s ahead).1 := by
  have hstep : ∀ t : Thread α, t.session = .act (.pause length) next →
      t.step (.thread ⟨0⟩) = t.finish (.pause length) () (next ()) := by
    intro t hsession
    simp only [step, hsession]
  induction ahead generalizing t s with
  | nil => exact h.does (hstep t hsession ▸ t.reaches_thread ⟨0⟩) rfl
  | cons happening ahead ih =>
    cases happening with
    | lapse => exact h.does (hstep t hsession ▸ t.reaches_thread ⟨0⟩) rfl
    | burst supplies =>
      obtain ⟨run, hreaches, hat⟩ := h.receive supplies
      exact .of_reaches hreaches rfl (ih hat hsession)

/-- What was confirmed before is not taken any more, as it is not kept at a station. -/
theorem At.listen (h : t.At s) {next : Unit → Session α} (hsession : t.session = .act .listen next) :
    t.Does .listen () (next ()) s.listen := by
  have hon : ([Action.register NoticeId.modeSet.code .modeSet].foldl Run.step t.run.unheard).On
      (s.line.mapClient fun c => (c.register NoticeId.modeSet.code .modeSet).2) :=
    ⟨congrArg (fun c => (c.register NoticeId.modeSet.code .modeSet).2) h.on.client_eq, h.on.sink_eq, h.on.idle⟩
  have hat := h.unread hon ⟨rfl, rfl, rfl⟩
  have hstep : t.step (.thread ⟨0⟩) = finish .listen () (next ()) { t with
      run := t.run.step (.register NoticeId.modeSet.code .modeSet)
      taken := (confirmed t.run.client.handled).length } := by
    simp only [step, hsession]
  have hat' : At { t with
      run := t.run.step (.register NoticeId.modeSet.code .modeSet)
      taken := (confirmed t.run.client.handled).length } s.listen :=
    ⟨hat.on, hat.leave_eq, List.drop_length, le_rfl⟩
  exact hat'.does (hstep ▸ t.reaches_thread ⟨0⟩) rfl

theorem At.unlisten (h : t.At s) {next : Unit → Session α} (hsession : t.session = .act .unlisten next) :
    t.Does .unlisten () (next ()) s.unlisten := by
  have hon : ([Action.unregister NoticeId.modeSet.code].foldl Run.step t.run.unheard).On
      (s.line.mapClient fun c => (c.unregister NoticeId.modeSet.code).2) :=
    ⟨congrArg (fun c => (c.unregister NoticeId.modeSet.code).2) h.on.client_eq, h.on.sink_eq, h.on.idle⟩
  have hat := h.unread hon ⟨rfl, rfl, rfl⟩
  have hstep : t.step (.thread ⟨0⟩) = finish .unlisten () (next ())
      { t with run := t.run.step (.unregister NoticeId.modeSet.code) } := by
    simp only [step, hsession]
  exact hat.does (hstep ▸ t.reaches_thread ⟨0⟩) rfl

/-- An act is done as it is done at a station. -/
theorem At.perform {w : Stage} (h : t.At w.station) (hs : w.station.Intact) {next : a.Answer → Session α}
    (hsession : t.session = .act a next) (hplace : t.place = .before) :
    t.Does a (w.perform a).1 (next (w.perform a).1) (w.perform a).2.station := by
  cases a with
  | call p command body timeout => exact h.call hs hsession hplace
  | listen => exact h.listen hsession
  | unlisten => exact h.unlisten hsession
  | confirmation timeout => exact h.confirmation hsession w.ahead
  | attachAllowed timeout => exact h.awaitAllowed hs hsession hplace w.ahead
  | pause length => exact h.pause hsession w.ahead

/-- A session is carried out as it is carried out at a station. -/
theorem At.play {w : Stage} (h : t.At w.station) (hs : w.station.Intact) {session : Session α}
    (hsession : t.session = session) (hplace : t.place = .before) :
    ∃ t', t.Reaches t' ∧ t'.At (w.run session).2.station ∧ t'.session = .pure (w.run session).1 ∧
      t'.deeds = t.deeds ++ w.deeds session := by
  induction session generalizing t w with
  | pure r => exact ⟨t, .refl t, h, hsession, by simp [Stage.deeds]⟩
  | act a next ih =>
    obtain ⟨t', hreaches, hat, hsession', hplace', hdeeds⟩ := h.perform hs hsession hplace
    obtain ⟨t'', hreaches', hat', hend, hdeeds'⟩ := ih _ hat (hs.perform a) hsession' hplace'
    refine ⟨t'', hreaches.trans hreaches', hat', hend, ?_⟩
    rw [hdeeds', hdeeds, List.append_assoc]
    rfl

end Thread

/-- What a station does with a session is what a thread does with it in some order of the turns, with the same
deeds and the same end. -/
theorem Stage.run_isPlayed {α : Type} (config : ClientConfig) (peer : Peer) (ahead : List Happening)
    (session : Session α) : ∃ turns, (∀ command, .client (.register command .attachAllowed) ∉ turns) ∧
      let w : Stage := { station := .start config, peer, ahead }
      let t := (Thread.start config {} [] session).play turns
      t.session = .pure (w.run session).1 ∧ t.deeds = w.deeds session := by
  have hat : (Thread.start config {} [] session).At (Station.start config) := ⟨⟨rfl, rfl, rfl⟩, rfl, rfl, le_rfl⟩
  obtain ⟨t', ⟨turns, hturns, rfl⟩, -, hend, hdeeds⟩ :=
    hat.play (w := { station := .start config, peer, ahead }) (Station.intact_start config) rfl rfl
  exact ⟨turns, hturns, hend, hdeeds⟩

end Wwan
