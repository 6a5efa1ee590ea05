import Wwan.Proofs.Client.Turns

/-!
# Noise on the channel

Some units of a stream are for nobody: notices, messages for a transaction that is not in progress, and
units that are no messages (`Run.IsNoise`).  They may change what handlers and observers see, and nothing
else (`Run.core`).
-/

namespace Wwan

variable {H : Type}

/-! ## What noise does not reach -/

namespace Client

variable {c : Client H}

/-- The client without all that handlers have to do with. -/
def unhandled (c : Client H) : Client H :=
  { c with handlers := [], notices := [], handled := [] }

@[simp] theorem table_unhandled (c : Client H) : c.unhandled.table = c.table := rfl

@[simp] theorem config_unhandled (c : Client H) : c.unhandled.config = c.config := rfl

@[simp] theorem call?_unhandled (c : Client H) (token : Nat) : c.unhandled.call? token = c.call? token := rfl

theorem begin_unhandled (p : Purpose) (command : UInt32) (timeout : Span) :
    c.unhandled.begin p command timeout
      = ((c.begin p command timeout).1, (c.begin p command timeout).2.unhandled) := by
  simp only [begin, table_unhandled]
  rcases enter p c.table with ⟨e | ⟨ticket, token⟩, t⟩ <;> rfl

theorem observe_unhandled (timeout : Span) :
    c.unhandled.observe timeout = ((c.observe timeout).1, (c.observe timeout).2.unhandled) := by
  rw [observe, observe, table_unhandled]
  split <;> rfl

theorem unsent_unhandled (token : Nat) : c.unhandled.unsent token = (c.unsent token).unhandled := by
  rw [unsent, unsent, call?_unhandled]
  rcases c.call? token with _ | k <;> rfl

theorem expire_unhandled (token : Nat) : c.unhandled.expire token = (c.expire token).unhandled := by
  rw [expire, expire, call?_unhandled,
    table_unhandled]
  rcases c.call? token with _ | k
  · rfl
  · dsimp only
    split <;> rfl

theorem settle_unhandled (token : Nat) : c.unhandled.settle token = (c.settle token).unhandled := by
  rw [settle, settle, call?_unhandled]
  rcases c.call? token with _ | k
  · rfl
  · dsimp only
    split <;> rfl

theorem collect_unhandled (token : Nat) :
    c.unhandled.collect token = ((c.collect token).1, (c.collect token).2.unhandled) := by
  rw [collect, collect, call?_unhandled,
    table_unhandled]
  rcases (c.call? token).bind fun k => k.outcome? c.table with _ | result <;> rfl

/-- Handling a notice is nothing but what handlers have to do with. -/
theorem unhandled_handleNext : c.handleNext.unhandled = c.unhandled := by
  obtain ⟨htable, hcalls, hconfig⟩ := c.handleNext_frame
  rw [unhandled, htable, hcalls, hconfig]
  rfl

end Client

namespace Run

variable {r : Run H}

namespace Sound

theorem hear (h : r.Sound) (u : Bytes) : (r.hear u).Sound := by
  rw [Run.hear]
  split
  · split
    · exact h.step _
    · exact h
  · exact h

end Sound

/-- A run without all that handlers have to do with. -/
def unhandled (r : Run H) : Run H :=
  { r with client := r.client.unhandled }

@[simp] theorem client_unhandled (r : Run H) : r.unhandled.client = r.client.unhandled := rfl

@[simp] theorem draft_unhandled (r : Run H) : r.unhandled.draft = r.draft := rfl

@[simp] theorem sink_unhandled (r : Run H) : r.unhandled.sink = r.sink := rfl

/-- What is left of a run without its observers, its record and all that handlers have to do with. -/
def core (r : Run H) : Run H :=
  r.unobserved.unhandled

/-- No step looks at what handlers have to do with. -/
theorem unhandled_step (r : Run H) (a : Action H) :
    (r.step a).unhandled = (r.unhandled.step a).unhandled := by
  cases a with
  | start p command body timeout =>
    simp only [step, start, client_unhandled, Client.begin_unhandled,
      draft_unhandled]
    split
    · rfl
    · rcases r.client.begin p command timeout with ⟨e | k, c⟩ <;> rfl
  | write =>
    simp only [step, write, client_unhandled,
      draft_unhandled]
    rcases r.draft with _ | ⟨token, request⟩
    · rfl
    simp only [Client.config_unhandled,
      sink_unhandled, Client.unsent_unhandled]
    rcases Outbox.send r.client.config.maxMessage request r.sink with ⟨e | _, sink⟩ <;> rfl
  | observe timeout =>
    simp only [step, observe, client_unhandled, Client.observe_unhandled]
    rcases r.client.observe timeout with ⟨e | k, c⟩ <;> rfl
  | expire token =>
    simp only [step, expire, client_unhandled, Client.expire_unhandled,
      Client.call?_unhandled,
      Client.table_unhandled]
    rcases r.client.call? token with _ | k
    · rfl
    · dsimp only
      split <;> rfl
  | settle token =>
    simp only [step, settle, client_unhandled, Client.settle_unhandled,
      Client.call?_unhandled]
    rcases r.client.call? token with _ | k
    · rfl
    · dsimp only
      split <;> rfl
  | collect token =>
    simp only [step, collect, client_unhandled, Client.collect_unhandled]
    rcases r.client.collect token with ⟨_ | result, c⟩ <;> rfl
  | handle =>
    show unhandled { r with client := r.client.handleNext }
      = unhandled { r with client := r.client.unhandled.handleNext }
    rw [unhandled, unhandled, Client.unhandled_handleNext, Client.unhandled_handleNext]
    rfl
  | _ => rfl

theorem observes_unhandled (a : Action H) : r.unhandled.observes a = r.observes a := by
  cases a <;> rfl

/-- The results of a step do not depend on what handlers have to do with. -/
theorem outcome_unhandled (a : Action H) : r.outcome a = r.unhandled.outcome a := by
  have hlog : (r.step a).unhandled.log = (r.unhandled.step a).unhandled.log :=
    congrArg Run.log (unhandled_step r a)
  replace hlog : (r.step a).log = (r.unhandled.step a).log := hlog
  rw [outcome, outcome, observes_unhandled, hlog]
  rfl

/-- A step changes what noise does not reach as it changes the run, and has the same results there. -/
theorem core_step (h : r.Sound) (a : Action H) :
    (r.step a).core = (r.core.step a).core ∧ r.outcome a = r.core.outcome a := by
  obtain ⟨hstep, houtcome⟩ := unobserved_step h a
  refine ⟨?_, houtcome.trans (outcome_unhandled a)⟩
  calc (r.step a).core
    _ = (r.unobserved.step a).unobserved.unhandled := congrArg unhandled hstep
    _ = (r.unobserved.step a).unhandled.unobserved := rfl
    _ = (r.core.step a).unhandled.unobserved := congrArg unobserved (unhandled_step r.unobserved a)
    _ = (r.core.step a).core := rfl

/-- Runs that differ only in what noise reaches go on so, and have the same results. -/
theorem core_congr {q : Run H} (h : q.core = r.core) (hq : q.Sound) (hr : r.Sound) (a : Action H) :
    (q.step a).core = (r.step a).core ∧ q.outcome a = r.outcome a := by
  obtain ⟨hstep, houtcome⟩ := core_step hq a
  obtain ⟨hstep', houtcome'⟩ := core_step hr a
  rw [hstep, houtcome, hstep', houtcome', h]
  exact ⟨rfl, rfl⟩

/-! ## Noise -/

/-- A unit that is for nobody when it arrives: a notice, a message for a transaction that is not in progress,
or a unit that is no message, because it is too short for the header or a field of the header is not an
integer of four octets. -/
inductive IsNoise (r : Run H) (u : Bytes) : Prop where
  | notice (m : Message) (message : Message.ofUnit? u = some m)
      (kind_eq : m.classify r.client.config.threshold = .notice)
  | stray (m : Message) (message : Message.ofUnit? u = some m) (id : UInt8)
      (kind_eq : m.classify r.client.config.threshold = .transaction id)
      (absent : r.client.table.pending? id = none)
  | malformed (header : u.length < 20 ∨ (u.drop 4).take 2 ≠ [2, 4] ∨ (u.drop 10).take 2 ≠ [2, 4])

/-- A message that is for nobody changes nothing else. -/
theorem core_dispatch (hc : r.client.Consistent) {m : Message}
    (h : Client.route (m.classify r.client.config.threshold) r.client.table = (none, r.client.table)) :
    (r.step (.dispatch m)).core = r.core := by
  have hroute : Client.route (m.classify r.client.config.threshold) r.client.table.unobserved
      = (none, r.client.table.unobserved) := by
    rw [Client.route_unobserved, h]
  have htable : (r.client.unobserved.dispatch m).table = r.client.unobserved.table := by
    show { (Client.route (m.classify r.client.config.threshold) r.client.table.unobserved).2 with
      observers := [] } = r.client.table.unobserved
    rw [hroute]
    rfl
  have hcalls : (r.client.unobserved.dispatch m).calls = r.client.unobserved.calls := by
    rw [Client.calls_dispatch]
    refine (List.map_congr_left fun k hk => ?_).trans (List.map_id _)
    have huntold : Client.isTold (m.classify r.client.config.threshold) r.client.table.unobserved k
        = false := by
      rw [Client.isTold_eq_false_iff, hroute]
      exact ⟨(Option.some_ne_none _).symm, List.not_mem_nil⟩
    exact if_neg (ne_true_of_eq_false huntold)
  calc (r.step (.dispatch m)).core
    _ = { r.core with client := (r.client.dispatch m).unobserved.unhandled } := rfl
    _ = { r.core with client := (r.client.unobserved.dispatch m).unhandled } := by
        rw [hc.unobserved_dispatch]
    _ = { r.core with client := { r.core.client with
          table := (r.client.unobserved.dispatch m).table
          calls := (r.client.unobserved.dispatch m).calls } } := rfl
    _ = r.core := by
        rw [htable, hcalls]
        rfl

/-- A unit is no message if it is too short or its header is wrong. -/
theorem ofUnit?_of_malformed {u : Bytes}
    (h : u.length < 20 ∨ (u.drop 4).take 2 ≠ [2, 4] ∨ (u.drop 10).take 2 ≠ [2, 4]) :
    Message.ofUnit? u = none := by
  rw [Message.ofUnit?, Message.ofUnit]
  by_cases hshort : u.length < 20
  · rw [if_pos (show u.length < Message.headerSize from hshort)]
    rfl
  · have hheader : (u.drop 4).take 2 ≠ fourOctets ∨ (u.drop 10).take 2 ≠ fourOctets :=
      h.resolve_left hshort
    rw [if_neg (show ¬u.length < Message.headerSize from hshort), if_pos hheader]
    rfl

/-- Noise changes nothing but what it reaches. -/
theorem IsNoise.core_eq {u : Bytes} (h : r.IsNoise u) (hc : r.client.Consistent) :
    (r.hear u).core = r.core := by
  rw [hear]
  split
  · cases h with
    | notice m message kind_eq =>
      rw [message]
      exact core_dispatch hc (by rw [kind_eq]; rfl)
    | stray m message id kind_eq absent =>
      rw [message]
      refine core_dispatch hc ?_
      rw [kind_eq, Client.route, Table.advance, absent]
    | malformed header => rw [ofUnit?_of_malformed header]
  · rfl

/-- An action that takes no part in the calls: a notice is handled, a handler comes or goes, or somebody who
waits for the next message gets on. -/
inductive IsAside (r : Run H) : Action H → Prop where
  | handle : IsAside r .handle
  | register (command : UInt32) (handler : H) : IsAside r (.register command handler)
  | unregister (command : UInt32) : IsAside r (.unregister command)
  | expire {token : Nat} (observes : .started token .observation ∈ r.log) : IsAside r (.expire token)
  | settle {token : Nat} (observes : .started token .observation ∈ r.log) : IsAside r (.settle token)
  | collect {token : Nat} (observes : .started token .observation ∈ r.log) : IsAside r (.collect token)

/-- Who waits for the next message is none of those who are left without them. -/
theorem absent_of_observation (hr : r.Sound) {token : Nat}
    (h : .started token .observation ∈ r.log) : r.unobserved.client.call? token = none := by
  obtain ⟨k, hk, rfl, hticket, -⟩ | ⟨hnone, -⟩ := hr.consistent.call?_cases token
  · have hstarted := (hr.ledger.account k hk).started
    exact absurd (ticket_eq_of_starts hr.ledger.starts_nodup hstarted h) hticket
  · exact hnone

theorem outcome_of_log_eq {a : Action H} (h : (r.step a).log = r.log) : r.outcome a = [] := by
  rw [outcome, h, List.drop_length]
  split <;> rfl

/-- Such an action changes nothing else, and nobody else returns. -/
theorem IsAside.core_eq {a : Action H} (h : r.IsAside a) (hr : r.Sound) :
    (r.step a).core = r.core ∧ r.outcome a = [] := by
  have hidle : r.unobserved.step a = r.unobserved → (r.step a).core = r.core ∧ r.outcome a = [] := by
    intro hidle
    obtain ⟨hstep, houtcome⟩ := step_of_idle hr hidle
    exact ⟨congrArg unhandled hstep, houtcome⟩
  cases h with
  | handle =>
    refine ⟨?_, outcome_of_log_eq rfl⟩
    calc (r.step .handle).core
      _ = unobserved { r with client := r.client.handleNext.unhandled } := rfl
      _ = r.core := by
          rw [Client.unhandled_handleNext]
          rfl
  | register command handler => exact ⟨rfl, outcome_of_log_eq rfl⟩
  | unregister command => exact ⟨rfl, outcome_of_log_eq rfl⟩
  | expire observes =>
    exact hidle (step_of_absent (absent_of_observation hr observes)).1
  | settle observes =>
    exact hidle (step_of_absent (absent_of_observation hr observes)).2.1
  | collect observes =>
    exact hidle (step_of_absent (absent_of_observation hr observes)).2.2

/-! ## A run and the same run disturbed -/

/-- What happens in a run, and what happens in the same run with noise between its units.  Everybody does the
same in both, and hears the same units besides the noise; but noise may bring more to do for handlers, and
those who wait for the next message may get it earlier, so they act in either run as it suits them. -/
inductive Disturbed : Run H → Run H → List (Moment H) → List (Moment H) → Prop where
  | nil (q r : Run H) : Disturbed q r [] []
  | both {q r : Run H} (m : Moment H) {hs ns : List (Moment H)}
      (rest : Disturbed (q.happen m) (r.happen m) hs ns) : Disturbed q r (m :: hs) (m :: ns)
  | noise {q r : Run H} {u : Bytes} (isNoise : r.IsNoise u)
      (length_le : u.length ≤ r.client.config.maxMessage) {hs ns : List (Moment H)}
      (rest : Disturbed q (r.hear u) hs ns) : Disturbed q r hs (.unit u :: ns)
  | asideThere {q r : Run H} {a : Action H} (isAside : q.IsAside a) {hs ns : List (Moment H)}
      (rest : Disturbed (q.step a) r hs ns) : Disturbed q r (.act a :: hs) ns
  | asideHere {q r : Run H} {a : Action H} (isAside : r.IsAside a) {hs ns : List (Moment H)}
      (rest : Disturbed q (r.step a) hs ns) : Disturbed q r hs (.act a :: ns)

theorem core_hear {q : Run H} (h : q.core = r.core) (hq : q.Sound) (hr : r.Sound) (u : Bytes) :
    (q.hear u).core = (r.hear u).core := by
  have hconfig : q.core.client.config = r.core.client.config := by rw [h]
  replace hconfig : q.client.config = r.client.config := hconfig
  rw [hear, hear, hconfig]
  split
  · split
    · exact (core_congr h hq hr _).1
    · exact h
  · exact h

/-- Noise makes no difference to what it does not reach, nor to what calls return. -/
theorem Disturbed.play {q : Run H} {hs ns : List (Moment H)} (h : Disturbed q r hs ns) (hq : q.Sound)
    (hr : r.Sound) (hcore : q.core = r.core) :
    (hs.foldl happen q).core = (ns.foldl happen r).core ∧ q.results hs = r.results ns := by
  -- both runs go on from what noise does not reach, which is the same in both all the time
  induction h with
  | nil q r => exact ⟨hcore, rfl⟩
  | both moment rest ih =>
    cases moment with
    | act a =>
      obtain ⟨hstep, houtcome⟩ := core_congr hcore hq hr a
      obtain ⟨hrun, hresults⟩ := ih (hq.step a) (hr.step a) hstep
      refine ⟨hrun, ?_⟩
      rw [results, results, hresults]
      exact congrArg (· ++ _) houtcome
    | unit u => exact ih (hq.hear u) (hr.hear u) (core_hear hcore hq hr u)
  | noise isNoise length_le rest ih =>
    exact ih hq (hr.hear _) (hcore.trans (isNoise.core_eq hr.consistent).symm)
  | asideThere isAside rest ih =>
    obtain ⟨hstep, houtcome⟩ := isAside.core_eq hq
    obtain ⟨hrun, hresults⟩ := ih (hq.step _) hr (hstep.trans hcore)
    refine ⟨hrun, ?_⟩
    rw [results, ← hresults]
    exact congrArg (· ++ _) houtcome
  | asideHere isAside rest ih =>
    obtain ⟨hstep, houtcome⟩ := isAside.core_eq hr
    obtain ⟨hrun, hresults⟩ := ih hq (hr.step _) (hcore.trans hstep.symm)
    refine ⟨hrun, ?_⟩
    rw [hresults, results]
    exact congrArg (· ++ _) houtcome.symm

end Run

/-- Noise disturbs no call.  Take a run whose reader reads a stream of units, and the same run with noise
between the units, in whatever reads either stream comes; a unit that is too large must be dropped alone in
both, which every unit within the limit is spared.  Then every call returns the same, the same calls wait in
the table, and the same has been written. -/
theorem noise_disturbs_no_call (config : ClientConfig) (sink : Sink) {hs ns : List (Moment H)}
    (h : Run.Disturbed (.fresh config sink) (.fresh config sink) hs ns) {cs ds : List Bytes}
    (hcs : Carried config.maxMessage [] cs (hs.filterMap Moment.unit?))
    (hds : Carried config.maxMessage [] ds (ns.filterMap Moment.unit?)) :
    let q := (hs.map Moment.action?).foldl Reading.next (.fresh config sink cs)
    let r := (ns.map Moment.action?).foldl Reading.next (.fresh config sink ds)
    (Reading.fresh config sink cs).results (hs.map Moment.action?)
        = (Reading.fresh config sink ds).results (ns.map Moment.action?) ∧
      q.run.client.table.waiters = r.run.client.table.waiters ∧
      q.run.client.table.pending = r.run.client.table.pending ∧
      q.run.sink = r.run.sink := by
  intro q r
  obtain ⟨hq, hqresults⟩ := hcs.play (r := .fresh config sink) rfl
  obtain ⟨hr, hrresults⟩ := hds.play (r := .fresh config sink) rfl
  obtain ⟨hcore, hresults⟩ := h.play (Run.sound_after config sink []) (Run.sound_after config sink []) rfl
  have hsame : q.run.core = r.run.core :=
    (congrArg Run.core hq).trans (hcore.trans (congrArg Run.core hr).symm)
  have hwaiters : q.run.core.client.table.waiters = r.run.core.client.table.waiters := by rw [hsame]
  have hpending : q.run.core.client.table.pending = r.run.core.client.table.pending := by rw [hsame]
  have hsink : q.run.core.sink = r.run.core.sink := by rw [hsame]
  exact ⟨hqresults.trans (hresults.trans hrresults.symm), hwaiters, hpending, hsink⟩

/-- An answer whose body is one octet. -/
def answerUnit : Bytes :=
  Bytes.ofNatLE 4 17 ++ Value.integer 4 17 ++ Value.integer 4 5 ++ Bytes.ofWordBE syncWord ++ [7]

/-- A unit that has nothing behind its length. -/
def emptyUnit : Bytes :=
  Bytes.ofNatLE 4 0

/-- A call and its answer, with some units between the request and the answer. -/
def answered (us : List Bytes) : List (Moment Unit) :=
  [.act (.start .answer 5 [] ⟨0⟩), .act .write] ++ us.map .unit ++ [.unit answerUnit, .act (.collect 1)]

theorem noise_disturbs_no_call_answered :
    Run.Disturbed (.fresh {} {}) (.fresh {} {}) (answered []) (answered [emptyUnit, noticeUnit]) ∧
      Carried 65536 [] [answerUnit] [answerUnit] ∧
      Carried 65536 [] [emptyUnit ++ noticeUnit.take 3, noticeUnit.drop 3 ++ answerUnit]
        [emptyUnit, noticeUnit, answerUnit] ∧
      (Reading.fresh {} {} [answerUnit]).results ((answered []).map Moment.action?)
        = (Reading.fresh {} {} [emptyUnit ++ noticeUnit.take 3, noticeUnit.drop 3 ++ answerUnit]).results
            ((answered [emptyUnit, noticeUnit]).map Moment.action?) := by
  have hdisturbed : Run.Disturbed (.fresh {} {}) (.fresh {} {}) (answered [])
      (answered [emptyUnit, noticeUnit]) := by
    refine .both _ (.both _ (.noise (.malformed (.inl (by decide +kernel))) (by decide +kernel) ?_))
    refine .noise (.notice ⟨16, 16, 9, 0, []⟩ (by decide +kernel) (by decide +kernel)) (by decide +kernel) ?_
    exact .both _ (.both _ (.nil _ _))
  have hquiet : Carried 65536 [] [answerUnit] [answerUnit] :=
    .of_small (by decide +kernel) (by decide +kernel) (by decide +kernel) (by decide +kernel)
  have hnoisy : Carried 65536 [] [emptyUnit ++ noticeUnit.take 3, noticeUnit.drop 3 ++ answerUnit]
      [emptyUnit, noticeUnit, answerUnit] :=
    .of_small (by decide +kernel) (by decide +kernel) (by decide +kernel) (by decide +kernel)
  exact ⟨hdisturbed, hquiet, hnoisy, (noise_disturbs_no_call {} {} hdisturbed hquiet hnoisy).1⟩

/-- A unit of 8192 bytes, as many as one read takes at most; its end looks like the length of another one. -/
def longUnit : Bytes :=
  Bytes.ofNatLE 4 8188 ++ List.replicate 8184 0 ++ Bytes.ofNatLE 4 65535

/-- Noise before a unit that is too large keeps it from being dropped alone: the first read of the stream
ends with the unit no more, and what is left of the unit takes the answer behind it along. -/
theorem noise_loses_answer :
    Run.Disturbed (.fresh { maxMessage := 64 } {}) (.fresh { maxMessage := 64 } {}) (answered [longUnit])
        (answered [emptyUnit, longUnit]) ∧
      (∀ u ∈ [emptyUnit, longUnit, answerUnit], IsUnit u) ∧ longUnit.length = Inbox.chunkSize ∧
      (Reading.fresh { maxMessage := 64 } {} [longUnit ++ answerUnit]).results
          ((answered [longUnit]).map Moment.action?) = [(some 1, .ok (.body [7]))] ∧
      (Reading.fresh { maxMessage := 64 } {} [emptyUnit ++ longUnit ++ answerUnit]).results
          ((answered [emptyUnit, longUnit]).map Moment.action?) = [] := by
  refine ⟨?_, by decide +kernel, by decide +kernel, by decide +kernel, by decide +kernel⟩
  refine .both _ (.both _ (.noise (.malformed (.inl (by decide +kernel))) (by decide +kernel) ?_))
  exact .both _ (.both _ (.both _ (.nil _ _)))

end Wwan
