import Wwan.Proofs.Client.Ledger

/-!
# What is sent for a call

A call sends its request at most once, and it has done so when it returns, unless the request could not be
written (`Run.Posted`).  What is sent for a call is what it began with (`Run.Asks`).
-/

namespace Wwan

variable {H : Type}

/-- The requests that were written for a call. -/
def sentFor (token : Nat) : List Event → List Request :=
  List.filterMap fun
    | .written token' request => if token' = token then some request else none
    | _ => none

theorem mem_sentFor {token : Nat} {log : List Event} {request : Request} :
    request ∈ sentFor token log ↔ .written token request ∈ log := by
  rw [sentFor, List.mem_filterMap]
  constructor
  · intro h
    obtain ⟨e, he, hrequest⟩ := h
    cases e <;> try cases hrequest
    next token' request' =>
      by_cases htoken : token' = token
      · simp only [if_pos htoken, Option.some.injEq] at hrequest
        rwa [← htoken, ← hrequest]
      · simp [htoken] at hrequest
  · intro h
    exact ⟨_, h, if_pos rfl⟩

theorem sentFor_append (token : Nat) (log events : List Event) :
    sentFor token (log ++ events) = sentFor token log ++ sentFor token events :=
  List.filterMap_append

/-- An event in which nothing is written. -/
def Event.isSilent : Event → Bool
  | .written _ _ => false
  | _ => true

theorem sentFor_of_silent {events : List Event} (h : ∀ e ∈ events, e.isSilent = true) (token : Nat) :
    sentFor token events = [] := by
  refine List.filterMap_eq_nil_iff.mpr fun e he => ?_
  have hsilent := h e he
  cases e <;> first | rfl | cases hsilent

namespace Run

/-- What the record tells of what was sent.  A call that watches for the next message sends nothing. -/
structure Posted (r : Run H) : Prop where
  drafted : ∀ token request, r.draft = some (token, request) → sentFor token r.log = []
  inCourse : ∀ k ∈ r.client.calls, k.ticket ≠ .observation → k.phase ≠ .sending →
    (sentFor k.token r.log).length = 1
  returned : ∀ token result, .returned token result ∈ r.log → .started token .observation ∈ r.log ∨
    (sentFor token r.log).length = 1 ∨ .unwritten token ∈ r.log ∧ ∃ e, result = .error e
  le_one : ∀ token, (sentFor token r.log).length ≤ 1

variable {r r' : Run H}

/-- What it takes of a step in which nothing is written. -/
theorem Posted.of_silent (h : r.Posted) (events : List Event) (hlog : r'.log = r.log ++ events)
    (hsilent : ∀ e ∈ events, e.isSilent = true)
    (hdraft : ∀ token request, r'.draft = some (token, request) → sentFor token r.log = [])
    (hcalls : ∀ k' ∈ r'.client.calls, k'.ticket ≠ .observation → k'.phase ≠ .sending →
      ∃ k ∈ r.client.calls, k.token = k'.token ∧ k.ticket = k'.ticket ∧ k.phase ≠ .sending)
    (hreturned : ∀ token result, .returned token result ∈ events → .started token .observation ∈ r.log ∨
      (sentFor token r.log).length = 1 ∨ .unwritten token ∈ events ∧ ∃ e, result = .error e) :
    r'.Posted := by
  have hsame : ∀ token, sentFor token r'.log = sentFor token r.log := by
    intro token
    rw [hlog, sentFor_append, sentFor_of_silent hsilent, List.append_nil]
  constructor
  · intro token request hd
    rw [hsame]
    exact hdraft token request hd
  · intro k' hk' hticket hphase
    obtain ⟨k, hk, htoken, hsameTicket, hphase'⟩ := hcalls k' hk' hticket hphase
    rw [hsame, ← htoken]
    exact h.inCourse k hk (hsameTicket ▸ hticket) hphase'
  · intro token result hmem
    rw [hlog, List.mem_append] at hmem
    rw [hsame, hlog, List.mem_append, List.mem_append]
    obtain hmem | hmem := hmem
    · obtain hstarted | hsent | ⟨hunwritten, hresult⟩ := h.returned token result hmem
      · exact .inl (.inl hstarted)
      · exact .inr (.inl hsent)
      · exact .inr (.inr ⟨.inl hunwritten, hresult⟩)
    · obtain hstarted | hsent | ⟨hunwritten, hresult⟩ := hreturned token result hmem
      · exact .inl (.inl hstarted)
      · exact .inr (.inl hsent)
      · exact .inr (.inr ⟨.inr hunwritten, hresult⟩)
  · intro token
    rw [hsame]
    exact h.le_one token

/-- A step that says nothing of writing and returning, and begins no call that is sent. -/
theorem Posted.of_step (h : r.Posted) (e : Event) (hlog : r'.log = r.log ++ [e]) (hsilent : e.isSilent = true)
    (hquiet : ∀ token result, e ≠ .returned token result) (hdraft : r'.draft = r.draft)
    (hcalls : ∀ k' ∈ r'.client.calls, k'.ticket ≠ .observation → k'.phase ≠ .sending →
      ∃ k ∈ r.client.calls, k.token = k'.token ∧ k.ticket = k'.ticket ∧ k.phase ≠ .sending) : r'.Posted := by
  refine h.of_silent [e] hlog (fun e' he' => ?_) ?_ hcalls ?_
  · rw [List.mem_singleton.mp he']
    exact hsilent
  · rw [hdraft]
    exact h.drafted
  · intro token result hmem
    exact absurd (List.mem_singleton.mp hmem).symm (hquiet token result)

/-- The request of a call is written. -/
theorem Posted.written (h : r.Posted) (hl : r.Ledger) {token : Nat} {request : Request} {sink : Sink}
    (hdraft : r.draft = some (token, request)) : Run.Posted
      { client := r.client.sent token, sink, log := r.log ++ [.written token request] } := by
  have hothers : ∀ token', token' ≠ token →
      sentFor token' (r.log ++ [.written token request]) = sentFor token' r.log := by
    intro token' hne
    rw [sentFor_append]
    simp [sentFor, Ne.symm hne]
  have hone : (sentFor token (r.log ++ [.written token request])).length = 1 := by
    rw [sentFor_append, h.drafted token request hdraft]
    simp [sentFor]
  obtain ⟨k₀, hk₀, htoken₀, -⟩ := hl.drafted token request hdraft
  constructor
  · intro token' request' hd
    cases hd
  · intro k' hk' hticket hphase
    obtain ⟨k, hk, rfl⟩ := Client.mem_calls_update.mp hk'
    by_cases htoken : k.token = token
    · rw [if_pos htoken]
      show (sentFor k.token _).length = 1
      rw [htoken]
      exact hone
    · rw [if_neg htoken] at hticket hphase ⊢
      rw [hothers _ htoken]
      exact h.inCourse k hk hticket hphase
  · -- a call that is being written has not returned, so the ones that have are others
    intro token' result hmem
    obtain hmem | hmem := List.mem_append.mp hmem
    · have hne : token' ≠ token := by
        rw [← htoken₀]
        exact (hl.ne_of_returned hmem hk₀).symm
      rw [hothers _ hne]
      obtain hstarted | hsent | ⟨hunwritten, hresult⟩ := h.returned token' result hmem
      · exact .inl (List.mem_append_left _ hstarted)
      · exact .inr (.inl hsent)
      · exact .inr (.inr ⟨List.mem_append_left _ hunwritten, hresult⟩)
    · cases List.mem_singleton.mp hmem
  · intro token'
    by_cases htoken : token' = token
    · rw [htoken, hone]
    · rw [hothers _ htoken]
      exact h.le_one token'

/-- A call returns what was decided. -/
theorem Posted.collect (h : r.Posted) (hl : r.Ledger) {k : Call} {result : Except CallError Reply}
    (mem : k ∈ r.client.calls) (decided : k.outcome? r.client.table = some result) :
    Run.Posted { r with client := r.client.drop k.token, log := r.log ++ [.returned k.token result] } := by
  refine h.of_silent [.returned k.token result] rfl (by simp [Event.isSilent]) h.drafted ?_ ?_
  · intro k' hk' _ hphase
    exact ⟨k', (Client.mem_calls_drop.mp hk').1, rfl, rfl, hphase⟩
  · intro token result' hmem
    obtain ⟨rfl, -⟩ := Event.returned.inj (List.mem_singleton.mp hmem)
    have hphase : k.phase ≠ .sending := by
      intro hphase
      rw [Call.outcome?, hphase] at decided
      cases decided
    by_cases hticket : k.ticket = .observation
    · exact .inl (hticket ▸ (hl.account k mem).started)
    · exact .inr (.inl (h.inCourse k mem hticket hphase))

end Run

/-- Every move keeps what was sent. -/
theorem Move.posted {r r' : Run H} (hmove : Move r r') (hc : r.client.Consistent) (hl : r.Ledger)
    (h : r.Posted) : r'.Posted := by
  -- a call that waits no more was sent before, for it waited
  have hupdated : ∀ {token : Nat} {phase : Phase},
      (∀ k ∈ r.client.calls, k.token = token → k.phase ≠ .sending) →
      ∀ k' ∈ (r.client.update token fun k => { k with phase }).calls, k'.ticket ≠ .observation →
      k'.phase ≠ .sending → ∃ k ∈ r.client.calls, k.token = k'.token ∧ k.ticket = k'.ticket ∧ k.phase ≠ .sending := by
    intro token phase hwaits k' hk' _ hphase'
    obtain ⟨k, hk, rfl⟩ := Client.mem_calls_update.mp hk'
    by_cases htoken : k.token = token
    · rw [if_pos htoken] at hphase' ⊢
      exact ⟨k, hk, rfl, rfl, hwaits k hk htoken⟩
    · rw [if_neg htoken] at hphase' ⊢
      exact ⟨k, hk, rfl, rfl, hphase'⟩
  cases hmove with
  | idle table_eq calls_eq config_eq =>
    refine ⟨h.drafted, ?_, h.returned, h.le_one⟩
    rw [calls_eq]
    exact h.inCourse
  | refuse e cursor =>
    exact h.of_step (.refused e) rfl rfl (by simp) rfl fun k hk _ hphase => ⟨k, hk, rfl, rfl, hphase⟩
  | @start k draft cursor hk =>
    refine h.of_silent [.started k.token k.ticket] rfl (by simp [Event.isSilent]) ?_ ?_ (by simp)
    · intro token request hd
      obtain ⟨-, -, rfl⟩ | ⟨-, -, -, command, body, rfl⟩ := hk.writer
      · exact h.drafted token request hd
      · -- nothing was written for a call that has not begun
        obtain ⟨rfl, -⟩ := Prod.mk.inj (Option.some.inj hd)
        refine List.eq_nil_iff_forall_not_mem.mpr fun request' hmem => ?_
        refine hl.token_ne_of_lt ?_ (mem_sentFor.mp hmem) rfl
        rw [hk.token_eq]
        omega
    · intro k' hk' hticket hphase
      obtain hmem | hmem := List.mem_append.mp hk'
      · exact ⟨k', hmem, rfl, rfl, hphase⟩
      · obtain rfl := List.mem_singleton.mp hmem
        obtain ⟨hobserves, -⟩ | ⟨-, hsends, -⟩ := hk.writer
        · exact absurd hobserves hticket
        · exact absurd hsends hphase
  | written draft_eq send_eq => exact h.written hl draft_eq
  | @unwritten token request sink e draft_eq send_eq =>
    obtain ⟨k, hk, rfl, -⟩ := hl.drafted token request draft_eq
    rw [hc.unsent_eq hk]
    refine h.of_silent [.unwritten k.token, .returned k.token (.error e)] rfl (by simp [Event.isSilent])
      (by simp) ?_ ?_
    · intro k' hk' _ hphase
      exact ⟨k', (Client.mem_calls_drop.mp hk').1, rfl, rfl, hphase⟩
    · intro token' result hmem
      obtain ⟨rfl, rfl⟩ : token' = k.token ∧ result = .error e := by simpa using hmem
      exact .inr (.inr ⟨List.mem_cons_self, e, rfl⟩)
  | @expire k mem phase_eq undecided =>
    refine h.of_step (.expired k.token) rfl rfl (by simp) rfl (hupdated fun k' hk' htoken => ?_)
    rw [hc.eq_of_token hk' mem htoken, phase_eq]
    simp
  | @settle k mem phase_eq =>
    refine h.of_step (.withdrawn k.token) rfl rfl (by simp) rfl (hupdated fun k' hk' htoken => ?_)
    rw [hc.eq_of_token hk' mem htoken, phase_eq]
    simp
  | collect mem decided => exact h.collect hl mem decided
  | dispatch m =>
    refine h.of_step (.arrived m _ _ _) rfl rfl (by simp) rfl fun k' hk' _ hphase => ?_
    obtain ⟨k, hk, htoken, hticket, hsame, -⟩ := Client.of_mem_calls_dispatch hk'
    exact ⟨k, hk, htoken.symm, hticket.symm, hsame ▸ hphase⟩
  | close =>
    exact h.of_step .closed rfl rfl (by simp) rfl fun k hk _ hphase => ⟨k, hk, rfl, rfl, hphase⟩

/-- In every run a call sends its request once at most, and has sent it when it returns, or could not. -/
theorem Run.posted_after (config : ClientConfig) (sink : Sink) (actions : List (Action H)) :
    (after config sink actions).Posted := by
  refine after_induction (P := Run.Posted) ?_ (fun past r' hmove h => ?_) actions
  · constructor <;> simp [fresh, sentFor]
  · exact hmove.posted (consistent_after config sink past) (ledger_after config sink past) h

/-! ## What a call asks -/

/-- A call has begun, and what is written for it has a command and a body. -/
structure Run.Asks (r : Run H) (token : Nat) (command : UInt32) (body : Bytes) : Prop where
  started : token ∈ starts r.log
  drafted : ∀ request, r.draft = some (token, request) → request.command = command ∧ request.body = body
  written : ∀ request, .written token request ∈ r.log → request.command = command ∧ request.body = body

/-- What a call asks does not change. -/
theorem Move.asks {r r' : Run H} (hmove : Move r r') (hl : r.Ledger) {token : Nat} {command : UInt32}
    {body : Bytes} (h : r.Asks token command body) : r'.Asks token command body := by
  obtain ⟨more, hlog⟩ := hmove.log_prefix
  have hstarted : token ∈ starts r'.log := by
    rw [← hlog, starts_append]
    exact List.mem_append_left _ h.started
  have hsilent : ∀ events, r'.log = r.log ++ events → (∀ e ∈ events, e.isSilent = true) →
      ∀ request, .written token request ∈ r'.log → request.command = command ∧ request.body = body := by
    intro events hlog' hevents request hmem
    rw [hlog', ← mem_sentFor, sentFor_append, sentFor_of_silent hevents, List.append_nil, mem_sentFor] at hmem
    exact h.written request hmem
  refine ⟨hstarted, ?_, ?_⟩
  · cases hmove with
    | @start k draft cursor hk =>
      intro request hd
      obtain ⟨-, -, rfl⟩ | ⟨-, -, -, command', body', rfl⟩ := hk.writer
      · exact h.drafted request hd
      · -- another call has the writer, for this one has begun before
        obtain ⟨rfl, -⟩ := Prod.mk.inj (Option.some.inj hd)
        obtain ⟨e, he, htoken⟩ := List.mem_filterMap.mp h.started
        have hlt : r.client.table.lastToken < k.token := by
          rw [hk.token_eq]
          omega
        cases e <;> cases htoken
        exact absurd rfl (hl.token_ne_of_lt hlt he)
    | written =>
      intro request hd
      cases hd
    | unwritten =>
      intro request hd
      cases hd
    | _ => exact h.drafted
  · cases hmove with
    | @written token' request' sink draft_eq send_eq =>
      intro request hmem
      obtain hmem | hmem := List.mem_append.mp hmem
      · exact h.written request hmem
      · obtain ⟨rfl, rfl⟩ := Event.written.inj (List.mem_singleton.mp hmem)
        exact h.drafted request draft_eq
    | idle => exact h.written
    | unwritten => exact hsilent _ rfl (by simp [Event.isSilent])
    | dispatch m => exact hsilent [.arrived m _ _ _] rfl (by simp [Event.isSilent])
    | close => exact hsilent [.closed] rfl (by simp [Event.isSilent])
    | _ => exact hsilent [_] rfl (by simp [Event.isSilent])

end Wwan
