import Wwan.Proofs.Client.Answers
import Wwan.Proofs.Message.Sending

/-!
# Requests that fail late

A call whose request cannot be written takes its place in the queue back.  Writing can fail after the sink
has taken the whole request, and then the place is missing when the answer comes: it is taken for the
answer to the next request, and so is every answer behind it.  A place is also lost when an answer meets it
before writing the request fails half way.  `Run.keepsPlaces_iff` says that nothing else loses a place, and
that as long as none is lost the `k`-th answer meets the place of the `k`-th request.
-/

namespace Wwan

variable {H : Type}

namespace Run

/-- What becomes of a request that is written now. -/
def posting (request : Request) (r : Run H) : Sending :=
  Outbox.sending r.client.config.maxMessage request r.sink

/-- Whose request for an answer, or for none, the sink takes in whole at this step, whether writing it
fails or not. -/
def accepts (r : Run H) : Action H → List Nat
  | .write =>
    match r.draft with
    | some (token, request) =>
      if request.transaction = none ∧ (r.posting request).IsWhole then [token] else []
    | none => []
  | _ => []

/-- Whose requests for an answer, or for none, the sink takes in whole at these steps, in order. -/
def acceptsAll (r : Run H) : List (Action H) → List Nat
  | [] => []
  | a :: actions => r.accepts a ++ (r.step a).acceptsAll actions

/-- Whose requests for an answer, or for none, the sink has taken in whole, in the order of their bytes. -/
def accepted (config : ClientConfig) (sink : Sink) (actions : List (Action H)) : List Nat :=
  (fresh config sink).acceptsAll actions

theorem acceptsAll_append_singleton (r : Run H) (actions : List (Action H)) (a : Action H) :
    r.acceptsAll (actions ++ [a]) = r.acceptsAll actions ++ (actions.foldl step r).accepts a := by
  induction actions generalizing r with
  | nil => exact List.append_nil _
  | cons b actions ih =>
    rw [List.cons_append, acceptsAll, ih, acceptsAll, List.append_assoc]
    rfl

/-- Whether writing the request of a call fails, and its place in the queue is lost by that: the sink has
taken the whole request and the place is taken back; or the sink has not, and an answer has met the place. -/
structure Mislays (r : Run H) (token : Nat) (request : Request) : Prop where
  isOpen : r.client.table.closed = false
  draft_eq : r.draft = some (token, request)
  transaction_eq : request.transaction = none
  fails : (r.posting request).result ≠ .ok ()
  whole_iff : (r.posting request).IsWhole ↔ token ∉ answers r.log

/-- Whether no place is lost in the course of a run. -/
def KeepsPlaces (config : ClientConfig) (sink : Sink) (actions : List (Action H)) : Prop :=
  ∀ past, past ++ [.write] <+: actions →
    ∀ token request, ¬(after config sink past).Mislays token request

/-! ## The queue when writing fails -/

section Writing

variable {r : Run H} {asked : List Nat} {token : Nat} {request : Request}

theorem writing_eq (hdraft : r.draft = some (token, request)) :
    r.writing = if request.transaction = none then [token] else [] := by
  rw [writing, hdraft]

theorem accepts_write (hdraft : r.draft = some (token, request)) : r.accepts .write
    = if request.transaction = none ∧ (r.posting request).IsWhole then [token] else [] := by
  rw [accepts, hdraft]

/-- A transaction has no place in the queue, -/
theorem waiters_unsent_of_transaction (hr : r.Sound) (hdraft : r.draft = some (token, request))
    (htransaction : request.transaction ≠ none) :
    (r.client.unsent token).table.waiters = r.client.table.waiters := by
  obtain ⟨k, hk, rfl, -, hnumber⟩ := hr.ledger.drafted token request hdraft
  rw [hr.consistent.unsent_eq hk]
  show (k.retract r.client.table).waiters = _
  rw [hnumber] at htransaction
  rw [Call.retract]
  cases hticket : k.ticket with
  | transaction id => rfl
  | _ => exact absurd (by rw [hticket]; rfl) htransaction

/-- and any other call whose request cannot be written takes its place back. -/
theorem tokens_unsent_of_answer (hr : r.Sound) (hdraft : r.draft = some (token, request))
    (hanswer : request.transaction = none) :
    (r.client.unsent token).table.waiters.map Waiter.token
      = (r.client.table.waiters.map Waiter.token).filter (· ≠ token) := by
  obtain ⟨k, hk, rfl, hobservation, hnumber⟩ := hr.ledger.drafted token request hdraft
  rw [hr.consistent.unsent_eq hk, List.filter_map]
  show (k.retract r.client.table).waiters.map Waiter.token = _
  rw [hanswer] at hnumber
  rw [Call.retract]
  cases hticket : k.ticket with
  | answer => rfl
  | oneWay => rfl
  | transaction id => simp [hticket, Ticket.number?] at hnumber
  | observation => exact absurd hticket hobservation

/-- What is left of the queue when the last request in it cannot be written: nothing else is missing, but an
answer that came before the request failed has no request. -/
theorem Queued.unsent (h : r.Queued asked) (hr : r.Sound) (hdraft : r.draft = some (token, request))
    (hanswer : request.transaction = none) :
    answers r.log ++ (r.client.unsent token).table.waiters.map Waiter.token
      = asked ++ if token ∈ answers r.log then [token] else [] := by
  have horder := h.order
  have hbegun := h.begun
  rw [writing_eq hdraft, if_pos hanswer] at horder hbegun
  have hnew : token ∉ asked := by
    have hnodup := hr.ledger.starts_nodup.sublist hbegun
    exact fun hmem => List.disjoint_of_nodup_append hnodup hmem (List.mem_singleton_self _)
  rw [tokens_unsent_of_answer hr hdraft hanswer]
  rcases List.eq_nil_or_concat (r.client.table.waiters.map Waiter.token) with hnil | ⟨queue, last, hconcat⟩
  · -- an answer has met the place
    rw [hnil, List.append_nil] at horder
    rw [hnil, horder, if_pos (List.mem_append_right _ (List.mem_singleton_self _))]
    exact List.append_nil _
  · rw [List.concat_eq_append] at hconcat
    rw [hconcat, ← List.append_assoc] at horder
    obtain ⟨rfl, hlast⟩ := List.append_inj' horder rfl
    obtain rfl : last = token := List.singleton_inj.mp hlast
    rw [List.mem_append, not_or] at hnew
    have hothers : queue.filter (· ≠ last) = queue := by
      rw [List.filter_eq_self]
      intro token htoken
      exact decide_eq_true fun heq => hnew.2 (heq ▸ htoken)
    rw [hconcat, List.filter_append, hothers, if_neg hnew.1]
    simp

/-- The queue is in order after a request that cannot be written, if it is left as it should be. -/
theorem Queued.write_of_error (h : r.Queued asked) {e : CallError} {s : Sink}
    (hdraft : r.draft = some (token, request))
    (hsend : Outbox.send r.client.config.maxMessage request r.sink = (.error e, s)) {asked' : List Nat}
    (horder : answers r.log ++ (r.client.unsent token).table.waiters.map Waiter.token = asked')
    (hsub : asked'.Sublist (asked ++ r.writing)) : r.write.Queued asked' := by
  rw [Run.write_of_error hdraft hsend]
  constructor
  · show answers (r.log ++ [_, _]) ++ _ = asked' ++ []
    rw [answers_append, List.append_nil, ← horder]
    exact congrArg (· ++ _) (List.append_nil _)
  · show (asked' ++ []).Sublist (starts (r.log ++ [_, _]))
    rw [List.append_nil, starts_append]
    exact (hsub.trans h.begun).trans (List.sublist_append_left _ _)

/-- A request that is written is there in whole. -/
theorem Queued.write_of_ok (h : r.Queued asked) {s : Sink} (hdraft : r.draft = some (token, request))
    (hsend : Outbox.send r.client.config.maxMessage request r.sink = (.ok (), s)) :
    r.write.Queued (asked ++ r.accepts .write) := by
  have hwhole : (r.posting request).IsWhole :=
    (Outbox.sound_sending _ request r.sink).sent (by rw [Outbox.sending, hsend])
  have hall : r.accepts .write = r.writing := by
    rw [accepts_write hdraft, writing_eq hdraft]
    exact if_congr (and_iff_left hwhole) rfl rfl
  have hwritten : r.write
      = { client := r.client.sent token, sink := s, log := r.log ++ [.written token request] } := by
    rw [Run.write, hdraft]
    simp only [hsend]
  rw [hwritten, hall]
  exact h.written token request s

/-- Writing keeps the queue in order, unless it loses a place. -/
theorem Queued.write (h : r.Queued asked) (hr : r.Sound) (hopen : r.client.table.closed = false)
    (hkept : ∀ token request, ¬r.Mislays token request) : r.write.Queued (asked ++ r.accepts .write) := by
  rcases hdraft : r.draft with _ | ⟨token, request⟩
  · have hnone : r.accepts .write = [] := by rw [accepts, hdraft]
    rwa [write_of_idle hdraft, hnone, List.append_nil]
  rcases hsend : Outbox.send r.client.config.maxMessage request r.sink with ⟨e | _, s⟩
  · rw [accepts_write hdraft]
    by_cases hanswer : request.transaction = none
    · -- the request is there in whole exactly if an answer has met its place
      have hwhole : (r.posting request).IsWhole ↔ token ∈ answers r.log := by
        have hfails : (r.posting request).result ≠ .ok () := by
          rw [posting, Outbox.sending, hsend]
          simp
        by_contra hne
        exact hkept token request ⟨hopen, hdraft, hanswer, hfails, by tauto⟩
      refine h.write_of_error hdraft hsend ?_ ?_
      · rw [h.unsent hr hdraft hanswer]
        exact congrArg (asked ++ ·) (if_congr ((and_iff_right hanswer).trans hwhole).symm rfl rfl)
      · rw [writing_eq hdraft, if_pos hanswer]
        refine (List.Sublist.refl asked).append ?_
        split
        · exact List.Sublist.refl _
        · exact List.nil_sublist _
    · have hidle : r.writing = [] := by rw [writing_eq hdraft, if_neg hanswer]
      rw [if_neg (fun hc => hanswer hc.1), List.append_nil]
      refine h.write_of_error hdraft hsend ?_ (List.sublist_append_left _ _)
      rw [waiters_unsent_of_transaction hr hdraft hanswer, h.order, hidle, List.append_nil]
  · exact h.write_of_ok hdraft hsend

/-- A step that is not one of the writer neither gives the writer back nor takes it from anybody. -/
theorem draft_step (r : Run H) {a : Action H} (ha : a ≠ .write) :
    (r.step a).draft = r.draft ∨ r.draft = none := by
  cases a with
  | start p command body timeout =>
    by_cases hbusy : r.draft.isSome
    · exact .inl (by rw [step, start, if_pos hbusy])
    · exact .inr (by simpa using hbusy)
  | write => exact absurd rfl ha
  | observe timeout =>
    left
    rw [step, observe]
    split <;> rfl
  | expire token =>
    left
    rw [step, expire]
    split
    · rfl
    · split <;> rfl
  | settle token =>
    left
    rw [step, settle]
    split
    · rfl
    · split <;> rfl
  | collect token =>
    left
    rw [step, collect]
    split <;> rfl
  | _ => exact .inl rfl

/-- Every step keeps the queue in order, unless it loses a place. -/
theorem Queued.step (h : r.Queued asked) (hr : r.Sound) {a : Action H}
    (hopen : (r.step a).client.table.closed = false)
    (hkept : a = .write → ∀ token request, ¬r.Mislays token request) :
    (r.step a).Queued (asked ++ r.accepts a) := by
  by_cases ha : a = .write
  · subst ha
    exact h.write hr ((move_step r .write).closed_of hopen) (hkept rfl)
  · have hnone : r.accepts a = [] := by
      cases a with
      | write => exact absurd rfl ha
      | _ => rfl
    rw [hnone, List.append_nil]
    exact (move_step r a).queued (draft_step r ha) hopen h

/-- A place that is lost is missed at once. -/
theorem Mislays.count_ne (hlost : r.Mislays token request) (h : r.Queued asked) (hr : r.Sound) :
    r.write.client.table.closed = false ∧
      r.write.client.table.waiters.length + (answers r.write.log).length
        ≠ (asked ++ r.accepts .write).length := by
  obtain ⟨hopen, hdraft, hanswer, hfails, hwhole⟩ := hlost
  rcases hsend : Outbox.send r.client.config.maxMessage request r.sink with ⟨e | _, s⟩
  · have hanswers : answers (r.log ++ [.unwritten token, .returned token (.error e)]) = answers r.log :=
      (answers_append _ _).trans (List.append_nil _)
    have horder := congrArg List.length (h.unsent hr hdraft hanswer)
    rw [Run.write_of_error hdraft hsend, accepts_write hdraft, hanswers]
    constructor
    · obtain ⟨k, hk, rfl, -, -⟩ := hr.ledger.drafted token request hdraft
      show (r.client.unsent k.token).table.closed = false
      rw [hr.consistent.unsent_eq hk]
      exact (Table.closed_retract k _).trans hopen
    · by_cases hmet : token ∈ answers r.log
      · rw [if_pos hmet] at horder
        rw [if_neg fun hc => hwhole.mp hc.2 hmet]
        simp only [List.length_append, List.length_map, List.length_singleton, List.length_nil] at horder ⊢
        omega
      · rw [if_neg hmet] at horder
        rw [if_pos ⟨hanswer, hwhole.mpr hmet⟩]
        simp only [List.length_append, List.length_map, List.length_singleton, List.length_nil] at horder ⊢
        omega
  · exact absurd (by rw [posting, Outbox.sending, hsend]) hfails

end Writing

/-! ## Runs -/

variable {config : ClientConfig} {sink : Sink} {actions : List (Action H)}

theorem KeepsPlaces.of_prefix {past : List (Action H)} (h : KeepsPlaces config sink actions)
    (hpast : past <+: actions) : KeepsPlaces config sink past :=
  fun earlier hearlier => h earlier (hearlier.trans hpast)

/-- As long as no place is lost, the queue is in order. -/
theorem KeepsPlaces.queued (h : KeepsPlaces config sink actions)
    (hopen : (after config sink actions).client.table.closed = false) :
    (after config sink actions).Queued (accepted config sink actions) := by
  induction actions using List.reverseRecOn with
  | nil => exact ⟨rfl, List.Sublist.refl _⟩
  | append_singleton actions a ih =>
    have hpast : actions <+: actions ++ [a] := List.prefix_append _ _
    rw [after_append_singleton] at hopen ⊢
    have hqueued := ih (h.of_prefix hpast) ((move_step _ a).closed_of hopen)
    rw [accepted, acceptsAll_append_singleton]
    exact hqueued.step (sound_after config sink actions) hopen fun ha => h actions (ha ▸ List.prefix_rfl)

/-- If the places are right all the time, none is lost. -/
theorem keepsPlaces_of_count (h : ∀ past, past <+: actions →
      (after config sink past).client.table.closed = false → (after config sink past).draft = none →
      (after config sink past).client.table.waiters.length + (answers (after config sink past).log).length
        = (accepted config sink past).length) : KeepsPlaces config sink actions := by
  intro past
  induction hn : past.length using Nat.strongRecOn generalizing past with
  | _ n ih =>
    intro hpast token request hlost
    -- no place was lost before, so that the queue was in order up to now
    have hkept : KeepsPlaces config sink past := by
      intro earlier hearlier
      have hlength := hearlier.length_le
      rw [List.length_append, List.length_singleton] at hlength
      have hprefix := hearlier.trans ((List.prefix_append past [.write]).trans hpast)
      exact ih earlier.length (by omega) earlier rfl hprefix
    obtain ⟨hopen, hne⟩ := hlost.count_ne (hkept.queued hlost.isOpen) (sound_after config sink past)
    have hcount := h (past ++ [.write]) hpast
    rw [after_append_singleton, accepted, acceptsAll_append_singleton] at hcount
    exact hne (hcount hopen (draft_write _))

/-! ## Who is served -/

/-- The answers that met a place in the queue: whose place, and the message. -/
def replies : List Event → List (Nat × Message) :=
  List.filterMap fun
    | .arrived m .response (some token) _ => some (token, m)
    | _ => none

theorem map_fst_replies (log : List Event) : (replies log).map Prod.fst = answers log := by
  rw [replies, answers, List.map_filterMap]
  congr 1
  funext e
  cases e with
  | arrived m kind entry receiver => cases kind <;> cases entry <;> rfl
  | _ => rfl

/-- How the answers of a run match the requests that the sink has taken in whole. -/
structure Served (asked : List Nat) (r : Run H) : Prop where
  /-- The answers met the places of the requests in their order, and the other places are in the queue. -/
  order : answers r.log ++ r.client.table.waiters.map Waiter.token = asked ++ r.writing
  /-- No call has two requests. -/
  nodup : (asked ++ r.writing).Nodup
  /-- A call that waits for an answer returns the one whose turn is that of its own request. -/
  returned : ∀ token body, .started token .answer ∈ r.log → .returned token (.ok (.body body)) ∈ r.log →
    ∃ (i : Nat) (m : Message), (replies r.log)[i]? = some (token, m) ∧
      (asked ++ r.writing)[i]? = some token ∧ m.body = body

theorem Queued.served {r : Run H} {asked : List Nat} (h : r.Queued asked) (hr : r.Sound) :
    r.Served asked where
  order := h.order
  nodup := hr.ledger.starts_nodup.sublist h.begun
  returned token body hstarted hreturned := by
    obtain ⟨m, kind, -, harrived, ⟨rfl, -, rfl⟩ | ⟨id, -, -, htransaction, -⟩⟩ :=
      hr.ledger.source_of_body hreturned
    · have hreply : (token, m) ∈ replies r.log := List.mem_filterMap.mpr ⟨_, harrived, rfl⟩
      obtain ⟨i, hi⟩ := List.getElem?_of_mem hreply
      have hanswer : (answers r.log)[i]? = some token := by
        rw [← map_fst_replies, List.getElem?_map, hi]
        rfl
      obtain ⟨hlt, -⟩ := List.getElem?_eq_some_iff.mp hanswer
      refine ⟨i, m, hi, ?_, rfl⟩
      rw [← h.order, List.getElem?_append_left hlt, hanswer]
    · cases ticket_eq_of_starts hr.ledger.starts_nodup hstarted htransaction

/-- The places in the queue are those of the requests that the sink has taken in whole and that have no
answer, whenever the channel is open and nothing is being written, exactly in those runs in which no place
is lost; and then every call that waits for an answer gets the one to its own request. -/
theorem keepsPlaces_iff (config : ClientConfig) (sink : Sink) (actions : List (Action H)) :
    ((∀ past, past <+: actions →
        (after config sink past).client.table.closed = false → (after config sink past).draft = none →
        (after config sink past).client.table.waiters.length + (answers (after config sink past).log).length
          = (accepted config sink past).length) ↔
      KeepsPlaces config sink actions) ∧
    (KeepsPlaces config sink actions → (after config sink actions).client.table.closed = false →
      (after config sink actions).Served (accepted config sink actions)) := by
  refine ⟨⟨keepsPlaces_of_count, fun h past hpast hopen hidle => ?_⟩, fun h hopen => ?_⟩
  · exact ((h.of_prefix hpast).queued hopen).count hidle
  · exact (h.queued hopen).served (sound_after config sink actions)

/-- A sink whose first flush fails. -/
def stuckSink : Sink where
  flushes := [some ⟨.other, "flush"⟩]

/-- Two requests are written, and the answer to the first one comes. -/
def lateFailure : List (Action Unit) :=
  [.start .answer 16 [] ⟨0⟩, .write, .start .answer 17 [] ⟨0⟩, .write,
    .dispatch ⟨17, 17, 16, syncWord, [7]⟩, .collect 2]

/-- When the flush behind the first of two requests fails, the second call returns the answer to the first
request, and no place is left for its own answer. -/
theorem late_failure_loses_place :
    accepted {} stuckSink lateFailure = [1, 2] ∧
      (after {} stuckSink lateFailure).log.filterMap Event.result?
        = [(some 1, .error (.fault ⟨.other, "flush"⟩)), (some 2, .ok (.body [7]))] ∧
      answers (after {} stuckSink lateFailure).log = [2] ∧
      (after {} stuckSink lateFailure).client.table.waiters = [] ∧
      (after {} stuckSink lateFailure).client.table.closed = false ∧
      (after {} stuckSink lateFailure).draft.isNone := by
  decide +kernel

/-- A place is lost as well to an answer that comes before the request fails half way. -/
example : accepted {} { writes := [.atMost 10, .fault ⟨.other, "write"⟩] }
      ([.start .answer 16 [] ⟨0⟩, .dispatch ⟨17, 17, 16, syncWord, [7]⟩, .write] : List (Action Unit)) = [] ∧
    answers (after {} { writes := [.atMost 10, .fault ⟨.other, "write"⟩] }
      ([.start .answer 16 [] ⟨0⟩, .dispatch ⟨17, 17, 16, syncWord, [7]⟩, .write] :
        List (Action Unit))).log = [1] := by
  decide +kernel

end Run

end Wwan
