import Wwan.Proofs.Client.Posted
import Wwan.Proofs.Client.Transactions

/-!
# What a transaction returns when all goes well

A request is written, or it cannot be written and its call has returned by then (`Run.Foiled`), but never
both.  So a transaction whose request was written, and for which both messages came before its wait was over
(`Served`), returns what the second message makes it return and nothing else (`Served.result_eq`), and it does
so when it is asked to (`Served.returns`).
-/

namespace Wwan

variable {H : Type}

namespace Run

/-- Nothing was written for a call whose request could not be written, and the call has returned. -/
def Foiled (r : Run H) : Prop :=
  ∀ token, .unwritten token ∈ r.log → sentFor token r.log = [] ∧ ∃ result, .returned token result ∈ r.log

variable {r r' : Run H}

/-- A step in which no request is written, and none fails to be. -/
theorem Foiled.of_silent (h : r.Foiled) (events : List Event) (hlog : r'.log = r.log ++ events)
    (hsilent : ∀ e ∈ events, e.isSilent = true) (hnone : ∀ token, .unwritten token ∉ events) : r'.Foiled := by
  intro token hmem
  rw [hlog, List.mem_append] at hmem
  obtain ⟨hnothing, result, hreturned⟩ := h token (hmem.resolve_right (hnone token))
  rw [hlog, sentFor_append, hnothing, sentFor_of_silent hsilent]
  exact ⟨rfl, result, List.mem_append_left _ hreturned⟩

theorem Foiled.not_mem_of_written (h : r.Foiled) {token : Nat} {request : Request}
    (hwritten : .written token request ∈ r.log) : .unwritten token ∉ r.log := by
  intro hmem
  have hsent := mem_sentFor.mpr hwritten
  rw [(h token hmem).1] at hsent
  cases hsent

end Run

theorem Move.foiled {r r' : Run H} (hmove : Move r r') (hl : r.Ledger) (hp : r.Posted) (h : r.Foiled) :
    r'.Foiled := by
  cases hmove with
  | idle => exact h
  | @written token request sink draft_eq send_eq =>
    intro token' hmem
    obtain hmem | hmem := List.mem_append.mp hmem
    · -- a call that has returned does not have the writer any more
      obtain ⟨hnothing, result, hreturned⟩ := h token' hmem
      obtain ⟨k, hk, rfl, -⟩ := hl.drafted token request draft_eq
      have hne : k.token ≠ token' := hl.ne_of_returned hreturned hk
      refine ⟨?_, result, List.mem_append_left _ hreturned⟩
      show sentFor token' (r.log ++ [.written k.token request]) = []
      rw [sentFor_append, hnothing]
      simp [sentFor, hne]
    · cases List.mem_singleton.mp hmem
  | @unwritten token request sink e draft_eq send_eq =>
    intro token' hmem
    have hsilent : ∀ e' ∈ [Event.unwritten token, .returned token (.error e)], e'.isSilent = true := by
      simp [Event.isSilent]
    show sentFor token' (r.log ++ [.unwritten token, .returned token (.error e)]) = [] ∧ _
    rw [sentFor_append, sentFor_of_silent hsilent, List.append_nil]
    obtain hmem | hmem := List.mem_append.mp hmem
    · obtain ⟨hnothing, result, hreturned⟩ := h token' hmem
      exact ⟨hnothing, result, List.mem_append_left _ hreturned⟩
    · obtain rfl : token' = token := by simpa using hmem
      exact ⟨hp.drafted token' request draft_eq, .error e, List.mem_append_right _ (by simp)⟩
  | dispatch m => exact h.of_silent [.arrived m _ _ _] rfl (by simp [Event.isSilent]) (by simp)
  | close => exact h.of_silent [.closed] rfl (by simp [Event.isSilent]) (by simp)
  | _ => exact h.of_silent [_] rfl (by simp [Event.isSilent]) (by simp)

/-- In every run nothing is written for a call that has failed to send its request. -/
theorem Run.foiled_after (config : ClientConfig) (sink : Sink) (actions : List (Action H)) :
    (after config sink actions).Foiled := by
  refine after_induction (P := Run.Foiled) ?_ (fun past r' hmove h => ?_) actions
  · intro token hmem
    cases hmem
  · exact hmove.foiled (ledger_after config sink past) (posted_after config sink past) h

/-! ## Transactions that are served -/

/-- Where a transaction was handed the second message for it. -/
theorem Turns.second_of_course {log : List Event} (h : Turns log) {token : Nat} {id : UInt8} {m₁ m₂ : Message}
    (hcourse : course token log = .finished id [m₁, m₂]) : ∃ before entry rest m,
      log = before ++ .arrived m₂ (.transaction id) entry (some token) :: rest ∧
        course token before = .underway id [m] := by
  obtain ⟨entry, hmem⟩ := h.handed_of_course hcourse
  obtain ⟨before, rest, hlog⟩ := List.append_of_mem hmem
  obtain ⟨m, hunderway⟩ := (h before _ rest hlog m₂ _ entry _ rfl).second token id rfl rfl
  exact ⟨before, entry, rest, m, hlog, hunderway⟩

/-- The request of a transaction was written and both messages for it came, before its wait was over; the
second one makes it return `result`. -/
structure Served (log : List Event) (token : Nat) (result : Except CallError Reply) : Prop where
  written : ∃ request, .written token request ∈ log
  finished : ∃ id ack completion, course token log = .finished id [ack, completion] ∧
    completion.conclusion id = result
  unexpired : .expired token ∉ log

namespace Served

variable {token : Nat} {result : Except CallError Reply}

theorem append {log events : List Event} (h : Served log token result) (hevents : .expired token ∉ events) :
    Served (log ++ events) token result where
  written := h.written.imp fun _ hwritten => List.mem_append_left _ hwritten
  finished := by
    obtain ⟨id, ack, completion, hcourse, hresult⟩ := h.finished
    exact ⟨id, ack, completion, course_append_of_finished hcourse events, hresult⟩
  unexpired hmem := (List.mem_append.mp hmem).elim h.unexpired hevents

variable {config : ClientConfig} {sink : Sink} {actions : List (Action H)}

/-- A transaction that is served returns what the second message makes it return. -/
theorem result_eq (h : Served (Run.after config sink actions).log token result)
    {result' : Except CallError Reply} (hreturned : .returned token result' ∈ (Run.after config sink actions).log) :
    result' = result := by
  obtain ⟨request, hwritten⟩ := h.written
  obtain ⟨id, ack, completion, hcourse, rfl⟩ := h.finished
  have hturns := (Run.tracked_after config sink actions).turns
  obtain ⟨before, entry, rest, m, hlog, hunderway⟩ := hturns.second_of_course hcourse
  obtain hresult | ⟨hexpired, -⟩ | ⟨hunwritten, -⟩ := (Run.ledger_after config sink actions).concluded
    (Run.timely_after config sink actions) hturns hlog hunderway hreturned
  · exact hresult
  · refine absurd ?_ h.unexpired
    rw [hlog]
    exact List.mem_append_left _ hexpired
  · exact absurd hunwritten ((Run.foiled_after config sink actions).not_mem_of_written hwritten)

/-- A transaction that is served has returned once it was asked to. -/
theorem returns (h : Served (Run.after config sink actions).log token result) :
    ∃ result', .returned token result' ∈ ((Run.after config sink actions).step (.collect token)).log := by
  obtain ⟨request, hwritten⟩ := h.written
  obtain ⟨id, ack, completion, hcourse, rfl⟩ := h.finished
  have hturns := (Run.tracked_after config sink actions).turns
  have hgrows := Move.log_prefix (Run.move_step (Run.after config sink actions) (.collect token))
  obtain ⟨before, entry, rest, m, hlog, hunderway⟩ := hturns.second_of_course hcourse
  obtain hexpired | ⟨result', hreturned⟩ | hwriter | hcollected := (Run.ledger_after config sink actions).returns
    (Run.consistent_after config sink actions) (Run.timely_after config sink actions) hturns hlog hunderway
  · refine absurd ?_ h.unexpired
    rw [hlog]
    exact List.mem_append_left _ hexpired
  · exact ⟨result', hgrows.subset hreturned⟩
  · -- who has the writer has written nothing yet
    obtain ⟨⟨_, draft⟩, hdraft, rfl⟩ := Option.map_eq_some_iff.mp hwriter
    have hnothing := (Run.posted_after config sink actions).drafted _ _ hdraft
    exact absurd (hnothing ▸ mem_sentFor.mpr hwritten) List.not_mem_nil
  · exact ⟨_, hcollected⟩

end Served

end Wwan
