import Wwan.Proofs.Client.Run

/-!
# Plain steps

Most steps of a run dispatch no message, begin no transaction and have nothing to do with handlers.  What
they keep is said once: the handlers and the notices, the cursor behind which a number is sought, and a
record that goes on with plain events only (`Run.Plain`).
-/

namespace Wwan

variable {H : Type}

/-- Whether an event is neither an arrival nor the beginning of a transaction. -/
def Event.isPlain : Event → Bool
  | .arrived _ _ _ _ => false
  | .started _ ticket => ticket.number?.isNone
  | .refused _ | .written _ _ | .unwritten _ | .expired _ | .withdrawn _ | .returned _ _ | .closed => true

namespace Table

theorem cursor_retract (k : Call) (t : Table) : (k.retract t).cursor = t.cursor := by
  unfold Call.retract
  cases k.ticket <;> rfl

theorem cursor_withdraw (k : Call) (t : Table) : (k.withdraw t).cursor = t.cursor := by
  unfold Call.withdraw
  cases k.ticket <;> rfl

end Table

namespace Run

/-- What a plain step keeps. -/
structure Plain (r r' : Run H) : Prop where
  handlers_eq : r'.client.handlers = r.client.handlers
  handled_eq : r'.client.handled = r.client.handled
  notices_eq : r'.client.notices = r.client.notices
  cursor_eq : r'.client.table.cursor = r.client.table.cursor
  log_eq : ∃ events, r'.log = r.log ++ events ∧ ∀ e ∈ events, e.isPlain = true

theorem Plain.refl (r : Run H) : Plain r r :=
  ⟨rfl, rfl, rfl, rfl, [], (List.append_nil _).symm, by simp⟩

theorem plain_write (r : Run H) : Plain r r.write := by
  unfold write
  cases r.draft with
  | none => exact .refl r
  | some draft =>
    obtain ⟨token, request⟩ := draft
    rcases hsend : Outbox.send r.client.config.maxMessage request r.sink with ⟨e | _, sink⟩ <;> simp only [hsend]
    · have hlog : ∀ e' ∈ [Event.unwritten token, .returned token (.error e)], e'.isPlain = true := by
        simp [Event.isPlain]
      unfold Client.unsent
      cases r.client.call? token with
      | none => exact ⟨rfl, rfl, rfl, rfl, _, rfl, hlog⟩
      | some k => exact ⟨rfl, rfl, rfl, Table.cursor_retract k _, _, rfl, hlog⟩
    · exact ⟨rfl, rfl, rfl, rfl, [.written token request], rfl, by simp [Event.isPlain]⟩

theorem plain_observe (timeout : Span) (r : Run H) : Plain r (r.observe timeout) := by
  unfold observe Client.observe
  by_cases hclosed : r.client.table.closed
  · rw [if_pos hclosed]
    exact ⟨rfl, rfl, rfl, rfl, [.refused .channelClosed], rfl, by simp [Event.isPlain]⟩
  · rw [if_neg hclosed]
    exact ⟨rfl, rfl, rfl, rfl, [.started _ .observation], rfl, by simp [Event.isPlain, Ticket.number?]⟩

theorem plain_expire (token : Nat) (r : Run H) : Plain r (r.expire token) := by
  unfold expire Client.expire
  cases hcall : r.client.call? token with
  | none => exact .refl r
  | some k =>
    by_cases hwait : k.phase = .waiting ∧ (k.outcome? r.client.table).isNone
    · simp only [if_pos hwait]
      exact ⟨rfl, rfl, rfl, rfl, [.expired token], rfl, by simp [Event.isPlain]⟩
    · simp only [if_neg hwait]
      exact .refl r

theorem plain_settle (token : Nat) (r : Run H) : Plain r (r.settle token) := by
  unfold settle Client.settle
  cases hcall : r.client.call? token with
  | none => exact .refl r
  | some k =>
    by_cases hphase : k.phase = .expired
    · simp only [if_pos hphase]
      exact ⟨rfl, rfl, rfl, Table.cursor_withdraw k _, [.withdrawn token], rfl, by simp [Event.isPlain]⟩
    · simp only [if_neg hphase]
      exact .refl r

theorem plain_collect (token : Nat) (r : Run H) : Plain r (r.collect token) := by
  unfold collect Client.collect
  cases hresult : (r.client.call? token).bind fun k => k.outcome? r.client.table with
  | none => exact .refl r
  | some result => exact ⟨rfl, rfl, rfl, rfl, [.returned token result], rfl, by simp [Event.isPlain]⟩

theorem plain_close (r : Run H) : Plain r r.close :=
  ⟨rfl, rfl, rfl, rfl, [.closed], rfl, by simp [Event.isPlain]⟩

end Run

/-- Whether an action is a plain step, whatever the run. -/
def Action.isPlain : Action H → Bool
  | .write | .observe _ | .expire _ | .settle _ | .collect _ | .close => true
  | .start _ _ _ _ | .dispatch _ | .handle | .register _ _ | .unregister _ => false

theorem Run.plain_step (r : Run H) {a : Action H} (h : a.isPlain = true) : Plain r (r.step a) := by
  cases a with
  | write => exact r.plain_write
  | observe timeout => exact r.plain_observe timeout
  | expire token => exact r.plain_expire token
  | settle token => exact r.plain_settle token
  | collect token => exact r.plain_collect token
  | close => exact r.plain_close
  | start p command body timeout => cases h
  | dispatch m => cases h
  | handle => cases h
  | register command handler => cases h
  | unregister command => cases h

end Wwan
