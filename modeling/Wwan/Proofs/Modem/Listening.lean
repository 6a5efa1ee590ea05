import Wwan.Modem.BringUp
import Wwan.Proofs.Client.Hearing
import Wwan.Proofs.Modem.Thread

/-!
# Listening to confirmations

Confirmations of the mode wait in the queue of notices until the handlers come to them, and count from when
they are listened to.  `Awaits` and `Listens` say which notices can still be heard and that none of them is
lost: what was heard and what waits make up what has come since, in its order.  `Thread.Shut` says that
nothing is listened to any more when a thread is over, whatever has happened meanwhile
(`Thread.handler?_of_ended`).
-/

namespace Wwan

/-- The confirmations of the mode among some messages. -/
def confirmations (ms : List Message) : List Message :=
  ms.filter fun m => m.command = NoticeId.modeSet.code

theorem confirmations_append (ms ms' : List Message) :
    confirmations (ms ++ ms') = confirmations ms ++ confirmations ms' :=
  List.filter_append ms ms'

/-- Whether an action leaves it alone who listens to confirmations. -/
def Action.SparesModeSet : Action NoticeId → Prop
  | .register command id => command ≠ NoticeId.modeSet.code ∧ id ≠ .modeSet
  | .unregister command => command ≠ NoticeId.modeSet.code
  | _ => True

theorem Client.handlers_handleNext {H : Type} (c : Client H) : c.handleNext.handlers = c.handlers := by
  rcases hnotices : c.notices with _ | ⟨m, rest⟩
  · rw [handleNext, hnotices]
  · rw [handleNext_cons hnotices]

namespace Run

variable {r₀ r₁ r r' : Run NoticeId} {a : Action NoticeId}

/-- Whoever does not care for confirmations does not change who listens to them. -/
theorem handler?_step_of_spares (r : Run NoticeId) (ha : a.SparesModeSet) :
    (r.step a).client.handler? NoticeId.modeSet.code = r.client.handler? NoticeId.modeSet.code := by
  cases a with
  | handle => exact Client.handler?_congr r.client.handlers_handleNext _
  | register command id => exact (Client.handler?_register command id r.client _).trans (if_neg ha.1.symm)
  | unregister command => exact (Client.handler?_unregister command r.client _).trans (if_neg (Ne.symm ha))
  | _ => exact Client.handler?_congr (r.hears_step rfl).handlers_eq _

/-- Only the command of confirmations has their handler. -/
def Tuned (r : Run NoticeId) : Prop :=
  ∀ command, r.client.handler? command = some .modeSet → command = NoticeId.modeSet.code

theorem Tuned.hears {ms : List Message} (h : r.Tuned) (hhears : Hears r r' ms) : r'.Tuned :=
  fun command hcommand => h command ((Client.handler?_congr hhears.handlers_eq command).symm.trans hcommand)

theorem Tuned.step (h : r.Tuned) (ha : ∀ command, a = .register command .modeSet → command = NoticeId.modeSet.code) :
    (r.step a).Tuned := by
  cases a with
  | handle =>
    exact fun command hcommand =>
      h command ((Client.handler?_congr r.client.handlers_handleNext command).symm.trans hcommand)
  | register command' id =>
    intro command hcommand
    have hcommand' : (r.client.register command' id).2.handler? command = some .modeSet := hcommand
    rw [Client.handler?_register] at hcommand'
    split at hcommand'
    · next hsame =>
      rw [hsame]
      exact ha command' (by rw [Option.some.inj hcommand'])
    · exact h command hcommand'
  | unregister command' =>
    intro command hcommand
    have hcommand' : (r.client.unregister command').2.handler? command = some .modeSet := hcommand
    rw [Client.handler?_unregister] at hcommand'
    split at hcommand'
    · cases hcommand'
    · exact h command hcommand'
  | _ => exact h.hears (r.hears_step rfl)

theorem tuned_after (config : ClientConfig) (sink : Sink) {past : List (Action NoticeId)}
    (hpast : ∀ command, .register command .modeSet ∈ past → command = NoticeId.modeSet.code) :
    (after config sink past).Tuned := by
  induction past using List.reverseRecOn with
  | nil =>
    intro command h
    cases h
  | append_singleton past a ih =>
    rw [after_append_singleton]
    refine (ih fun command hmem => hpast command (List.mem_append_left _ hmem)).step ?_
    rintro command rfl
    exact hpast command List.mem_concat_self

/-! ## Notices since then -/

/-- The notices that waited for a handler in `r₀`, and those that have come since. -/
def noticesSince (r₀ r : Run NoticeId) : List Message :=
  r₀.client.notices ++ (unasked r.log).drop (unasked r₀.log).length

theorem noticesSince_of_log_eq (hlog : r.log = r₀.log) : noticesSince r₀ r = r₀.client.notices := by
  rw [noticesSince, hlog, List.drop_length, List.append_nil]

theorem length_unasked_le (h : r₀.log <+: r.log) : (unasked r₀.log).length ≤ (unasked r.log).length := by
  obtain ⟨more, hlog⟩ := h
  rw [← hlog, unasked_append, List.length_append]
  exact Nat.le_add_right _ _

theorem Hears.noticesSince_eq {ms : List Message} (hhears : Hears r r' ms) (hgrows : r₀.log <+: r.log) :
    noticesSince r₀ r' = noticesSince r₀ r ++ ms := by
  rw [noticesSince, hhears.unasked_eq, List.drop_append_of_le_length (length_unasked_le hgrows), noticesSince,
    List.append_assoc]

/-- What has come by then has come by now. -/
theorem noticesSince_subset (hgrows : r.log <+: r'.log) : noticesSince r₀ r ⊆ noticesSince r₀ r' := by
  obtain ⟨more, hlog⟩ := hgrows
  rw [noticesSince, noticesSince, ← hlog, unasked_append]
  intro m hm
  obtain hm | hm := List.mem_append.mp hm
  · exact List.mem_append_left _ hm
  · refine List.mem_append_right _ ?_
    rw [List.drop_append]
    exact List.mem_append_left _ hm

/-- What a record begins with is in front of an event that is not in it. -/
theorem prefix_of_not_mem {log before behind : List Event} {e : Event} (h : log <+: before ++ e :: behind)
    (hfresh : e ∉ log) : log <+: before := by
  obtain hbefore | ⟨more, rfl⟩ := List.prefix_or_prefix_of_prefix h (List.prefix_append before (e :: behind))
  · exact hbefore
  · rw [List.prefix_append_right_inj] at h
    cases more with
    | nil => rw [List.append_nil]
    | cons e' more =>
      obtain ⟨rfl, -⟩ := List.cons_prefix_cons.mp h
      exact absurd (List.mem_append_right _ List.mem_cons_self) hfresh

/-- What has come behind an event has come since any time before it. -/
theorem mem_noticesSince (hgrows : r₀.log <+: r.log) {before behind : List Event} {e : Event}
    (hlog : r.log = before ++ e :: behind) (hfresh : e ∉ r₀.log) {m : Message} (hm : m ∈ unasked behind) :
    m ∈ noticesSince r₀ r := by
  rw [hlog] at hgrows
  obtain ⟨more, rfl⟩ := prefix_of_not_mem hgrows hfresh
  have hsplit : r.log = r₀.log ++ (more ++ [e] ++ behind) := by
    rw [hlog]
    simp
  refine List.mem_append_right _ ?_
  rw [hsplit, unasked_append, List.drop_left, unasked_append]
  exact List.mem_append_right _ hm

/-! ## Before and while it is listened -/

/-- What can still be heard was waiting in `r₀`, or has come since. -/
structure Awaits (r₀ r : Run NoticeId) : Prop where
  tuned : r.Tuned
  log_grows : r₀.log <+: r.log
  notices : r.client.notices ⊆ noticesSince r₀ r

theorem Awaits.refl (h : r.Tuned) : Awaits r r where
  tuned := h
  log_grows := List.prefix_rfl
  notices := by
    rw [noticesSince_of_log_eq rfl]
    exact List.Subset.refl _

/-- What can be heard from then on can be heard from earlier on. -/
theorem Awaits.noticesSince_subset (h : Awaits r₀ r₁) (hgrows : r₁.log <+: r.log) :
    noticesSince r₁ r ⊆ noticesSince r₀ r := by
  intro m hm
  obtain hm | hm := List.mem_append.mp hm
  · exact Run.noticesSince_subset hgrows (h.notices hm)
  · exact List.mem_append_right _ (List.drop_subset_drop_left _ (length_unasked_le h.log_grows) hm)

theorem Awaits.hears {ms : List Message} (h : Awaits r₀ r) (hgrows : r.log <+: r'.log) (hhears : Hears r r' ms) :
    Awaits r₀ r' where
  tuned := h.tuned.hears hhears
  log_grows := h.log_grows.trans hgrows
  notices := by
    rw [hhears.notices_eq, hhears.noticesSince_eq h.log_grows]
    exact fun m hm => List.mem_append.mpr ((List.mem_append.mp hm).imp_left fun hm => h.notices hm)

theorem Awaits.step (h : Awaits r₀ r)
    (ha : ∀ command, a = .register command .modeSet → command = NoticeId.modeSet.code) : Awaits r₀ (r.step a) := by
  have hgrows := Move.log_prefix (move_step r a)
  have htuned := h.tuned.step ha
  cases a with
  | handle =>
    refine ⟨htuned, h.log_grows, ?_⟩
    show r.client.handleNext.notices ⊆ noticesSince r₀ r
    rcases hnotices : r.client.notices with _ | ⟨m, rest⟩
    · rw [Client.handleNext, hnotices]
      exact h.notices
    · rw [Client.handleNext_cons hnotices]
      exact fun m' hm' => h.notices (hnotices ▸ List.mem_cons_of_mem m hm')
  | register command id => exact ⟨htuned, h.log_grows, h.notices⟩
  | unregister command => exact ⟨htuned, h.log_grows, h.notices⟩
  | _ => exact h.hears hgrows (r.hears_step rfl)

/-- It has been listened since `r₁`, and no confirmation was lost: those that were heard since and those that
wait are those that waited then and those that have come since. -/
structure Listens (r₁ r : Run NoticeId) : Prop where
  tuned : r.Tuned
  log_grows : r₁.log <+: r.log
  handler : r.client.handler? NoticeId.modeSet.code = some .modeSet
  length_le : (confirmed r₁.client.handled).length ≤ (confirmed r.client.handled).length
  heard_eq : (confirmed r.client.handled).drop (confirmed r₁.client.handled).length
    ++ (confirmations r.client.notices).map Message.body = (confirmations (noticesSince r₁ r)).map Message.body

theorem Listens.refl (h : r.Tuned) (hhandler : r.client.handler? NoticeId.modeSet.code = some .modeSet) :
    Listens r r where
  tuned := h
  log_grows := List.prefix_rfl
  handler := hhandler
  length_le := Nat.le_refl _
  heard_eq := by rw [noticesSince_of_log_eq rfl, List.drop_length, List.nil_append]

/-- The handler of confirmations hears them, and nothing else. -/
theorem confirmed_of_handler (h : r.Tuned) (hhandler : r.client.handler? NoticeId.modeSet.code = some .modeSet)
    (m : Message) : confirmed ((r.client.handler? m.command).map fun id => (id, m)).toList
      = (confirmations [m]).map Message.body := by
  by_cases hm : m.command = NoticeId.modeSet.code
  · rw [hm, hhandler, confirmations, List.filter_cons_of_pos (by simpa using hm)]
    rfl
  · rw [confirmations, List.filter_cons_of_neg (by simpa using hm)]
    rcases hid : r.client.handler? m.command with _ | id
    · rfl
    · cases id with
      | modeSet => exact absurd (h m.command hid) hm
      | _ => rfl

theorem Listens.handle (h : Listens r₁ r) : Listens r₁ (r.step .handle) := by
  rcases hnotices : r.client.notices with _ | ⟨m, rest⟩
  · have hidle : r.step .handle = r := by
      rw [step, Client.handleNext, hnotices]
    rw [hidle]
    exact h
  have hclient : (r.step .handle).client = r.client.handleNext := rfl
  rw [Client.handleNext_cons hnotices] at hclient
  have hconfirmed : confirmed (r.step .handle).client.handled
      = confirmed r.client.handled ++ (confirmations [m]).map Message.body := by
    rw [hclient, confirmed_append, confirmed_of_handler h.tuned h.handler]
  have hsplit : (confirmations r.client.notices).map Message.body
      = (confirmations [m]).map Message.body ++ (confirmations rest).map Message.body := by
    rw [hnotices, ← List.map_append, ← confirmations_append]
    rfl
  refine ⟨h.tuned.step (by simp), h.log_grows, ?_, ?_, ?_⟩
  · rw [hclient]
    exact h.handler
  · rw [hconfirmed, List.length_append]
    exact h.length_le.trans (Nat.le_add_right _ _)
  · have hheard := h.heard_eq
    rw [hsplit, ← List.append_assoc, ← List.drop_append_of_le_length h.length_le, ← hconfirmed] at hheard
    rw [show (r.step .handle).client.notices = rest by rw [hclient]]
    exact hheard

theorem Listens.hears {ms : List Message} (h : Listens r₁ r) (hgrows : r.log <+: r'.log) (hhears : Hears r r' ms) :
    Listens r₁ r' where
  tuned := h.tuned.hears hhears
  log_grows := h.log_grows.trans hgrows
  handler := (Client.handler?_congr hhears.handlers_eq _).trans h.handler
  length_le := by
    rw [hhears.handled_eq]
    exact h.length_le
  heard_eq := by
    rw [hhears.handled_eq, hhears.notices_eq, hhears.noticesSince_eq h.log_grows, confirmations_append,
      confirmations_append, List.map_append, List.map_append, ← List.append_assoc, h.heard_eq]

theorem Listens.step (h : Listens r₁ r) (ha : a.SparesModeSet) : Listens r₁ (r.step a) := by
  have hhandler : (r.step a).client.handler? NoticeId.modeSet.code = some .modeSet :=
    (r.handler?_step_of_spares ha).trans h.handler
  have htuned : (r.step a).Tuned := by
    refine h.tuned.step ?_
    rintro command rfl
    exact absurd rfl ha.2
  have hgrows := Move.log_prefix (move_step r a)
  cases a with
  | handle => exact h.handle
  | register command id => exact ⟨htuned, h.log_grows, hhandler, h.length_le, h.heard_eq⟩
  | unregister command => exact ⟨htuned, h.log_grows, hhandler, h.length_le, h.heard_eq⟩
  | _ => exact h.hears hgrows (r.hears_step rfl)

/-- What is heard is a confirmation that waited then or has come since. -/
theorem Listens.mem_of_heard (h : Listens r₁ r) {body : Bytes}
    (hheard : (confirmed r.client.handled)[(confirmed r₁.client.handled).length]? = some body) :
    ∃ m ∈ confirmations (noticesSince r₁ r), m.body = body := by
  have hmem : body ∈ (confirmed r.client.handled).drop (confirmed r₁.client.handled).length := by
    refine List.mem_of_getElem? (i := 0) ?_
    rw [List.getElem?_drop]
    exact hheard
  exact List.mem_map.mp (h.heard_eq ▸ List.mem_append_left _ hmem)

/-- When no notice waits any more, one of those that have come was heard. -/
theorem Listens.exists_heard (h : Listens r₁ r) (hnotices : r.client.notices = []) {m : Message}
    (hm : m ∈ confirmations (noticesSince r₁ r)) :
    ∃ body, (confirmed r.client.handled)[(confirmed r₁.client.handled).length]? = some body := by
  have hheard := h.heard_eq
  rw [hnotices] at hheard
  have hmem := List.mem_map_of_mem (f := Message.body) hm
  rw [← hheard] at hmem
  have hmem' : m.body ∈ (confirmed r.client.handled).drop (confirmed r₁.client.handled).length :=
    (List.mem_append.mp hmem).resolve_right List.not_mem_nil
  have hpos := List.length_pos_of_mem hmem'
  rw [List.length_drop] at hpos
  exact ⟨_, List.getElem?_eq_getElem (by omega)⟩

end Run

/-! ## When it is listened no more -/

/-- Whatever its acts give, the last thing that a session does is to listen no more. -/
def Session.Closes {α : Type} : Session α → Prop
  | .pure _ => False
  | .act a next => ∀ r, (a = .unlisten ∧ ∃ b, next r = .pure b) ∨ (next r).Closes

theorem Session.closes_bind_unlisten {α : Type} (s : Session α) :
    (s.bind fun r => .act .unlisten fun _ => .pure r).Closes := by
  induction s with
  | pure b => exact fun _ => .inl ⟨rfl, b, rfl⟩
  | act a next ih => exact fun r => .inr (ih r)

/-- Whatever is done while it is listened, it is listened no more afterwards. -/
theorem Procedure.closes_listening {α : Type} (p : Procedure α) : Session.Closes (listening p).run :=
  fun _ => .inr p.run.closes_bind_unlisten

namespace Thread

variable {α : Type} {t t' : Thread α}

/-- A turn leaves the rest of the session as it is, or goes on behind its first act. -/
theorem Move.session_cases {run : Run NoticeId} (hmove : t.Move run t') : t'.session = t.session ∨
    ∃ (a : Act) (r : a.Answer) (next : a.Answer → Session α), t.session = .act a next ∧ t'.session = next r := by
  cases hmove with
  | callRefused e session_eq => exact .inr ⟨_, _, _, session_eq, rfl⟩
  | callReturns session_eq => exact .inr ⟨_, _, _, session_eq, rfl⟩
  | waited r session_eq => exact .inr ⟨_, _, _, session_eq, rfl⟩
  | other r taken session_eq => exact .inr ⟨_, r, _, session_eq, rfl⟩
  | _ => exact .inl rfl

/-- A thread is going to listen no more, or it is over and nobody listens. -/
inductive Shut (t : Thread α) : Prop where
  | later (closes : t.session.Closes)
  | ended (b : α) (session_eq : t.session = .pure b)
      (silent : t.run.client.handler? NoticeId.modeSet.code = none)

/-- A thread that is over does nothing more. -/
theorem step_thread_of_pure {b : α} (hsession : t.session = .pure b) (slice : Span) :
    t.step (.thread slice) = t := by
  simp only [Thread.step, hsession]

theorem step_late_of_pure {b : α} (hsession : t.session = .pure b) : t.step .late = t := by
  simp only [Thread.step, hsession]

/-- Only the thread itself goes on to its end behind its last act, and nobody listens then. -/
theorem shut_of_unlisten {turn : Turn} {next : Act.unlisten.Answer → Session α} {b : α}
    (hsession : t.session = .act .unlisten next) (hover : (t.step turn).session = .pure b) :
    (t.step turn).Shut := by
  cases turn with
  | client a => cases hsession.symm.trans hover
  | late =>
    have hidle : t.step .late = t := by simp only [Thread.step, hsession]
    rw [hidle] at hover
    cases hsession.symm.trans hover
  | thread slice =>
    refine .ended b hover ?_
    simp only [Thread.step, hsession, finish]
    exact (Client.handler?_unregister _ t.run.client _).trans (if_pos rfl)

theorem Shut.step (h : t.Shut) {turn : Turn} (hturn : ∀ a, turn = .client a → a.SparesModeSet) :
    (t.step turn).Shut := by
  cases h with
  | ended b session_eq silent =>
    cases turn with
    | client a => exact .ended b session_eq ((t.run.handler?_step_of_spares (hturn a rfl)).trans silent)
    | thread slice =>
      rw [step_thread_of_pure session_eq]
      exact .ended b session_eq silent
    | late =>
      rw [step_late_of_pure session_eq]
      exact .ended b session_eq silent
  | later closes =>
    obtain hsame | ⟨a, r, next, hsession, hnext⟩ := (t.move_step turn).session_cases
    · refine .later ?_
      rw [hsame]
      exact closes
    rw [hsession] at closes
    obtain ⟨rfl, b, hb⟩ | hrest := closes r
    · exact shut_of_unlisten hsession (hnext.trans hb)
    · refine .later ?_
      rw [hnext]
      exact hrest

theorem Shut.play (h : t.Shut) {turns : List Turn} (hturns : ∀ a, .client a ∈ turns → a.SparesModeSet) :
    (t.play turns).Shut := by
  induction turns generalizing t with
  | nil => exact h
  | cons turn turns ih =>
    refine ih (h.step fun a ha => hturns a (ha ▸ List.mem_cons_self)) ?_
    exact fun a ha => hturns a (List.mem_cons_of_mem turn ha)

/-- When a thread that has listened is over, nobody listens, whatever has happened meanwhile. -/
theorem handler?_of_ended (h : t.Shut) {b : α} (hsession : t.session = .pure b) :
    t.run.client.handler? NoticeId.modeSet.code = none := by
  cases h with
  | later closes =>
    rw [hsession] at closes
    exact closes.elim
  | ended _ _ silent => exact silent

end Thread

end Wwan
