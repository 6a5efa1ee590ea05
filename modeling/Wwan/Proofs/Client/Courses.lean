import Wwan.Proofs.Client.Ledger

/-!
# The course of a transaction

The record tells for each transaction whether it is in progress and which messages for its number have
been dispatched since it began (`course`).  The table has an entry for a transaction exactly while it is
in progress, and the entry is acknowledged exactly when one message has been dispatched
(`Run.Tracked.entry_iff`).  What messages do to transactions follows: the first is handed to nobody, the
second to the call, and no other message changes anything (`Turn`).
-/

namespace Wwan

variable {H : Type}

/-! ## Reading a course off the record -/

namespace Course

/-- The number of a transaction that has begun, and the messages for it. -/
def told? : Course → Option (UInt8 × List Message)
  | .ahead => none
  | .underway id heard | .finished id heard => some (id, heard)

/-- An event of which no transaction takes notice. -/
def isInert : Event → Bool
  | .refused _ | .written _ _ | .expired _ | .returned _ _ => true
  | .started _ ticket => ticket.number?.isNone
  | .unwritten _ | .withdrawn _ | .arrived _ _ _ _ | .closed => false

theorem next_of_isInert {e : Event} (h : isInert e) (token : Nat) (c : Course) :
    c.next token e = c := by
  cases e with
  | started token' ticket =>
    cases ticket with
    | transaction id => cases h
    | _ => cases c <;> rfl
  | unwritten | withdrawn | arrived | closed => cases h
  | _ => cases c <;> rfl

theorem next_finished (token : Nat) (id : UInt8) (heard : List Message) (e : Event) :
    (Course.finished id heard).next token e = .finished id heard := by
  cases e <;> rfl

theorem next_arrived (token : Nat) (id : UInt8) (heard : List Message) (m : Message)
    (kind : Message.Kind) (entry receiver : Option Nat) :
    (Course.underway id heard).next token (.arrived m kind entry receiver)
      = if receiver = some token
        then .finished id (if kind = .transaction id then heard ++ [m] else heard)
        else .underway id (if kind = .transaction id then heard ++ [m] else heard) := rfl

/-- A course that is in progress after an event has begun with it, or was in progress before it. -/
theorem of_next_eq_underway {token : Nat} {c : Course} {e : Event} {id : UInt8} {heard : List Message}
    (h : c.next token e = .underway id heard) :
    (c = .ahead ∧ e = .started token (.transaction id) ∧ heard = []) ∨
    ∃ heard₀, c = .underway id heard₀ ∧ (heard = heard₀ ∨ ∃ m entry receiver,
      e = .arrived m (.transaction id) entry receiver ∧ receiver ≠ some token ∧
        heard = heard₀ ++ [m]) := by
  cases c with
  | ahead =>
    rcases e with _ | ⟨token', _ | _ | id' | _⟩ | _ | _ | _ | _ | _ | _ | _ <;> try cases h
    rw [next] at h
    split at h
    · next htoken =>
      cases h
      exact .inl ⟨rfl, by rw [htoken], rfl⟩
    · cases h
  | finished id' heard' =>
    rw [next_finished] at h
    cases h
  | underway id' heard' =>
    right
    cases e with
    | arrived m kind entry receiver =>
      rw [next_arrived] at h
      by_cases hr : receiver = some token
      · rw [if_pos hr] at h
        cases h
      rw [if_neg hr] at h
      obtain ⟨rfl, rfl⟩ := Course.underway.inj h
      refine ⟨heard', rfl, ?_⟩
      by_cases hkind : kind = .transaction id'
      · subst hkind
        exact .inr ⟨m, entry, receiver, rfl, hr, if_pos rfl⟩
      · exact .inl (if_neg hkind)
    | withdrawn token' | unwritten token' =>
      rw [next] at h
      split at h
      · cases h
      · cases h
        exact ⟨heard, rfl, .inl rfl⟩
    | closed => cases h
    | started token' ticket =>
      cases h
      exact ⟨heard, rfl, .inl rfl⟩
    | _ =>
      cases h
      exact ⟨heard, rfl, .inl rfl⟩

/-- A course that is over after an event was over before it, or has ended with it. -/
theorem of_next_eq_finished {token : Nat} {c : Course} {e : Event} {id : UInt8} {heard : List Message}
    (h : c.next token e = .finished id heard) :
    c = .finished id heard ∨ ∃ heard₀, c = .underway id heard₀ ∧ (heard = heard₀ ∨ ∃ m entry,
      e = .arrived m (.transaction id) entry (some token) ∧ heard = heard₀ ++ [m]) := by
  cases c with
  | ahead =>
    rcases e with _ | ⟨token', _ | _ | id' | _⟩ | _ | _ | _ | _ | _ | _ | _ <;> try cases h
    rw [next] at h
    split at h <;> cases h
  | finished id' heard' =>
    rw [next_finished] at h
    exact .inl h
  | underway id' heard' =>
    right
    cases e with
    | arrived m kind entry receiver =>
      rw [next_arrived] at h
      by_cases hr : receiver = some token
      · rw [if_pos hr] at h
        obtain ⟨rfl, rfl⟩ := Course.finished.inj h
        refine ⟨heard', rfl, ?_⟩
        by_cases hkind : kind = .transaction id'
        · subst hkind hr
          exact .inr ⟨m, entry, rfl, if_pos rfl⟩
        · exact .inl (if_neg hkind)
      · rw [if_neg hr] at h
        cases h
    | withdrawn token' | unwritten token' =>
      rw [next] at h
      split at h
      · cases h
        exact ⟨heard, rfl, .inl rfl⟩
      · cases h
    | closed =>
      cases h
      exact ⟨heard, rfl, .inl rfl⟩
    | _ => cases h

end Course

/-- A transaction that is over stays over. -/
theorem course_append_of_finished {token : Nat} {log : List Event} {id : UInt8} {heard : List Message}
    (h : course token log = .finished id heard) (rest : List Event) :
    course token (log ++ rest) = .finished id heard := by
  induction rest using List.reverseRecOn with
  | nil => rwa [List.append_nil]
  | append_singleton rest e ih =>
    rw [← List.append_assoc, course_append_singleton, ih, Course.next_finished]

/-- What the course of a transaction tells has happened. -/
theorem of_told? {token : Nat} {log : List Event} {id : UInt8} {heard : List Message}
    (h : (course token log).told? = some (id, heard)) :
    .started token (.transaction id) ∈ log ∧
      ∀ m ∈ heard, ∃ entry receiver, .arrived m (.transaction id) entry receiver ∈ log := by
  induction log using List.reverseRecOn generalizing heard with
  | nil => cases h
  | append_singleton log e ih =>
    -- the messages that were there before the last event, and the one it may have added
    have hlater : ∀ heard₀, (course token log).told? = some (id, heard₀) →
        .started token (.transaction id) ∈ log ++ [e] ∧
          ∀ m ∈ heard₀, ∃ entry receiver, .arrived m (.transaction id) entry receiver ∈ log ++ [e] := by
      intro heard₀ h₀
      obtain ⟨hstarted, hheard⟩ := ih h₀
      refine ⟨List.mem_append_left _ hstarted, fun m hm => ?_⟩
      obtain ⟨entry, receiver, hmem⟩ := hheard m hm
      exact ⟨entry, receiver, List.mem_append_left _ hmem⟩
    have hone : ∀ heard₀ m entry receiver, (course token log).told? = some (id, heard₀) →
        e = .arrived m (.transaction id) entry receiver → heard = heard₀ ++ [m] →
        .started token (.transaction id) ∈ log ++ [e] ∧
          ∀ m ∈ heard, ∃ entry receiver, .arrived m (.transaction id) entry receiver ∈ log ++ [e] := by
      rintro heard₀ m entry receiver h₀ rfl rfl
      obtain ⟨hstarted, hheard⟩ := hlater heard₀ h₀
      refine ⟨hstarted, fun m' hm' => ?_⟩
      obtain hm' | hm' := List.mem_append.mp hm'
      · exact hheard m' hm'
      · obtain rfl := List.mem_singleton.mp hm'
        exact ⟨entry, receiver, List.mem_append_right _ (List.mem_singleton_self _)⟩
    rcases hcourse : course token (log ++ [e]) with _ | ⟨id', heard'⟩ | ⟨id', heard'⟩ <;>
      rw [hcourse] at h <;> cases h <;> rw [course_append_singleton] at hcourse
    · obtain ⟨-, rfl, rfl⟩ | ⟨heard₀, hc, rfl | ⟨m, entry, receiver, he, -, hheard⟩⟩ :=
        Course.of_next_eq_underway hcourse
      · exact ⟨List.mem_append_right _ (List.mem_singleton_self _), by simp⟩
      · exact hlater _ (by rw [hc]; rfl)
      · exact hone heard₀ m entry receiver (by rw [hc]; rfl) he hheard
    · obtain hc | ⟨heard₀, hc, rfl | ⟨m, entry, he, hheard⟩⟩ := Course.of_next_eq_finished hcourse
      · exact hlater _ (by rw [hc]; rfl)
      · exact hlater _ (by rw [hc]; rfl)
      · exact hone heard₀ m entry _ (by rw [hc]; rfl) he hheard

theorem started_of_underway {token : Nat} {log : List Event} {id : UInt8} {heard : List Message}
    (h : course token log = .underway id heard) : .started token (.transaction id) ∈ log := by
  have htold : (course token log).told? = some (id, heard) := by rw [h, Course.told?]
  exact (of_told? htold).1

theorem started_of_finished {token : Nat} {log : List Event} {id : UInt8} {heard : List Message}
    (h : course token log = .finished id heard) : .started token (.transaction id) ∈ log := by
  have htold : (course token log).told? = some (id, heard) := by rw [h, Course.told?]
  exact (of_told? htold).1

/-! ## What messages do to transactions -/

/-- What a message does to the transactions in progress. -/
structure Turn (before : List Event) (m : Message) (kind : Message.Kind) (entry receiver : Option Nat) :
    Prop where
  /-- The first message for a number is handed to nobody, the second to the call. -/
  matched : ∀ token id heard, course token before = .underway id heard → kind = .transaction id →
    entry = some token ∧ receiver = if heard = [] then none else some token
  /-- No other message is handed to the call. -/
  only : ∀ token id heard, course token before = .underway id heard → receiver = some token →
    kind = .transaction id
  /-- A message for a number that is handed to a call is the second for it. -/
  second : ∀ token id, kind = .transaction id → receiver = some token →
    ∃ m₁, course token before = .underway id [m₁]

namespace Turn

variable {before : List Event} {m : Message} {kind : Message.Kind} {entry receiver : Option Nat}
  {token : Nat} {id : UInt8}

/-- A message that is not for its number does nothing to a transaction. -/
theorem next_of_ne {heard : List Message} (h : Turn before m kind entry receiver)
    (hc : course token before = .underway id heard) (hkind : kind ≠ .transaction id) :
    (course token before).next token (.arrived m kind entry receiver) = .underway id heard := by
  rw [hc, Course.next_arrived, if_neg fun hr => hkind (h.only token id heard hc hr), if_neg hkind]

/-- The first message for its number is noted down. -/
theorem next_first (h : Turn before m (.transaction id) entry receiver)
    (hc : course token before = .underway id []) :
    (course token before).next token (.arrived m (.transaction id) entry receiver)
      = .underway id [m] := by
  obtain ⟨-, hreceiver⟩ := h.matched token id [] hc rfl
  rw [hc, Course.next_arrived, hreceiver, if_pos rfl, if_neg (by simp), if_pos rfl]
  rfl

/-- The second message for its number ends a transaction. -/
theorem next_second {m₁ : Message} (h : Turn before m (.transaction id) entry receiver)
    (hc : course token before = .underway id [m₁]) :
    (course token before).next token (.arrived m (.transaction id) entry receiver)
      = .finished id [m₁, m] := by
  obtain ⟨-, hreceiver⟩ := h.matched token id [m₁] hc rfl
  rw [if_neg (List.cons_ne_nil m₁ [])] at hreceiver
  rw [hc, Course.next_arrived, if_pos hreceiver, if_pos rfl]
  rfl

end Turn

/-- Whether the record tells the turn of every message. -/
def Turns (log : List Event) : Prop :=
  Along (fun before e => ∀ m kind entry receiver, e = .arrived m kind entry receiver →
    Turn before m kind entry receiver) log

namespace Turns

variable {token : Nat} {id : UInt8} {heard : List Message}

/-- While a transaction is in progress, one message for it at most has been dispatched. -/
theorem length_le {log : List Event} (h : Turns log) (hc : course token log = .underway id heard) :
    heard.length ≤ 1 := by
  induction log using List.reverseRecOn generalizing heard with
  | nil => cases hc
  | append_singleton log e ih =>
    obtain ⟨hlog, he⟩ := along_append_singleton.mp h
    rw [course_append_singleton] at hc
    obtain ⟨-, -, rfl⟩ | ⟨heard₀, hc₀, rfl | ⟨m, entry, receiver, rfl, hr, rfl⟩⟩ :=
      Course.of_next_eq_underway hc
    · exact Nat.zero_le 1
    · exact ih hlog hc₀
    · -- a message behind another one is handed to the call, which ends the transaction
      obtain ⟨-, hreceiver⟩ := (he m _ entry receiver rfl).matched token id heard₀ hc₀ rfl
      by_cases hnil : heard₀ = []
      · rw [hnil]
        exact le_rfl
      · rw [if_neg hnil] at hreceiver
        exact absurd hreceiver hr

/-- The second message for its number ends a transaction for good. -/
theorem course_of_second {before rest : List Event} {m₁ m₂ : Message} {entry receiver : Option Nat}
    (h : Turns (before ++ .arrived m₂ (.transaction id) entry receiver :: rest))
    (hc : course token before = .underway id [m₁]) :
    course token (before ++ .arrived m₂ (.transaction id) entry receiver :: rest)
      = .finished id [m₁, m₂] := by
  have hturn := h before _ rest rfl m₂ _ entry receiver rfl
  rw [List.append_cons before _ rest]
  apply course_append_of_finished
  rw [course_append_singleton]
  exact hturn.next_second hc

/-- A message for a number that was handed to a call was the second for it, and ended it. -/
theorem course_of_handed {log : List Event} (h : Turns log) {m : Message} {entry : Option Nat}
    (hmem : .arrived m (.transaction id) entry (some token) ∈ log) :
    ∃ m₁, course token log = .finished id [m₁, m] := by
  obtain ⟨before, rest, rfl⟩ := List.append_of_mem hmem
  obtain ⟨m₁, hc⟩ := (h before _ rest rfl m _ entry _ rfl).second token id rfl rfl
  refine ⟨m₁, ?_⟩
  have hfinished : course token (before ++ [.arrived m (.transaction id) entry (some token)])
      = .finished id [m₁, m] := by
    rw [course_append_singleton, hc, Course.next_arrived, if_pos rfl, if_pos rfl]
    rfl
  rw [List.append_cons before _ rest]
  exact course_append_of_finished hfinished rest

/-- A transaction for which two messages were dispatched was handed the second. -/
theorem handed_of_course {log : List Event} (h : Turns log) {m₁ m₂ : Message}
    (hc : course token log = .finished id [m₁, m₂]) :
    ∃ entry, .arrived m₂ (.transaction id) entry (some token) ∈ log := by
  induction log using List.reverseRecOn with
  | nil => cases hc
  | append_singleton log e ih =>
    obtain ⟨hlog, -⟩ := along_append_singleton.mp h
    rw [course_append_singleton] at hc
    obtain hc₀ | ⟨heard₀, hc₀, rfl | ⟨m, entry, rfl, hheard⟩⟩ := Course.of_next_eq_finished hc
    · obtain ⟨entry, hmem⟩ := ih hlog hc₀
      exact ⟨entry, List.mem_append_left _ hmem⟩
    · have := length_le hlog hc₀
      simp at this
    · replace hheard : [m₁] ++ [m₂] = heard₀ ++ [m] := hheard
      obtain ⟨-, hlast⟩ := List.append_inj' hheard rfl
      cases hlast
      exact ⟨entry, List.mem_append_right _ (List.mem_singleton_self _)⟩

end Turns

/-! ## The table and the courses -/

/-- The table has an entry for each transaction in progress. -/
structure Run.Tracked (r : Run H) : Prop where
  entry_iff : ∀ p : Pending, p ∈ r.client.table.pending ↔ ∃ heard,
    course p.token r.log = .underway p.id heard ∧ heard.length = if p.acknowledged then 1 else 0
  turns : Turns r.log

namespace Client

/-- A call that withdraws, or was not sent, takes its transaction with it. -/
theorem Consistent.mem_pending_release {c : Client H} (h : c.Consistent) {k : Call} (hk : k ∈ c.calls)
    {t : Table} (hrelease : t.pending = match k.ticket with
      | .transaction id => (c.table.release id k.token).pending
      | _ => c.table.pending) {p : Pending} :
    p ∈ t.pending ↔ p ∈ c.table.pending ∧ p.token ≠ k.token := by
  have howner : p ∈ c.table.pending → p.token = k.token → k.ticket = .transaction p.id := by
    intro hp htoken
    obtain ⟨k', hk', htoken', hawaits⟩ := h.owner p.token (.transaction p.id) ⟨p, hp, rfl, rfl⟩
    rw [← h.eq_of_token hk' hk (htoken'.trans htoken)]
    exact hawaits.ticket_eq
  rw [hrelease]
  cases hticket : k.ticket with
  | transaction id =>
    simp only [Table.release, List.mem_filter, decide_not, Bool.not_eq_true', decide_eq_false_iff_not]
    refine and_congr_right fun hp => ⟨fun hne htoken => hne ⟨?_, htoken⟩, fun hne hc => hne hc.2⟩
    have := howner hp htoken
    rw [hticket] at this
    exact (Ticket.transaction.inj this).symm
  | _ =>
    refine (and_iff_left_of_imp fun hp htoken => ?_).symm
    have := howner hp htoken
    rw [hticket] at this
    cases this

end Client

namespace Run

variable {r : Run H}

/-- Events of which no transaction takes notice leave the courses and the entries as they are. -/
theorem Tracked.append_inert {r' : Run H} (h : r.Tracked) {e : Event} (hlog : r'.log = r.log ++ [e])
    (he : Course.isInert e) (hpending : r'.client.table.pending = r.client.table.pending) :
    r'.Tracked where
  entry_iff p := by
    rw [hlog, hpending, course_append_singleton, Course.next_of_isInert he]
    exact h.entry_iff p
  turns := by
    rw [hlog]
    refine along_append_singleton.mpr ⟨h.turns, ?_⟩
    rintro m kind entry receiver rfl
    cases he

/-- An event that ends one transaction, whose entry is taken away. -/
theorem Tracked.append_end {r' : Run H} (h : r.Tracked) {token : Nat} {e : Event}
    (he : e = .withdrawn token ∨ e = .unwritten token) (hlog : r'.log = r.log ++ [e])
    (hpending : ∀ p, p ∈ r'.client.table.pending ↔ p ∈ r.client.table.pending ∧ p.token ≠ token) :
    r'.Tracked where
  entry_iff p := by
    have hnext : ∀ id heard, (course p.token r.log).next p.token e = .underway id heard ↔
        course p.token r.log = .underway id heard ∧ p.token ≠ token := by
      intro id heard
      rcases course p.token r.log with _ | ⟨id', heard'⟩ | ⟨id', heard'⟩
      · obtain rfl | rfl := he <;> simp [Course.next]
      · by_cases htoken : token = p.token
        · obtain rfl | rfl := he <;> simp [Course.next, htoken]
        · obtain rfl | rfl := he <;> simp [Course.next, htoken, Ne.symm htoken]
      · obtain rfl | rfl := he <;> simp [Course.next]
    rw [hpending, h.entry_iff, hlog, course_append_singleton]
    simp only [hnext]
    constructor
    · rintro ⟨⟨heard, hc, hlength⟩, hne⟩
      exact ⟨heard, ⟨hc, hne⟩, hlength⟩
    · rintro ⟨heard, ⟨hc, hne⟩, hlength⟩
      exact ⟨⟨heard, hc, hlength⟩, hne⟩
  turns := by
    rw [hlog]
    refine along_append_singleton.mpr ⟨h.turns, ?_⟩
    rintro m kind entry receiver rfl
    obtain he | he := he <;> cases he

/-- While a transaction is in progress its number finds its entry. -/
theorem Tracked.pending?_eq (h : r.Tracked) (hc : r.client.Consistent) {token : Nat} {id : UInt8}
    {heard : List Message} (hcourse : course token r.log = .underway id heard) :
    r.client.table.pending? id = some ⟨id, token, !heard.isEmpty⟩ := by
  have hlength := h.turns.length_le hcourse
  have hmem : (⟨id, token, !heard.isEmpty⟩ : Pending) ∈ r.client.table.pending := by
    refine (h.entry_iff _).mpr ⟨heard, hcourse, ?_⟩
    rcases heard with _ | ⟨m, _ | ⟨m', heard⟩⟩
    · rfl
    · rfl
    · simp at hlength
  exact Table.pending?_of_mem hc.ids_nodup hmem

/-- What the record tells of a message that is dispatched is its turn. -/
theorem Tracked.turn (h : r.Tracked) (hc : r.client.Consistent) (m : Message) :
    Turn r.log m (m.classify r.client.config.threshold)
      (r.client.table.entry? (m.classify r.client.config.threshold))
      (Client.route (m.classify r.client.config.threshold) r.client.table).1 := by
  generalize m.classify r.client.config.threshold = kind
  constructor
  · rintro token id heard hcourse rfl
    have hpending := h.pending?_eq hc hcourse
    rw [Table.entry?, hpending, Client.receiver_transaction, hpending]
    refine ⟨rfl, ?_⟩
    rcases heard with _ | ⟨m₁, heard⟩ <;> rfl
  · intro token id heard hcourse hreceiver
    obtain ⟨ticket, hkind, hheld⟩ := Client.holds_of_route hreceiver
    obtain ⟨hmem, -⟩ := Table.of_pending?_eq_some (h.pending?_eq hc hcourse)
    have hticket : ticket = .transaction id := hc.ticket_unique hheld ⟨_, hmem, rfl, rfl⟩
    exact Message.Kind.ticket?_eq_transaction.mp (hticket ▸ hkind)
  · rintro token id rfl hreceiver
    rw [Client.receiver_transaction] at hreceiver
    obtain ⟨p, hp, hreceiver⟩ := Option.bind_eq_some_iff.mp hreceiver
    obtain ⟨hack, htoken⟩ := Option.ite_none_right_eq_some.mp hreceiver
    obtain ⟨hmem, rfl⟩ := Table.of_pending?_eq_some hp
    obtain rfl := Option.some_inj.mp htoken
    obtain ⟨heard, hcourse, hlength⟩ := (h.entry_iff p).mp hmem
    rw [if_pos hack] at hlength
    obtain ⟨m₁, rfl⟩ := List.length_eq_one_iff.mp hlength
    exact ⟨m₁, hcourse⟩

theorem Tracked.dispatch (h : r.Tracked) (hc : r.client.Consistent) (m : Message) :
    (r.dispatch m).Tracked := by
  have hturn := h.turn hc m
  constructor
  · intro p
    show p ∈ (Client.route (m.classify r.client.config.threshold) r.client.table).2.pending ↔ _
    rw [Client.mem_pending_route hc.ids_nodup, h.entry_iff, h.entry_iff, Run.dispatch,
      course_append_singleton]
    generalize m.classify r.client.config.threshold = kind at hturn ⊢
    show _ ↔ ∃ heard, Course.next p.token (course p.token r.log) (.arrived m kind _ _) = _ ∧ _
    rcases hcourse : course p.token r.log with _ | ⟨id, heard⟩ | ⟨id, heard⟩
    · simp [Course.next]
    · by_cases hkind : kind = .transaction id
      · subst hkind
        rcases heard with _ | ⟨m₁, heard⟩
        · rw [← hcourse, hturn.next_first hcourse]
          cases hack : p.acknowledged <;> simp [hcourse]
        · -- one message has been there, so that this is the second
          obtain rfl : heard = [] := by simpa using h.turns.length_le hcourse
          rw [← hcourse, hturn.next_second hcourse]
          simp only [hcourse]
          grind
      · rw [← hcourse, hturn.next_of_ne hcourse hkind, hcourse]
        grind
    · simp [Course.next_finished]
  · refine along_append_singleton.mpr ⟨h.turns, ?_⟩
    intro m' kind entry receiver he
    obtain ⟨rfl, rfl, rfl, rfl⟩ := Event.arrived.inj he
    exact hturn

/-- A transaction that begins gets its entry. -/
theorem Tracked.start (h : r.Tracked) (hc : r.client.Consistent) (hl : r.Ledger) {k : Call}
    {draft : Option (Nat × Request)} (cursor : UInt8) (hk : Admission r k draft) :
    Tracked { r with
      client := { r.client with
        table := Table.enroll k.token k.ticket { r.client.table with lastToken := k.token, cursor }
        calls := r.client.calls ++ [k] }
      draft
      log := r.log ++ [.started k.token k.ticket] } := by
  rcases hticket : k.ticket with _ | _ | id | _
  · exact h.append_inert rfl rfl rfl
  · exact h.append_inert rfl rfl rfl
  · have hlt : r.client.table.lastToken < k.token := by
      rw [hk.token_eq]
      omega
    have hahead : course k.token r.log = .ahead := by
      rcases hcourse : course k.token r.log with _ | ⟨id', heard⟩ | ⟨id', heard⟩
      · rfl
      · exact absurd rfl (hl.token_ne_of_lt hlt (started_of_underway hcourse))
      · exact absurd rfl (hl.token_ne_of_lt hlt (started_of_finished hcourse))
    constructor
    · intro p
      show p ∈ r.client.table.pending ++ [⟨id, k.token, false⟩] ↔ _
      rw [List.mem_append, List.mem_singleton]
      show _ ↔ ∃ heard, course p.token (r.log ++ [.started k.token (.transaction id)]) = _ ∧ _
      rw [course_append_singleton]
      -- the entry is the new one, or its course goes on as before
      by_cases htoken : p.token = k.token
      · have hnew : p ∉ r.client.table.pending := fun hp => by
          have hheld : r.client.table.Holds k.token (.transaction p.id) := ⟨p, hp, rfl, htoken⟩
          have := hc.holds_le hheld
          omega
        rw [htoken, hahead]
        simp only [Course.next, if_pos]
        rw [or_iff_right hnew]
        obtain ⟨pid, token, acknowledged⟩ := p
        simp only at htoken
        subst htoken
        cases acknowledged <;> simp [eq_comm]
      · have hnext : (course p.token r.log).next p.token (.started k.token (.transaction id))
            = course p.token r.log := by
          rcases course p.token r.log with _ | _ | _
          · exact if_neg (Ne.symm htoken)
          · rfl
          · rfl
        rw [hnext, ← h.entry_iff, or_iff_left]
        rintro rfl
        exact htoken rfl
    · refine along_append_singleton.mpr ⟨h.turns, ?_⟩
      intro m kind entry receiver he
      cases he
  · exact h.append_inert rfl rfl rfl

/-- The end of the channel ends all transactions. -/
theorem Tracked.close (h : r.Tracked) : r.close.Tracked where
  entry_iff p := by
    show p ∈ [] ↔ ∃ heard, course p.token (r.log ++ [.closed]) = _ ∧ _
    rw [course_append_singleton]
    refine iff_of_false List.not_mem_nil ?_
    rintro ⟨heard, hcourse, -⟩
    rcases hbefore : course p.token r.log with _ | _ | _ <;> rw [hbefore] at hcourse <;> cases hcourse
  turns := by
    refine along_append_singleton.mpr ⟨h.turns, ?_⟩
    intro m kind entry receiver he
    cases he

end Run

/-- Every move of a run keeps the table and the courses together. -/
theorem Move.tracked {r r' : Run H} (hmove : Move r r') (hc : r.client.Consistent) (hl : r.Ledger)
    (h : r.Tracked) : r'.Tracked := by
  cases hmove with
  | idle table_eq _ _ =>
    constructor
    · rw [table_eq]
      exact h.entry_iff
    · exact h.turns
  | refuse e cursor => exact h.append_inert rfl rfl rfl
  | start cursor hk => exact h.start hc hl cursor hk
  | written draft_eq send_eq => exact h.append_inert rfl rfl rfl
  | @unwritten token request sink e draft_eq send_eq =>
    obtain ⟨k, hk, rfl, -⟩ := hl.drafted token request draft_eq
    have hended : Run.Tracked {
        client := r.client.unsent k.token, sink, log := r.log ++ [.unwritten k.token] } := by
      refine h.append_end (.inr rfl) rfl fun p => ?_
      refine hc.mem_pending_release hk ?_
      rw [hc.unsent_eq hk]
      show (k.retract r.client.table).pending = _
      rw [Call.retract]
      cases k.ticket <;> rfl
    exact hended.append_inert (List.append_assoc r.log [_] [_]).symm rfl rfl
  | expire mem phase_eq undecided => exact h.append_inert rfl rfl rfl
  | @settle k mem phase_eq =>
    refine h.append_end (.inl rfl) rfl fun p => ?_
    refine hc.mem_pending_release mem ?_
    show (k.withdraw r.client.table).pending = _
    rw [Call.withdraw]
    cases k.ticket <;> rfl
  | collect mem decided => exact h.append_inert rfl rfl rfl
  | dispatch m => exact h.dispatch hc m
  | close => exact h.close

/-- In every state of every run the table has an entry for each transaction in progress. -/
theorem Run.tracked_after (config : ClientConfig) (sink : Sink) (actions : List (Action H)) :
    (after config sink actions).Tracked := by
  refine after_induction (P := Run.Tracked) ?_ (fun past r' hmove h => ?_) actions
  · exact ⟨fun p => by simp [fresh, course], along_nil _⟩
  · exact hmove.tracked (consistent_after config sink past) (ledger_after config sink past) h

end Wwan
