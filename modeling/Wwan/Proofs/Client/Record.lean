import Wwan.Proofs.Client.Run

/-!
# Reading the record of a run

What the record of a run tells about requests, answers and transactions.  A statement about every point
of a record, in terms of what stands before it, is `Along`; it is proved one event at a time
(`along_append_singleton`).
-/

namespace Wwan

/-- The requests for an answer, or for none, whose bytes the sink has taken: whose they are, in the
order of the bytes. -/
def requests : List Event → List Nat :=
  List.filterMap fun
    | .written token request => if request.transaction = none then some token else none
    | _ => none

/-- The answers that met an entry of the queue: whose entry it was. -/
def answers : List Event → List Nat :=
  List.filterMap fun
    | .arrived _ .response entry _ => entry
    | _ => none

/-- The calls that have begun, oldest first. -/
def starts : List Event → List Nat :=
  List.filterMap fun
    | .started token _ => some token
    | _ => none

/-- The result that an event tells, and whose it is; a call that could not begin has no token. -/
def Event.result? : Event → Option (Option Nat × Except CallError Reply)
  | .refused e => some (none, .error e)
  | .returned token result => some (some token, result)
  | _ => none

/-- The messages that were handed to a call. -/
def deliveries (token : Nat) : List Event → List Message :=
  List.filterMap fun
    | .arrived m _ _ receiver => if receiver = some token then some m else none
    | _ => none

/-- The bytes of all requests that were written, in their order. -/
def wire : List Event → Bytes :=
  List.flatMap fun
    | .written _ request => request.encode.toOption.getD []
    | _ => []

/-- Whether something holds at every point of a record, given what stands before it. -/
def Along (P : List Event → Event → Prop) (log : List Event) : Prop :=
  ∀ before e rest, log = before ++ e :: rest → P before e

theorem along_nil (P : List Event → Event → Prop) : Along P [] :=
  fun before e rest h => absurd h.symm (by simp)

theorem along_append_singleton {P : List Event → Event → Prop} {log : List Event} {e : Event} :
    Along P (log ++ [e]) ↔ Along P log ∧ P log e := by
  constructor
  · intro h
    exact ⟨fun before e' rest hlog => h before e' (rest ++ [e]) (by rw [hlog]; simp),
      h log e [] rfl⟩
  · rintro ⟨h, he⟩ before e' rest hlog
    -- the event is the new one, or stands before it
    rcases List.eq_nil_or_concat rest with rfl | ⟨rest', last, rfl⟩
    · obtain ⟨rfl, hlast⟩ := List.append_inj' hlog rfl
      obtain rfl : e = e' := by simpa using hlast
      exact he
    · have hlog' : log ++ [e] = (before ++ e' :: rest') ++ [last] := by rw [hlog]; simp
      exact h before e' rest' (List.append_inj' hlog' rfl).1

/-- What holds at every point of a record holds at each of its events. -/
theorem Along.of_mem {P : List Event → Event → Prop} {log : List Event} (h : Along P log) {e : Event}
    (he : e ∈ log) : ∃ before, before ⊆ log ∧ P before e := by
  obtain ⟨before, rest, rfl⟩ := List.append_of_mem he
  exact ⟨before, List.subset_append_left _ _, h before e rest rfl⟩

theorem Along.mono {P Q : List Event → Event → Prop} {log : List Event} (h : Along P log)
    (hPQ : ∀ before e, P before e → Q before e) : Along Q log :=
  fun before e rest hlog => hPQ before e (h before e rest hlog)

theorem starts_append (a b : List Event) : starts (a ++ b) = starts a ++ starts b :=
  List.filterMap_append

theorem mem_starts {log : List Event} {token : Nat} {ticket : Ticket}
    (h : .started token ticket ∈ log) : token ∈ starts log :=
  List.mem_filterMap.mpr ⟨_, h, rfl⟩

/-- When no call begins twice, a call has one ticket. -/
theorem ticket_eq_of_starts {log : List Event} (nodup : (starts log).Nodup) {token : Nat}
    {a b : Ticket} (ha : .started token a ∈ log) (hb : .started token b ∈ log) : a = b := by
  -- two starts of one call are the same event, for a call begins once
  induction log with
  | nil => cases ha
  | cons e log ih =>
    have htail : (starts log).Nodup :=
      nodup.sublist ((List.sublist_cons_self e log).filterMap _)
    obtain rfl | ha' := List.mem_cons.mp ha
    · obtain hb' | hb' := List.mem_cons.mp hb
      · cases hb'
        rfl
      · exact absurd (mem_starts hb') (List.nodup_cons.mp nodup).1
    · obtain rfl | hb' := List.mem_cons.mp hb
      · exact absurd (mem_starts ha') (List.nodup_cons.mp nodup).1
      · exact ih htail ha' hb'

theorem mem_deliveries {log : List Event} {token : Nat} {m : Message} :
    m ∈ deliveries token log ↔ ∃ kind entry, .arrived m kind entry (some token) ∈ log := by
  rw [deliveries, List.mem_filterMap]
  constructor
  · rintro ⟨e, he, hm⟩
    cases e <;> try cases hm
    next m' kind entry receiver =>
      by_cases hr : receiver = some token
      · subst hr
        obtain rfl : m' = m := by simpa using hm
        exact ⟨kind, entry, he⟩
      · simp [hr] at hm
  · rintro ⟨kind, entry, he⟩
    exact ⟨_, he, by simp⟩

/-- Only a message that arrives is handed to a call. -/
theorem deliveries_of_not_arrived {e : Event}
    (h : ∀ m kind entry receiver, e ≠ .arrived m kind entry receiver) (log : List Event) {token : Nat} :
    deliveries token (log ++ [e]) = deliveries token log := by
  rw [deliveries, List.filterMap_append]
  cases e <;> try exact List.append_nil _
  exact absurd rfl (h _ _ _ _)

/-- An event that changes another call hands this one nothing. -/
theorem deliveries_of_ne {e : Event} {token : Nat} (h : e.token? ≠ some token)
    (log : List Event) : deliveries token (log ++ [e]) = deliveries token log := by
  rw [deliveries, List.filterMap_append]
  cases e <;> try exact List.append_nil _
  next m kind entry receiver =>
    have hr : receiver ≠ some token := h
    simp [hr]

theorem deliveries_append_arrived (token : Nat) (log : List Event) (m : Message)
    (kind : Message.Kind) (entry receiver : Option Nat) :
    deliveries token (log ++ [.arrived m kind entry receiver])
      = deliveries token log ++ if receiver = some token then [m] else [] := by
  rw [deliveries, List.filterMap_append]
  by_cases hr : receiver = some token <;> simp [hr]

/-! ## The course of a transaction -/

/-- What became of a transaction so far. -/
inductive Course where
  /-- It has not begun. -/
  | ahead
  /-- It has its number, and these messages for the number have been dispatched since. -/
  | underway (id : UInt8) (heard : List Message)
  /-- It is over; these messages for its number were dispatched while it lasted. -/
  | finished (id : UInt8) (heard : List Message)

/-- What an event makes of a transaction: it lasts from its start to the message that is handed to it,
to its withdrawal, to the failure of its request or to the end of the channel. -/
def Course.next (token : Nat) : Course → Event → Course
  | .ahead, .started token' (.transaction id) => if token' = token then .underway id [] else .ahead
  | .underway id heard, .arrived m kind _ receiver =>
    let heard := if kind = .transaction id then heard ++ [m] else heard
    if receiver = some token then .finished id heard else .underway id heard
  | .underway id heard, .withdrawn token' | .underway id heard, .unwritten token' =>
    if token' = token then .finished id heard else .underway id heard
  | .underway id heard, .closed => .finished id heard
  | c, _ => c

/-- The course of a transaction as a record tells it. -/
def course (token : Nat) (log : List Event) : Course :=
  log.foldl (Course.next token) .ahead

theorem course_append_singleton (token : Nat) (log : List Event) (e : Event) :
    course token (log ++ [e]) = (course token log).next token e := by
  rw [course, List.foldl_append]
  rfl

/-- Whether a transaction is in progress. -/
def Course.isUnderway : Course → Bool
  | .underway _ _ => true
  | .ahead | .finished _ _ => false

/-- The transactions that have begun and are not over, oldest first. -/
def live (log : List Event) : List Nat :=
  (starts log).filter fun token => (course token log).isUnderway

end Wwan
