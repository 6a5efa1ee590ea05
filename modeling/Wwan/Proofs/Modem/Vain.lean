import Wwan.Proofs.Client.Transactions
import Wwan.Proofs.Modem.Station

/-!
# Waiting in vain

A wait in which nothing comes that decides it ends when its time has passed.  If the channel ends before,
a call that waits is told so (`Stage.await_answer_end`), and so is whoever waits until attaching is
allowed (`Stage.awaitAllowed_end`).  Whoever waits for a confirmation is told nothing, and goes on waiting
(`Stage.await_confirmation_end`).
-/

namespace Wwan

/-- The channel supplies something, and goes on. -/
def Happening.Carries : Happening → Prop
  | .burst supplies => ∀ x ∈ supplies, ¬x.EndsReading
  | .lapse => False

/-! ## What a call is told -/

namespace Call

variable {k : Call} {t : Table}

/-- A channel that has ended holds nobody's entry. -/
theorem isHeld_close (k : Call) (t : Table) : k.isHeld t.close = false := by
  rw [isHeld]
  cases k.ticket <;> rfl

/-- A call whose time has not passed does not say so. -/
theorem outcome?_ne_timeout (hphase : k.phase = .waiting) (operation : String) (after : Span) :
    k.outcome? t ≠ some (.error (.timeout operation after)) := by
  rw [outcome?, hphase]
  dsimp only
  split
  · simp
  · rcases k.slot with _ | s
    · dsimp only
      split <;> simp
    · rcases hticket : k.ticket with _ | _ | id | _ <;> simp only [conclude, hticket]
      · simp
      · simp
      · rcases Message.stripId s.body with _ | ⟨n, result⟩ <;> simp
      · simp

/-- The end of the channel changes nothing of what is decided. -/
theorem outcome?_close_of_some (hphase : k.phase = .waiting) {r : Except CallError Reply}
    (h : k.outcome? t = some r) : k.outcome? t.close = some r := by
  rw [outcome?, hphase] at h ⊢
  dsimp only at h ⊢
  split at h
  · next hticket => rwa [if_pos hticket]
  · next hticket =>
    rw [if_neg hticket]
    rcases hslot : k.slot with _ | s <;> rw [hslot] at h
    · -- the entry was gone already
      by_cases hheld : k.isHeld t
      · simp [hheld] at h
      · rw [if_neg hheld] at h
        rw [isHeld_close]
        exact h
    · exact h

/-- A call about which nothing is decided is told that the channel has ended. -/
theorem outcome?_close_of_none (hphase : k.phase = .waiting) (h : k.outcome? t = none) :
    k.outcome? t.close = some (.error .channelClosed) := by
  have hslot := slot_of_undecided hphase h
  have hticket : k.ticket ≠ .oneWay := by
    intro hticket
    simp [outcome?, hphase, hticket] at h
  rw [outcome?, hphase, hslot, isHeld_close]
  exact if_neg hticket

end Call

/-! ### Calls that wait -/

namespace Client

variable {H : Type} {c : Client H} {token : Nat}

/-- The call with a token waits. -/
def Waits (token : Nat) (c : Client H) : Prop :=
  ∃ k, c.call? token = some k ∧ k.phase = .waiting

theorem Consistent.waits (h : c.Consistent) {k : Call} (hk : k ∈ c.calls)
    (hphase : k.phase = .waiting) : c.Waits k.token :=
  ⟨k, h.call?_eq hk, hphase⟩

theorem Waits.congr {c' : Client H} (h : c.Waits token) (hcalls : c'.calls = c.calls) :
    c'.Waits token := by
  obtain ⟨k, hk, hphase⟩ := h
  refine ⟨k, ?_, hphase⟩
  rw [call?, hcalls]
  exact hk

theorem Waits.dispatch (h : c.Waits token) (m : Message) : (c.dispatch m).Waits token := by
  obtain ⟨k, hk, hphase⟩ := h
  rw [Waits, call?_dispatch, hk]
  refine ⟨_, rfl, ?_⟩
  dsimp only
  split <;> exact hphase

end Client

namespace Line

variable {H : Type} {l l' : Line H} {token : Nat}

theorem waits_place (hc : l.client.Consistent) {p : Purpose} {command : UInt32} {body : Bytes}
    {timeout : Span} (h : l.place p command body timeout = (.ok token, l')) :
    l'.client.Waits token := by
  have hc' := keeps_place (P := Client.Consistent) Move.consistent hc p command body timeout
  rw [h] at hc'
  rw [place] at h
  obtain ⟨e, cursor, hbegin⟩ | ⟨k, cursor, hbegin, -⟩ := l.client.begin_cases p command timeout
  · rw [hbegin] at h
    cases h
  rw [hbegin] at h
  dsimp only at h
  split at h
  · obtain ⟨htoken, rfl⟩ := Prod.mk.inj h
    obtain rfl := Except.ok.inj htoken
    refine hc'.waits (k := { k with phase := .waiting }) ?_ rfl
    exact Client.mem_calls_update.mpr ⟨k, List.mem_concat_self, if_pos rfl⟩
  · cases h

theorem waits_observe (hc : l.client.Consistent) {timeout : Span}
    (h : l.observe timeout = (.ok token, l')) : l'.client.Waits token := by
  have hc' := keeps_observe (P := Client.Consistent) Move.consistent hc timeout
  rw [h] at hc'
  rw [observe, Client.observe] at h
  by_cases hclosed : l.client.table.closed
  · rw [if_pos hclosed] at h
    cases h
  · rw [if_neg hclosed] at h
    obtain ⟨htoken, rfl⟩ := Prod.mk.inj h
    obtain rfl := Except.ok.inj htoken
    exact hc'.waits List.mem_concat_self rfl

end Line

namespace Station

variable {s : Station} {token : Nat}

/-- What a call returns at a station, if that is decided. -/
def answer? (token : Nat) (s : Station) : Option (Except CallError Reply) :=
  (s.line.client.call? token).bind fun k => k.outcome? s.line.client.table

theorem fst_collect (token : Nat) (s : Station) : (Stage.collect token s).1 = s.answer? token := by
  rw [Stage.collect, Line.collect, Client.collect, answer?]
  rcases (s.line.client.call? token).bind fun k => k.outcome? s.line.client.table with _ | r <;> rfl

/-- Looking for an answer that is not there changes nothing. -/
theorem collect_of_none (h : s.answer? token = none) : Stage.collect token s = (none, s) := by
  rw [answer?] at h
  rw [Stage.collect, Line.collect, Client.collect, h]

theorem waits_receive (h : s.line.client.Waits token) (supplies : List Supply) :
    (s.receive supplies).line.client.Waits token := by
  have hwaits := Line.keeps_arriveAll (P := Client.Waits token) (fun m hc => hc.dispatch m)
    (fun hc => hc.congr rfl) h supplies
  rw [receive, line_handle]
  exact hwaits.congr (Client.handleAll_frame _).2.1

theorem answer?_ne_timeout (h : s.line.client.Waits token) (operation : String) (after : Span) :
    s.answer? token ≠ some (.error (.timeout operation after)) := by
  obtain ⟨k, hk, hphase⟩ := h
  rw [answer?, hk]
  exact Call.outcome?_ne_timeout hphase operation after

theorem answer?_finish_of_some (h : s.line.client.Waits token) {r : Except CallError Reply}
    (hr : s.answer? token = some r) : answer? token { s with line := s.line.finish } = some r := by
  obtain ⟨k, hk, hphase⟩ := h
  rw [answer?, hk] at hr
  have hk' : s.line.finish.client.call? token = some k := hk
  rw [answer?, hk']
  exact Call.outcome?_close_of_some hphase hr

theorem answer?_finish_of_none (h : s.line.client.Waits token) (hnone : s.answer? token = none) :
    answer? token { s with line := s.line.finish } = some (.error .channelClosed) := by
  obtain ⟨k, hk, hphase⟩ := h
  rw [answer?, hk] at hnone
  have hk' : s.line.finish.client.call? token = some k := hk
  rw [answer?, hk']
  exact Call.outcome?_close_of_none hphase hnone

end Station

/-! ## What a wait is told -/

namespace Stage

section Await

variable {α : Type} {check late : Station → Option α × Station} {s s' : Station}

theorem await_of_some {a : α} (h : check s = (some a, s')) (ahead : List Happening) :
    await check late s ahead = (some a, s', ahead) := by
  cases ahead <;> simp only [await, h]

theorem await_of_none (h : check s = (none, s')) (supplies : List Supply) (ahead : List Happening) :
    await check late s (.burst supplies :: ahead) = await check late (s'.receive supplies) ahead := by
  simp only [await, h]

/-- A wait that ends only late has found nothing until then, and goes on with whatever comes instead. -/
theorem await_cut {Q : Station → Prop} {R : Option α → Prop}
    (hnone : ∀ s, (check s).1 = none → check s = (none, s))
    (hfound : ∀ s a, Q s → (check s).1 = some a → ¬R (some a))
    (hreceive : ∀ s supplies, Q s → (∀ x ∈ supplies, ¬x.EndsReading) → Q (s.receive supplies))
    {received : List Happening} {before : List Supply} (carries : ∀ h ∈ received, h.Carries)
    (goes : ∀ x ∈ before, ¬x.EndsReading) (hs : Q s)
    (hlate : R (await check late s (received ++ [.burst before])).1) :
    ∃ s', Q s' ∧ (check (s'.receive before)).1 = none ∧ ∀ supplies rest,
      await check late s (received ++ .burst supplies :: rest)
        = await check late (s'.receive supplies) rest := by
  have hmissed : ∀ {s ahead}, Q s → R (await check late s ahead).1 → check s = (none, s) := by
    intro s ahead hs hlate
    rcases hcheck : check s with ⟨_ | a, s'⟩
    · exact hcheck ▸ hnone s (congrArg Prod.fst hcheck)
    · rw [await_of_some hcheck] at hlate
      exact absurd hlate (hfound s a hs (congrArg Prod.fst hcheck))
  induction received generalizing s with
  | nil =>
    have hcheck := hmissed hs hlate
    rw [List.nil_append, await_of_none hcheck] at hlate
    have hcheck' := hmissed (hreceive s before hs goes) hlate
    exact ⟨s, hs, congrArg Prod.fst hcheck', await_of_none hcheck⟩
  | cons h received ih =>
    obtain ⟨hcarries, hrest⟩ := List.forall_mem_cons.mp carries
    have hcheck := hmissed hs hlate
    cases h with
    | lapse => exact hcarries.elim
    | burst supplies =>
      rw [List.cons_append, await_of_none hcheck] at hlate
      obtain ⟨s', hs', hlast, hgoes⟩ := ih hrest (hreceive s supplies hs hcarries) hlate
      refine ⟨s', hs', hlast, fun supplies' rest => ?_⟩
      rw [List.cons_append, await_of_none hcheck, hgoes]

end Await

/-- A call that waits in vain is told that the channel ends. -/
theorem await_answer_end {s : Station} {token : Nat} (hopen : s.line.ended = false)
    (hwaits : s.line.client.Waits token) {received rest : List Happening}
    {before after : List Supply} {last : Supply} (carries : ∀ h ∈ received, h.Carries)
    (goes : ∀ x ∈ before, ¬x.EndsReading) (ends : last.EndsReading)
    (hlate : ∃ operation span, (await (collect token) (collectLate token) s
      (received ++ [.burst before])).1 = some (.error (.timeout operation span))) :
    (await (collect token) (collectLate token) s
      (received ++ .burst (before ++ last :: after) :: rest)).1 = some (.error .channelClosed) := by
  have hfound : ∀ (s : Station) r, s.line.ended = false ∧ s.line.client.Waits token →
      (collect token s).1 = some r →
      ¬∃ operation span, some r = some (.error (.timeout operation span)) := by
    rintro s r ⟨-, hwaits⟩ hr ⟨operation, span, htimeout⟩
    rw [Station.fst_collect, htimeout] at hr
    exact Station.answer?_ne_timeout hwaits operation span hr
  obtain ⟨s', ⟨hopen', hwaits'⟩, hlast, hgoes⟩ := await_cut
    (R := fun r => ∃ operation span, r = some (.error (.timeout operation span)))
    (fun s hnone => Station.collect_of_none (Station.fst_collect token s ▸ hnone)) hfound
    (fun s supplies hs hgoes =>
      ⟨Station.ended_receive hs.1 hgoes, Station.waits_receive hs.2 supplies⟩)
    carries goes ⟨hopen, hwaits⟩ hlate
  rw [Station.fst_collect] at hlast
  have hanswer := Station.answer?_finish_of_none (Station.waits_receive hwaits' before) hlast
  rw [← Station.fst_collect] at hanswer
  rw [hgoes, Station.receive_end hopen' goes ends, await_of_some (Prod.ext hanswer rfl)]

/-- On a channel that has ended nothing is found that was not there. -/
theorem await_confirmation_of_ended {s : Station} (hs : s.Intact) (hended : s.line.ended = true)
    (hnone : s.confirmations = []) (ahead : List Happening) :
    (await takeConfirmation takeConfirmation s ahead).1 = none := by
  have hcheck : takeConfirmation s = (none, s) := by rw [takeConfirmation, hnone]
  induction ahead with
  | nil => simp only [await, hcheck]
  | cons h ahead ih =>
    cases h with
    | lapse => simp only [await, hcheck]
    | burst supplies => rw [await_of_none hcheck, hs.receive_of_ended hended, ih]

/-- Whoever waits for a confirmation in vain is not told that the channel ends. -/
theorem await_confirmation_end {s : Station} (hs : s.Intact) (hopen : s.line.ended = false)
    {received rest : List Happening} {before after : List Supply} {last : Supply}
    (carries : ∀ h ∈ received, h.Carries) (goes : ∀ x ∈ before, ¬x.EndsReading)
    (ends : last.EndsReading) (hlate : (await takeConfirmation takeConfirmation s
      (received ++ [.burst before])).1 = none) :
    (await takeConfirmation takeConfirmation s
      (received ++ .burst (before ++ last :: after) :: rest)).1 = none := by
  have hnone : ∀ s : Station, (takeConfirmation s).1 = none →
      s.confirmations = [] ∧ takeConfirmation s = (none, s) := by
    intro s h
    rw [takeConfirmation] at h ⊢
    rcases hkept : s.confirmations with _ | ⟨body, kept⟩ <;> rw [hkept] at h
    · exact ⟨rfl, rfl⟩
    · cases h
  obtain ⟨s', ⟨hs', hopen'⟩, hlast, hgoes⟩ := await_cut
    (Q := fun s => s.Intact ∧ s.line.ended = false) (R := fun r => r = none)
    (fun s h => (hnone s h).2) (fun _ _ _ _ h => by cases h)
    (fun s supplies hs hgoes => ⟨hs.1.receive supplies, Station.ended_receive hs.2 hgoes⟩)
    carries goes ⟨hs, hopen⟩ hlate
  rw [hgoes]
  refine await_confirmation_of_ended (hs'.receive _) ?_ ?_ rest
  · rw [Station.receive_end hopen' goes ends]
    rfl
  · rw [Station.receive_end hopen' goes ends]
    exact (hnone _ hlast).1

end Stage

/-! ## Waiting for leave -/

/-- A station with which something was done, but which was told nothing. -/
structure Station.Follows (s s' : Station) : Prop where
  allowed_eq : s'.allowed = s.allowed
  ended_eq : s'.line.ended = s.line.ended
  intact : s.Intact → s'.Intact

namespace Station

variable {s s' s'' : Station}

theorem Follows.trans (h : s.Follows s') (h' : s'.Follows s'') : s.Follows s'' :=
  ⟨h'.allowed_eq.trans h.allowed_eq, h'.ended_eq.trans h.ended_eq, fun hs => h'.intact (h.intact hs)⟩

theorem follows_collect (token : Nat) (s : Station) : s.Follows (Stage.collect token s).2 :=
  ⟨rfl, (Line.unread_collect token _).ended_eq, fun hs => steady_intact.collect hs token⟩

theorem follows_collectLate (token : Nat) (s : Station) : s.Follows (Stage.collectLate token s).2 :=
  have hlapse : s.Follows { s with line := s.line.lapse token } :=
    ⟨rfl, (Line.unread_lapse token _).ended_eq, fun hs => steady_intact.lapse hs token⟩
  hlapse.trans (follows_collect token _)

theorem follows_goOn (token : Nat) (found : Option (Except CallError Reply) × Station) :
    found.2.Follows (Stage.goOn token found) := by
  rw [Stage.goOn.eq_def]
  split
  · exact ⟨rfl, rfl, id⟩
  · exact follows_collectLate token found.2

end Station

namespace Stage

theorem eq_of_leave?_error {r : Option (Except CallError Reply)} {e : CallError}
    (h : leave? r = some (.error e)) : r = some (.error e) := by
  rcases r with _ | e' | _ | _ | m
  · cases h
  · cases h
    rfl
  · cases h
  · cases h
  · rw [leave?] at h
    split at h <;> cases h

section Leave

variable {timeout : Span} {token : Nat} {s s₁ : Station}

/-- A wait for leave is over at once or begins to wait for the next message. -/
theorem beginWait_cases (hs : s.Intact) (hlength : timeout.nanos ≠ 0) :
    (s.allowed = true ∧ beginWait timeout s = (.inl (.ok ()), s)) ∨
    (s.allowed = false ∧ s.line.client.table.closed = true ∧
      beginWait timeout s = (.inl (.error .channelClosed), s)) ∨
    (s.allowed = false ∧ s.line.client.table.closed = false ∧ ∃ token s₁,
      beginWait timeout s = (.inr token, s₁) ∧ s.Follows s₁ ∧ s₁.line.client.Waits token) := by
  rw [beginWait]
  by_cases hallowed : s.allowed
  · exact .inl ⟨hallowed, if_pos hallowed⟩
  rw [if_neg hallowed, if_neg hlength]
  have hallowed : s.allowed = false := Bool.not_eq_true _ ▸ hallowed
  by_cases hclosed : s.line.client.table.closed
  · refine .inr (.inl ⟨hallowed, hclosed, ?_⟩)
    rw [Line.observe, Client.observe, if_pos hclosed]
  have hopen : s.line.client.table.closed = false := Bool.not_eq_true _ ▸ hclosed
  have hunread := s.line.unread_observe timeout
  have hintact := Station.steady_intact.observe hs timeout
  rcases hobserve : s.line.observe timeout with ⟨e | token, line⟩ <;>
    rw [hobserve] at hunread hintact
  · rw [Line.observe, Client.observe, if_neg hclosed] at hobserve
    cases hobserve
  · exact .inr (.inr ⟨hallowed, hopen, token, _, rfl, ⟨rfl, hunread.ended_eq, fun _ => hintact⟩,
      Line.waits_observe hs.consistent hobserve⟩)

theorem awaitAllowed_of_begun {r : Except CallError Unit} (h : beginWait timeout s = (.inl r, s₁))
    (ahead : List Happening) : awaitAllowed timeout s ahead = (r, s₁, ahead) := by
  cases ahead <;> simp only [awaitAllowed, h]

/-- What the observer is told decides, -/
theorem awaitAllowed_of_leave (h : beginWait timeout s = (.inr token, s₁)) {supplies : List Supply}
    {r : Except CallError Unit} (hleave : leave? ((s₁.receive supplies).answer? token) = some r)
    (ahead : List Happening) : (awaitAllowed timeout s (.burst supplies :: ahead)).1 = r := by
  rw [awaitAllowed_burst h, Station.fst_collect, hleave]

/-- or it is waited for the message after it. -/
theorem awaitAllowed_of_none (h : beginWait timeout s = (.inr token, s₁)) {supplies : List Supply}
    (hleave : leave? ((s₁.receive supplies).answer? token) = none) :
    ∃ s₂, (s₁.receive supplies).Follows s₂ ∧ ∀ ahead,
      awaitAllowed timeout s (.burst supplies :: ahead) = awaitAllowed timeout s₂ ahead := by
  have hcollected := Station.follows_collect token (s₁.receive supplies)
  refine ⟨_, hcollected.trans (Station.follows_goOn token _), fun ahead => ?_⟩
  rw [awaitAllowed_burst h, Station.fst_collect, hleave]

end Leave

/-- Whoever waits for leave is told that the channel has ended. -/
theorem awaitAllowed_of_ended {timeout : Span} {s : Station} (hs : s.Intact)
    (hended : s.line.ended = true) (hallowed : s.allowed = false) (hlength : timeout.nanos ≠ 0)
    (ahead : List Happening) : (awaitAllowed timeout s ahead).1 = .error .channelClosed := by
  have hclosed := hs.closed hended
  obtain ⟨hnow, -⟩ | ⟨-, -, hbegun⟩ | ⟨-, hopen, -⟩ :=
    beginWait_cases hs hlength
  · rw [hallowed] at hnow
    cases hnow
  · rw [awaitAllowed_of_begun hbegun]
  · rw [hclosed] at hopen
    cases hopen

/-- Who was not given leave in time did not have it, -/
theorem not_allowed_of_late {timeout : Span} {s : Station} {ahead : List Happening}
    (hlate : (awaitAllowed timeout s ahead).1 = .error (notAllowedInTime timeout)) :
    s.allowed = false := by
  by_contra hallowed
  rw [Bool.not_eq_false] at hallowed
  have hbegun : beginWait timeout s = (.inl (.ok ()), s) := if_pos hallowed
  rw [awaitAllowed_of_begun hbegun] at hlate
  cases hlate

/-- but waited for it, and nothing that came first decided that. -/
theorem undecided_of_late {timeout : Span} {s : Station} (hs : s.Intact) (hlength : timeout.nanos ≠ 0)
    {supplies : List Supply} {ahead : List Happening}
    (hlate : (awaitAllowed timeout s (.burst supplies :: ahead)).1
      = .error (notAllowedInTime timeout)) :
    ∃ token s₁, beginWait timeout s = (.inr token, s₁) ∧ s.Follows s₁ ∧
      (s₁.receive supplies).line.client.Waits token ∧
      leave? ((s₁.receive supplies).answer? token) = none := by
  obtain ⟨-, hbegun⟩ | ⟨-, -, hbegun⟩ | ⟨-, -, token, s₁, hbegun, hfollows, hwaits⟩ :=
    beginWait_cases hs hlength
  · rw [awaitAllowed_of_begun hbegun] at hlate
    cases hlate
  · rw [awaitAllowed_of_begun hbegun] at hlate
    cases hlate
  have hwaits := Station.waits_receive hwaits supplies
  refine ⟨token, s₁, hbegun, hfollows, hwaits, ?_⟩
  rcases hleave : leave? ((s₁.receive supplies).answer? token) with _ | r
  · rfl
  · -- no answer says that the time has passed
    rw [awaitAllowed_of_leave hbegun hleave] at hlate
    subst hlate
    exact absurd (eq_of_leave?_error hleave) (Station.answer?_ne_timeout hwaits _ _)

/-- Whoever waits for leave in vain is told that the channel ends. -/
theorem awaitAllowed_end {timeout : Span} {s : Station} (hs : s.Intact) (hopen : s.line.ended = false)
    (hlength : timeout.nanos ≠ 0) {received rest : List Happening} {before after : List Supply}
    {last : Supply} (carries : ∀ h ∈ received, h.Carries) (goes : ∀ x ∈ before, ¬x.EndsReading)
    (ends : last.EndsReading) (hlate : (awaitAllowed timeout s (received ++ [.burst before])).1
      = .error (notAllowedInTime timeout)) :
    (awaitAllowed timeout s (received ++ .burst (before ++ last :: after) :: rest)).1
      = .error .channelClosed := by
  induction received generalizing s with
  | nil =>
    rw [List.nil_append] at hlate ⊢
    obtain ⟨token, s₁, hbegun, hfollows, hwaits, hleave⟩ := undecided_of_late hs hlength hlate
    have hopen₁ : s₁.line.ended = false := hfollows.ended_eq.trans hopen
    have hend := Station.receive_end hopen₁ goes ends after
    rcases hanswer : (s₁.receive before).answer? token with _ | a
    · -- the observer is still waiting, and is told of the end
      refine awaitAllowed_of_leave hbegun ?_ rest
      rw [hend, Station.answer?_finish_of_none hwaits hanswer]
      rfl
    · -- it was told of a message that does not decide, and the next wait finds the channel ended
      have hanswer' := hend ▸ Station.answer?_finish_of_some hwaits hanswer
      obtain ⟨s₂, hfollows₂, hnext⟩ := awaitAllowed_of_none hbegun hleave
      obtain ⟨s₃, hfollows₃, hnext'⟩ := awaitAllowed_of_none hbegun
        (hanswer'.trans hanswer.symm ▸ hleave)
      rw [hnext] at hlate
      have hallowed : s₃.allowed = false := by
        rw [hfollows₃.allowed_eq, hend]
        exact hfollows₂.allowed_eq.symm.trans (not_allowed_of_late hlate)
      have hended : s₃.line.ended = true := by
        rw [hfollows₃.ended_eq, hend]
        rfl
      have hintact := hfollows₃.intact ((hfollows.intact hs).receive (before ++ last :: after))
      rw [hnext']
      exact awaitAllowed_of_ended hintact hended hallowed hlength rest
  | cons h received ih =>
    obtain ⟨hcarries, hrest⟩ := List.forall_mem_cons.mp carries
    cases h with
    | lapse => exact hcarries.elim
    | burst supplies =>
      rw [List.cons_append] at hlate ⊢
      obtain ⟨token, s₁, hbegun, hfollows, -, hleave⟩ := undecided_of_late hs hlength hlate
      obtain ⟨s₂, hfollows₂, hnext⟩ := awaitAllowed_of_none hbegun hleave
      rw [hnext] at hlate ⊢
      have hopen₂ : s₂.line.ended = false := hfollows₂.ended_eq.trans
        (Station.ended_receive (hfollows.ended_eq.trans hopen) hcarries)
      exact ih (hfollows₂.intact ((hfollows.intact hs).receive supplies)) hopen₂ hrest hlate

end Stage

end Wwan
