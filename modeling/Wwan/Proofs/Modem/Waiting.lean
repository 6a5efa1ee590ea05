import Wwan.Modem.Station

/-!
# What waiting leaves alone

However long a station waits and whatever it hears meanwhile, it does a few things only: it receives,
begins to wait for the next message, gives a wait up, and takes what it has found.  A property that each
of these keeps (`Station.Steady`) holds behind every wait if it held before.  The wait for leave to attach
goes on from message to message (`Stage.awaitAllowed_burst`).
-/

namespace Wwan

namespace Station

theorem line_hear (s : Station) (x : NoticeId × Message) : (s.hear x).line = s.line := by
  obtain ⟨id, m⟩ := x
  cases id with
  | attachAllowed =>
    rw [hear]
    rcases Modem.attachAllowed? m.body with _ | allowed <;> rfl
  | _ => rfl

theorem line_foldl_hear (heard : List (NoticeId × Message)) (s : Station) :
    (heard.foldl hear s).line = s.line := by
  induction heard generalizing s with
  | nil => rfl
  | cons x heard ih => rw [List.foldl_cons, ih, line_hear]

end Station

/-- A property of stations that waiting keeps. -/
structure Station.Steady (P : Station → Prop) : Prop where
  receive : ∀ {s}, P s → ∀ supplies, P (s.receive supplies)
  observe : ∀ {s}, P s → ∀ timeout, P { s with line := (s.line.observe timeout).2 }
  lapse : ∀ {s}, P s → ∀ token, P { s with line := s.line.lapse token }
  collect : ∀ {s}, P s → ∀ token, P { s with line := (s.line.collect token).2 }
  confirmations : ∀ {s}, P s → ∀ confirmations, P { s with confirmations }

variable {P : Station → Prop} {s : Station}

/-- What a search and giving it up keep, waiting with them keeps. -/
theorem Stage.keeps_await {α : Type} {check late : Station → Option α × Station}
    (hreceive : ∀ {s}, P s → ∀ supplies, P (s.receive supplies)) (hcheck : ∀ {s}, P s → P (check s).2)
    (hlate : ∀ {s}, P s → P (late s).2) (hs : P s) (ahead : List Happening) :
    P (await check late s ahead).2.1 := by
  induction ahead generalizing s with
  | nil =>
    have hchecked := hcheck hs
    rw [await]
    rcases hfound : check s with ⟨_ | a, s'⟩ <;> rw [hfound] at hchecked
    · exact hlate hchecked
    · exact hchecked
  | cons h ahead ih =>
    have hchecked := hcheck hs
    rw [await]
    rcases hfound : check s with ⟨_ | a, s'⟩ <;> rw [hfound] at hchecked
    · cases h with
      | lapse => exact hlate hchecked
      | burst supplies => exact ih (hreceive hchecked supplies)
    · exact hchecked

/-! ## Waiting for leave -/

namespace Stage

/-- What an answer decides about the leave to attach: a message that tells so gives it, and an error ends
the wait. -/
def leave? : Option (Except CallError Reply) → Option (Except CallError Unit)
  | some (.ok (.summary m)) => if tellsAllowed m then some (.ok ()) else none
  | some (.error e) => some (.error e)
  | _ => none

/-- The station at which the wait for leave goes on: an observer that was told of no message withdraws. -/
def goOn (token : Nat) (found : Option (Except CallError Reply) × Station) : Station :=
  match found.1 with
  | some (.ok (.summary _)) => found.2
  | _ => (collectLate token found.2).2

/-- What the observer is told decides, or it is waited for the next message. -/
theorem awaitAllowed_burst {timeout : Span} {token : Nat} {s s₁ : Station}
    (h : beginWait timeout s = (.inr token, s₁)) (supplies : List Supply) (ahead : List Happening) :
    awaitAllowed timeout s (.burst supplies :: ahead)
      = match leave? (collect token (s₁.receive supplies)).1 with
        | some r => (r, (collect token (s₁.receive supplies)).2, ahead)
        | none => awaitAllowed timeout (goOn token (collect token (s₁.receive supplies))) ahead := by
  rw [awaitAllowed, h]
  dsimp only
  rcases collect token (s₁.receive supplies) with ⟨_ | e | _ | _ | m, s₂⟩
  · rfl
  · rfl
  · rfl
  · rfl
  · by_cases htells : tellsAllowed m <;> simp [leave?, goOn, htells]

end Stage

/-! ## What waiting keeps -/

namespace Station.Steady

open Stage (await)

theorem collectLate (h : Steady P) (hs : P s) (token : Nat) : P (Stage.collectLate token s).2 :=
  h.collect (h.lapse hs token) token

/-- Waiting for the answer to a call. -/
theorem awaitAnswer (h : Steady P) (hs : P s) (token : Nat) (ahead : List Happening) :
    P (await (Stage.collect token) (Stage.collectLate token) s ahead).2.1 :=
  Stage.keeps_await (P := P) h.receive (fun hs => h.collect hs token)
    (fun hs => h.collectLate hs token) hs ahead

theorem takeConfirmation (h : Steady P) (hs : P s) : P (Stage.takeConfirmation s).2 := by
  rw [Stage.takeConfirmation]
  rcases s.confirmations with _ | ⟨body, rest⟩
  · exact hs
  · exact h.confirmations hs rest

theorem awaitConfirmation (h : Steady P) (hs : P s) (ahead : List Happening) :
    P (await Stage.takeConfirmation Stage.takeConfirmation s ahead).2.1 :=
  Stage.keeps_await (P := P) h.receive h.takeConfirmation h.takeConfirmation hs ahead

theorem beginWait (h : Steady P) (hs : P s) (timeout : Span) : P (Stage.beginWait timeout s).2 := by
  have hobserved := h.observe hs timeout
  rw [Stage.beginWait]
  split
  · exact hs
  split
  · exact hs
  rcases hobserve : s.line.observe timeout with ⟨e | token, line⟩ <;> rw [hobserve] at hobserved <;>
    exact hobserved

theorem goOn (h : Steady P) (hs : P s) (token : Nat) (r : Option (Except CallError Reply)) :
    P (Stage.goOn token (r, s)) := by
  rw [Stage.goOn.eq_def]
  split
  · exact hs
  · exact h.collectLate hs token

theorem awaitAllowed (h : Steady P) (hs : P s) (timeout : Span) (ahead : List Happening) :
    P (Stage.awaitAllowed timeout s ahead).2.1 := by
  induction ahead generalizing s with
  | nil =>
    have hbegun := h.beginWait hs timeout
    rw [Stage.awaitAllowed]
    rcases hwait : Stage.beginWait timeout s with ⟨r | token, s'⟩ <;> rw [hwait] at hbegun
    · exact hbegun
    · exact h.collectLate hbegun token
  | cons happening ahead ih =>
    have hbegun := h.beginWait hs timeout
    rcases hwait : Stage.beginWait timeout s with ⟨r | token, s'⟩ <;> rw [hwait] at hbegun
    · rw [Stage.awaitAllowed, hwait]
      exact hbegun
    cases happening with
    | lapse =>
      rw [Stage.awaitAllowed, hwait]
      exact h.collectLate hbegun token
    | burst supplies =>
      have hcollected : P (Stage.collect token (s'.receive supplies)).2 :=
        h.collect (h.receive hbegun supplies) token
      rw [Stage.awaitAllowed_burst hwait]
      rcases Stage.leave? (Stage.collect token (s'.receive supplies)).1 with _ | r
      · exact ih (h.goOn hcollected token _)
      · exact hcollected

theorem pause (h : Steady P) (hs : P s) (ahead : List Happening) : P (Stage.pause s ahead).1 := by
  induction ahead generalizing s with
  | nil => exact hs
  | cons happening ahead ih =>
    cases happening with
    | lapse => exact hs
    | burst supplies => exact ih (h.receive hs supplies)

/-- Whatever an act does to the station: it places a call, it changes what is listened to, or it
waits. -/
theorem perform (h : Steady P) {w : Stage} (hw : P w.station)
    (hplace : ∀ p command body timeout,
      P { w.station with line := (w.station.line.place p command body timeout).2 })
    (hlisten : P w.station.listen) (hunlisten : P w.station.unlisten) (a : Act) :
    P (w.perform a).2.station := by
  cases a with
  | call p command body timeout =>
    have hplaced := hplace p command body timeout
    show P (w.call p command body timeout).2.station
    rw [Stage.call]
    rcases hresult : w.station.line.place p command body timeout with ⟨e | token, line⟩ <;>
      rw [hresult] at hplaced
    · exact hplaced
    · exact h.awaitAnswer hplaced token _
  | listen => exact hlisten
  | unlisten => exact hunlisten
  | confirmation timeout => exact h.awaitConfirmation hw w.ahead
  | attachAllowed timeout => exact h.awaitAllowed hw timeout w.ahead
  | pause length => exact h.pause hw w.ahead

end Station.Steady

end Wwan
