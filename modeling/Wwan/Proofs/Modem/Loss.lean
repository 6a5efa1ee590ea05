import Wwan.Modem.Rehearsal
import Wwan.Proofs.Modem.Failure
import Wwan.Proofs.Modem.Vain

/-!
# When the channel is lost

The channel may end at any point of a bring-up, and the act that is waiting then is left without what it
waits for (`Stage.ChannelLost`).  A call is told so, and so is the wait for the network's leave to attach;
the wait for a confirmation is not, and ends when its time has passed.  So a bring-up reports that the
channel has ended, wherever it does, exactly if it was not waiting for a confirmation
(`bringUp_reports_loss_iff`).
-/

namespace Wwan

/-! ## Points of a session -/

section Points

variable {α : Type}

/-- The act that a session does next. -/
def Session.act? : Session α → Option Act
  | .pure _ => none
  | .act a _ => some a

/-- A session that is carried out, behind its first `n` acts. -/
def Stage.advance (w : Stage) : Nat → Session α → Stage × Session α
  | 0, s => (w, s)
  | _ + 1, .pure a => (w, .pure a)
  | n + 1, .act a next => (w.perform a).2.advance n (next (w.perform a).1)

theorem Stage.mem_deeds {n : Nat} {s : Session α} {a : Act} {w : Stage}
    (h : (w.advance n s).2.act? = some a) : ⟨a, ((w.advance n s).1.perform a).1⟩ ∈ w.deeds s := by
  induction n generalizing w s with
  | zero =>
    cases s with
    | pure b => cases h
    | act b next =>
      cases h
      exact List.mem_cons_self
  | succ n ih =>
    cases s with
    | pure b => cases h
    | act b next => exact List.mem_cons_of_mem _ (ih h)

theorem Station.Intact.advance {w : Stage} (h : w.station.Intact) (n : Nat) (s : Session α) :
    (w.advance n s).1.station.Intact := by
  induction n generalizing w s with
  | zero => exact h
  | succ n ih =>
    cases s with
    | pure b => exact h
    | act b next => exact ih (h.perform b) _

end Points

/-! ## The loss of the channel -/

/-- Whether an act waits for a confirmation. -/
def Act.isConfirmation : Act → Bool
  | .confirmation _ => true
  | _ => false

/-- What a wait gives when its time has passed. -/
def Act.TimesOut : (a : Act) → a.Answer → Prop
  | .call _ _ _ _, r => ∃ operation after, r = .error (.timeout operation after)
  | .confirmation _, r => r = none
  | .attachAllowed timeout, r => timeout.nanos ≠ 0 ∧ r = .error (Stage.notAllowedInTime timeout)
  | _, _ => False

/-- Whether an act has still to wait at a station on whose channel nothing more will come. -/
def Station.Lacks (s : Station) : Act → Prop
  | .call _ _ _ _ => True
  | .confirmation _ => s.confirmations = []
  | .attachAllowed timeout => s.allowed = false ∧ timeout.nanos ≠ 0
  | _ => False

namespace Stage

/-- What is going to happen while an act waits; none for a call whose request cannot be sent. -/
def prospects (w : Stage) : Act → Option (List Happening)
  | .call p command body timeout =>
    match w.station.line.place p command body timeout with
    | (.ok _, line) => some
        (w.ahead ++ w.peer w.asked (line.sink.taken.drop w.station.line.sink.taken.length).flatten)
    | (.error _, _) => none
  | _ => some w.ahead

/-- The stage if just this were going to happen. -/
def facing (w : Stage) (ahead : List Happening) : Stage :=
  { w with ahead, peer := fun _ _ => [] }

/-- The channel ends, and the act that comes next is left waiting: the channel has ended before, or it
ends while the act waits, before its time has passed, and what was received until then decides nothing,
so that without the end the time would have passed. -/
inductive ChannelLost (w : Stage) (a : Act) : Prop
  | before (ended : w.station.line.ended = true) (lacks : w.station.Lacks a)
  | during {received rest : List Happening} {before after : List Supply} {last : Supply}
      (isOpen : w.station.line.ended = false)
      (prospects_eq : w.prospects a = some (received ++ .burst (before ++ last :: after) :: rest))
      (carries : ∀ h ∈ received, h.Carries) (goes : ∀ x ∈ before, ¬x.EndsReading)
      (ends : last.EndsReading)
      (undecided : a.TimesOut ((w.facing (received ++ [.burst before])).perform a).1)

/-- A call whose request was sent gives what waiting finds. -/
theorem call_of_placed {w : Stage} {p : Purpose} {command : UInt32} {body : Bytes} {timeout : Span}
    {token : Nat} {line : Line NoticeId} {ahead : List Happening}
    (hplace : w.station.line.place p command body timeout = (.ok token, line))
    (hahead : w.prospects (.call p command body timeout) = some ahead) :
    (w.call p command body timeout).1 = ((await (collect token) (collectLate token)
      { w.station with line } ahead).1.getD (.error .channelClosed)).map replyBody := by
  rw [prospects, hplace] at hahead
  rw [call, hplace, ← Option.some.inj hahead]

/-- Only a wait that found an error gives one, or one that found nothing. -/
theorem eq_of_map_error {r : Option (Except CallError Reply)} {e : CallError}
    (h : (r.getD (.error .channelClosed)).map replyBody = .error e) (he : e ≠ .channelClosed) :
    r = some (.error e) := by
  rcases r with _ | e' | reply
  · exact absurd (Except.error.inj h).symm he
  · exact congrArg some (congrArg Except.error (Except.error.inj h))
  · cases h

namespace ChannelLost

variable {w : Stage}

/-- A call is told that the channel ended, -/
theorem call_eq {p : Purpose} {command : UInt32} {body : Bytes} {timeout : Span}
    (hs : w.station.Intact) (h : w.ChannelLost (.call p command body timeout)) :
    (w.call p command body timeout).1 = .error .channelClosed := by
  cases h with
  | before ended =>
    have hclosed := hs.closed ended
    rw [call, Line.place, Client.begin, Client.enter.eq_def, if_pos hclosed]
  | @during received rest before after last isOpen prospects_eq carries goes ends undecided =>
    obtain ⟨operation, span, hlate⟩ : ∃ operation span,
      ((w.facing (received ++ [Happening.burst before])).call p command body timeout).1
        = .error (.timeout operation span) := undecided
    rcases hplace : w.station.line.place p command body timeout with ⟨e | token, line⟩
    · rw [prospects, hplace] at prospects_eq
      cases prospects_eq
    have hopen : line.ended = false := by
      have hunread := w.station.line.unread_place p command body timeout
      rw [hplace] at hunread
      exact hunread.ended_eq.trans isOpen
    have hwaits := Line.waits_place hs.consistent hplace
    have hfacing : (w.facing (received ++ [Happening.burst before])).prospects
        (.call p command body timeout) = some (received ++ [Happening.burst before]) := by
      simp only [prospects, facing, hplace, List.append_nil]
    rw [call_of_placed (w := w.facing _) hplace hfacing] at hlate
    have hlate := eq_of_map_error hlate (by simp)
    rw [call_of_placed hplace prospects_eq, await_answer_end (s := { w.station with line }) hopen
      hwaits carries goes ends ⟨operation, span, hlate⟩]
    rfl

/-- and so is whoever waits until attaching is allowed. -/
theorem awaitAllowed_eq {timeout : Span} (hs : w.station.Intact)
    (h : w.ChannelLost (.attachAllowed timeout)) :
    (awaitAllowed timeout w.station w.ahead).1 = .error .channelClosed := by
  cases h with
  | before ended lacks => exact awaitAllowed_of_ended hs ended lacks.1 lacks.2 w.ahead
  | during isOpen prospects_eq carries goes ends undecided =>
    rw [Option.some.inj prospects_eq]
    exact awaitAllowed_end hs isOpen undecided.1 carries goes ends undecided.2

/-- Whoever waits for a confirmation is not. -/
theorem await_confirmation_eq {timeout : Span} (hs : w.station.Intact)
    (h : w.ChannelLost (.confirmation timeout)) :
    (await takeConfirmation takeConfirmation w.station w.ahead).1 = none := by
  cases h with
  | before ended lacks => exact await_confirmation_of_ended hs ended lacks w.ahead
  | during isOpen prospects_eq carries goes ends undecided =>
    rw [Option.some.inj prospects_eq]
    exact await_confirmation_end hs isOpen carries goes ends undecided

end ChannelLost

end Stage

/-- What an act that is left waiting at the end of the channel makes of a procedure. -/
def Act.lossError : Act → ModemError
  | .confirmation timeout => .call (.timeout NoticeId.modeSet.name timeout)
  | _ => .call .channelClosed

theorem Stage.ChannelLost.failure?_eq {w : Stage} {a : Act} (hs : w.station.Intact)
    (h : w.ChannelLost a) : Deed.failure? ⟨a, (w.perform a).1⟩ = some a.lossError := by
  cases a with
  | call p command body timeout =>
    have hend : (w.perform (.call p command body timeout)).1 = .error .channelClosed := h.call_eq hs
    rw [hend]
    rfl
  | confirmation timeout =>
    have hend : (w.perform (.confirmation timeout)).1 = none := h.await_confirmation_eq hs
    rw [hend]
    rfl
  | attachAllowed timeout =>
    have hend : (w.perform (.attachAllowed timeout)).1 = .error .channelClosed := h.awaitAllowed_eq hs
    rw [hend]
    rfl
  | _ =>
    -- nothing is waited for
    cases h with
    | before _ lacks => exact lacks.elim
    | during _ _ _ _ _ undecided => exact undecided.elim

/-! ## Bringing the modem up -/

/-- A station that was not used, before a peer. -/
def Stage.fresh (config : ClientConfig) (peer : Peer) (ahead : List Happening) : Stage :=
  { station := Station.start config, peer, ahead }

namespace Modem

/-- A bring-up on whose channel the act behind the first `n` is left waiting ends with that act's error. -/
theorem bringUp_of_channelLost (config : ClientConfig) (peer : Peer) (ahead : List Happening)
    (c : ModemConfig) (n : Nat) {a : Act}
    (hact : ((Stage.fresh config peer ahead).advance n (bringUp c).run).2.act? = some a)
    (hlost : ((Stage.fresh config peer ahead).advance n (bringUp c).run).1.ChannelLost a) :
    ((Stage.fresh config peer ahead).run (bringUp c).run).1 = .error a.lossError := by
  have hintact : (Stage.fresh config peer ahead).station.Intact := Station.intact_start config
  have hfailure := hlost.failure?_eq (hintact.advance n (bringUp c).run)
  obtain ⟨-, hreported⟩ := Session.Keeps.along (reports_bringUp c [] (by simp [Unfailed]))
    (Stage.fresh config peer ahead)
  exact hreported _ (Stage.mem_deeds hact) _ hfailure

/-- A bring-up whose channel ends reports that, exactly if it was not waiting for a confirmation of the
mode; if it was, it reports that the time for it has passed. -/
theorem bringUp_reports_loss_iff (config : ClientConfig) (peer : Peer) (ahead : List Happening)
    (c : ModemConfig) (n : Nat) {a : Act}
    (hact : ((Stage.fresh config peer ahead).advance n (bringUp c).run).2.act? = some a)
    (hlost : ((Stage.fresh config peer ahead).advance n (bringUp c).run).1.ChannelLost a) :
    (((Stage.fresh config peer ahead).run (bringUp c).run).1 = .error (.call .channelClosed) ↔
      a.isConfirmation = false) ∧
    ∀ timeout, a = .confirmation timeout → ((Stage.fresh config peer ahead).run (bringUp c).run).1
      = .error (.call (.timeout NoticeId.modeSet.name timeout)) := by
  rw [bringUp_of_channelLost config peer ahead c n hact hlost]
  cases a <;> simp [Act.lossError, Act.isConfirmation]

deriving instance DecidableEq for Supply, Happening, Act, Report

/-- The answers to the calls that open the subsystems. -/
def opening : List (List Cue) :=
  List.replicate 7 [.sync none []]

/-- The acknowledgement of the first transaction, which asks for the state of the lock. -/
def queryAcknowledged : Bytes :=
  [22, 0, 0, 0, 2, 4, 0, 0, 0, 22, 2, 4, 0, 0, 1, 123, 17, 0, 1, 1, 2, 4, 0, 0, 0, 1]

/-- The channel ends behind that acknowledgement. -/
def cutAtLock : Peer :=
  Peer.ofScript (opening ++ [[.acknowledge none none, .close]])

/-- A bring-up is told of the end between the two answers of a transaction. -/
theorem bringUp_reports_loss_iff_cutAtLock :
    let w := Stage.fresh {} cutAtLock []
    let session := (bringUp { apn := "x" }).run
    let query : Act := .call .transaction CallId.fccLockQuery.code [] (.ofSeconds 30)
    (w.advance 7 session).2.act? = some query ∧ (w.advance 7 session).1.ChannelLost query ∧
      (w.run session).1 = .error (.call .channelClosed) := by
  intro w session query
  have hact : (w.advance 7 session).2.act? = some query := by decide +kernel
  have hprospects : (w.advance 7 session).1.prospects query
      = some ([] ++ .burst ([.bytes queryAcknowledged] ++ .bytes [] :: []) :: []) := by
    decide +kernel
  have hlate : (((w.advance 7 session).1.facing ([] ++ [.burst [.bytes queryAcknowledged]])).call
      .transaction CallId.fccLockQuery.code [] (.ofSeconds 30)).1
        = .error (.timeout "transaction 1 (call 0x017b)" (.ofSeconds 30)) := by
    decide +kernel
  have hlost : (w.advance 7 session).1.ChannelLost query := by
    refine .during (by decide +kernel) hprospects (by simp) ?_ rfl ⟨_, _, hlate⟩
    simp [Supply.EndsReading, queryAcknowledged]
  exact ⟨hact, hlost,
    (bringUp_reports_loss_iff {} cutAtLock [] { apn := "x" } 7 hact hlost).1.mpr rfl⟩

/-- The lock is off, and the mode is acknowledged and set; the channel ends before the confirmation. -/
def cutAtMode : Peer :=
  Peer.ofScript (opening ++
    [[.acknowledge none none, .result none none (Value.dword 0 ++ Value.dword 0 ++ Value.dword 0)],
     [.acknowledge none none, .result none none (Value.dword 0), .close]])

/-- A bring-up that waits for the confirmation of the mode is not told that the channel has ended: it
waits for as long as a call may take, and reports that. -/
theorem loss_before_confirmation_is_late :
    let w := Stage.fresh {} cutAtMode []
    let session := (bringUp { apn := "x", callTimeout := .ofMillis 50 }).run
    let wait : Act := .confirmation (.ofMillis 50)
    (w.advance 10 session).2.act? = some wait ∧ (w.advance 10 session).1.ChannelLost wait ∧
      (w.run session).1 = .error (.call (.timeout "UtaModeSetRspCb" (.ofMillis 50))) ∧
      (w.run session).1 ≠ .error (.call .channelClosed) := by
  intro w session wait
  have hact : (w.advance 10 session).2.act? = some wait := by decide +kernel
  have hended : (w.advance 10 session).1.station.line.ended = true := by decide +kernel
  have hnone : (w.advance 10 session).1.station.confirmations = [] := by decide +kernel
  have hlate : (w.run session).1 = .error (.call (.timeout "UtaModeSetRspCb" (.ofMillis 50))) := by
    decide +kernel
  exact ⟨hact, .before hended hnone, hlate, by simp [hlate]⟩

end Modem

end Wwan
