import Wwan.Modem.BringUp
import Wwan.Proofs.Modem.Dialogue

/-!
# What a failed act makes of a bring-up

A bring-up goes on behind no act that failed: its error is that of the act (`reports_bringUp`).
-/

namespace Wwan

/-- The error of an act that failed, as a procedure reports it. -/
def Deed.failure? : Deed → Option ModemError
  | ⟨.call _ _ _ _, .error e⟩ => some (.call e)
  | ⟨.confirmation timeout, none⟩ => some (.call (.timeout NoticeId.modeSet.name timeout))
  | ⟨.attachAllowed _, .error e⟩ => some (.call e)
  | _ => none

/-- None of the acts has failed. -/
def Unfailed (past : List Deed) : Prop :=
  ∀ d ∈ past, d.failure? = none

/-- The error of an act that failed is the result. -/
def Reported {α : Type} (now : List Deed) (r : Except ModemError α) : Prop :=
  ∀ d ∈ now, ∀ e, d.failure? = some e → r = .error e

theorem Unfailed.concat {past : List Deed} (h : Unfailed past) {d : Deed} (hd : d.failure? = none) :
    Unfailed (past ++ [d]) := by
  intro d' hd'
  obtain hpast | hlast := List.mem_append.mp hd'
  · exact h d' hpast
  · exact List.mem_singleton.mp hlast ▸ hd

theorem Unfailed.reported {α : Type} {now : List Deed} (h : Unfailed now)
    (r : Except ModemError α) : Reported now r := by
  intro d hd e he
  rw [h d hd] at he
  cases he

theorem Unfailed.reported_concat {α : Type} {past : List Deed} (h : Unfailed past) {d : Deed}
    {r : Except ModemError α} (hd : ∀ e, d.failure? = some e → r = .error e) :
    Reported (past ++ [d]) r := by
  intro d' hd' e he
  obtain hpast | hlast := List.mem_append.mp hd'
  · rw [h d' hpast] at he
    cases he
  · exact hd e (List.mem_singleton.mp hlast ▸ he)

/-- What does not end with an error has had no failure. -/
theorem Reported.unfailed {α : Type} {now : List Deed} {a : α}
    (h : Reported now (Except.ok a : Except ModemError α)) : Unfailed now := by
  intro d hd
  rcases hfailure : d.failure? with _ | e
  · rfl
  · exact nomatch h d hd e hfailure

namespace Procedure

variable {α β : Type}

/-- A procedure ends with the error of an act that failed. -/
def Reports (p : Procedure α) : Prop :=
  ∀ past, Unfailed past → Session.Keeps (fun _ _ => True) past p.run Reported

theorem reports_pure {a : α} : Reports (pure a) :=
  fun _ hpast => hpast.reported _

theorem reports_throw {e : ModemError} : Reports (throw e : Procedure α) :=
  fun _ hpast => hpast.reported _

theorem reports_ofExcept {x : Except ModemError α} : Reports (ofExcept x) := by
  cases x with
  | error e => exact reports_throw
  | ok a => exact reports_pure

theorem Reports.bind {p : Procedure α} {f : α → Procedure β} (hp : Reports p)
    (hf : ∀ a, Reports (f a)) : Reports (p >>= f) := by
  intro past hpast
  refine Session.Keeps.bind (hp past hpast) fun now r hr => ?_
  cases r with
  | error e =>
    intro d hd e' he
    rw [Except.error.inj (hr d hd e' he)]
  | ok a => exact hf a now hr.unfailed

theorem Reports.discard {p : Procedure α} (hp : Reports p) : Reports (discard p) :=
  hp.bind fun _ => reports_pure

theorem Reports.ite {c : Prop} [Decidable c] {p q : Procedure α} (hp : Reports p) (hq : Reports q) :
    Reports (if c then p else q) := by
  by_cases hc : c
  · rw [if_pos hc]
    exact hp
  · rw [if_neg hc]
    exact hq

/-- Nothing is done behind a failure. -/
theorem Reports.unless {c : Prop} [Decidable c] {e : ModemError} {f : Unit → Procedure β}
    (h : Reports (f ())) : Reports (if c then throw e >>= f else f ()) := by
  by_cases hc : c
  · rw [if_pos hc]
    exact fun past hpast => hpast.reported _
  · rw [if_neg hc]
    exact h

theorem reports_call {p : Purpose} {command : UInt32} {body : Bytes} {timeout : Span} :
    Reports (call p command body timeout) := by
  refine fun past hpast => ⟨trivial, fun r => hpast.reported_concat fun e he => ?_⟩
  cases r with
  | error e' => exact congrArg Except.error (Option.some.inj he)
  | ok reply => cases he

theorem reports_awaitAttach {c : ModemConfig} : Reports (awaitAttach c) := by
  refine fun past hpast => ⟨trivial, fun r => hpast.reported_concat fun e he => ?_⟩
  cases r with
  | error e' => exact congrArg Except.error (Option.some.inj he)
  | ok u => cases he

theorem reports_confirmation {c : ModemConfig} : Reports (confirmation c) := by
  refine fun past hpast => ⟨trivial, fun r => hpast.reported_concat fun e he => ?_⟩
  cases r with
  | none => exact congrArg Except.error (Option.some.inj he)
  | some body => cases he

theorem reports_pause {length : Span} : Reports (pause length) :=
  fun _ hpast => ⟨trivial, fun _ => (hpast.concat rfl).reported _⟩

theorem Reports.listening {p : Procedure α} (hp : Reports p) : Reports (listening p) := by
  refine fun past hpast => ⟨trivial, fun _ => ?_⟩
  refine Session.Keeps.bind (s := p.run) (hp _ (hpast.concat rfl)) fun now r hr => ?_
  refine ⟨trivial, fun _ => ?_⟩
  intro d hd e he
  obtain hnow | hlast := List.mem_append.mp hd
  · exact hr d hnow e he
  · obtain rfl := List.mem_singleton.mp hlast
    cases he

end Procedure

namespace Modem

open Procedure

theorem reports_init (c : ModemConfig) : Reports (init c) := by
  suffices hall : ∀ ids : List CallId, Reports (ids.forM fun id => discard (ask c id [])) from
    hall initSequence
  intro ids
  induction ids with
  | nil => exact reports_pure
  | cons id ids ih => exact reports_call.discard.bind fun _ => ih

theorem reports_unlock (c : ModemConfig) : Reports (unlock c) := by
  refine reports_call.bind fun reply => ?_
  refine reports_ofExcept.bind fun values => ?_
  refine reports_ofExcept.bind fun state => ?_
  refine reports_ofExcept.bind fun mode => ?_
  refine .ite reports_pure (.ite reports_pure ?_)
  refine reports_call.bind fun reply => ?_
  refine reports_ofExcept.bind fun challenge => ?_
  refine reports_call.bind fun reply => ?_
  refine reports_ofExcept.bind fun accepted => ?_
  exact .unless reports_pure

theorem reports_requestMode (c : ModemConfig) (mode : UInt32) : Reports (requestMode c mode) := by
  refine reports_call.bind fun reply => ?_
  refine reports_ofExcept.bind fun status => .unless ?_
  refine reports_confirmation.bind fun body => ?_
  refine reports_ofExcept.bind fun reported => ?_
  exact .ite reports_throw reports_pure

theorem reports_setMode (c : ModemConfig) (mode : UInt32) : Reports (setMode c mode) :=
  (reports_requestMode c mode).listening

theorem reports_configureApn (c : ModemConfig) : Reports (configureApn c) :=
  reports_ofExcept.bind fun _ => reports_call.discard

theorem reports_requestAttach (c : ModemConfig) : Reports (requestAttach c) :=
  reports_call.bind fun _ => reports_ofExcept

theorem reports_attach (c : ModemConfig) : Reports (attach c) := by
  refine (reports_requestAttach c).bind fun status => .ite ?_ reports_pure
  refine reports_awaitAttach.bind fun _ => ?_
  refine (reports_requestAttach c).bind fun status => ?_
  exact .ite reports_throw reports_pure

theorem reports_queryNetwork (c : ModemConfig) : Reports (queryNetwork c) := by
  refine reports_call.bind fun reply => ?_
  refine reports_ofExcept.bind fun values => ?_
  refine reports_ofExcept.bind fun address => ?_
  refine reports_call.bind fun reply => ?_
  exact reports_ofExcept.bind fun values => reports_pure

theorem reports_networkConfig (c : ModemConfig) : Reports (networkConfig c) := by
  have hpoll : ∀ tries, Reports (pollNetwork c tries) := by
    intro tries
    induction tries with
    | zero => exact reports_pure
    | succ tries ih =>
      refine (reports_queryNetwork c).bind fun found => ?_
      cases found with
      | some network => exact reports_pure
      | none => exact .ite (reports_pause.bind fun _ => ih) ih
  refine (hpoll _).bind fun found => ?_
  cases found with
  | some network => exact reports_pure
  | none => exact reports_throw

theorem reports_connectDatachannel (c : ModemConfig) : Reports (connectDatachannel c) := by
  refine reports_call.bind fun connect => ?_
  refine reports_ofExcept.bind fun body => ?_
  refine reports_call.bind fun datachannel => ?_
  exact reports_ofExcept.bind fun setup => reports_call.discard

/-- A bring-up ends with the error of an act that failed. -/
theorem reports_bringUp (c : ModemConfig) : Reports (bringUp c) := by
  refine (reports_init c).bind fun _ => ?_
  refine (reports_unlock c).bind fun lock => ?_
  refine (reports_setMode c online).bind fun _ => ?_
  refine (reports_configureApn c).bind fun _ => ?_
  refine (reports_attach c).bind fun _ => ?_
  refine (reports_networkConfig c).bind fun network => ?_
  exact (reports_connectDatachannel c).bind fun _ => reports_pure

end Modem

end Wwan
