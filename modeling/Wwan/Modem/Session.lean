import Wwan.Client.Call
import Wwan.Modem.Basic

/-!
# Sessions

A session is what the host does on the command channel, written down as acts: each is a request and
the wait for its answer, or a wait for what the modem sends of its own accord.  What an act gives
decides what is done next.  A session does nothing by itself; it is carried out elsewhere.
-/

namespace Wwan

/-- One thing that the host does. -/
inductive Act where
  /-- Sends a request and waits for what it is after. -/
  | call (p : Purpose) (command : UInt32) (body : Bytes) (timeout : Span)
  /-- From now on keeps the modem's confirmations of its mode. -/
  | listen
  /-- Keeps no more confirmations. -/
  | unlisten
  /-- Waits for a confirmation. -/
  | confirmation (timeout : Span)
  /-- Waits until the network allows attaching. -/
  | attachAllowed (timeout : Span)
  /-- Lets time pass. -/
  | pause (length : Span)

/-- What an act gives. -/
abbrev Act.Answer : Act → Type
  | .call _ _ _ _ => Except CallError Bytes
  | .listen => Unit
  | .unlisten => Unit
  | .confirmation _ => Option Bytes
  | .attachAllowed _ => Except CallError Unit
  | .pause _ => Unit

/-- A sequence of acts that ends with a result. -/
inductive Session (α : Type) where
  | pure (a : α)
  | act (a : Act) (next : a.Answer → Session α)

namespace Session

variable {α β : Type}

/-- Goes on with the result of a session. -/
def bind : Session α → (α → Session β) → Session β
  | pure a, f => f a
  | act a next, f => act a fun r => (next r).bind f

instance : Monad Session where
  pure := Session.pure
  bind := Session.bind

/-- The session of a single act. -/
def perform (a : Act) : Session a.Answer :=
  act a pure

@[simp] theorem pure_bind (a : α) (f : α → Session β) : (Session.pure a).bind f = f a := rfl

theorem bind_pure (s : Session α) : s.bind Session.pure = s := by
  induction s with
  | pure a => rfl
  | act a next ih => simp only [bind, ih]

theorem bind_assoc {γ : Type} (s : Session α) (f : α → Session β) (g : β → Session γ) :
    (s.bind f).bind g = s.bind fun a => (f a).bind g := by
  induction s with
  | pure a => rfl
  | act a next ih => simp only [bind, ih]

end Session

/-- A session that may fail, and ends when it does. -/
abbrev Procedure := ExceptT ModemError Session

namespace Procedure

/-- Calls the modem. -/
def call (p : Purpose) (command : UInt32) (body : Bytes) (timeout : Span) : Procedure Bytes :=
  ExceptT.mk (.act (.call p command body timeout) fun r => .pure (r.mapError .call))

/-- Calls the modem and waits for the next answer. -/
def ask (c : ModemConfig) (id : CallId) (body : Bytes) : Procedure Bytes :=
  call .answer id.code body c.callTimeout

/-- Calls the modem and waits for the result of the transaction. -/
def transact (c : ModemConfig) (id : CallId) (body : Bytes) : Procedure Bytes :=
  call .transaction id.code body c.callTimeout

/-- Waits until the network allows attaching. -/
def awaitAttach (c : ModemConfig) : Procedure Unit :=
  ExceptT.mk (.act (.attachAllowed c.attachWait) fun r => .pure (r.mapError .call))

/-- Waits for a confirmation of the mode. -/
def confirmation (c : ModemConfig) : Procedure Bytes :=
  ExceptT.mk (.act (.confirmation c.callTimeout) fun r => .pure (match r with
    | some body => .ok body
    | none => .error (.call (.timeout NoticeId.modeSet.name c.callTimeout))))

/-- Lets time pass. -/
def pause (length : Span) : Procedure Unit :=
  ExceptT.mk (.act (.pause length) fun _ => .pure (.ok ()))

/-- Carries a procedure out while confirmations are kept, and no longer, however it ends. -/
def listening {α : Type} (p : Procedure α) : Procedure α :=
  ExceptT.mk do
    Session.perform .listen
    let r ← p.run
    Session.perform .unlisten
    return r

end Procedure

end Wwan
