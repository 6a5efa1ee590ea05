import Wwan.Modem.Station

/-!
# What a session does

A session that is carried out leaves a record of its acts and of what each of them gave
(`Stage.deeds`).  `Session.Keeps` says of a session that it does only what a law allows, in view of what
was done before, whatever its acts give; it is shown step by step, along the way in which a procedure is
put together.  What is shown so holds wherever the session is carried out (`Session.Keeps.along`).
-/

namespace Wwan

/-! ## The record -/

/-- An act that was carried out, with what it gave. -/
structure Deed where
  act : Act
  answer : act.Answer

/-- A request of a session, with what its call gave. -/
structure Exchange where
  purpose : Purpose
  command : UInt32
  body : Bytes
  answer : Except CallError Bytes

/-- Whether a call was answered. -/
def Exchange.Answered (e : Exchange) : Prop :=
  ∃ reply, e.answer = .ok reply

/-- The request of a deed, if it made one. -/
def Deed.exchange? : Deed → Option Exchange
  | ⟨.call p command body _, r⟩ => some ⟨p, command, body, r⟩
  | _ => none

/-- The requests of a record with what their calls gave, oldest first. -/
def exchanges (past : List Deed) : List Exchange :=
  past.filterMap Deed.exchange?

/-- The commands of the requests of a record. -/
def commands (past : List Deed) : List UInt32 :=
  (exchanges past).map Exchange.command

/-- The acts of a session that is carried out, with what they give. -/
def Stage.deeds {α : Type} (w : Stage) : Session α → List Deed
  | .pure _ => []
  | .act a next => ⟨a, (w.perform a).1⟩ :: (w.perform a).2.deeds (next (w.perform a).1)

theorem exchanges_append (past more : List Deed) :
    exchanges (past ++ more) = exchanges past ++ exchanges more :=
  List.filterMap_append

@[simp] theorem exchanges_call (past : List Deed) (p : Purpose) (command : UInt32) (body : Bytes)
    (timeout : Span) (r : Except CallError Bytes) :
    exchanges (past ++ [⟨.call p command body timeout, r⟩])
      = exchanges past ++ [⟨p, command, body, r⟩] :=
  exchanges_append past _

/-- An act that is no call adds no request. -/
theorem exchanges_of_none {past : List Deed} {d : Deed} (h : d.exchange? = none) :
    exchanges (past ++ [d]) = exchanges past := by
  rw [exchanges_append, exchanges, exchanges, List.filterMap_cons_none h]
  exact List.append_nil _

theorem commands_append (past more : List Deed) :
    commands (past ++ more) = commands past ++ commands more := by
  rw [commands, exchanges_append, List.map_append]
  rfl

/-! ## Sessions that keep a law -/

namespace Session

variable {α β : Type} {law : List Deed → Act → Prop}

/-- A session does only what a law allows, given what was done before, and ends as `post` says. -/
def Keeps (law : List Deed → Act → Prop) (past : List Deed) :
    Session α → (List Deed → α → Prop) → Prop
  | .pure a, post => post past a
  | .act a next, post => law past a ∧ ∀ r, (next r).Keeps law (past ++ [⟨a, r⟩]) post

theorem Keeps.mono {past : List Deed} {s : Session α} {post post' : List Deed → α → Prop}
    (h : s.Keeps law past post) (hpost : ∀ now a, post now a → post' now a) :
    s.Keeps law past post' := by
  induction s generalizing past with
  | pure a => exact hpost past a h
  | act a next ih => exact ⟨h.1, fun r => ih r (h.2 r)⟩

theorem Keeps.bind {past : List Deed} {s : Session α} {f : α → Session β}
    {mid : List Deed → α → Prop} {post : List Deed → β → Prop} (hs : s.Keeps law past mid)
    (hf : ∀ now a, mid now a → (f a).Keeps law now post) : (s.bind f).Keeps law past post := by
  induction s generalizing past with
  | pure a => exact hf past a hs
  | act a next ih => exact ⟨hs.1, fun r => ih r (hs.2 r)⟩

/-- What was done stays done. -/
theorem Keeps.grows {past : List Deed} {s : Session α} {post : List Deed → α → Prop}
    (h : s.Keeps law past post) :
    s.Keeps law past fun now a => post now a ∧ ∃ new, now = past ++ new := by
  induction s generalizing past with
  | pure a => exact ⟨h, [], (List.append_nil past).symm⟩
  | act a next ih =>
    refine ⟨h.1, fun r => (ih r (h.2 r)).mono ?_⟩
    rintro now b ⟨hpost, new, rfl⟩
    exact ⟨hpost, ⟨a, r⟩ :: new, by simp⟩

/-- A session that keeps a law keeps it wherever it is carried out, at each of its acts. -/
theorem Keeps.along {past : List Deed} {s : Session α} {post : List Deed → α → Prop}
    (h : s.Keeps law past post) (w : Stage) :
    (∀ before d after, w.deeds s = before ++ d :: after → law (past ++ before) d.act) ∧
      post (past ++ w.deeds s) (w.run s).1 := by
  induction s generalizing past w with
  | pure a =>
    refine ⟨fun before d after hdeeds => ?_, ?_⟩
    · exact absurd hdeeds.symm (by simp [Stage.deeds])
    · rw [Stage.deeds, List.append_nil]
      exact h
  | act a next ih =>
    obtain ⟨hnext, hend⟩ := ih _ (h.2 (w.perform a).1) (w.perform a).2
    refine ⟨fun before d after hdeeds => ?_, ?_⟩
    · cases before with
      | nil =>
        obtain rfl : (⟨a, (w.perform a).1⟩ : Deed) = d := (List.cons.inj hdeeds).1
        rw [List.append_nil]
        exact h.1
      | cons first before =>
        -- the first deed is that of this act, and the others are those of the rest
        obtain ⟨rfl, hrest⟩ := List.cons.inj hdeeds
        have hlaw := hnext before d after hrest
        rwa [List.append_assoc] at hlaw
    · rw [List.append_assoc] at hend
      exact hend

end Session

namespace Procedure

variable {α β : Type} {law : List Deed → Act → Prop} {past : List Deed}

/-- A procedure does only what a law allows, whatever its acts give; if it does not fail, it ends as
`post` says. -/
def Keeps (law : List Deed → Act → Prop) (past : List Deed) (p : Procedure α)
    (post : List Deed → α → Prop) : Prop :=
  Session.Keeps law past p.run fun now r => ∀ a, r = .ok a → post now a

theorem Keeps.mono {p : Procedure α} {post post' : List Deed → α → Prop}
    (h : Keeps law past p post) (hpost : ∀ now a, post now a → post' now a) :
    Keeps law past p post' :=
  Session.Keeps.mono h fun now _ hr a ha => hpost now a (hr a ha)

theorem Keeps.grows {p : Procedure α} {post : List Deed → α → Prop} (h : Keeps law past p post) :
    Keeps law past p fun now a => post now a ∧ ∃ new, now = past ++ new :=
  Session.Keeps.mono (Session.Keeps.grows h) fun _ _ hr a ha => ⟨hr.1 a ha, hr.2⟩

theorem keeps_pure {a : α} {post : List Deed → α → Prop} (h : post past a) :
    Keeps law past (pure a) post := by
  intro b hb
  cases hb
  exact h

theorem keeps_throw {e : ModemError} {post : List Deed → α → Prop} :
    Keeps law past (throw e) post := by
  intro a ha
  cases ha

theorem keeps_ofExcept {x : Except ModemError α} {post : List Deed → α → Prop}
    (h : ∀ a, x = .ok a → post past a) : Keeps law past (ofExcept x) post := by
  cases x with
  | error e => exact keeps_throw
  | ok a => exact keeps_pure (h a rfl)

/-- A procedure that goes on with the result of another keeps the law if both do. -/
theorem Keeps.bind {p : Procedure α} {f : α → Procedure β} {mid : List Deed → α → Prop}
    {post : List Deed → β → Prop} (hp : Keeps law past p mid)
    (hf : ∀ now a, mid now a → Keeps law now (f a) post) : Keeps law past (p >>= f) post := by
  refine Session.Keeps.bind hp fun now r hr => ?_
  cases r with
  | error e =>
    intro b hb
    cases hb
  | ok a => exact hf now a (hr a rfl)

theorem Keeps.ofExcept_bind {x : Except ModemError α} {f : α → Procedure β}
    {post : List Deed → β → Prop} (h : ∀ a, x = .ok a → Keeps law past (f a) post) :
    Keeps law past (ofExcept x >>= f) post := by
  cases x with
  | error e =>
    intro b hb
    cases hb
  | ok a => exact h a rfl

/-- Nothing is done behind a failure. -/
theorem Keeps.unless {p : Prop} [Decidable p] {e : ModemError} {f : Unit → Procedure β}
    {post : List Deed → β → Prop} (h : ¬p → Keeps law past (f ()) post) :
    Keeps law past (if p then throw e >>= f else f ()) post := by
  by_cases hp : p
  · rw [if_pos hp]
    intro b hb
    cases hb
  · rw [if_neg hp]
    exact h hp

theorem Keeps.discard {p : Procedure α} {post : List Deed → α → Prop} (h : Keeps law past p post) :
    Keeps law past (discard p) fun now _ => ∃ a, post now a :=
  Keeps.bind h fun _ a hpost => keeps_pure ⟨a, hpost⟩

theorem keeps_call {p : Purpose} {command : UInt32} {body : Bytes} {timeout : Span}
    (hlaw : law past (.call p command body timeout)) :
    Keeps law past (call p command body timeout) fun now reply =>
      now = past ++ [⟨.call p command body timeout, .ok reply⟩] := by
  refine ⟨hlaw, fun r reply hr => ?_⟩
  cases r with
  | error e => cases hr
  | ok reply' =>
    cases hr
    rfl

theorem keeps_awaitAttach {c : ModemConfig} (hlaw : law past (.attachAllowed c.attachWait)) :
    Keeps law past (awaitAttach c) fun now _ =>
      now = past ++ [⟨.attachAllowed c.attachWait, .ok ()⟩] := by
  refine ⟨hlaw, fun r u hr => ?_⟩
  cases r with
  | error e => cases hr
  | ok u' => rfl

theorem keeps_confirmation {c : ModemConfig} (hlaw : law past (.confirmation c.callTimeout)) :
    Keeps law past (confirmation c) fun now body =>
      now = past ++ [⟨.confirmation c.callTimeout, some body⟩] := by
  refine ⟨hlaw, fun r body hr => ?_⟩
  cases r with
  | none => cases hr
  | some body' =>
    cases hr
    rfl

theorem keeps_pause {length : Span} (hlaw : law past (.pause length)) :
    Keeps law past (pause length) fun now _ => now = past ++ [⟨.pause length, ()⟩] :=
  ⟨hlaw, fun _ _ _ => rfl⟩

/-- Confirmations are kept no longer however a procedure ends, so that the law has to allow this at any
time. -/
theorem Keeps.listening {p : Procedure α} {post : List Deed → α → Prop} (hlisten : law past .listen)
    (hunlisten : ∀ now, law now .unlisten)
    (h : Keeps law (past ++ [⟨.listen, ()⟩]) p fun now a => post (now ++ [⟨.unlisten, ()⟩]) a) :
    Keeps law past (listening p) post := by
  refine ⟨hlisten, fun _ => ?_⟩
  refine Session.Keeps.bind (s := p.run) h fun now r hr => ?_
  exact ⟨hunlisten now, fun _ => hr⟩

end Procedure

end Wwan
