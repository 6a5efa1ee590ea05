import Wwan.Modem.BringUp
import Wwan.Modem.Rehearsal
import Wwan.Proofs.Modem.Wire

/-!
# The order of a bring-up

What a bring-up asks of the modem, in which order, and what it has to have been told before:

* `plan` lists the calls of a bring-up that goes through;
* `Due` says for each call what was told before it is made, and what it carries;
* `keeps_bringUp`: whatever the modem does, every call is the next one of a plan, is due, and follows
  calls that were all answered.
-/

namespace Wwan

/-- What a call waits for: the next answer, or the result of a transaction. -/
def CallId.purpose : CallId → Purpose
  | .smsInit | .cbsInit | .netOpen | .callCsInit | .callPsInit | .ssInit | .simOpen
  | .connectToDatachannel | .psConnectSetup => .answer
  | _ => .transaction

theorem CallId.code_inj {a b : CallId} (h : a.code = b.code) : a = b := by
  have hfound := ofCode?_code a
  rw [h, ofCode?_code] at hfound
  exact (Option.some.inj hfound).symm

namespace Modem

open Procedure

/-! ## What was told -/

/-- What an exchange tells in reply to a call. -/
def replyTo? (id : CallId) (e : Exchange) : Option Bytes :=
  if e.command = id.code then e.answer.toOption else none

/-- The last reply to a call. -/
def said (id : CallId) (past : List Deed) : Option Bytes :=
  (exchanges past).reverse.findSome? (replyTo? id)

/-- The integer at a place of the last reply to a call. -/
def told (id : CallId) (i : Nat) (past : List Deed) : Option UInt32 :=
  (said id past).bind fun reply => (replyInt id reply i).toOption

/-- What a wait for a confirmation has given. -/
def confirmation? : Deed → Option Bytes
  | ⟨.confirmation _, r⟩ => r
  | _ => none

/-- The mode that the last confirmation tells. -/
def modeConfirmed (past : List Deed) : Option UInt32 :=
  (past.reverse.findSome? confirmation?).bind fun body => (replyInt .modeSet body 1).toOption

/-- Whether the network was heard to allow attaching. -/
def Allowed (past : List Deed) : Prop :=
  ∃ timeout, ⟨.attachAllowed timeout, .ok ()⟩ ∈ past

/-- The address that the last reply tells; `some none` if it tells that none is assigned. -/
def addressTold (past : List Deed) : Option (Option Ipv4) := do
  let reply ← said .negotiatedAddress past
  let values ← (replyValues .negotiatedAddress reply).toOption
  (addressOfReply values).toOption

/-- The network's configuration that the last replies tell. -/
def networkTold (past : List Deed) : Option (Option Network) := do
  let address ← addressTold past
  let reply ← said .negotiatedDns past
  let values ← (replyValues .negotiatedDns reply).toOption
  let (dnsV4, dnsV6) := dnsOfReply values
  return address.map fun address => { address, dnsV4, dnsV6 }

/-- The modem has a lock, and it is closed. -/
def Locked (past : List Deed) : Prop :=
  told .fccLockQuery 1 past = some 0 ∧ ∃ mode ≠ 0, told .fccLockQuery 2 past = some mode

/-- How the lock was found, as the replies tell it. -/
def LockFound (past : List Deed) : FccLock.Outcome → Prop
  | .notRequired =>
    (∃ state, told .fccLockQuery 1 past = some state) ∧ told .fccLockQuery 2 past = some 0
  | .alreadyUnlocked =>
    (∃ state ≠ 0, told .fccLockQuery 1 past = some state) ∧
      ∃ mode ≠ 0, told .fccLockQuery 2 past = some mode
  | .unlocked => Locked past ∧ told .fccLockVerify 1 past = some 1

/-! ## The plan -/

/-- The calls until the lock is open. -/
def unlockPlan (lock : FccLock.Outcome) : List CallId :=
  initSequence ++ .fccLockQuery ::
    if lock = .unlocked then [.fccLockChallenge, .fccLockVerify] else []

/-- The calls until the modem is attached, at the first or the second request. -/
def attachPlan (lock : FccLock.Outcome) (again : Bool) : List CallId :=
  unlockPlan lock ++ [.modeSet, .attachApnConfig, .netAttach] ++ if again then [.netAttach] else []

/-- The calls until the network's configuration was asked for this many times. -/
def networkPlan (lock : FccLock.Outcome) (again : Bool) (polls : Nat) : List CallId :=
  attachPlan lock again ++ (List.replicate polls [.negotiatedAddress, .negotiatedDns]).flatten

/-- The calls of a bring-up that goes through. -/
def plan (lock : FccLock.Outcome) (again : Bool) (polls : Nat) : List CallId :=
  networkPlan lock again polls ++ [.psConnect, .connectToDatachannel, .psConnectSetup]

/-- Calls are made as planned, as far as they go. -/
def InOrder (c : ModemConfig) (ids : List CallId) : Prop :=
  ∃ lock again polls, 1 ≤ polls ∧ polls ≤ max c.fetchAttempts 1 ∧ ids <+: plan lock again polls

/-- A record has the calls with these names, and all were answered. -/
structure Made (past : List Deed) (ids : List CallId) : Prop where
  commands_eq : commands past = ids.map CallId.code
  answered : ∀ e ∈ exchanges past, e.Answered

/-- What was told before a call, and what the call carries. -/
def Due (c : ModemConfig) (past : List Deed) : CallId → Bytes → Prop
  | .fccLockChallenge, body => body = [] ∧ Locked past
  | .fccLockVerify, body => Locked past ∧ ∃ challenge, told .fccLockChallenge 1 past = some challenge ∧
      body = Value.dword (FccLock.response challenge)
  | .modeSet, body => body = modeSetBody online ∧ ∃ lock, LockFound past lock
  | .attachApnConfig, body => apnConfigBody c.apn = .ok body ∧ told .modeSet 0 past = some 0 ∧
      modeConfirmed past = some online
  | .netAttach, body => body = netAttachBody ∧
      (said .netAttach past = none ∨ told .netAttach 1 past = some attachRejected ∧ Allowed past)
  | .negotiatedAddress, body => body = queryBody ∧
      (∃ status ≠ attachRejected, told .netAttach 1 past = some status) ∧
      (said .negotiatedAddress past = none ∨ networkTold past = some none)
  | .negotiatedDns, body => body = queryBody ∧ (addressTold past).isSome
  | .psConnect, body => body = psConnectBody ∧ ∃ network, networkTold past = some (some network)
  | .connectToDatachannel, body => datachannelBody c.datachannel = .ok body
  | .psConnectSetup, body => ∃ connect datachannel, said .psConnect past = some connect ∧
      said .connectToDatachannel past = some datachannel ∧
      connectSetupBody connect datachannel = .ok body
  | _, body => body = []

/-- The law of a bring-up: a call is made when all calls before it were answered, when it comes next,
and when it is due. -/
def Lawful (c : ModemConfig) (past : List Deed) : Act → Prop
  | .call p command body timeout => ∃ ids id, Made past ids ∧ InOrder c (ids ++ [id]) ∧
      command = id.code ∧ p = id.purpose ∧ timeout = c.callTimeout ∧ Due c past id body
  | _ => True

/-- The whole plan was carried out, and the report tells what the replies told. -/
structure Complete (c : ModemConfig) (past : List Deed) (report : Report) : Prop where
  made : ∃ again polls, 1 ≤ polls ∧ polls ≤ max c.fetchAttempts 1 ∧
    Made past (plan report.unlock again polls)
  lock_found : LockFound past report.unlock
  network_told : networkTold past = some (some report.network)

/-! ## Reading the record -/

section Record

variable {past : List Deed} {ids : List CallId}

/-- The record after a call that was answered: its reply is the last one to that call, and those to
other calls stay what they are. -/
structure Heard (past : List Deed) (id : CallId) (reply : Bytes) (now : List Deed) : Prop where
  said_eq : said id now = some reply
  said_ne : ∀ other ≠ id, said other now = said other past

theorem heard_call (past : List Deed) (id : CallId) (p : Purpose) (body : Bytes) (timeout : Span)
    (reply : Bytes) :
    Heard past id reply (past ++ [⟨.call p id.code body timeout, .ok reply⟩]) := by
  refine ⟨?_, fun other hne => ?_⟩
  · rw [said, exchanges_call, List.reverse_append]
    simp [replyTo?, Except.toOption]
  · have hcode : id.code ≠ other.code := fun hcode => hne (CallId.code_inj hcode).symm
    rw [said, exchanges_call, List.reverse_append]
    simp [replyTo?, hcode, said]

theorem said_of_none {d : Deed} (h : d.exchange? = none) (id : CallId) :
    said id (past ++ [d]) = said id past := by
  rw [said, exchanges_of_none h, said]

theorem told_congr {now : List Deed} {id : CallId} (h : said id now = said id past) (i : Nat) :
    told id i now = told id i past := by
  rw [told, h, told]

theorem told_of_said {id : CallId} {reply : Bytes} {values : List Value} {i : Nat} {n : UInt32}
    (h : said id past = some reply) (hvalues : replyValues id reply = .ok values)
    (hn : intAt id values i = .ok n) : told id i past = some n := by
  rw [told, h, Option.bind_some, replyInt, hvalues]
  exact congrArg Except.toOption hn

theorem Heard.told {now : List Deed} {id : CallId} {reply : Bytes} {i : Nat} {n : UInt32}
    (h : Heard past id reply now) (hn : replyInt id reply i = .ok n) :
    Modem.told id i now = some n := by
  rw [Modem.told, h.said_eq, Option.bind_some, hn]
  rfl

theorem told_of_none {d : Deed} (h : d.exchange? = none) (id : CallId) (i : Nat) :
    told id i (past ++ [d]) = told id i past :=
  told_congr (said_of_none h id) i

theorem modeConfirmed_confirmation (timeout : Span) (body : Bytes) :
    modeConfirmed (past ++ [⟨.confirmation timeout, some body⟩])
      = (replyInt .modeSet body 1).toOption := by
  rw [modeConfirmed, List.reverse_append]
  rfl

theorem modeConfirmed_of_none {d : Deed} (h : confirmation? d = none) :
    modeConfirmed (past ++ [d]) = modeConfirmed past := by
  rw [modeConfirmed, List.reverse_append, List.findSome?_append]
  simp [h, modeConfirmed]

theorem Locked.congr {now : List Deed} (h : Locked past)
    (hsaid : said .fccLockQuery now = said .fccLockQuery past) : Locked now := by
  rw [Locked, told_congr hsaid, told_congr hsaid]
  exact h

theorem LockFound.congr {now : List Deed} {lock : FccLock.Outcome} (h : LockFound past lock)
    (hquery : said .fccLockQuery now = said .fccLockQuery past)
    (hverify : said .fccLockVerify now = said .fccLockVerify past) : LockFound now lock := by
  cases lock with
  | notRequired | alreadyUnlocked =>
    rw [LockFound, told_congr hquery, told_congr hquery]
    exact h
  | unlocked => exact ⟨h.1.congr hquery, (told_congr hverify 1).trans h.2⟩

theorem addressTold_congr {now : List Deed}
    (h : said .negotiatedAddress now = said .negotiatedAddress past) :
    addressTold now = addressTold past := by
  rw [addressTold, h, addressTold]

theorem networkTold_congr {now : List Deed}
    (haddress : said .negotiatedAddress now = said .negotiatedAddress past)
    (hdns : said .negotiatedDns now = said .negotiatedDns past) :
    networkTold now = networkTold past := by
  rw [networkTold, addressTold_congr haddress, hdns, networkTold]

/-- Nothing was said in reply to a call that was not made. -/
theorem said_eq_none (h : commands past = ids.map CallId.code) {id : CallId} (hid : id ∉ ids) :
    said id past = none := by
  rw [said, List.findSome?_eq_none_iff]
  intro e he
  have hmem : e.command ∈ commands past := List.mem_map_of_mem (List.mem_reverse.mp he)
  rw [h, List.mem_map] at hmem
  obtain ⟨other, hother, hcode⟩ := hmem
  have hne : e.command ≠ id.code := by
    intro heq
    rw [← hcode] at heq
    exact hid (CallId.code_inj heq ▸ hother)
  rw [replyTo?, if_neg hne]

/-- What was said in reply to a call stays the last reply while other calls are made. -/
theorem said_append {new : List Deed} (h : commands new = ids.map CallId.code) {id : CallId}
    (hid : id ∉ ids) : said id (past ++ new) = said id past := by
  have hnew := said_eq_none h hid
  rw [said] at hnew
  rw [said, exchanges_append, List.reverse_append, List.findSome?_append, hnew]
  rfl

theorem made_nil : Made [] [] :=
  ⟨rfl, fun _ he => nomatch he⟩

theorem Made.call (h : Made past ids) (id : CallId) (p : Purpose) (body : Bytes) (timeout : Span)
    (reply : Bytes) : Made (past ++ [⟨.call p id.code body timeout, .ok reply⟩]) (ids ++ [id]) := by
  refine ⟨?_, fun e he => ?_⟩
  · rw [commands_append, h.commands_eq, List.map_append]
    rfl
  · rw [exchanges_call] at he
    obtain hpast | hlast := List.mem_append.mp he
    · exact h.answered e hpast
    · obtain rfl := List.mem_singleton.mp hlast
      exact ⟨reply, rfl⟩

theorem Made.of_none (h : Made past ids) {d : Deed} (hd : d.exchange? = none) :
    Made (past ++ [d]) ids := by
  refine ⟨?_, ?_⟩
  · rw [commands, exchanges_of_none hd]
    exact h.commands_eq
  · rw [exchanges_of_none hd]
    exact h.answered

end Record

/-! ## The order of the calls -/

section Steps

variable {c : ModemConfig} {past : List Deed} {ids : List CallId}

theorem unlockPlan_starts (lock : FccLock.Outcome) (again : Bool) :
    unlockPlan lock <+: attachPlan lock again := by
  rw [attachPlan, List.append_assoc]
  exact List.prefix_append _ _

theorem attachPlan_starts (lock : FccLock.Outcome) (again : Bool) (polls : Nat) :
    attachPlan lock again <+: networkPlan lock again polls :=
  List.prefix_append _ _

theorem networkPlan_starts (lock : FccLock.Outcome) (again : Bool) (polls : Nat) :
    networkPlan lock again polls <+: plan lock again polls :=
  List.prefix_append _ _

/-- The calls behind those to the lock ask nothing of it. -/
theorem plan_eq_unlockPlan_append (lock : FccLock.Outcome) (again : Bool) (polls : Nat) :
    ∃ rest, plan lock again polls = unlockPlan lock ++ rest ∧ .fccLockQuery ∉ rest ∧
      .fccLockVerify ∉ rest := by
  rw [plan, networkPlan, attachPlan, List.append_assoc, List.append_assoc, List.append_assoc]
  exact ⟨_, rfl, by cases again <;> simp, by cases again <;> simp⟩

theorem InOrder.of_networkPlan {lock : FccLock.Outcome} {again : Bool} {polls : Nat} (hpos : 1 ≤ polls)
    (hle : polls ≤ max c.fetchAttempts 1) (h : ids <+: networkPlan lock again polls) :
    InOrder c ids :=
  ⟨lock, again, polls, hpos, hle, h.trans (networkPlan_starts lock again polls)⟩

theorem InOrder.of_attachPlan {lock : FccLock.Outcome} {again : Bool}
    (h : ids <+: attachPlan lock again) : InOrder c ids :=
  .of_networkPlan (Nat.le_refl 1) (Nat.le_max_right _ _) (h.trans (attachPlan_starts lock again 1))

theorem InOrder.of_unlockPlan {lock : FccLock.Outcome} (h : ids <+: unlockPlan lock) :
    InOrder c ids :=
  .of_attachPlan (h.trans (unlockPlan_starts lock false))

/-! ## The steps -/

/-- A call that comes next and is due is lawful. -/
theorem keeps_request {p : Purpose} (id : CallId) {body : Bytes} (hp : p = id.purpose)
    (hmade : Made past ids) (horder : InOrder c (ids ++ [id])) (hdue : Due c past id body) :
    Keeps (Lawful c) past (call p id.code body c.callTimeout) fun now reply =>
      Made now (ids ++ [id]) ∧ Heard past id reply now := by
  refine (keeps_call ⟨ids, id, hmade, horder, rfl, hp, rfl, hdue⟩).mono ?_
  rintro _ reply rfl
  exact ⟨hmade.call .., heard_call ..⟩

theorem keeps_init (h : Made past []) :
    Keeps (Lawful c) past (init c) fun now _ => Made now initSequence := by
  -- on the subsystems that are left to open, behind those that are open
  suffices hrest : ∀ left opened now, opened ++ left = initSequence → Made now opened →
      Keeps (Lawful c) now (left.forM fun id => discard (ask c id [])) fun now _ =>
        Made now initSequence from hrest initSequence [] past rfl h
  intro left
  induction left with
  | nil =>
    intro opened now hall hmade
    rw [List.append_nil] at hall
    exact keeps_pure (hall ▸ hmade)
  | cons id left ih =>
    intro opened now hall hmade
    have hid : id ∈ initSequence := hall ▸ List.mem_append_right _ (List.mem_cons_self ..)
    have hdue : id.purpose = .answer ∧ Due c now id [] := by
      simp only [initSequence, List.mem_cons, List.not_mem_nil, or_false] at hid
      rcases hid with rfl | rfl | rfl | rfl | rfl | rfl | rfl <;> exact ⟨rfl, rfl⟩
    have horder : opened ++ [id] <+: unlockPlan .notRequired := by
      refine List.IsPrefix.trans ?_ (List.prefix_append initSequence _)
      exact ⟨left, by rw [← hall]; simp⟩
    refine Keeps.bind
      (Keeps.discard (keeps_request id hdue.1.symm hmade (.of_unlockPlan horder) hdue.2)) ?_
    rintro now' _ ⟨reply, hmade', -⟩
    exact ih (opened ++ [id]) now' (by rw [List.append_assoc]; exact hall) hmade'

/-- The answer to the challenge of a lock that is closed. -/
theorem keeps_answerChallenge (h : Made past (initSequence ++ [.fccLockQuery])) (hlocked : Locked past) :
    Keeps (Lawful c) past (do
      let challenge ← ofExcept (replyInt .fccLockChallenge (← transact c .fccLockChallenge []) 1)
      let reply ← transact c .fccLockVerify (Value.dword (FccLock.response challenge))
      let accepted ← ofExcept (replyInt .fccLockVerify reply 1)
      if accepted ≠ 1 then throw .unlockFailed
      return .unlocked) fun now lock =>
      Made now (unlockPlan lock) ∧ LockFound now lock := by
  have hchallenge : initSequence ++ [.fccLockQuery] ++ [.fccLockChallenge] <+: unlockPlan .unlocked :=
    ⟨[.fccLockVerify], rfl⟩
  have hverify : initSequence ++ [.fccLockQuery] ++ [.fccLockChallenge] ++ [.fccLockVerify]
      <+: unlockPlan .unlocked := ⟨[], rfl⟩
  refine Keeps.bind (keeps_request .fccLockChallenge rfl h (.of_unlockPlan hchallenge)
    ⟨rfl, hlocked⟩) ?_
  rintro asked reply ⟨hmade, hheard⟩
  have hstill : Locked asked := hlocked.congr (hheard.said_ne .fccLockQuery (by decide))
  refine Keeps.ofExcept_bind fun challenge hn => ?_
  refine Keeps.bind (keeps_request .fccLockVerify rfl hmade (.of_unlockPlan hverify)
    ⟨hstill, challenge, hheard.told hn, rfl⟩) ?_
  rintro answered reply' ⟨hmade', hheard'⟩
  refine Keeps.ofExcept_bind fun accepted haccepted => ?_
  refine Keeps.unless fun hrefused => ?_
  have hone : accepted = 1 := Decidable.of_not_not hrefused
  refine keeps_pure ⟨hmade', hstill.congr (hheard'.said_ne .fccLockQuery (by decide)), ?_⟩
  exact hone ▸ hheard'.told haccepted

theorem keeps_unlock (h : Made past initSequence) :
    Keeps (Lawful c) past (unlock c) fun now lock =>
      Made now (unlockPlan lock) ∧ LockFound now lock := by
  have horder : initSequence ++ [.fccLockQuery] <+: unlockPlan .notRequired := ⟨[], rfl⟩
  refine Keeps.bind (keeps_request .fccLockQuery rfl h (.of_unlockPlan horder) rfl) ?_
  rintro queried reply ⟨hmade, hheard⟩
  refine Keeps.ofExcept_bind fun values hvalues => ?_
  refine Keeps.ofExcept_bind fun state hstate => ?_
  refine Keeps.ofExcept_bind fun mode hmode => ?_
  have htoldState := told_of_said hheard.said_eq hvalues hstate
  have htoldMode := told_of_said hheard.said_eq hvalues hmode
  by_cases hnone : mode = 0
  · subst hnone
    exact keeps_pure ⟨hmade, ⟨state, htoldState⟩, htoldMode⟩
  rw [if_neg hnone]
  by_cases hopen : state ≠ 0
  · rw [if_pos hopen]
    exact keeps_pure ⟨hmade, ⟨state, hopen, htoldState⟩, mode, hnone, htoldMode⟩
  rw [if_neg hopen]
  have hclosed : state = 0 := Decidable.of_not_not hopen
  exact keeps_answerChallenge hmade ⟨hclosed ▸ htoldState, mode, hnone, htoldMode⟩

theorem keeps_requestMode {lock : FccLock.Outcome} (h : Made past (unlockPlan lock))
    (hlock : LockFound past lock) :
    Keeps (Lawful c) past (requestMode c online) fun now _ =>
      Made now (unlockPlan lock ++ [.modeSet]) ∧ told .modeSet 0 now = some 0 ∧
        modeConfirmed now = some online := by
  have horder : unlockPlan lock ++ [.modeSet] <+: attachPlan lock false :=
    ⟨[.attachApnConfig, .netAttach], by simp [attachPlan]⟩
  refine Keeps.bind (keeps_request .modeSet rfl h (.of_attachPlan horder) ⟨rfl, lock, hlock⟩) ?_
  rintro asked reply ⟨hmade, hheard⟩
  refine Keeps.ofExcept_bind fun status hstatus => ?_
  refine Keeps.unless fun hrefused => ?_
  have hzero : status = 0 := Decidable.of_not_not hrefused
  refine Keeps.bind (keeps_confirmation trivial) ?_
  rintro _ body rfl
  refine Keeps.ofExcept_bind fun reported hreported => ?_
  by_cases hother : reported ≠ online
  · rw [if_pos hother]
    exact keeps_throw
  rw [if_neg hother]
  have honline : reported = online := Decidable.of_not_not hother
  refine keeps_pure ⟨hmade.of_none rfl, ?_, ?_⟩
  · rw [told_of_none rfl, hheard.told hstatus, hzero]
  · rw [modeConfirmed_confirmation, hreported, honline]
    rfl

theorem keeps_setMode {lock : FccLock.Outcome} (h : Made past (unlockPlan lock))
    (hlock : LockFound past lock) :
    Keeps (Lawful c) past (setMode c online) fun now _ =>
      Made now (unlockPlan lock ++ [.modeSet]) ∧ told .modeSet 0 now = some 0 ∧
        modeConfirmed now = some online := by
  have hlock' : LockFound (past ++ [⟨.listen, ()⟩]) lock :=
    hlock.congr (said_of_none rfl _) (said_of_none rfl _)
  refine Keeps.listening trivial (fun _ => trivial)
    ((keeps_requestMode (h.of_none rfl) hlock').mono ?_)
  rintro now _ ⟨hmade, hzero, honline⟩
  refine ⟨hmade.of_none rfl, ?_, ?_⟩
  · rw [told_of_none rfl, hzero]
  · rw [modeConfirmed_of_none rfl, honline]

theorem keeps_configureApn {lock : FccLock.Outcome} (h : Made past (unlockPlan lock ++ [.modeSet]))
    (hzero : told .modeSet 0 past = some 0) (honline : modeConfirmed past = some online) :
    Keeps (Lawful c) past (configureApn c) fun now _ =>
      Made now (unlockPlan lock ++ [.modeSet] ++ [.attachApnConfig]) := by
  have horder : unlockPlan lock ++ [.modeSet] ++ [.attachApnConfig] <+: attachPlan lock false :=
    ⟨[.netAttach], by simp [attachPlan]⟩
  refine Keeps.ofExcept_bind fun body hbody => ?_
  refine (Keeps.discard (keeps_request .attachApnConfig rfl h (.of_attachPlan horder)
    ⟨hbody, hzero, honline⟩)).mono ?_
  rintro now _ ⟨reply, hmade, -⟩
  exact hmade

theorem keeps_requestAttach (h : Made past ids) (horder : InOrder c (ids ++ [.netAttach]))
    (hdue : said .netAttach past = none ∨
      told .netAttach 1 past = some attachRejected ∧ Allowed past) :
    Keeps (Lawful c) past (requestAttach c) fun now status =>
      Made now (ids ++ [.netAttach]) ∧ told .netAttach 1 now = some status := by
  refine Keeps.bind (keeps_request .netAttach rfl h horder ⟨rfl, hdue⟩) ?_
  rintro asked reply ⟨hmade, hheard⟩
  exact keeps_ofExcept fun status hstatus => ⟨hmade, hheard.told hstatus⟩

theorem keeps_attach {lock : FccLock.Outcome}
    (h : Made past (unlockPlan lock ++ [.modeSet] ++ [.attachApnConfig])) :
    Keeps (Lawful c) past (attach c) fun now _ => ∃ again, Made now (attachPlan lock again) ∧
      ∃ status ≠ attachRejected, told .netAttach 1 now = some status := by
  have hfirst : unlockPlan lock ++ [.modeSet] ++ [.attachApnConfig] ++ [.netAttach]
      = attachPlan lock false := by simp [attachPlan]
  have hsecond : attachPlan lock false ++ [.netAttach] = attachPlan lock true := by simp [attachPlan]
  have hunsaid : said .netAttach past = none := said_eq_none h.commands_eq (by cases lock <;> decide)
  refine Keeps.bind (keeps_requestAttach h (.of_attachPlan ⟨[], (List.append_nil _).trans hfirst⟩)
    (.inl hunsaid)) ?_
  rintro asked status ⟨hmade, htold⟩
  rw [hfirst] at hmade
  by_cases hrejected : status = attachRejected
  · rw [if_pos hrejected]
    refine Keeps.bind (keeps_awaitAttach trivial) ?_
    rintro _ _ rfl
    have hallowed : Allowed (asked ++ [⟨.attachAllowed c.attachWait, .ok ()⟩]) :=
      ⟨c.attachWait, List.mem_append_right _ (List.mem_singleton_self _)⟩
    rw [hrejected] at htold
    refine Keeps.bind (keeps_requestAttach (hmade.of_none rfl)
      (.of_attachPlan ⟨[], (List.append_nil _).trans hsecond⟩)
      (.inr ⟨(told_of_none rfl _ _).trans htold, hallowed⟩)) ?_
    rintro asked' status' ⟨hmade', htold'⟩
    rw [hsecond] at hmade'
    by_cases hagain : status' = attachRejected
    · rw [if_pos hagain]
      exact keeps_throw
    · rw [if_neg hagain]
      exact keeps_pure ⟨true, hmade', status', hagain, htold'⟩
  · rw [if_neg hrejected]
    exact keeps_pure ⟨false, hmade, status, hrejected, htold⟩

theorem networkPlan_succ (lock : FccLock.Outcome) (again : Bool) (polls : Nat) :
    networkPlan lock again (polls + 1)
      = networkPlan lock again polls ++ [.negotiatedAddress] ++ [.negotiatedDns] := by
  simp [networkPlan, List.replicate_succ']

theorem keeps_queryNetwork {lock : FccLock.Outcome} {again : Bool} {polls : Nat}
    (hle : polls + 1 ≤ max c.fetchAttempts 1) (h : Made past (networkPlan lock again polls))
    (hattached : ∃ status ≠ attachRejected, told .netAttach 1 past = some status)
    (hfirst : said .negotiatedAddress past = none ∨ networkTold past = some none) :
    Keeps (Lawful c) past (queryNetwork c) fun now found =>
      Made now (networkPlan lock again (polls + 1)) ∧ networkTold now = some found ∧
        told .netAttach 1 now = told .netAttach 1 past := by
  have hplan := networkPlan_succ lock again polls
  have haddress : networkPlan lock again polls ++ [.negotiatedAddress]
      <+: networkPlan lock again (polls + 1) := ⟨[.negotiatedDns], hplan.symm⟩
  have hdns : networkPlan lock again polls ++ [.negotiatedAddress] ++ [.negotiatedDns]
      <+: networkPlan lock again (polls + 1) := ⟨[], (List.append_nil _).trans hplan.symm⟩
  refine Keeps.bind (keeps_request .negotiatedAddress rfl h (.of_networkPlan (by omega) hle haddress)
    ⟨rfl, hattached, hfirst⟩) ?_
  rintro asked reply ⟨hmade, hheard⟩
  refine Keeps.ofExcept_bind fun values hvalues => ?_
  refine Keeps.ofExcept_bind fun address haddressTold => ?_
  have htold : addressTold asked = some address := by
    simp [addressTold, hheard.said_eq, hvalues, haddressTold, Except.toOption]
  refine Keeps.bind (keeps_request .negotiatedDns rfl hmade (.of_networkPlan (by omega) hle hdns)
    ⟨rfl, by rw [htold]; rfl⟩) ?_
  rintro asked' reply' ⟨hmade', hheard'⟩
  refine Keeps.ofExcept_bind fun values' hvalues' => ?_
  have htold' : addressTold asked' = some address :=
    (addressTold_congr (hheard'.said_ne _ (by decide))).trans htold
  refine keeps_pure ⟨hplan ▸ hmade', ?_, ?_⟩
  · simp [networkTold, htold', hheard'.said_eq, hvalues', Except.toOption, dnsOfReply]
  · rw [told_congr (hheard'.said_ne _ (by decide)), told_congr (hheard.said_ne _ (by decide))]

/-- The network's configuration is asked for as often as it takes, but not more often than planned. -/
theorem keeps_pollNetwork {lock : FccLock.Outcome} {again : Bool} {polls tries : Nat}
    (hle : polls + tries ≤ max c.fetchAttempts 1) (h : Made past (networkPlan lock again polls))
    (hattached : ∃ status ≠ attachRejected, told .netAttach 1 past = some status)
    (hfirst : said .negotiatedAddress past = none ∨ networkTold past = some none) :
    Keeps (Lawful c) past (pollNetwork c tries) fun now found => ∀ network, found = some network →
      ∃ polls, 1 ≤ polls ∧ polls ≤ max c.fetchAttempts 1 ∧
        Made now (networkPlan lock again polls) ∧ networkTold now = some (some network) := by
  induction tries generalizing past polls with
  | zero => exact keeps_pure fun _ hnone => nomatch hnone
  | succ tries ih =>
    refine Keeps.bind (keeps_queryNetwork (by omega) h hattached hfirst) ?_
    rintro asked found ⟨hmade, htold, hsame⟩
    rw [← hsame] at hattached
    cases found with
    | some network =>
      refine keeps_pure fun _ hsome => ?_
      cases hsome
      exact ⟨polls + 1, by omega, by omega, hmade, htold⟩
    | none =>
      have hle' : polls + 1 + tries ≤ max c.fetchAttempts 1 := by omega
      show Keeps _ _ (if tries ≠ 0 then pause c.fetchInterval >>= fun _ => pollNetwork c tries
        else pollNetwork c tries) _
      by_cases hlast : tries ≠ 0
      · rw [if_pos hlast]
        refine Keeps.bind (keeps_pause trivial) ?_
        rintro _ _ rfl
        have hpaused : ∀ id, said id (asked ++ [⟨.pause c.fetchInterval, ()⟩]) = said id asked :=
          said_of_none rfl
        rw [← told_congr (hpaused .netAttach)] at hattached
        rw [← networkTold_congr (hpaused _) (hpaused _)] at htold
        exact ih hle' (hmade.of_none rfl) hattached (.inr htold)
      · rw [if_neg hlast]
        exact ih hle' hmade hattached (.inr htold)

theorem keeps_networkConfig {lock : FccLock.Outcome} {again : Bool}
    (h : Made past (attachPlan lock again))
    (hattached : ∃ status ≠ attachRejected, told .netAttach 1 past = some status) :
    Keeps (Lawful c) past (networkConfig c) fun now network =>
      ∃ polls, 1 ≤ polls ∧ polls ≤ max c.fetchAttempts 1 ∧
        Made now (networkPlan lock again polls) ∧ networkTold now = some (some network) := by
  have hnone : networkPlan lock again 0 = attachPlan lock again := by simp [networkPlan]
  have hunsaid : said .negotiatedAddress past = none :=
    said_eq_none h.commands_eq (by cases lock <;> cases again <;> decide)
  have hmade : Made past (networkPlan lock again 0) := hnone.symm ▸ h
  refine Keeps.bind (keeps_pollNetwork (Nat.le_of_eq (Nat.zero_add _)) hmade hattached
    (.inl hunsaid)) ?_
  intro now found hfound
  cases found with
  | none => exact keeps_throw
  | some network => exact keeps_pure (hfound network rfl)

theorem keeps_connectDatachannel {lock : FccLock.Outcome} {again : Bool} {polls : Nat}
    {network : Network} (hpos : 1 ≤ polls) (hle : polls ≤ max c.fetchAttempts 1)
    (h : Made past (networkPlan lock again polls)) (htold : networkTold past = some (some network)) :
    Keeps (Lawful c) past (connectDatachannel c) fun now _ =>
      Made now (plan lock again polls) ∧ networkTold now = some (some network) := by
  have hplanned : ∀ ids, ids <+: plan lock again polls → InOrder c ids :=
    fun ids hids => ⟨lock, again, polls, hpos, hle, hids⟩
  refine Keeps.bind (keeps_request .psConnect rfl h
    (hplanned _ ⟨[.connectToDatachannel, .psConnectSetup], by simp [plan]⟩) ⟨rfl, network, htold⟩) ?_
  rintro connected connect ⟨hmade, hheard⟩
  refine Keeps.ofExcept_bind fun body hbody => ?_
  refine Keeps.bind (keeps_request .connectToDatachannel rfl hmade
    (hplanned _ ⟨[.psConnectSetup], by simp [plan]⟩) hbody) ?_
  rintro joined datachannel ⟨hmade', hheard'⟩
  refine Keeps.ofExcept_bind fun setup hsetup => ?_
  have hconnect : said .psConnect joined = some connect :=
    (hheard'.said_ne _ (by decide)).trans hheard.said_eq
  refine (Keeps.discard (keeps_request .psConnectSetup rfl hmade'
    (hplanned _ ⟨[], by simp [plan]⟩)
    ⟨connect, datachannel, hconnect, hheard'.said_eq, hsetup⟩)).mono ?_
  rintro now _ ⟨reply, hmade'', hheard''⟩
  have hsame : ∀ id, id ≠ .psConnect → id ≠ .connectToDatachannel → id ≠ .psConnectSetup →
      said id now = said id past := fun id h₁ h₂ h₃ =>
    (hheard''.said_ne id h₃).trans ((hheard'.said_ne id h₂).trans (hheard.said_ne id h₁))
  refine ⟨by simpa [plan] using hmade'', ?_⟩
  exact (networkTold_congr (hsame _ (by decide) (by decide) (by decide))
    (hsame _ (by decide) (by decide) (by decide))).trans htold

theorem keeps_afterUnlock {lock : FccLock.Outcome} (h : Made past (unlockPlan lock))
    (hlock : LockFound past lock) :
    Keeps (Lawful c) past (do
      setMode c online
      configureApn c
      attach c
      let network ← networkConfig c
      connectDatachannel c
      return ({ unlock := lock, network } : Report)) fun now report => report.unlock = lock ∧
        networkTold now = some (some report.network) ∧
        ∃ again polls, 1 ≤ polls ∧ polls ≤ max c.fetchAttempts 1 ∧
          Made now (plan lock again polls) := by
  refine Keeps.bind (keeps_setMode h hlock) ?_
  rintro _ _ ⟨hmode, hzero, honline⟩
  refine Keeps.bind (keeps_configureApn hmode hzero honline) ?_
  intro _ _ hconfigured
  refine Keeps.bind (keeps_attach hconfigured) ?_
  rintro _ _ ⟨again, hattach, hattached⟩
  refine Keeps.bind (keeps_networkConfig hattach hattached) ?_
  rintro _ network ⟨polls, hpos, hle, hpolled, htold⟩
  refine Keeps.bind (keeps_connectDatachannel hpos hle hpolled htold) ?_
  rintro _ _ ⟨hmade, htold'⟩
  exact keeps_pure ⟨rfl, htold', again, polls, hpos, hle, hmade⟩

/-- A bring-up keeps its law, whatever the modem does; if it succeeds, it is complete. -/
theorem keeps_bringUp (c : ModemConfig) : Keeps (Lawful c) [] (bringUp c) (Complete c) := by
  refine Keeps.bind (keeps_init made_nil) ?_
  intro opened _ hinit
  refine Keeps.bind (keeps_unlock hinit) ?_
  rintro unlocked lock ⟨hunlocked, hlock⟩
  refine (keeps_afterUnlock hunlocked hlock).grows.mono ?_
  rintro _ report ⟨⟨rfl, htold, again, polls, hpos, hle, hmade⟩, new, rfl⟩
  -- the calls behind those to the lock leave its replies as they are
  obtain ⟨rest, hplan, hquery, hverify⟩ := plan_eq_unlockPlan_append report.unlock again polls
  have hnew : commands new = rest.map CallId.code := by
    have hall := hmade.commands_eq
    rw [commands_append, hunlocked.commands_eq, hplan, List.map_append] at hall
    exact List.append_cancel_left hall
  exact ⟨⟨again, polls, hpos, hle, hmade⟩,
    hlock.congr (said_append hnew hquery) (said_append hnew hverify), htold⟩

end Steps

/-! ## A bring-up that is carried out -/

section Carried

variable {c : ModemConfig} {deeds : List Deed}

/-- Before a request, the law tells of all requests so far. -/
theorem Lawful.made {past : List Deed} {d : Deed} {e : Exchange} (h : Lawful c past d.act)
    (hd : d.exchange? = some e) :
    ∃ ids id, Made past ids ∧ InOrder c (ids ++ [id]) ∧ e.command = id.code := by
  obtain ⟨act, r⟩ := d
  cases act with
  | call p command body timeout =>
    obtain ⟨ids, id, hmade, horder, hcommand, -⟩ := h
    cases hd
    exact ⟨ids, id, hmade, horder, hcommand⟩
  | _ => cases hd

theorem inOrder_of_lawful
    (h : ∀ before d after, deeds = before ++ d :: after → Lawful c before d.act) :
    ∃ ids, commands deeds = ids.map CallId.code ∧ InOrder c ids := by
  induction deeds using List.reverseRecOn with
  | nil =>
    have hnone : [] <+: unlockPlan .notRequired := List.nil_prefix
    exact ⟨[], rfl, .of_unlockPlan hnone⟩
  | append_singleton past d ih =>
    rcases hd : d.exchange? with _ | e
    · rw [commands, exchanges_of_none hd]
      exact ih fun before d' after hpast => h before d' (after ++ [d]) (by rw [hpast]; simp)
    · obtain ⟨ids, id, hmade, horder, hcommand⟩ := (h past d [] rfl).made hd
      refine ⟨ids ++ [id], ?_, horder⟩
      rw [commands_append, hmade.commands_eq, List.map_append]
      simp [commands, exchanges, hd, hcommand]

/-- Behind a call that failed there is none. -/
theorem answered_of_lawful
    (h : ∀ before d after, deeds = before ++ d :: after → Lawful c before d.act)
    (before : List Exchange) (e : Exchange) (after : List Exchange)
    (hsplit : exchanges deeds = before ++ e :: after) (hafter : after ≠ []) : e.Answered := by
  obtain ⟨next, after', rfl⟩ := List.exists_cons_of_ne_nil hafter
  have hnext : exchanges deeds = (before ++ [e]) ++ next :: after' := by rw [hsplit]; simp
  obtain ⟨past, rest, rfl, hpast, hrest⟩ := List.filterMap_eq_append_iff.mp hnext
  obtain ⟨skipped, d, rest', rfl, -, hd, -⟩ := List.filterMap_eq_cons_iff.mp hrest
  obtain ⟨ids, id, hmade, -⟩ := (h (past ++ skipped) d rest' (by simp)).made hd
  refine hmade.answered e ?_
  rw [exchanges_append, exchanges, hpast]
  exact List.mem_append_left _ (List.mem_append_right _ (List.mem_singleton_self e))

end Carried

/-- A bring-up asks in the order of a plan, wherever it is carried out and whatever the modem does.  Its
requests are on the wire one behind the other; each is made only when all before it were answered and
what was told makes it due.  A bring-up that succeeds has made all calls of its plan, and reports what
the replies told. -/
theorem bringUp_keeps_order (c : ModemConfig) (w : Stage) :
    (∃ bytes, (w.run (bringUp c).run).2.wire = w.wire ++ bytes ∧
      OnWire (exchanges (w.deeds (bringUp c).run)) bytes) ∧
    (∃ ids, commands (w.deeds (bringUp c).run) = ids.map CallId.code ∧ InOrder c ids) ∧
    (∀ before d after, w.deeds (bringUp c).run = before ++ d :: after → Lawful c before d.act) ∧
    (∀ report, (w.run (bringUp c).run).1 = .ok report →
      Complete c (w.deeds (bringUp c).run) report) := by
  obtain ⟨hlawful, hend⟩ := Session.Keeps.along (keeps_bringUp c) w
  obtain ⟨bytes, hwire, hwired⟩ := w.wired_run (bringUp c).run
  have hon := hwired.onWire (answered_of_lawful hlawful)
  exact ⟨⟨bytes, hwire, hon⟩, inOrder_of_lawful hlawful, hlawful, hend⟩

/-- A modem with a closed lock that rejects the first attach, and has an address at the second query. -/
example :
    let result (body : Bytes) : List Cue := [.acknowledge none none, .result none none body]
    let ints (ns : List UInt32) : Bytes := ns.flatMap Value.dword
    let address (octets : Bytes) : Bytes := Value.dword 0 ++ Value.stringField .one 4 4 octets
    let peer := Peer.ofScript (List.replicate 7 [.sync none []] ++
      [result (ints [0, 0, 1]), result (ints [0, 0xdeadbeef]), result (ints [0, 1]),
        result (ints [0]) ++ [.push NoticeId.modeSet.code 0 (ints [0, online])], result [],
        result (ints [0, attachRejected])
          ++ [.push NoticeId.attachAllowed.code 0 (ints [0, 0, 1])],
        result (ints [0, 0]), result (address [0, 0, 0, 0]), result [],
        result (address [192, 0, 2, 1]), result [], result (Bytes.zeros 12), [.sync none []],
        [.sync none []]])
    let w : Stage := { station := Station.start {}, peer }
    (w.run (bringUp { apn := "x" }).run).1.toOption.map Report.unlock = some .unlocked := by
  decide +kernel

end Modem

end Wwan
