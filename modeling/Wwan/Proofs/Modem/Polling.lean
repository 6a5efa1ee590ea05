import Mathlib.Data.List.Basic
import Wwan.Modem.BringUp
import Wwan.Modem.Rehearsal
import Wwan.Proofs.Modem.NameServers
import Wwan.Proofs.Modem.Wire

/-!
# Polling for the network's configuration

An attempt asks for the address and then for the name servers.  Attempts are made until one tells an address,
a call fails, or a reply cannot be read.

`AddressAnswer` and `ServersAnswer` say what the call of a query makes of the bytes that come back;
`selected_selectAddress` says which of the slots counts, and `listed_iff` which entries are name servers.
`Polled` lists the ways in which the attempts can go, and `networkConfig_polls` shows that there is no other.
-/

namespace Wwan

/-! ## What a session asks and how it ends -/

/-- Whatever its acts give, a session makes requests and ends as `post` says. -/
def Session.Makes {α : Type} (s : Session α) (post : List Exchange → α → Prop) : Prop :=
  ∀ past, s.Keeps (fun _ _ => True) past fun now r => ∃ es, exchanges now = exchanges past ++ es ∧ post es r

namespace Session

variable {α : Type} {post : List Exchange → α → Prop}

theorem Makes.mono {post' : List Exchange → α → Prop} {s : Session α} (h : s.Makes post)
    (hpost : ∀ es r, post es r → post' es r) : s.Makes post' := by
  refine fun past => (h past).mono ?_
  rintro now r ⟨es, hes, hend⟩
  exact ⟨es, hes, hpost es r hend⟩

/-- A session makes these requests wherever it is carried out. -/
theorem Makes.along {s : Session α} (h : s.Makes post) (w : Stage) :
    post (exchanges (w.deeds s)) (w.run s).1 := by
  obtain ⟨-, es, hes, hend⟩ := (h []).along w
  rw [show exchanges (w.deeds s) = es from hes]
  exact hend

end Session

namespace Procedure

variable {α β : Type} {p : Procedure α} {f : α → Procedure β}
  {post : List Exchange → Except ModemError β → Prop}

theorem makes_pure {b : β} (h : post [] (.ok b)) : (pure b : Procedure β).run.Makes post :=
  fun _ => ⟨[], (List.append_nil _).symm, h⟩

theorem makes_throw {e : ModemError} (h : post [] (.error e)) : (throw e : Procedure β).run.Makes post :=
  fun _ => ⟨[], (List.append_nil _).symm, h⟩

/-- A procedure that goes on with the result of another makes the requests of both, and ends with the first
if that fails. -/
theorem makes_bind {mid : List Exchange → Except ModemError α → Prop} (hp : p.run.Makes mid)
    (herror : ∀ es e, mid es (.error e) → post es (.error e))
    (hok : ∀ es a, mid es (.ok a) → (f a).run.Makes fun es' r => post (es ++ es') r) :
    (p >>= f).run.Makes post := by
  refine fun past => Session.Keeps.bind (hp past) ?_
  rintro now r ⟨es, hes, hmid⟩
  cases r with
  | error e => exact ⟨es, hes, herror es e hmid⟩
  | ok a =>
    refine (hok es a hmid now).mono ?_
    rintro now' r ⟨es', hes', hpost⟩
    exact ⟨es ++ es', by rw [hes', hes, List.append_assoc], hpost⟩

/-- Reading what is there asks for nothing. -/
theorem makes_ofExcept_bind {x : Except ModemError α} (herror : ∀ e, x = .error e → post [] (.error e))
    (hok : ∀ a, x = .ok a → (f a).run.Makes post) : (ofExcept x >>= f).run.Makes post := by
  cases x with
  | error e => exact makes_throw (herror e rfl)
  | ok a => exact hok a rfl

theorem makes_call {purpose : Purpose} {command : UInt32} {body : Bytes} {timeout : Span} :
    (call purpose command body timeout).run.Makes fun es r =>
      ∃ answer, es = [⟨purpose, command, body, answer⟩] ∧ r = answer.mapError .call :=
  fun past => ⟨trivial, fun answer => ⟨_, exchanges_call past .., answer, rfl, rfl⟩⟩

theorem makes_pause {length : Span} : (pause length).run.Makes fun es r => es = [] ∧ r = .ok () :=
  fun past => ⟨trivial, fun _ => ⟨[], by rw [exchanges_of_none rfl, List.append_nil], rfl, rfl⟩⟩

end Procedure

namespace Modem

open Procedure

/-! ## The assigned address -/

/-- A slot of four octets is complete and holds this address. -/
def SlotHolds (field : Bytes) (i : Nat) (a : Ipv4) : Prop :=
  (field.drop (4 * i)).take 4 = a.octets

/-- What the first three slots assign: the last address in them that is not zero. -/
def Selected (field : Bytes) : Option Ipv4 → Prop
  | some a => a ≠ Ipv4.unspecified ∧ ∃ i < 3, SlotHolds field i a ∧
      ∀ j, i < j → j < 3 → ∀ b, SlotHolds field j b → b = Ipv4.unspecified
  | none => ∀ i < 3, ∀ a, SlotHolds field i a → a = Ipv4.unspecified

theorem ofBytes?_eq_some_iff {bs : Bytes} {a : Ipv4} : Ipv4.ofBytes? bs = some a ↔ bs.take 4 = a.octets := by
  rw [Ipv4.ofBytes?]
  by_cases h : (bs.take 4).length = 4
  · rw [dif_pos h, Option.some.injEq]
    constructor
    · rintro rfl
      rfl
    · intro hoctets
      cases a
      simp only [Ipv4.mk.injEq]
      exact hoctets
  · rw [dif_neg h]
    refine iff_of_false (by simp) fun hoctets => h ?_
    rw [hoctets, a.length_octets]

theorem getElem?_slots {n i : Nat} {field : Bytes} {a : Ipv4} :
    (slots n field)[i]? = some a ↔ i < n ∧ SlotHolds field i a := by
  induction n generalizing field i with
  | zero => simp [slots]
  | succ n ih =>
    rw [slots]
    rcases hfirst : Ipv4.ofBytes? field with _ | b
    · -- behind a slot that is not complete there is none
      refine iff_of_false nofun fun ⟨_, hholds⟩ => ?_
      have hshort : ¬4 ≤ field.length := by
        intro hlong
        have hoctets := octets_ofBytes?_v4 field
        rw [hfirst, if_pos hlong] at hoctets
        cases hoctets
      have hlength := congrArg List.length hholds
      rw [a.length_octets, List.length_take, List.length_drop] at hlength
      omega
    · cases i with
      | zero =>
        rw [List.getElem?_cons_zero, ← hfirst, ofBytes?_eq_some_iff]
        exact (and_iff_right (Nat.succ_pos n)).symm
      | succ i =>
        rw [List.getElem?_cons_succ, ih, Nat.succ_lt_succ_iff, SlotHolds, List.drop_drop, SlotHolds]
        rw [show 4 + 4 * i = 4 * (i + 1) by omega]

/-- The assigned address is the one that the slots assign. -/
theorem selected_selectAddress (field : Bytes) : Selected field (selectAddress field) := by
  rcases hfound : selectAddress field with _ | a
  · have hnone := List.find?_eq_none.mp hfound
    intro i hi a hholds
    have hmem : a ∈ (slots addressSlots field).reverse :=
      List.mem_reverse.mpr (List.mem_of_getElem? (getElem?_slots.mpr ⟨hi, hholds⟩))
    simpa using hnone a hmem
  · -- the slots behind the one that is found come before it when they are looked at
    obtain ⟨hassigned, later, earlier, hsplit, hlater⟩ := List.find?_eq_some_iff_append.mp hfound
    have hslots : slots addressSlots field = earlier.reverse ++ a :: later.reverse := by
      rw [← List.reverse_reverse (slots addressSlots field), hsplit]
      simp
    have hplace : (slots addressSlots field)[earlier.reverse.length]? = some a := by
      rw [hslots, List.getElem?_append_right (Nat.le_refl _), Nat.sub_self, List.getElem?_cons_zero]
    obtain ⟨hlt, hholds⟩ := getElem?_slots.mp hplace
    refine ⟨by simpa using hassigned, _, hlt, hholds, fun j hj hlast b hb => ?_⟩
    have hmem : b ∈ later := by
      have hbehind := getElem?_slots.mpr ⟨hlast, hb⟩
      obtain ⟨k, rfl⟩ := Nat.exists_eq_add_of_lt hj
      rw [show slots 3 field = _ from hslots, List.getElem?_append_right (by omega)] at hbehind
      rw [show earlier.reverse.length + k + 1 - earlier.reverse.length = k + 1 by omega,
        List.getElem?_cons_succ] at hbehind
      exact List.mem_reverse.mp (List.mem_of_getElem? hbehind)
    simpa using hlater b hmem

/-! ## What the answers tell -/

/-- What the answer to the address query tells. -/
def addressIn (answer : Except CallError Bytes) : Except ModemError (Option Ipv4) := do
  addressOfReply (← replyValues .negotiatedAddress (← answer.mapError .call))

/-- What the answer to the query for name servers tells. -/
def serversIn (answer : Except CallError Bytes) : Except ModemError (List Ipv4 × List Ipv6) := do
  return dnsOfReply (← replyValues .negotiatedDns (← answer.mapError .call))

/-- What the call of the address query can come back with, and what is made of it. -/
inductive AddressAnswer : Except CallError Bytes → Except ModemError (Option Ipv4) → Prop where
  | failed (cause : CallError) : AddressAnswer (.error cause) (.error (.call cause))
  | unreadable {reply : Bytes} {e : ValueError} (bad : Value.decodeAll reply = .error e) :
      AddressAnswer (.ok reply) (.error (.badReply .negotiatedAddress e.message))
  | withoutSlots {reply : Bytes} {values : List Value} (read : Value.decodeAll reply = .ok values)
      (missing : ∀ width field, values[1]? ≠ some (.string width field)) :
      AddressAnswer (.ok reply) (.error (.badReply .negotiatedAddress "value 1 is missing or not a string"))
  | told {reply : Bytes} {values : List Value} {width : Width} {field : Bytes} {address : Option Ipv4}
      (read : Value.decodeAll reply = .ok values) (slots : values[1]? = some (.string width field))
      (selected : Selected field address) : AddressAnswer (.ok reply) (.ok address)

/-- What the call of the query for name servers can come back with, and what is made of it. -/
inductive ServersAnswer : Except CallError Bytes → Except ModemError (List Ipv4 × List Ipv6) → Prop where
  | failed (cause : CallError) : ServersAnswer (.error cause) (.error (.call cause))
  | unreadable {reply : Bytes} {e : ValueError} (bad : Value.decodeAll reply = .error e) :
      ServersAnswer (.ok reply) (.error (.badReply .negotiatedDns e.message))
  | told {reply : Bytes} {values : List Value} {servers : List Ipv4 × List Ipv6}
      (read : Value.decodeAll reply = .ok values) (listed : Listed values servers) :
      ServersAnswer (.ok reply) (.ok servers)

theorem addressAnswer_addressIn (answer : Except CallError Bytes) : AddressAnswer answer (addressIn answer) := by
  rcases answer with cause | reply
  · exact .failed cause
  show AddressAnswer (.ok reply) (do addressOfReply (← replyValues .negotiatedAddress reply))
  rw [replyValues]
  rcases hread : Value.decodeAll reply with e | values
  · exact .unreadable hread
  show AddressAnswer (.ok reply) (do return selectAddress (← bytesAt .negotiatedAddress values 1))
  rw [bytesAt]
  rcases hvalue : values[1]? with _ | ⟨n⟩ | ⟨width, field⟩
  · exact .withoutSlots hread (by simp [hvalue])
  · exact .withoutSlots hread (by simp [hvalue])
  · exact .told hread hvalue (selected_selectAddress field)

theorem serversAnswer_serversIn (answer : Except CallError Bytes) : ServersAnswer answer (serversIn answer) := by
  rcases answer with cause | reply
  · exact .failed cause
  show ServersAnswer (.ok reply) (do return dnsOfReply (← replyValues .negotiatedDns reply))
  rw [replyValues]
  rcases hread : Value.decodeAll reply with e | values
  · exact .unreadable hread
  · exact .told hread (listed_iff.mpr rfl)

/-! ## One attempt -/

/-- A query, with what its call came back with. -/
def query (id : CallId) (answer : Except CallError Bytes) : Exchange :=
  ⟨.transaction, id.code, queryBody, answer⟩

/-- An attempt that tells no address, and nothing wrong. -/
inductive Vain : List Exchange → Prop where
  | mk {answer answer' : Except CallError Bytes} {servers : List Ipv4 × List Ipv6}
      (address : AddressAnswer answer (.ok none)) (servers : ServersAnswer answer' (.ok servers)) :
      Vain [query .negotiatedAddress answer, query .negotiatedDns answer']

/-- An attempt that is the last one: a query goes wrong, and no other is made, or an address is told. -/
inductive Last : List Exchange → Except ModemError Network → Prop where
  | addressFails {answer : Except CallError Bytes} {e : ModemError} (address : AddressAnswer answer (.error e)) :
      Last [query .negotiatedAddress answer] (.error e)
  | serversFail {answer answer' : Except CallError Bytes} {address : Option Ipv4} {e : ModemError}
      (address : AddressAnswer answer (.ok address)) (servers : ServersAnswer answer' (.error e)) :
      Last [query .negotiatedAddress answer, query .negotiatedDns answer'] (.error e)
  | found {answer answer' : Except CallError Bytes} {a : Ipv4} {dnsV4 : List Ipv4} {dnsV6 : List Ipv6}
      (address : AddressAnswer answer (.ok (some a))) (servers : ServersAnswer answer' (.ok (dnsV4, dnsV6))) :
      Last [query .negotiatedAddress answer, query .negotiatedDns answer'] (.ok ⟨a, dnsV4, dnsV6⟩)

/-- How an attempt ends. -/
def Attempt (es : List Exchange) : Except ModemError (Option Network) → Prop
  | .ok none => Vain es
  | .ok (some n) => Last es (.ok n)
  | .error e => Last es (.error e)

/-- The two queries of an attempt are made in their order, the second only if the first was told. -/
theorem makes_queryNetwork (c : ModemConfig) : (queryNetwork c).run.Makes Attempt := by
  refine makes_bind makes_call ?_ ?_
  · rintro _ e ⟨answer, rfl, hanswer⟩
    rcases answer with cause | reply <;> cases hanswer
    exact .addressFails (.failed cause)
  rintro _ reply ⟨answer, rfl, hanswer⟩
  rcases answer with cause | reply <;> cases hanswer
  have htold : AddressAnswer (.ok reply) (replyValues .negotiatedAddress reply >>= addressOfReply) :=
    addressAnswer_addressIn (.ok reply)
  refine makes_ofExcept_bind (fun e he => ?_) fun values hvalues => ?_
  · rw [he] at htold
    exact .addressFails htold
  rw [hvalues] at htold
  refine makes_ofExcept_bind (fun e he => ?_) fun address haddress => ?_
  · have hfails : AddressAnswer (.ok reply) (addressOfReply values) := htold
    rw [he] at hfails
    exact .addressFails hfails
  have haddressTold : AddressAnswer (.ok reply) (addressOfReply values) := htold
  rw [haddress] at haddressTold
  -- the address was told, if there is one
  refine makes_bind makes_call ?_ ?_
  · rintro _ e ⟨answer, rfl, hanswer⟩
    rcases answer with cause | reply' <;> cases hanswer
    exact .serversFail haddressTold (.failed cause)
  rintro _ reply' ⟨answer, rfl, hanswer⟩
  rcases answer with cause | reply' <;> cases hanswer
  have hservers : ServersAnswer (.ok reply') (dnsOfReply <$> replyValues .negotiatedDns reply') :=
    serversAnswer_serversIn (.ok reply')
  refine makes_ofExcept_bind (fun e he => ?_) fun values' hvalues' => ?_
  · rw [he] at hservers
    exact .serversFail haddressTold hservers
  rw [hvalues'] at hservers
  refine makes_pure ?_
  cases address with
  | none => exact .mk haddressTold hservers
  | some a => exact .found haddressTold hservers

/-! ## The attempts -/

/-- How polling goes that makes `n` attempts at most: they are all in vain, and it fails with `e`, or they are
in vain up to the last one. -/
inductive Polled (e : ModemError) (n : Nat) : List Exchange → Except ModemError Network → Prop where
  | inVain {attempts : List (List Exchange)} (vain : ∀ a ∈ attempts, Vain a) (length_eq : attempts.length = n) :
      Polled e n attempts.flatten (.error e)
  | ended {attempts : List (List Exchange)} {final : List Exchange} {r : Except ModemError Network}
      (vain : ∀ a ∈ attempts, Vain a) (length_lt : attempts.length < n) (last : Last final r) :
      Polled e n (attempts.flatten ++ final) r

variable {e : ModemError} {n : Nat} {es es' : List Exchange} {r : Except ModemError Network}

theorem Polled.of_last (h : Last es r) : Polled e (n + 1) es r :=
  .ended (List.forall_mem_nil Vain) (Nat.succ_pos n) h

/-- Another attempt in vain may come first. -/
theorem Polled.behind (h : Polled e n es' r) (hvain : Vain es) : Polled e (n + 1) (es ++ es') r := by
  cases h with
  | @inVain attempts vain length_eq =>
    have hall : ∀ a ∈ es :: attempts, Vain a := List.forall_mem_cons.mpr ⟨hvain, vain⟩
    exact .inVain hall (congrArg (· + 1) length_eq)
  | @ended attempts final r vain length_lt last =>
    have hall : ∀ a ∈ es :: attempts, Vain a := List.forall_mem_cons.mpr ⟨hvain, vain⟩
    have hended := Polled.ended (e := e) hall (Nat.succ_lt_succ length_lt) last
    rwa [List.flatten_cons, List.append_assoc] at hended

/-- The result of polling, which fails with `e` if nothing is found. -/
def settle (e : ModemError) : Except ModemError (Option Network) → Except ModemError Network
  | .ok (some network) => .ok network
  | .ok none => .error e
  | .error cause => .error cause

theorem makes_pollNetwork (c : ModemConfig) (e : ModemError) (tries : Nat) :
    (pollNetwork c tries).run.Makes fun es found => Polled e tries es (settle e found) := by
  induction tries with
  | zero => exact makes_pure (.inVain (List.forall_mem_nil Vain) rfl)
  | succ tries ih =>
    refine makes_bind (makes_queryNetwork c) (fun es cause hattempt => .of_last hattempt) ?_
    intro es found hattempt
    cases found with
    | some network =>
      refine makes_pure ?_
      rw [List.append_nil]
      exact .of_last hattempt
    | none =>
      have hrest : (pollNetwork c tries).run.Makes fun es' found =>
          Polled e (tries + 1) (es ++ es') (settle e found) :=
        ih.mono fun es' found hpolled => hpolled.behind hattempt
      show Session.Makes (ExceptT.run (if tries ≠ 0 then pause c.fetchInterval >>= fun _ => pollNetwork c tries
        else pollNetwork c tries)) _
      by_cases hlast : tries ≠ 0
      · rw [if_pos hlast]
        refine makes_bind makes_pause ?_ ?_
        · rintro _ cause ⟨-, hcause⟩
          cases hcause
        · rintro _ _ ⟨rfl, -⟩
          exact hrest
      · rw [if_neg hlast]
        exact hrest

theorem makes_networkConfig (c : ModemConfig) : (networkConfig c).run.Makes
    (Polled (.noAddress (max c.fetchAttempts 1)) (max c.fetchAttempts 1)) := by
  refine makes_bind (makes_pollNetwork c _ _) (fun es cause hpolled => hpolled) ?_
  intro es found hpolled
  cases found with
  | some network =>
    refine makes_pure ?_
    rw [List.append_nil]
    exact hpolled
  | none =>
    refine makes_throw ?_
    rw [List.append_nil]
    exact hpolled

/-! ### What the attempts leave on the wire -/

theorem AddressAnswer.answered {answer : Except CallError Bytes} {address : Option Ipv4}
    (h : AddressAnswer answer (.ok address)) : (query .negotiatedAddress answer).Answered := by
  cases h with
  | told => exact ⟨_, rfl⟩

theorem ServersAnswer.answered {answer : Except CallError Bytes} {servers : List Ipv4 × List Ipv6}
    (h : ServersAnswer answer (.ok servers)) : (query .negotiatedDns answer).Answered := by
  cases h with
  | told => exact ⟨_, rfl⟩

theorem Vain.answered (h : Vain es) : ∀ q ∈ es, q.Answered := by
  cases h with
  | mk address servers =>
    rw [List.forall_mem_cons, List.forall_mem_singleton]
    exact ⟨address.answered, servers.answered⟩

theorem Last.answered (h : Last es r) : es ≠ [] ∧ ∀ q ∈ es.dropLast, q.Answered := by
  cases h with
  | addressFails address => exact ⟨List.cons_ne_nil _ _, by simp⟩
  | serversFail address servers =>
    exact ⟨List.cons_ne_nil _ _, List.forall_mem_singleton.mpr address.answered⟩
  | found address servers => exact ⟨List.cons_ne_nil _ _, List.forall_mem_singleton.mpr address.answered⟩

/-- All queries but the last were answered. -/
theorem Polled.answered (h : Polled e n es r) : ∀ q ∈ es.dropLast, q.Answered := by
  have hvain : ∀ {attempts : List (List Exchange)}, (∀ a ∈ attempts, Vain a) →
      ∀ q ∈ attempts.flatten, q.Answered := by
    intro attempts vain q hq
    obtain ⟨a, ha, hq⟩ := List.mem_flatten.mp hq
    exact (vain a ha).answered q hq
  cases h with
  | inVain vain => exact fun q hq => hvain vain q (List.mem_of_mem_dropLast hq)
  | ended vain _ last =>
    obtain ⟨hne, hlast⟩ := last.answered
    rw [List.dropLast_append_of_ne_nil hne, List.forall_mem_append]
    exact ⟨hvain vain, hlast⟩

/-- Polling asks for the address and for the name servers by turns, wherever it is carried out and whatever the
modem does, and its requests are on the wire one behind the other.  It stops at the first attempt in which an
address is told, and gives the last one in the first three slots with the name servers of the same attempt; it
stops as well at a call that fails and at a reply that cannot be read, and fails with that error; and it gives
up after as many attempts as are allowed, one at least. -/
theorem networkConfig_polls (c : ModemConfig) (w : Stage) :
    let made := exchanges (w.deeds (networkConfig c).run)
    let n := max c.fetchAttempts 1
    (∃ bytes, (w.run (networkConfig c).run).2.wire = w.wire ++ bytes ∧ OnWire made bytes) ∧
      Polled (.noAddress n) n made (w.run (networkConfig c).run).1 := by
  intro made n
  have hpolled := (makes_networkConfig c).along w
  obtain ⟨bytes, hwire, hwired⟩ := w.wired_run (networkConfig c).run
  refine ⟨⟨bytes, hwire, hwired.onWire fun before q after hsplit hne => ?_⟩, hpolled⟩
  refine hpolled.answered q ?_
  rw [hsplit, List.dropLast_append_of_ne_nil (List.cons_ne_nil q after), List.dropLast_cons_of_ne_nil hne]
  exact List.mem_append_right before List.mem_cons_self

/-- Of the name servers, those of the second attempt are given: the first one told no address. -/
example :
    let result (body : Bytes) : List Cue := [.acknowledge none none, .result none none body]
    let address (octets : Bytes) : Bytes := Value.dword 0 ++ Value.stringField .one 12 12 octets
    let server (octets : Bytes) : Bytes := Value.dword 0 ++ Value.stringField .one 4 4 octets ++ Value.dword 1
    let peer := Peer.ofScript [result (address (Bytes.zeros 12)), result (server [9, 9, 9, 9]),
      result (address [10, 0, 0, 1, 10, 0, 0, 2, 0, 0, 0, 0]), result (server [8, 8, 8, 8])]
    let w : Stage := { station := Station.start {}, peer }
    (w.run (networkConfig {}).run).1 = .ok ⟨⟨[10, 0, 0, 2], rfl⟩, [⟨[8, 8, 8, 8], rfl⟩], []⟩ := by
  decide +kernel

end Modem

end Wwan
