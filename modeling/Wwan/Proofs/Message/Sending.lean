import Mathlib.Data.List.Forall2
import Wwan.Proofs.Message.Framing
import Wwan.Proofs.Message.Kind
import Wwan.Proofs.Message.Outbox

/-!
# From the writing end to the reading end

What a reader gets of the requests that a writer has sent.  The bytes of a request are a unit
(`Request.isUnit_encode`), and this unit is read as the message that the request says
(`Request.readUnit_encode`).  A sink cuts the bytes of a request into writes and a source cuts them into
reads, and neither keeps to the other's cuts; `receives_undoes_sends` says that every request arrives
nevertheless, in order and with nothing in between.
-/

namespace Wwan

/-! ## The bytes of a request -/

/-- The number that a body starts with is parted from the rest. -/
theorem Message.stripId_integer (n : UInt32) (body : Bytes) :
    stripId (Value.integer 4 n ++ body) = some (n, body) := by
  have hbody : (Value.integer 4 n ++ body).drop 0 = fourOctets ++ (Bytes.ofWordBE n ++ body) := rfl
  obtain ⟨hmark, hnumber⟩ := Bytes.of_drop_eq_append hbody (n := 2) rfl
  obtain ⟨hword, hrest⟩ := Bytes.of_drop_eq_append hnumber (Bytes.length_ofWordBE n)
  have hlength : 6 ≤ (Value.integer 4 n ++ body).length := by
    rw [List.length_append, Value.length_integer]
    omega
  rw [stripId, if_pos ⟨hmark, hlength⟩, hword, hrest, Bytes.toWordBE_ofWordBE]

namespace Request

/-- The message as which a request arrives. -/
def received (r : Request) : Message where
  length := UInt32.ofNat r.length
  declared := UInt32.ofNat r.length
  command := r.command
  word := r.word
  body := r.payload

variable {r : Request} {data : Bytes}

theorem of_encode_eq_ok (h : r.encode = .ok data) : r.length < Bytes.bound 4 ∧
    data = Bytes.ofNatLE 4 r.length ++ (Value.integer 4 (UInt32.ofNat r.length) ++
      (Value.integer 4 r.command ++ (Bytes.ofWordBE r.word ++ r.payload))) := by
  rw [encode] at h
  by_cases hlarge : Bytes.bound 4 ≤ r.length
  · rw [if_pos hlarge] at h
    cases h
  · rw [if_neg hlarge] at h
    refine ⟨Nat.lt_of_not_le hlarge, ?_⟩
    rw [← Except.ok.inj h]
    simp only [List.append_assoc]

theorem length_encode (h : r.encode = .ok data) : data.length = r.length + 4 := by
  obtain ⟨-, rfl⟩ := of_encode_eq_ok h
  simp only [List.length_append, Bytes.length_ofNatLE, Value.length_integer, Bytes.length_ofWordBE, length]
  omega

theorem isUnit_encode (h : r.encode = .ok data) : IsUnit data := by
  have hlength := length_encode h
  obtain ⟨hlt, rfl⟩ := of_encode_eq_ok h
  refine ⟨by omega, ?_⟩
  rw [hlength, List.take_left' (Bytes.length_ofNatLE 4 _), Bytes.toNatLE_ofNatLE, Nat.mod_eq_of_lt hlt]

/-- The bytes of a request are those of the message as which it arrives. -/
theorem bytes_received (h : r.encode = .ok data) :
    r.received.bytes = data := by
  obtain ⟨hlt, rfl⟩ := of_encode_eq_ok h
  have hlt' : r.length < 2 ^ 32 := hlt
  have hlength : Bytes.ofWordLE (UInt32.ofNat r.length) = Bytes.ofNatLE 4 r.length := by
    rw [Bytes.ofWordLE, UInt32.toNat_ofNat', Nat.mod_eq_of_lt hlt']
  rw [Message.bytes, received, hlength]
  rfl

/-- The bytes of a request are read as the message as which it arrives. -/
theorem readUnit_encode (h : r.encode = .ok data) : Message.readUnit data = .ok r.received :=
  ((Message.readAs_readUnit data).eq_ok_iff r.received).mpr (bytes_received h)

/-- The number of bytes that a message tells in both its lengths is right. -/
theorem length_received (h : r.encode = .ok data) : r.received.length.toNat + 4 = data.length := by
  have hlt : r.length < 2 ^ 32 := (of_encode_eq_ok h).1
  rw [length_encode h, received, UInt32.toNat_ofNat', Nat.mod_eq_of_lt hlt]

end Request

/-- Whether a message is what a request says. -/
structure Arrives (r : Request) (m : Message) : Prop where
  /-- Both lengths are the number of bytes behind the first. -/
  lengthsAgree : m.lengthsAgree = true
  length_eq : r.encode.map List.length = .ok (m.length.toNat + 4)
  command_eq : m.command = r.command
  /-- A request that waits for the next answer arrives as an answer, whatever its command. -/
  answer : r.transaction = none →
    m.word = 0x11000100 ∧ (∀ threshold, m.classify threshold = .response) ∧ m.body = r.body
  /-- A transaction's request arrives as one of the transaction, with a number before its body. -/
  numbered : ∀ id, r.transaction = some id → m.word = 0x11000100 ||| id.toUInt32 ∧
    (∀ threshold, m.command < threshold → m.classify threshold = .transaction id) ∧
    ∃ field, field.length = 6 ∧ m.body = field ++ r.body ∧
      Message.stripId m.body = some (id.toUInt32, r.body)

theorem Request.arrives {r : Request} {data : Bytes} (hnumber : r.transaction ≠ some 0)
    (h : r.encode = .ok data) : Arrives r r.received where
  lengthsAgree := decide_eq_true rfl
  length_eq := by
    rw [h, length_received h]
    rfl
  command_eq := rfl
  answer hnone := by
    have hword : r.received.word = syncWord := by
      rw [received, word, hnone]
    refine ⟨hword, fun threshold => if_pos hword, ?_⟩
    rw [received, payload, hnone]
  numbered id hsome := by
    have hword : r.received.word = transactionWord id := by
      rw [received, word, hsome]
    have hbody : r.received.body = Value.integer 4 id.toUInt32 ++ r.body := by
      rw [received, payload, hsome]
    have hid : id ≠ 0 := by
      rintro rfl
      exact hnumber hsome
    refine ⟨hword, fun threshold hlow => ?_, _, Value.length_integer 4 _, hbody, ?_⟩
    · exact Message.classify_eq_transaction.mpr ⟨hword, hid, hlow⟩
    · rw [hbody, Message.stripId_integer]

/-! ## Requests that are sent -/

/-- A request that was sent: what sending it returned, and the bytes of it that the sink took. -/
structure Sending where
  request : Request
  result : Except CallError Unit
  left : Bytes

namespace Outbox

/-- What becomes of a request. -/
def sending (limit : Nat) (r : Request) (s : Sink) : Sending where
  request := r
  result := (send limit r s).1
  left := (send limit r s).2.content.drop s.content.length

/-- Sends one request after the other. -/
def sendAll (limit : Nat) : List Request → Sink → List Sending × Sink
  | [], s => ([], s)
  | r :: rs, s =>
    let (xs, last) := sendAll limit rs (send limit r s).2
    (sending limit r s :: xs, last)

end Outbox

namespace Sending

/-- Whether the sink took all bytes of the request. -/
def IsWhole (x : Sending) : Prop :=
  x.request.encode = .ok x.left

instance : DecidablePred IsWhole := fun x =>
  inferInstanceAs (Decidable (x.request.encode = .ok x.left))

/-- What can have become of a request. -/
structure Sound (limit : Nat) (x : Sending) : Prop where
  /-- The sink took its bytes from the front, or none of them. -/
  front : x.left = [] ∨ ∃ data, x.request.encode = .ok data ∧ data.length ≤ limit ∧ x.left <+: data
  /-- It took all of them if the request was sent. -/
  sent : x.result = .ok () → x.IsWhole

theorem Sound.length_le {limit : Nat} {x : Sending} (h : x.Sound limit) : x.left.length ≤ limit := by
  obtain hnil | ⟨data, -, hlimit, hfront⟩ := h.front
  · rw [hnil]
    exact Nat.zero_le limit
  · exact hfront.length_le.trans hlimit

theorem IsWhole.isUnit {x : Sending} (h : x.IsWhole) : IsUnit x.left :=
  Request.isUnit_encode h

end Sending

namespace Outbox

/-- What a request leaves comes behind what was there before. -/
theorem content_send (limit : Nat) (r : Request) (s : Sink) :
    (send limit r s).2.content = s.content ++ (sending limit r s).left := by
  obtain ⟨part, hcontent⟩ : ∃ part, (send limit r s).2.content = s.content ++ part := by
    rcases hsend : send limit r s with ⟨e | _, s'⟩
    · obtain ⟨part, hcontent, -⟩ := of_send_eq_error hsend
      exact ⟨part, hcontent⟩
    · obtain ⟨data, -, -, hcontent⟩ := of_send_eq_ok hsend
      exact ⟨data, hcontent⟩
  rw [sending, hcontent, List.drop_left]

theorem sound_sending (limit : Nat) (r : Request) (s : Sink) : (sending limit r s).Sound limit := by
  have hleft := content_send limit r s
  rcases hsend : send limit r s with ⟨e | _, s'⟩ <;> rw [hsend] at hleft
  · obtain ⟨part, hcontent, hpart⟩ := of_send_eq_error hsend
    obtain rfl := List.append_cancel_left (hcontent.symm.trans hleft)
    refine ⟨hpart, fun h => ?_⟩
    rw [sending, hsend] at h
    cases h
  · obtain ⟨data, hencode, hlimit, hcontent⟩ := of_send_eq_ok hsend
    obtain rfl := List.append_cancel_left (hcontent.symm.trans hleft)
    exact ⟨.inr ⟨_, hencode, hlimit, List.prefix_rfl⟩, fun _ => hencode⟩

/-- The sink has taken what each request left on it, one after the other. -/
theorem content_sendAll (limit : Nat) (rs : List Request) (s : Sink) :
    (sendAll limit rs s).2.content = s.content ++ (sendAll limit rs s).1.flatMap Sending.left := by
  induction rs generalizing s with
  | nil => exact (List.append_nil _).symm
  | cons r rs ih =>
    show (sendAll limit rs (send limit r s).2).2.content = _
    rw [ih, content_send, List.append_assoc]
    rfl

theorem sound_of_mem_sendAll {limit : Nat} {rs : List Request} {s : Sink} {x : Sending}
    (h : x ∈ (sendAll limit rs s).1) : x.Sound limit := by
  induction rs generalizing s with
  | nil => cases h
  | cons r rs ih =>
    obtain rfl | h := List.mem_cons.mp h
    · exact sound_sending limit r s
    · exact ih h

theorem map_request_sendAll (limit : Nat) (rs : List Request) (s : Sink) :
    (sendAll limit rs s).1.map Sending.request = rs := by
  induction rs generalizing s with
  | nil => rfl
  | cons r rs ih => exact congrArg (r :: ·) (ih _)

end Outbox

/-! ## Reading what was sent -/

/-- Requests whose bytes are all there, one behind the other, are read in order, however they are cut; what
stays is the start of another unit. -/
theorem receives_whole {limit : Nat} {xs : List Sending} (hwhole : ∀ x ∈ xs, x.IsWhole)
    (hlimit : ∀ x ∈ xs, x.left.length ≤ limit) {t : Bytes} (ht : Unfinished t)
    (hrest : 4 ≤ t.length → Bytes.toNatLE (t.take 4) + 4 ≤ limit) {b : Bytes} {items : List Supply}
    (hitems : ∀ data, Supply.bytes data ∈ items → data ≠ []) (hfaults : faults items = [])
    (hbytes : b ++ supplied items = xs.flatMap Sending.left ++ t) :
    (Inbox.mk limit b).receives (xs.length + 1) ⟨[], items⟩
      = (xs.map (fun x => .ok x.request.received) ++ [.error .channelClosed], ⟨limit, t⟩, ⟨[], []⟩) := by
  have hisUnit : ∀ u ∈ xs.map Sending.left, IsUnit u := by
    intro u hu
    obtain ⟨x, hx, rfl⟩ := List.mem_map.mp hu
    exact (hwhole x hx).isUnit
  have hunits : unitsOf (b ++ supplied items) = (xs.map Sending.left, t) := by
    rw [hbytes, List.flatMap_def, unitsOf_flatten hisUnit, unitsOf_of_unfinished ht, List.append_nil]
  have hresults : results b items = xs.map fun x => .ok x.request.received := by
    rw [results_eq_decode hfaults, decode, hunits, List.map_map]
    exact List.map_congr_left fun x hx => Request.readUnit_encode (hwhole x hx)
  have hw : Within limit (b ++ supplied items) := by
    constructor
    · rw [hunits]
      intro u hu
      obtain ⟨x, hx, rfl⟩ := List.mem_map.mp hu
      exact hlimit x hx
    · rwa [hunits]
  have hreceives := Inbox.receives_results (b := b) (s := ⟨[], items⟩) hitems hw
  rw [List.append_nil, List.nil_append, hunits, hresults, List.length_map] at hreceives
  exact hreceives

/-- Reading undoes sending: when every one of a list of requests can be sent, in whatever pieces the sink
takes them, and what the sink took of them is read in whatever pieces, then each request arrives, in order
and with nothing in between, and then the channel is closed. -/
theorem receives_undoes_sends {limit : Nat} {requests : List Request} {sink : Sink} {items : List Supply}
    (hnumbers : ∀ r ∈ requests, r.transaction ≠ some 0)
    (hsent : ∀ x ∈ (Outbox.sendAll limit requests sink).1, x.result = .ok ())
    (hitems : ∀ data, Supply.bytes data ∈ items → data ≠ []) (hfaults : faults items = [])
    (hbytes : (Outbox.sendAll limit requests sink).2.content = sink.content ++ supplied items) :
    ∃ messages, List.Forall₂ Arrives requests messages ∧
      (Inbox.mk limit []).receives (messages.length + 1) ⟨[], items⟩
        = (messages.map .ok ++ [.error .channelClosed], ⟨limit, []⟩, ⟨[], []⟩) := by
  have hsound : ∀ x ∈ (Outbox.sendAll limit requests sink).1, x.Sound limit :=
    fun x hx => Outbox.sound_of_mem_sendAll hx
  have hrequests := Outbox.map_request_sendAll limit requests sink
  rw [Outbox.content_sendAll, List.append_cancel_left_eq] at hbytes
  generalize (Outbox.sendAll limit requests sink).1 = xs at *
  subst hrequests
  have hwhole : ∀ x ∈ xs, x.IsWhole := fun x hx => (hsound x hx).sent (hsent x hx)
  have hlimit : ∀ x ∈ xs, x.left.length ≤ limit := fun x hx => (hsound x hx).length_le
  refine ⟨xs.map fun x => x.request.received, ?_, ?_⟩
  · rw [List.forall₂_map_left_iff, List.forall₂_map_right_iff, List.forall₂_same]
    exact fun x hx => Request.arrives (hnumbers _ (List.mem_map_of_mem hx)) (hwhole x hx)
  · have hreceives := receives_whole hwhole hlimit (t := []) (b := []) (fun h => by simp at h) (by simp)
      hitems hfaults (by rw [List.nil_append, List.append_nil, hbytes])
    rw [List.length_map, List.map_map]
    exact hreceives

/-- A request that waits for the next answer, and one of a transaction whose bytes are as many as are
allowed. -/
def twoRequests : List Request :=
  [{ command := 16, body := [7] }, { command := 37, transaction := some 3, body := [8, 9] }]

/-- A sink that takes few bytes at first and is interrupted. -/
def choppySink : Sink where
  writes := [.atMost 5, .fault ⟨.interrupted, ""⟩, .atMost 1, .atMost 30, .fault ⟨.interrupted, ""⟩, .atMost 27]
  flushes := [some ⟨.interrupted, ""⟩]

/-- What that sink takes of the requests, in reads that do not keep to their ends. -/
def choppyReads : List Supply :=
  let w := (Outbox.sendAll 28 twoRequests choppySink).2.content
  [.bytes (w.take 3), .fault ⟨.interrupted, ""⟩, .bytes ((w.drop 3).take 30), .bytes (w.drop 33)]

theorem receives_undoes_sends_choppy :
    (∀ r ∈ twoRequests, r.transaction ≠ some 0) ∧
      (∀ x ∈ (Outbox.sendAll 28 twoRequests choppySink).1, x.result = .ok ()) ∧
      (∀ data, Supply.bytes data ∈ choppyReads → data ≠ []) ∧ faults choppyReads = [] ∧
      (Outbox.sendAll 28 twoRequests choppySink).2.content = choppySink.content ++ supplied choppyReads ∧
      ∃ messages, List.Forall₂ Arrives twoRequests messages ∧
        (Inbox.mk 28 []).receives (messages.length + 1) ⟨[], choppyReads⟩
          = (messages.map .ok ++ [.error .channelClosed], ⟨28, []⟩, ⟨[], []⟩) := by
  have hnumbers : ∀ r ∈ twoRequests, r.transaction ≠ some 0 := by
    decide +kernel
  have hsent : ∀ x ∈ (Outbox.sendAll 28 twoRequests choppySink).1, x.result = .ok () := by
    decide +kernel
  have hitems : ∀ data, Supply.bytes data ∈ choppyReads → data ≠ [] := by
    have hall : (choppyReads.all fun | .bytes data => ! data.isEmpty | _ => true) = true := by
      decide +kernel
    rintro data hdata rfl
    exact Bool.false_ne_true (List.all_eq_true.mp hall _ hdata)
  have hbytes : (Outbox.sendAll 28 twoRequests choppySink).2.content
      = choppySink.content ++ supplied choppyReads := by
    decide +kernel
  exact ⟨hnumbers, hsent, hitems, rfl, hbytes, receives_undoes_sends hnumbers hsent hitems rfl hbytes⟩

/-- What arrives in this case. -/
example : ((Inbox.mk 28 []).receives 3 ⟨[], choppyReads⟩).1
    = [.ok ⟨17, 17, 16, 0x11000100, [7]⟩, .ok ⟨24, 24, 37, 0x11000103, [2, 4, 0, 0, 0, 3, 8, 9]⟩,
      .error .channelClosed] := by
  decide +kernel

end Wwan
