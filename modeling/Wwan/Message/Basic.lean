import Wwan.CallError
import Wwan.Value.Encoding

/-!
# Messages

A message of the command channel is its length, least significant octet first, then as integers of
four octets its length again and its command, then the transaction word, and its body.  The word tells
whether a message belongs to a call that waits for the next answer, to a numbered transaction, or to
none; the body of a transaction's message starts with the number as an integer of four octets.
-/

namespace Wwan

/-- The transaction word of calls that wait for the next answer, and of their answers. -/
def syncWord : UInt32 := 0x11000100

/-- The word of a transaction. -/
def transactionWord (id : UInt8) : UInt32 :=
  syncWord ||| id.toUInt32

/-- The transaction that a word tells, if it tells one: no transaction has the number zero. -/
def transactionOf? (word : UInt32) : Option UInt8 :=
  if word &&& 0xffffff00 = syncWord ∧ word.toUInt8 ≠ 0 then some word.toUInt8 else none

/-- The two octets that an integer of four octets starts with. -/
def fourOctets : Bytes := [Value.intTag, 4]

/-- A message as it was received. -/
structure Message where
  /-- The number of bytes behind the first length. -/
  length : UInt32
  /-- The second length, which should be the same. -/
  declared : UInt32
  command : UInt32
  word : UInt32
  body : Bytes
  deriving DecidableEq

namespace Message

/-- What a message is for. -/
inductive Kind where
  /-- The answer to a call that waits for the next answer. -/
  | response
  /-- The acknowledgement or the result of a transaction. -/
  | transaction (id : UInt8)
  /-- Sent by the modem of its own accord. -/
  | notice
  deriving DecidableEq

/-- Whether the two lengths of a message are the same. -/
def lengthsAgree (m : Message) : Bool :=
  m.length = m.declared

/-- What a message is for: commands from `threshold` on are notices even with a transaction's
word. -/
def classify (threshold : UInt32) (m : Message) : Kind :=
  if m.word = syncWord then .response
  else match transactionOf? m.word with
    | some id => if m.command < threshold then .transaction id else .notice
    | none => .notice

/-- The length of the part of a message before its body. -/
def headerSize : Nat := 20

/-- Parts a body that starts with an integer of four octets into the integer and the rest. -/
def stripId (body : Bytes) : Option (UInt32 × Bytes) :=
  if body.take 2 = fourOctets ∧ 6 ≤ body.length then
    some (Bytes.toWordBE ((body.drop 2).take 4), body.drop 6)
  else none

/-- What stands at the front of a buffer. -/
inductive Extraction where
  /-- The start of a message, or nothing. -/
  | incomplete
  /-- A message of more bytes than the limit. -/
  | tooLarge (size : Nat)
  /-- A whole unit that is no message. -/
  | malformed (reason : String) (rest : Bytes)
  | message (m : Message) (rest : Bytes)

/-- Reads a unit that is known to be complete. -/
def ofUnit (u : Bytes) : Except String Message :=
  if u.length < headerSize then .error "length shorter than header"
  else if (u.drop 4).take 2 ≠ fourOctets ∨ (u.drop 10).take 2 ≠ fourOctets then
    .error "header field is not a 4-byte integer"
  else
    .ok {
      length := Bytes.toWordLE (u.take 4)
      declared := Bytes.toWordBE ((u.drop 6).take 4)
      command := Bytes.toWordBE ((u.drop 12).take 4)
      word := Bytes.toWordBE ((u.drop 16).take 4)
      body := u.drop 20 }

/-- Takes the first unit of a buffer, when all of it is there and it is within the limit. -/
def extract (limit : Nat) (buffer : Bytes) : Extraction :=
  let lead := buffer.take 4
  if lead.length < 4 then .incomplete
  else
    let total := Bytes.toNatLE lead + 4
    if limit < total then .tooLarge total
    else
      let u := buffer.take total
      if u.length < total then .incomplete
      else match ofUnit u with
        | .ok m => .message m (buffer.drop total)
        | .error reason => .malformed reason (buffer.drop total)

/-! ## Progress -/

/-- A malformed unit is taken from the buffer. -/
theorem extract_malformed_lt {limit : Nat} {buffer rest : Bytes} {reason : String}
    (h : extract limit buffer = .malformed reason rest) : rest.length < buffer.length := by
  simp only [extract] at h
  split at h
  · cases h
  · split at h
    · cases h
    · split at h
      · cases h
      · split at h <;> cases h
        simp only [List.length_take, List.length_drop] at *
        omega

/-- A message is taken from the buffer. -/
theorem extract_message_lt {limit : Nat} {buffer rest : Bytes} {m : Message}
    (h : extract limit buffer = .message m rest) : rest.length < buffer.length := by
  simp only [extract] at h
  split at h
  · cases h
  · split at h
    · cases h
    · split at h
      · cases h
      · split at h <;> cases h
        simp only [List.length_take, List.length_drop] at *
        omega

end Message

/-- A message that is to be sent. -/
structure Request where
  command : UInt32
  /-- The transaction it belongs to; none if it waits for the next answer. -/
  transaction : Option UInt8 := none
  body : Bytes

namespace Request

/-- The transaction word of a request. -/
def word (r : Request) : UInt32 :=
  match r.transaction with
  | none => syncWord
  | some id => transactionWord id

/-- The body of a request behind the transaction's number. -/
def payload (r : Request) : Bytes :=
  match r.transaction with
  | none => r.body
  | some id => Value.integer 4 id.toUInt32 ++ r.body

/-- The number that a request's two length fields tell. -/
def length (r : Request) : Nat :=
  r.payload.length + 16

/-- The bytes of a request, if its length is a number of four octets. -/
def encode (r : Request) : Except CallError Bytes :=
  if Bytes.bound 4 ≤ r.length then .error (.tooLarge (r.length + 4) (Bytes.bound 4 - 1))
  else
    .ok (Bytes.ofNatLE 4 r.length ++ Value.integer 4 (UInt32.ofNat r.length)
      ++ Value.integer 4 r.command ++ Bytes.ofWordBE r.word ++ r.payload)

end Request

end Wwan
