import Wwan.Modem.Basic
import Wwan.Value.Cursor

/-!
# Reading replies

The values of a reply are read by their places in it.
-/

namespace Wwan.Modem

/-- The values of a reply. -/
def replyValues (call : CallId) (body : Bytes) : Except ModemError (List Value) :=
  (Value.decodeAll body).mapError fun e => .badReply call e.message

/-- The integer at a place in a reply. -/
def intAt (call : CallId) (values : List Value) (i : Nat) : Except ModemError UInt32 :=
  match values[i]?.bind Value.int? with
  | some n => .ok n
  | none => .error (.badReply call s!"value {i} is missing or not an integer")

/-- The string at a place in a reply. -/
def bytesAt (call : CallId) (values : List Value) (i : Nat) : Except ModemError Bytes :=
  match values[i]?.bind Value.bytes? with
  | some bs => .ok bs
  | none => .error (.badReply call s!"value {i} is missing or not a string")

/-- The integer at a place in the body of a reply. -/
def replyInt (call : CallId) (body : Bytes) (i : Nat) : Except ModemError UInt32 := do
  intAt call (← replyValues call body) i

/-- Whether a notice tells that attaching is allowed, or not; it may tell neither. -/
def attachAllowed? (body : Bytes) : Option Bool :=
  match Value.decodeAll body with
  | .ok values => (values[2]?.bind Value.int?).map fun n => n ≠ 0
  | .error _ => none

end Wwan.Modem
