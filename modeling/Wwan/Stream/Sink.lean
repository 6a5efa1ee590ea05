import Wwan.Bytes
import Wwan.Fault

/-!
# The writing end of a stream

A sink takes the bytes of each write as its plan says, in whole or in part, or fails, and its flushes
succeed or fail as planned; it remembers what it took.  When its plan is used up it takes everything, and
its flushes succeed.
-/

namespace Wwan

/-- How a sink answers one write. -/
inductive Uptake where
  /-- Takes at most this many bytes. -/
  | atMost (n : Nat)
  | fault (f : Fault)

namespace Uptake

def isInterruption : Uptake → Bool
  | .fault f => f.isInterruption
  | .atMost _ => false

/-- What a sink answers to writes other than that they are interrupted. -/
def lasting (answers : List Uptake) : List Uptake :=
  answers.filter (!·.isInterruption)

end Uptake

/-- The writing end of a stream. -/
structure Sink where
  /-- The answers to the next writes. -/
  writes : List Uptake := []
  /-- The outcomes of the next flushes: the failure, of one that fails. -/
  flushes : List (Option Fault) := []
  /-- The bytes taken by each write that took any, oldest first. -/
  taken : List Bytes := []
  /-- The number of flushes that succeeded. -/
  flushed : Nat := 0

namespace Sink

/-- Everything that a sink has taken. -/
def content (s : Sink) : Bytes :=
  s.taken.flatten

/-- Remembers the bytes of a write. -/
def record (s : Sink) (data : Bytes) : Sink :=
  if data.isEmpty then s else { s with taken := s.taken ++ [data] }

/-- One write: the number of bytes taken, or the failure. -/
def write (data : Bytes) (s : Sink) : Except Fault Nat × Sink :=
  match s.writes with
  | [] => (.ok data.length, s.record data)
  | .atMost n :: rest => (.ok (min n data.length), { s with writes := rest }.record (data.take n))
  | .fault f :: rest => (.error f, { s with writes := rest })

/-- One flush. -/
def flush (s : Sink) : Except Fault Unit × Sink :=
  match s.flushes with
  | [] => (.ok (), { s with flushed := s.flushed + 1 })
  | none :: rest => (.ok (), { s with flushes := rest, flushed := s.flushed + 1 })
  | some f :: rest => (.error f, { s with flushes := rest })

/-- A sink whose plan is longer. -/
def plan (s : Sink) (writes : List Uptake) (flushes : List (Option Fault)) : Sink :=
  { s with writes := s.writes ++ writes, flushes := s.flushes ++ flushes }

/-- A sink that has forgotten what it took. -/
def forget (s : Sink) : Sink :=
  { s with taken := [] }

@[simp] theorem record_writes (s : Sink) (data : Bytes) : (s.record data).writes = s.writes := by
  unfold record
  split <;> rfl

/-- A write that fails uses up a part of the plan. -/
theorem writes_write_error {data : Bytes} {s s' : Sink} {f : Fault}
    (h : s.write data = (.error f, s')) : s'.writes.length < s.writes.length := by
  unfold write at h
  split at h
  · simp at h
  · simp at h
  · next rest heq =>
    simp only [Prod.mk.injEq] at h
    simp [← h.2, heq]

/-- A write never makes the plan longer. -/
theorem writes_write_le {data : Bytes} {s s' : Sink} {r : Except Fault Nat}
    (h : s.write data = (r, s')) : s'.writes.length ≤ s.writes.length := by
  unfold write at h
  split at h
  · next heq =>
    simp only [Prod.mk.injEq] at h
    simp [← h.2]
  · next heq =>
    simp only [Prod.mk.injEq] at h
    simp [← h.2, heq]
  · next heq =>
    simp only [Prod.mk.injEq] at h
    simp [← h.2, heq]

/-- A flush that fails uses up a part of the plan. -/
theorem flushes_flush_error {s s' : Sink} {f : Fault} (h : s.flush = (.error f, s')) :
    s'.flushes.length < s.flushes.length := by
  unfold flush at h
  split at h
  · simp at h
  · simp at h
  · next rest heq =>
    simp only [Prod.mk.injEq] at h
    simp [← h.2, heq]

end Sink

end Wwan
