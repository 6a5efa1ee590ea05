import Wwan.Bytes

/-!
# The table of outstanding calls

Answers carry nothing that tells them apart, so the calls that wait for one stand in a queue and are
served in the order of their requests.  A transaction has a number of its own, from 1 to 255, and is
answered twice: by an acknowledgement and by its result.  Observers are told of the next message.  Each
entry belongs to the call with its token.
-/

namespace Wwan

/-- A place in the queue for answers. -/
structure Waiter where
  token : Nat
  /-- Whether somebody waits; if not, the answer is dropped. -/
  attended : Bool
  deriving DecidableEq

/-- A transaction in progress. -/
structure Pending where
  id : UInt8
  token : Nat
  acknowledged : Bool := false
  deriving DecidableEq

/-- The outstanding calls. -/
structure Table where
  /-- Whether the channel has ended; then there are no outstanding calls. -/
  closed : Bool := false
  /-- The transaction number given out last; zero before the first. -/
  cursor : UInt8 := 0
  /-- The token given out last. -/
  lastToken : Nat := 0
  waiters : List Waiter := []
  pending : List Pending := []
  observers : List Nat := []
  deriving DecidableEq

namespace Table

/-- Gives out a token that was not given out before. -/
def issue (t : Table) : Nat × Table :=
  (t.lastToken + 1, { t with lastToken := t.lastToken + 1 })

/-- The transaction number after another; after 255 comes 1. -/
def nextId (id : UInt8) : UInt8 :=
  if id = 255 then 1 else id + 1

/-- The transaction with a number, if it is in progress. -/
def pending? (id : UInt8) (t : Table) : Option Pending :=
  t.pending.find? fun p => p.id = id

/-- Moves the cursor to the next free number, in at most `tries` steps. -/
def seek : Nat → Table → Option UInt8 × Table
  | 0, t => (none, t)
  | tries + 1, t =>
    let id := nextId t.cursor
    let t' := { t with cursor := id }
    if (t.pending? id).isSome then seek tries t' else (some id, t')

/-- The first free number behind the cursor, which moves there; none if all are taken. -/
def allocate (t : Table) : Option UInt8 × Table :=
  seek 255 t

/-- Adds a place at the end of the queue for answers. -/
def enqueue (token : Nat) (attended : Bool) (t : Table) : Table :=
  { t with waiters := t.waiters ++ [⟨token, attended⟩] }

/-- Adds a transaction. -/
def start (id : UInt8) (token : Nat) (t : Table) : Table :=
  { t with pending := t.pending ++ [{ id, token }] }

/-- Adds an observer. -/
def observe (token : Nat) (t : Table) : Table :=
  { t with observers := t.observers ++ [token] }

/-- Takes a place out of the queue: its request was not sent. -/
def forget (token : Nat) (t : Table) : Table :=
  { t with waiters := t.waiters.filter fun w => w.token ≠ token }

/-- Leaves a place in the queue, but nobody waits there any more. -/
def abandon (token : Nat) (t : Table) : Table :=
  { t with waiters := t.waiters.map fun w =>
      if w.token = token then { w with attended := false } else w }

/-- Ends a transaction if it is still the one with this token. -/
def release (id : UInt8) (token : Nat) (t : Table) : Table :=
  { t with pending := t.pending.filter fun p => ¬(p.id = id ∧ p.token = token) }

/-- Takes an observer away. -/
def unobserve (token : Nat) (t : Table) : Table :=
  { t with observers := t.observers.filter fun o => o ≠ token }

/-- An answer arrives: the first of the queue is served.  Tells who receives it, if somebody does. -/
def answer (t : Table) : Option Nat × Table :=
  match t.waiters with
  | [] => (none, t)
  | w :: ws => (if w.attended then some w.token else none, { t with waiters := ws })

/-- A message of a transaction arrives: the first is the acknowledgement, the second ends it.  Tells
who receives it, if somebody does. -/
def advance (id : UInt8) (t : Table) : Option Nat × Table :=
  match t.pending? id with
  | none => (none, t)
  | some p =>
    if p.acknowledged then (some p.token, { t with pending := t.pending.filter fun q => q.id ≠ id })
    else
      (none, { t with pending := t.pending.map fun q =>
        if q.id = id then { q with acknowledged := true } else q })

/-- The channel has ended. -/
def close (t : Table) : Table :=
  { t with closed := true, waiters := [], pending := [], observers := [] }

/-- The numbers of the transactions in progress, in ascending order. -/
def pendingIds (t : Table) : List UInt8 :=
  (t.pending.map Pending.id).mergeSort fun a b => a ≤ b

end Table

end Wwan
