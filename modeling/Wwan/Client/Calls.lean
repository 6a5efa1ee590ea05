import Wwan.Client.Line

/-!
# Calls under names

Whoever places several calls on a line tells them apart by names.  A call stays outstanding until what
it returns is decided, and is done from then on.
-/

namespace Wwan

/-- A line with the calls that were placed on it. -/
structure Calls (H : Type) where
  line : Line H
  /-- The calls that have not returned, with their tokens. -/
  outstanding : List (String × Nat) := []
  /-- What the others have returned, in the order in which that was seen. -/
  done : List (String × Except CallError Reply) := []

namespace Calls

variable {H : Type}

/-- Takes a call over under a name.  One that could not begin is done; the time of one with a timeout
passes, as nothing answers it. -/
def track (name : String) (timeout : Option Span) (r : Except CallError Nat × Line H)
    (s : Calls H) : Calls H :=
  match r with
  | (.error e, line) => { s with line, done := s.done ++ [(name, .error e)] }
  | (.ok token, line) =>
    { s with
      line := if timeout.isSome then line.lapse token else line
      outstanding := s.outstanding ++ [(name, token)] }

/-- Places a call. -/
def place (name : String) (p : Purpose) (command : UInt32) (body : Bytes) (timeout : Option Span)
    (s : Calls H) : Calls H :=
  s.track name timeout (s.line.place p command body (timeout.getD ⟨0⟩))

/-- Begins to wait for the next message. -/
def observe (name : String) (timeout : Option Span) (s : Calls H) : Calls H :=
  s.track name timeout (s.line.observe (timeout.getD ⟨0⟩))

/-- Sends a request that nobody waits for. -/
def send (command : UInt32) (body : Bytes) (s : Calls H) : Except CallError Unit × Calls H :=
  match s.line.place .oneWay command body ⟨0⟩ with
  | (.ok token, line) => (.ok (), { s with line := (line.collect token).2 })
  | (.error e, line) => (.error e, { s with line })

/-- The channel supplies something. -/
def arrive (x : Supply) (s : Calls H) : Calls H :=
  { s with line := s.line.arrive x }

/-- Handles all notices and collects the calls that are decided. -/
def settle (s : Calls H) : Calls H :=
  s.outstanding.foldl (fun s (name, token) =>
    match s.line.collect token with
    | (some r, line) => { s with line, done := s.done ++ [(name, r)] }
    | (none, line) => { s with line, outstanding := s.outstanding ++ [(name, token)] })
    { s with line := s.line.mapClient Client.handleAll, outstanding := [] }

/-- Forgets what was returned, handled and written so far. -/
def forget (s : Calls H) : Calls H :=
  { s with
    done := []
    line := { s.line.mapClient fun c => { c with handled := [] } with sink := s.line.sink.forget } }

end Calls

end Wwan
