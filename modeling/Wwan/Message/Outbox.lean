import Wwan.Message.Basic
import Wwan.Stream.Sink

/-!
# Sending messages

A request is written as a whole: in as many writes as the sink needs, and then flushed.  Interrupted
writes and flushes are made again.
-/

namespace Wwan.Outbox

/-- Writes all of `data`. -/
def writeAll (data : Bytes) (s : Sink) : Except CallError Unit × Sink :=
  match data with
  | [] => (.ok (), s)
  | b :: bs =>
    match _h : s.write (b :: bs) with
    | (.ok 0, s') => (.error .channelClosed, s')
    | (.ok (n + 1), s') => writeAll (bs.drop n) s'
    | (.error f, s') =>
      match f.kind with
      | .interrupted => writeAll (b :: bs) s'
      | .brokenPipe => (.error .channelClosed, s')
      | _ => (.error (.fault f), s')
termination_by data.length + s.writes.length
decreasing_by
  · have := Sink.writes_write_le _h
    simp only [List.length_drop, List.length_cons]
    omega
  · have := Sink.writes_write_error _h
    omega

/-- Flushes what was written. -/
def flush (s : Sink) : Except CallError Unit × Sink :=
  match _h : s.flush with
  | (.ok (), s') => (.ok (), s')
  | (.error f, s') => if f.kind = .interrupted then flush s' else (.error (.fault f), s')
termination_by s.flushes.length
decreasing_by exact Sink.flushes_flush_error _h

/-- Sends a request of at most `limit` bytes.  Nothing is written of a larger one. -/
def send (limit : Nat) (r : Request) (s : Sink) : Except CallError Unit × Sink :=
  match r.encode with
  | .error e => (.error e, s)
  | .ok data =>
    if limit < data.length then (.error (.tooLarge data.length limit), s)
    else match writeAll data s with
      | (.ok (), s') => flush s'
      | (.error e, s') => (.error e, s')

end Wwan.Outbox
