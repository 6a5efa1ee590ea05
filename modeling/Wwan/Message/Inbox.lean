import Wwan.Message.Basic
import Wwan.Stream.Source

/-!
# Receiving messages

An inbox collects the bytes of a stream and hands out the messages in them, however the stream is cut
into reads.
-/

namespace Wwan

/-- The bytes received and not yet handed out as messages. -/
structure Inbox where
  /-- The size of the largest message that is read. -/
  limit : Nat := 65536
  buffer : Bytes := []

namespace Inbox

/-- The number of bytes asked for by one read. -/
def chunkSize : Nat := 8192

/-- Adds bytes at the end. -/
def feed (chunk : Bytes) (i : Inbox) : Inbox :=
  { i with buffer := i.buffer ++ chunk }

/-- Drops all that is buffered, and tells how much it was. -/
def discard (i : Inbox) : Nat × Inbox :=
  (i.buffer.length, { i with buffer := [] })

/-- The next message if all of it is there.  A message that is too large stays in the buffer, a
malformed one is dropped. -/
def next (i : Inbox) : Except CallError (Option Message) × Inbox :=
  match Message.extract i.limit i.buffer with
  | .incomplete => (.ok none, i)
  | .tooLarge size => (.error (.tooLarge size i.limit), i)
  | .malformed reason rest => (.error (.malformed reason), { i with buffer := rest })
  | .message m rest => (.ok (some m), { i with buffer := rest })

/-- Takes all complete messages.  Malformed ones are left out, and one that is too large takes all
that is buffered with it. -/
def drain (i : Inbox) : List Message × Inbox :=
  match _h : Message.extract i.limit i.buffer with
  | .incomplete => ([], i)
  | .tooLarge _ => ([], { i with buffer := [] })
  | .malformed _ rest => drain { i with buffer := rest }
  | .message m rest => (drain { i with buffer := rest }).map (m :: ·) id
termination_by i.buffer.length
decreasing_by
  · exact Message.extract_malformed_lt _h
  · exact Message.extract_message_lt _h

/-- The next message of a stream: reads until it is complete.  Interrupted reads are made again. -/
def receive (i : Inbox) (s : Source) : Except CallError Message × Inbox × Source :=
  match i.next with
  | (.error e, i') => (.error e, i', s)
  | (.ok (some m), i') => (.ok m, i', s)
  | (.ok none, _) =>
    match _h : s.read chunkSize with
    | (.ok [], s') => (.error .channelClosed, i, s')
    | (.ok (b :: bs), s') => receive (i.feed (b :: bs)) s'
    | (.error f, s') =>
      if f.kind = .interrupted then receive i s' else (.error (.fault f), i, s')
termination_by s.load
decreasing_by
  · exact Source.load_read_ok _h
  · exact Source.load_read_error _h

end Inbox

end Wwan
