import Wwan.Bytes
import Wwan.Fault

/-!
# The reading end of a stream

A source hands out the items it holds, one read at a time.  A read never joins two items; what does
not fit into one read is left for the next one.
-/

namespace Wwan

/-- What a source has to offer. -/
inductive Supply where
  /-- Bytes; an empty item reads as the end of the stream, once. -/
  | bytes (data : Bytes)
  /-- A read that fails. -/
  | fault (f : Fault)

/-- The reading end of a stream; behind its last item it has ended. -/
structure Source where
  /-- What is left of the item taken last. -/
  current : Bytes := []
  /-- The items not yet taken. -/
  items : List Supply := []

namespace Source

/-- One read of at most `limit` bytes; the empty byte string tells that the stream has ended. -/
def read (limit : Nat) (s : Source) : Except Fault Bytes × Source :=
  match s.current with
  | _ :: _ => (.ok (s.current.take limit), { s with current := s.current.drop limit })
  | [] =>
    match s.items with
    | [] => (.ok [], s)
    | .bytes data :: rest => (.ok (data.take limit), ⟨data.drop limit, rest⟩)
    | .fault f :: rest => (.error f, ⟨[], rest⟩)

/-- A source that offers one more item at its end. -/
def supply (s : Source) (item : Supply) : Source :=
  { s with items := s.items ++ [item] }

/-- Whether a source has nothing more to hand out. -/
def isDry (s : Source) : Bool :=
  s.current.isEmpty && s.items.isEmpty

/-- How much there is to read in items: each byte and each item counts. -/
def loadOf : List Supply → Nat
  | [] => 0
  | .bytes data :: rest => data.length + 1 + loadOf rest
  | .fault _ :: rest => 1 + loadOf rest

/-- How much there is left to read. -/
def load (s : Source) : Nat :=
  s.current.length + loadOf s.items

/-- A read that fails takes an item. -/
theorem load_read_error {limit : Nat} {s s' : Source} {f : Fault}
    (h : s.read limit = (.error f, s')) : s'.load < s.load := by
  obtain ⟨current, items⟩ := s
  cases current with
  | cons b bs => simp [read] at h
  | nil =>
    cases items with
    | nil => simp [read] at h
    | cons item rest =>
      cases item with
      | bytes data => simp [read] at h
      | fault g =>
        simp only [read, Prod.mk.injEq] at h
        simp only [← h.2, load, loadOf]
        omega

/-- A read that gives bytes takes them. -/
theorem load_read_ok {limit : Nat} {s s' : Source} {b : UInt8} {bs : Bytes}
    (h : s.read limit = (.ok (b :: bs), s')) : s'.load < s.load := by
  obtain ⟨current, items⟩ := s
  cases current with
  | cons c cs =>
    simp only [read, Prod.mk.injEq, Except.ok.injEq] at h
    have hlen := congrArg List.length h.1
    simp only [List.length_take, List.length_cons] at hlen
    simp only [← h.2, load, List.length_drop, List.length_cons]
    omega
  | nil =>
    cases items with
    | nil => simp [read] at h
    | cons item rest =>
      cases item with
      | fault g => simp [read] at h
      | bytes data =>
        simp only [read, Prod.mk.injEq] at h
        simp only [← h.2, load, loadOf, List.length_drop, List.length_nil]
        omega

/-- A source that gives these byte strings, each in one read. -/
def ofReads (reads : List Bytes) : Source where
  items := reads.map .bytes

/-- Each read gives the next byte string, if none is too long for a read. -/
theorem read_ofReads {limit : Nat} {data : Bytes} (h : data.length ≤ limit) (rest : List Bytes) :
    (ofReads (data :: rest)).read limit = (.ok data, ofReads rest) := by
  show (Except.ok (data.take limit), Source.mk (data.drop limit) (rest.map .bytes)) = _
  rw [List.take_of_length_le h, List.drop_of_length_le h]
  rfl

end Source

end Wwan
