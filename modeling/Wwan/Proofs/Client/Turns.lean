import Wwan.Proofs.Client.Reader
import Wwan.Proofs.Client.Unobserved
import Wwan.Proofs.Message.Framing

/-!
# The reader's turns

A client's reader takes its turns among the callers' steps: in each it reads as far as it needs for the
next unit and deals with that one (`Reading.turn`).  What happens to the client is then told by the units
alone, however they come in reads (`Moment`), as long as a unit that is too large is dropped alone
(`Carried`): a turn does what the next unit does (`Carried.turn`), and so do all turns of a schedule
(`Carried.play`).
-/

namespace Wwan

variable {H : Type}

/-! ## The reader -/

/-- A run with the stream that its reader reads. -/
structure Reading (H : Type) where
  run : Run H
  inbox : Inbox
  source : Source
  /-- Whether the reader has gone. -/
  ended : Bool := false

namespace Reading

/-- A run that has just begun, with a stream that comes in these reads. -/
def fresh (config : ClientConfig) (sink : Sink) (reads : List Bytes) : Reading H where
  run := .fresh config sink
  inbox := { limit := config.maxMessage }
  source := .ofReads reads

/-- The reader reads the next message and dispatches it.  It passes over what is no message, drops all that
it has read when a unit is too large, and goes when there is no more to read. -/
def turn (d : Reading H) : Reading H :=
  if d.ended then d
  else match d.inbox.receive d.source with
    | (.ok m, inbox, source) => { d with run := d.run.step (.dispatch m), inbox, source }
    | (.error (.malformed _), inbox, source) => { d with inbox, source }
    | (.error (.tooLarge _ _), inbox, source) => { d with inbox := inbox.discard.2, source }
    | (.error _, inbox, source) => ⟨d.run.step .close, inbox, source, true⟩

/-- The reader closes the client in the turn in which it goes. -/
theorem run_turn_gone {d : Reading H} (hgoing : d.ended = false) (hgone : d.turn.ended = true) :
    d.turn.run = d.run.step .close := by
  have hon : d.ended ≠ true := by rw [hgoing]; exact Bool.false_ne_true
  rw [turn, if_neg hon] at hgone ⊢
  split at hgone
  · exact absurd hgone hon
  · exact absurd hgone hon
  · exact absurd hgone hon
  · rfl

/-- Somebody acts, or it is the reader's turn. -/
def next (d : Reading H) : Option (Action H) → Reading H
  | some a => { d with run := d.run.step a }
  | none => d.turn

/-- What calls return in the course of a schedule, but for those who wait for the next message. -/
def results (d : Reading H) : List (Option (Action H)) → List (Option Nat × Except CallError Reply)
  | [] => []
  | n :: ns => n.elim [] d.run.outcome ++ (d.next n).results ns

end Reading

/-! ## Units -/

/-- What happens to a client: somebody acts, or its reader comes to the next unit. -/
inductive Moment (H : Type) where
  | act (a : Action H)
  | unit (u : Bytes)

namespace Moment

/-- Who is next: somebody with an action, or the reader. -/
def action? : Moment H → Option (Action H)
  | .act a => some a
  | .unit _ => none

/-- The unit that the reader comes to. -/
def unit? : Moment H → Option Bytes
  | .act _ => none
  | .unit u => some u

end Moment

namespace Run

/-- What a unit does: it is dispatched if it is a message within the limit. -/
def hear (u : Bytes) (r : Run H) : Run H :=
  if u.length ≤ r.client.config.maxMessage then
    match Message.ofUnit? u with
    | some m => r.step (.dispatch m)
    | none => r
  else r

/-- A run when something has happened. -/
def happen (r : Run H) : Moment H → Run H
  | .act a => r.step a
  | .unit u => r.hear u

/-- What calls return while all this happens, but for those who wait for the next message. -/
def results (r : Run H) : List (Moment H) → List (Option Nat × Except CallError Reply)
  | [] => []
  | m :: hs => m.action?.elim [] r.outcome ++ (r.happen m).results hs

theorem config_happen (r : Run H) (m : Moment H) : (r.happen m).client.config = r.client.config := by
  cases m with
  | act a => exact (move_step r a).config_eq
  | unit u =>
    rw [happen, hear]
    split
    · split
      · exact (move_step r _).config_eq
      · rfl
    · rfl

end Run

/-! ## Units in reads -/

/-- The bytes in an inbox and the reads to come bring these units, and each that is too large can be dropped
alone. -/
structure Carried (limit : Nat) (buffer : Bytes) (reads us : List Bytes) : Prop where
  isUnit : ∀ u ∈ us, IsUnit u
  read_ne_nil : ∀ c ∈ reads, c ≠ []
  read_le : ∀ c ∈ reads, c.length ≤ Inbox.chunkSize
  bytes : us.flatten <+: buffer ++ reads.flatten
  aligned : Aligned limit us (buffer.length :: (ends reads).map (buffer.length + ·))

namespace Carried

variable {limit : Nat} {b c u : Bytes} {cs us : List Bytes}

/-- Units within the limit may come in any reads. -/
theorem of_small (hunits : ∀ u ∈ us, IsUnit u) (hsmall : ∀ u ∈ us, u.length ≤ limit)
    (hreads : ∀ c ∈ cs, c ≠ [] ∧ c.length ≤ Inbox.chunkSize) (hbytes : us.flatten <+: b ++ cs.flatten) :
    Carried limit b cs us where
  isUnit := hunits
  read_ne_nil c hc := (hreads c hc).1
  read_le c hc := (hreads c hc).2
  bytes := hbytes
  aligned before u after hus hlarge := by
    have hle := hsmall u (by rw [hus]; simp)
    omega

/-- A unit that is there in whole makes way for the others. -/
theorem behind (h : Carried limit (u ++ b) cs (u :: us)) (hsmall : u.length ≤ limit) :
    Carried limit b cs us where
  isUnit v hv := h.isUnit v (List.mem_cons_of_mem u hv)
  read_ne_nil := h.read_ne_nil
  read_le := h.read_le
  bytes := by
    have hbytes := h.bytes
    rw [List.flatten_cons, List.append_assoc] at hbytes
    exact (List.prefix_append_right_inj u).mp hbytes
  aligned := by
    have haligned := h.aligned
    rw [List.length_append, ends_shift] at haligned
    have hflat : ([u].flatten).length = u.length := by
      rw [List.flatten_singleton]
    rw [← hflat] at haligned
    exact (aligned_append (fun v hv => List.mem_singleton.mp hv ▸ hsmall) _).mp haligned

/-- A unit that is too large and is dropped alone makes way for the others. -/
theorem behind_large (h : Carried limit u cs (u :: us)) : Carried limit [] cs us where
  isUnit v hv := h.isUnit v (List.mem_cons_of_mem u hv)
  read_ne_nil := h.read_ne_nil
  read_le := h.read_le
  bytes := by
    have hbytes := h.bytes
    rw [List.flatten_cons] at hbytes
    exact (List.prefix_append_right_inj u).mp hbytes
  aligned := by
    have haligned := (aligned_cons_of_end u us (ends cs)).mp h.aligned
    have hunits : ∀ v ∈ us, IsUnit v := fun v hv => h.isUnit v (List.mem_cons_of_mem u hv)
    refine (aligned_cons_of_pends hunits (pends_nil hunits) _).mpr ?_
    simpa using haligned

/-- One more read goes into the inbox. -/
theorem feed (h : Carried limit b (c :: cs) us) (hpends : Pends limit us b) :
    Carried limit (b ++ c) cs us where
  isUnit := h.isUnit
  read_ne_nil d hd := h.read_ne_nil d (List.mem_cons_of_mem c hd)
  read_le d hd := h.read_le d (List.mem_cons_of_mem c hd)
  bytes := by
    rw [List.append_assoc, ← List.flatten_cons]
    exact h.bytes
  aligned := by
    have haligned := (aligned_cons_of_pends h.isUnit hpends _).mp h.aligned
    rw [ends, ← ends_shift] at haligned
    rwa [List.length_append]

/-- The next unit pends, or is there in whole, or is too large and is all that is there. -/
theorem cases_front (h : Carried limit b cs (u :: us)) :
    Pends limit (u :: us) b ∨ (u.length ≤ limit ∧ u <+: b) ∨ (limit < u.length ∧ b = u) := by
  have hfour := (h.isUnit u List.mem_cons_self).four_le
  have hu : u <+: b ++ cs.flatten := by
    have hbytes := h.bytes
    rw [List.flatten_cons] at hbytes
    exact (List.prefix_append u _).trans hbytes
  have hofUnit : b.length ≤ u.length → b <+: u := fun hle =>
    List.prefix_of_prefix_length_le (List.prefix_append b _) hu hle
  by_cases hlarge : limit < u.length
  · by_cases hshort : b.length < 4
    · exact .inl ⟨hofUnit (by omega), by omega, fun _ => hshort⟩
    · -- what has the length of the unit ends with the unit
      obtain ⟨hmem, hends⟩ := h.aligned [] u us rfl hlarge
      have hle := hends b.length List.mem_cons_self (by simpa using hshort)
      simp only [List.flatten_nil, List.length_nil, Nat.zero_add] at hmem hle
      have hge : b.length ≤ u.length := by
        obtain heq | hmem := List.mem_cons.mp hmem
        · exact Nat.le_of_eq heq.symm
        · obtain ⟨e, -, heq⟩ := List.mem_map.mp hmem
          omega
      exact .inr (.inr ⟨hlarge, (hofUnit hge).eq_of_length (Nat.le_antisymm hge hle)⟩)
  · by_cases hshort : b.length < u.length
    · exact .inl ⟨hofUnit (Nat.le_of_lt hshort), hshort, fun hc => absurd hc hlarge⟩
    · exact .inr (.inl ⟨Nat.le_of_not_lt hlarge,
        List.prefix_of_prefix_length_le hu (List.prefix_append b _) (Nat.le_of_not_lt hshort)⟩)

end Carried

/-- Nothing can be extracted while the next unit pends. -/
theorem extract_of_pends {limit : Nat} {u t : Bytes} {us : List Bytes} (hu : IsUnit u)
    (h : Pends limit (u :: us) t) : Message.extract limit t = .incomplete := by
  obtain ⟨hstart, hlt, hfour⟩ := h
  by_cases hshort : t.length < 4
  · exact Message.extract_of_short hshort
  have hlead : t.take 4 = u.take 4 := by
    obtain ⟨x, rfl⟩ := hstart
    exact (List.take_append_of_le_length (Nat.le_of_not_lt hshort)).symm
  rw [Message.extract_partial limit hu (Nat.le_of_not_lt hshort) hlead,
    if_neg fun hlarge => hshort (hfour hlarge), if_pos hlt]

/-- A unit that is too large is reported once its length is there. -/
theorem receive_large {limit : Nat} {u : Bytes} (hu : IsUnit u) (hlarge : limit < u.length) (s : Source) :
    (Inbox.mk limit u).receive s = (.error (.tooLarge u.length limit), ⟨limit, u⟩, s) := by
  have hextract := Message.extract_partial limit hu hu.four_le rfl
  rw [if_pos hlarge] at hextract
  rw [Inbox.receive, Inbox.next]
  simp only [hextract]

namespace Carried

variable {limit : Nat} {b u : Bytes} {cs us : List Bytes}

/-- The reader reads until the next unit is there in whole, or is too large and all that is there. -/
theorem pull (h : Carried limit b cs (u :: us)) : ∃ b' cs', Carried limit b' cs' (u :: us) ∧
    (Inbox.mk limit b).receive (.ofReads cs) = (Inbox.mk limit b').receive (.ofReads cs') ∧
    ((u.length ≤ limit ∧ u <+: b') ∨ (limit < u.length ∧ b' = u)) := by
  have hu := h.isUnit u List.mem_cons_self
  -- on the reads to come: as long as the unit pends, the next one goes into the inbox
  induction cs generalizing b with
  | nil =>
    obtain hpends | hready := h.cases_front
    · -- a unit cannot pend when there is nothing to come
      have hle := h.bytes.length_le
      have hlt := hpends.2.1
      simp only [List.flatten_cons, List.flatten_nil, List.append_nil, List.length_append] at hle
      omega
    · exact ⟨b, [], h, rfl, hready⟩
  | cons c cs ih =>
    obtain hpends | hready := h.cases_front
    · have hreceive := Inbox.receive_of_incomplete (extract_of_pends hu hpends) (.ofReads (c :: cs))
      have hne := h.read_ne_nil c List.mem_cons_self
      rw [Source.read_ofReads (h.read_le c List.mem_cons_self) cs] at hreceive
      rcases c with _ | ⟨octet, c⟩
      · exact absurd rfl hne
      · rw [hreceive]
        exact ih (h.feed hpends)
    · exact ⟨b, c :: cs, h, rfl, hready⟩

/-- A turn of the reader does what the next unit does. -/
theorem turn {r : Run H} (hlimit : r.client.config.maxMessage = limit) (h : Carried limit b cs (u :: us)) :
    ∃ b' cs', Carried limit b' cs' us ∧
      (Reading.mk r ⟨limit, b⟩ (.ofReads cs) false).turn
        = ⟨r.hear u, ⟨limit, b'⟩, .ofReads cs', false⟩ := by
  subst hlimit
  have hu := h.isUnit u List.mem_cons_self
  obtain ⟨b, cs', h, hpull, ⟨hsmall, b', rfl⟩ | ⟨hlarge, rfl⟩⟩ := h.pull
  · refine ⟨b', cs', h.behind hsmall, ?_⟩
    simp only [Reading.turn, hpull, Inbox.receive_unit hu hsmall, Run.hear, if_pos hsmall,
      Message.ofUnit?, Message.readUnit]
    rcases Message.ofUnit u with reason | m <;> rfl
  · refine ⟨[], cs', h.behind_large, ?_⟩
    simp only [Reading.turn, hpull, receive_large hu hlarge, Run.hear, if_neg (Nat.not_le_of_lt hlarge)]
    rfl

/-- The turns of the reader, among the actions of others, do what the units do. -/
theorem play {r : Run H} (hlimit : r.client.config.maxMessage = limit) {hs : List (Moment H)}
    (h : Carried limit b cs (hs.filterMap Moment.unit?)) :
    ((hs.map Moment.action?).foldl Reading.next ⟨r, ⟨limit, b⟩, .ofReads cs, false⟩).run
        = hs.foldl Run.happen r ∧
      (Reading.mk r ⟨limit, b⟩ (.ofReads cs) false).results (hs.map Moment.action?) = r.results hs := by
  induction hs generalizing r b cs with
  | nil => exact ⟨rfl, rfl⟩
  | cons moment hs ih =>
    have hlimit' : (r.happen moment).client.config.maxMessage = limit := by
      rw [r.config_happen, hlimit]
    cases moment with
    | act a =>
      obtain ⟨hrun, hresults⟩ := ih hlimit' h
      exact ⟨hrun, congrArg (r.outcome a ++ ·) hresults⟩
    | unit u =>
      obtain ⟨b', cs', h', hturn⟩ := turn hlimit h
      obtain ⟨hrun, hresults⟩ := ih hlimit' h'
      rw [List.map_cons, List.foldl_cons, List.foldl_cons, Reading.results, Run.results]
      simp only [Moment.action?, Reading.next, hturn, Option.elim_none, List.nil_append]
      exact ⟨hrun, hresults⟩

end Carried

end Wwan
