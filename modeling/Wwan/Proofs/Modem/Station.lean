import Wwan.Proofs.Client.Ledger
import Wwan.Proofs.Modem.Waiting

/-!
# The state of a station

What a line does with its client are steps of the client's runs, so what every step keeps holds on at a
station whatever it does (`Line.keeps_place` and the others).  With that, a station is `Intact` between
its acts: its client is consistent and closed when reading has ended, and no notice is left to be heard.
The end of reading changes an intact station in this respect only (`Station.receive_end`).
-/

namespace Wwan

/-! ## What a line keeps -/

namespace Line

variable {H : Type} {P : Client H → Prop} {l : Line H}

/-- What a line does is done by a run that starts there. -/
theorem on_run (l : Line H) : Run.On ⟨l.client, l.sink, none, []⟩ l :=
  ⟨rfl, rfl, rfl⟩

section Moves

variable (hP : ∀ {r r' : Run H}, Move r r' → P r.client → P r'.client)

include hP

theorem keeps_place (h : P l.client) (p : Purpose) (command : UInt32) (body : Bytes)
    (timeout : Span) : P (l.place p command body timeout).2.client := by
  rw [← (l.on_run.place p command body timeout).client_eq]
  exact hP (Run.move_step _ .write) (hP (Run.move_step _ (.start p command body timeout)) h)

theorem keeps_observe (h : P l.client) (timeout : Span) : P (l.observe timeout).2.client := by
  rw [← (l.on_run.observe timeout).client_eq]
  exact hP (Run.move_step _ (.observe timeout)) h

theorem keeps_lapse (h : P l.client) (token : Nat) : P (l.lapse token).client := by
  rw [← (l.on_run.lapse token).client_eq]
  exact hP (Run.move_step _ (.settle token)) (hP (Run.move_step _ (.expire token)) h)

theorem keeps_collect (h : P l.client) (token : Nat) : P (l.collect token).2.client := by
  rw [← (l.on_run.collect token).client_eq]
  exact hP (Run.move_step _ (.collect token)) h

end Moves

section Supplies

variable (hdispatch : ∀ {c : Client H} m, P c → P (c.dispatch m))

include hdispatch

theorem keeps_dispatchAll {c : Client H} (h : P c) (messages : List Message) :
    P (messages.foldl (fun c m => c.dispatch m) c) := by
  induction messages generalizing c with
  | nil => exact h
  | cons m messages ih => exact ih (hdispatch m h)

theorem keeps_receiveAll (h : P l.client) (data : Bytes) : P (l.receiveAll data).client := by
  fun_induction receiveAll data l with
  | case1 l => exact h
  | case2 l b bs ih => exact ih (keeps_dispatchAll hdispatch h _)

variable (hclose : ∀ {c : Client H}, P c → P c.close)

include hclose

/-- What dispatching and the end of the channel keep, is kept whatever the channel supplies. -/
theorem keeps_arrive (h : P l.client) (x : Supply) : P (l.arrive x).client := by
  rw [arrive.eq_def]
  split
  · exact h
  split
  · exact hclose h
  · exact keeps_receiveAll hdispatch h _
  · split
    · exact h
    · exact hclose h

theorem keeps_arriveAll (h : P l.client) (supplies : List Supply) :
    P (supplies.foldl (fun l x => l.arrive x) l).client := by
  induction supplies generalizing l with
  | nil => exact h
  | cons x supplies ih => exact ih (keeps_arrive (P := P) hdispatch hclose h x)

end Supplies

/-! ### The end of reading -/

end Line

/-- What a channel supplies last: no bytes, or a fault that is not an interruption. -/
def Supply.EndsReading : Supply → Prop
  | .bytes data => data = []
  | .fault f => f.kind ≠ .interrupted

namespace Line

variable {H : Type} {l : Line H}

theorem ended_receiveAll (data : Bytes) (l : Line H) : (l.receiveAll data).ended = l.ended := by
  fun_induction receiveAll data l with
  | case1 l => rfl
  | case2 l b bs ih => exact ih

theorem arrive_of_ended (h : l.ended = true) (x : Supply) : l.arrive x = l := by
  rw [arrive.eq_def, if_pos h]

theorem foldl_arrive_of_ended (h : l.ended = true) (supplies : List Supply) :
    supplies.foldl (fun l x => l.arrive x) l = l := by
  induction supplies with
  | nil => rfl
  | cons x supplies ih => rw [List.foldl_cons, arrive_of_ended h, ih]

theorem arrive_of_endsReading (h : l.ended = false) {x : Supply} (hx : x.EndsReading) :
    l.arrive x = l.finish := by
  rw [arrive.eq_def, if_neg (by simp [h])]
  cases x with
  | bytes data =>
    obtain rfl : data = [] := hx
    rfl
  | fault f => exact if_neg hx

theorem ended_arrive (h : l.ended = false) {x : Supply} (hx : ¬x.EndsReading) :
    (l.arrive x).ended = false := by
  rw [arrive.eq_def, if_neg (by simp [h])]
  cases x with
  | bytes data =>
    cases data with
    | nil => exact absurd rfl hx
    | cons b bs => exact (ended_receiveAll (b :: bs) l).trans h
  | fault f =>
    have hkind : f.kind = .interrupted := Decidable.of_not_not hx
    simp only [if_pos hkind]
    exact h

theorem ended_arriveAll {supplies : List Supply} (h : l.ended = false)
    (hgoes : ∀ x ∈ supplies, ¬x.EndsReading) :
    (supplies.foldl (fun l x => l.arrive x) l).ended = false := by
  induction supplies generalizing l with
  | nil => exact h
  | cons x supplies ih =>
    obtain ⟨hx, hrest⟩ := List.forall_mem_cons.mp hgoes
    exact ih (ended_arrive h hx) hrest

/-- Reading ends where the channel first supplies an end; what it supplies behind that is not read. -/
theorem arriveAll_end {before : List Supply} {last : Supply} (h : l.ended = false)
    (hgoes : ∀ x ∈ before, ¬x.EndsReading) (hlast : last.EndsReading) (after : List Supply) :
    (before ++ last :: after).foldl (fun l x => l.arrive x) l
      = (before.foldl (fun l x => l.arrive x) l).finish := by
  rw [List.foldl_append, List.foldl_cons, arrive_of_endsReading (ended_arriveAll h hgoes) hlast]
  exact foldl_arrive_of_ended rfl after

end Line

/-! ## Handling notices -/

namespace Client

variable {H : Type}

theorem handle_close (m : Message) (c : Client H) : c.close.handle m = (c.handle m).close := by
  have hsame : c.close.handler? m.command = c.handler? m.command := rfl
  rw [handle, handle, hsame]
  rcases c.handler? m.command with _ | h <;> rfl

theorem handleAll_close (c : Client H) : c.close.handleAll = c.handleAll.close := by
  suffices hall : ∀ (messages : List Message) (c : Client H),
      messages.foldl (fun c m => c.handle m) c.close
        = (messages.foldl (fun c m => c.handle m) c).close from hall c.notices { c with notices := [] }
  intro messages
  induction messages with
  | nil => exact fun c => rfl
  | cons m messages ih =>
    intro c
    rw [List.foldl_cons, handle_close, ih, List.foldl_cons]

/-- Handling all notices changes neither the table nor the calls, and leaves none. -/
theorem handleAll_frame (c : Client H) : c.handleAll.table = c.table ∧ c.handleAll.calls = c.calls ∧
    c.handleAll.notices = [] := by
  suffices hall : ∀ (messages : List Message) (c : Client H),
      (messages.foldl (fun c m => c.handle m) c).table = c.table ∧
        (messages.foldl (fun c m => c.handle m) c).calls = c.calls ∧
        (messages.foldl (fun c m => c.handle m) c).notices = c.notices from
    hall c.notices { c with notices := [] }
  intro messages
  induction messages with
  | nil => exact fun c => ⟨rfl, rfl, rfl⟩
  | cons m messages ih =>
    intro c
    obtain ⟨htable, hcalls, -⟩ := handle_frame m c
    have hnotices : (c.handle m).notices = c.notices := by
      rw [handle]
      rcases c.handler? m.command with _ | h <;> rfl
    obtain ⟨htable', hcalls', hnotices'⟩ := ih (c.handle m)
    exact ⟨htable'.trans htable, hcalls'.trans hcalls, hnotices'.trans hnotices⟩

/-- Whether calls and entries fit together depends on nothing else. -/
theorem Consistent.congr {c c' : Client H} (h : c.Consistent) (htable : c'.table = c.table)
    (hcalls : c'.calls = c.calls) : c'.Consistent := by
  refine h.of_trims ?_ ?_ ?_
  · rw [hcalls]
  · rw [htable]
    exact c.table.trims_refl
  · rw [htable, hcalls]
    exact h.owner

end Client

/-! ### What is done with a client without reading -/

namespace Line

variable {H : Type}

/-- Nothing was read, and no notice came or was handled. -/
structure Unread (l l' : Line H) : Prop where
  ended_eq : l'.ended = l.ended
  notices_eq : l'.client.notices = l.client.notices
  handled_eq : l'.client.handled = l.client.handled

theorem unread_place (p : Purpose) (command : UInt32) (body : Bytes) (timeout : Span) (l : Line H) :
    l.Unread (l.place p command body timeout).2 := by
  rw [place]
  obtain ⟨e, cursor, hbegin⟩ | ⟨k, cursor, hbegin, -⟩ := l.client.begin_cases p command timeout
  · rw [hbegin]
    exact ⟨rfl, rfl, rfl⟩
  rw [hbegin]
  dsimp only
  split
  · exact ⟨rfl, rfl, rfl⟩
  · rw [Client.unsent]
    split <;> exact ⟨rfl, rfl, rfl⟩

theorem unread_observe (timeout : Span) (l : Line H) : l.Unread (l.observe timeout).2 := by
  rw [observe, Client.observe]
  by_cases hclosed : l.client.table.closed
  · rw [if_pos hclosed]
    exact ⟨rfl, rfl, rfl⟩
  · rw [if_neg hclosed]
    exact ⟨rfl, rfl, rfl⟩

theorem unread_lapse (token : Nat) (l : Line H) : l.Unread (l.lapse token) := by
  have hexpire : ∀ c : Client H, (c.expire token).notices = c.notices ∧
      (c.expire token).handled = c.handled := by
    intro c
    rw [Client.expire]
    split
    · split <;> exact ⟨rfl, rfl⟩
    · exact ⟨rfl, rfl⟩
  have hsettle : ∀ c : Client H, (c.settle token).notices = c.notices ∧
      (c.settle token).handled = c.handled := by
    intro c
    rw [Client.settle]
    split
    · split <;> exact ⟨rfl, rfl⟩
    · exact ⟨rfl, rfl⟩
  exact ⟨rfl, (hsettle _).1.trans (hexpire _).1, (hsettle _).2.trans (hexpire _).2⟩

theorem unread_collect (token : Nat) (l : Line H) : l.Unread (l.collect token).2 := by
  rw [collect, Client.collect]
  rcases (l.client.call? token).bind fun k => k.outcome? l.client.table with _ | r <;>
    exact ⟨rfl, rfl, rfl⟩

/-- A channel on which reading has ended is closed, also when it supplies more. -/
theorem closed_arrive {l : Line H} (h : l.ended = true → l.client.table.closed = true) (x : Supply)
    (hended : (l.arrive x).ended = true) : (l.arrive x).client.table.closed = true := by
  by_cases hl : l.ended = true
  · rw [arrive_of_ended hl]
    exact h hl
  · have hopen : l.ended = false := Bool.not_eq_true _ ▸ hl
    by_cases hx : x.EndsReading
    · rw [arrive_of_endsReading hopen hx]
      rfl
    · rw [ended_arrive hopen hx] at hended
      cases hended

theorem closed_arriveAll {l : Line H} (h : l.ended = true → l.client.table.closed = true)
    (supplies : List Supply) : (supplies.foldl (fun l x => l.arrive x) l).ended = true →
      (supplies.foldl (fun l x => l.arrive x) l).client.table.closed = true := by
  induction supplies generalizing l with
  | nil => exact h
  | cons x supplies ih => exact ih (closed_arrive h x)

end Line

/-! ## Stations -/

namespace Station

/-- What handlers hear changes nothing of the line. -/
theorem foldl_hear (heard : List (NoticeId × Message)) (s : Station) (line : Line NoticeId) :
    heard.foldl hear { s with line } = { heard.foldl hear s with line } := by
  induction heard generalizing s with
  | nil => rfl
  | cons x heard ih =>
    have hfirst : hear { s with line } x = { hear s x with line } := by
      obtain ⟨id, m⟩ := x
      cases id with
      | attachAllowed =>
        rw [hear, hear]
        rcases Modem.attachAllowed? m.body with _ | allowed <;> rfl
      | _ => rfl
    rw [List.foldl_cons, hfirst, ih, List.foldl_cons]

theorem line_handle (s : Station) :
    s.handle.line = { s.line with client := { s.line.client.handleAll with handled := [] } } := by
  rw [handle, line_foldl_hear]

theorem handle_eq (s : Station) : s.handle = { s.line.client.handleAll.handled.foldl hear s with
    line := { s.line with client := { s.line.client.handleAll with handled := [] } } } :=
  foldl_hear _ s _

theorem handle_finish (s : Station) :
    handle { s with line := s.line.finish } = { s.handle with line := s.handle.line.finish } := by
  have hclient : s.line.finish.client.handleAll = s.line.client.handleAll.close :=
    s.line.client.handleAll_close
  rw [handle_eq, handle_eq, hclient, foldl_hear]
  rfl

/-- The end of reading is heard by nobody, and what the channel supplies behind it neither. -/
theorem receive_end {s : Station} {before : List Supply} {last : Supply}
    (hopen : s.line.ended = false) (hgoes : ∀ x ∈ before, ¬x.EndsReading) (hlast : last.EndsReading)
    (after : List Supply) : s.receive (before ++ last :: after)
      = { s.receive before with line := (s.receive before).line.finish } := by
  rw [receive, Line.arriveAll_end hopen hgoes hlast, receive]
  exact handle_finish { s with line := before.foldl (fun l x => l.arrive x) s.line }

theorem ended_receive {s : Station} {supplies : List Supply} (hopen : s.line.ended = false)
    (hgoes : ∀ x ∈ supplies, ¬x.EndsReading) : (s.receive supplies).line.ended = false := by
  rw [receive, line_handle]
  exact Line.ended_arriveAll hopen hgoes

/-- What a station is between its acts. -/
structure Intact (s : Station) : Prop where
  consistent : s.line.client.Consistent
  closed : s.line.ended = true → s.line.client.table.closed = true
  notices_eq : s.line.client.notices = []
  handled_eq : s.line.client.handled = []

/-- Nothing is heard on a channel that has ended. -/
theorem Intact.receive_of_ended {s : Station} (h : s.Intact) (hended : s.line.ended = true)
    (supplies : List Supply) : s.receive supplies = s := by
  rw [receive, Line.foldl_arrive_of_ended hended]
  obtain ⟨⟨⟨config, table, calls, handlers, notices, handled⟩, sink, inbox, ended⟩, allowed,
    confirmations⟩ := s
  obtain rfl : notices = [] := h.notices_eq
  obtain rfl : handled = [] := h.handled_eq
  rfl

theorem Intact.receive {s : Station} (h : s.Intact) (supplies : List Supply) :
    (s.receive supplies).Intact := by
  have hconsistent := Line.keeps_arriveAll (P := Client.Consistent) (fun m hc => hc.dispatch m)
    (fun hc => hc.close) h.consistent supplies
  have hclosed := Line.closed_arriveAll h.closed supplies
  rw [Station.receive]
  generalize supplies.foldl (fun l x => l.arrive x) s.line = l at hconsistent hclosed
  have hline := line_handle { s with line := l }
  obtain ⟨htable, hcalls, hnotices⟩ := l.client.handleAll_frame
  constructor
  · rw [hline]
    exact hconsistent.congr htable hcalls
  · rw [hline]
    intro hended
    exact (congrArg Table.closed htable).trans (hclosed hended)
  · rw [hline]
    exact hnotices
  · rw [hline]

/-- What is done without reading, and keeps what every step of a client keeps. -/
theorem Intact.of_unread {s : Station} (h : s.Intact) {line : Line NoticeId}
    (hunread : s.line.Unread line) (hkeeps : ∀ P : Client NoticeId → Prop,
      (∀ {r r' : Run NoticeId}, Move r r' → P r.client → P r'.client) →
        P s.line.client → P line.client) :
    Intact { s with line } where
  consistent := hkeeps Client.Consistent Move.consistent h.consistent
  closed hended := hkeeps (fun c => c.table.closed = true) Move.closed
    (h.closed (hunread.ended_eq.symm.trans hended))
  notices_eq := hunread.notices_eq.trans h.notices_eq
  handled_eq := hunread.handled_eq.trans h.handled_eq

theorem Intact.place {s : Station} (h : s.Intact) (p : Purpose) (command : UInt32) (body : Bytes)
    (timeout : Span) : Intact { s with line := (s.line.place p command body timeout).2 } :=
  h.of_unread (s.line.unread_place p command body timeout) fun _ hP hp =>
    Line.keeps_place hP hp p command body timeout

theorem steady_intact : Steady Intact where
  receive h supplies := h.receive supplies
  observe h timeout := h.of_unread (Line.unread_observe timeout _) fun _ hP hp =>
    Line.keeps_observe hP hp timeout
  lapse h token := h.of_unread (Line.unread_lapse token _) fun _ hP hp =>
    Line.keeps_lapse hP hp token
  collect h token := h.of_unread (Line.unread_collect token _) fun _ hP hp =>
    Line.keeps_collect hP hp token
  confirmations h _ := ⟨h.consistent, h.closed, h.notices_eq, h.handled_eq⟩

theorem Intact.listen {s : Station} (h : s.Intact) : s.listen.Intact :=
  ⟨h.consistent.congr rfl rfl, h.closed, h.notices_eq, h.handled_eq⟩

theorem Intact.unlisten {s : Station} (h : s.Intact) : s.unlisten.Intact :=
  ⟨h.consistent.congr rfl rfl, h.closed, h.notices_eq, h.handled_eq⟩

/-- A station is intact behind every act. -/
theorem Intact.perform {w : Stage} (h : w.station.Intact) (a : Act) :
    (w.perform a).2.station.Intact :=
  steady_intact.perform h h.place h.listen h.unlisten a

theorem intact_start (config : ClientConfig) : (start config).Intact := by
  have hfresh := Run.consistent_after (H := NoticeId) config {} []
  exact ⟨hfresh.congr rfl rfl, (nomatch ·), rfl, rfl⟩

end Station

end Wwan
