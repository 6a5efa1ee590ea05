import Wwan.Proofs.Client.Run
import Wwan.Proofs.Message.Outbox
import Wwan.Proofs.Modem.Dialogue
import Wwan.Proofs.Modem.Waiting

/-!
# The wire of a session

Only calls write to the channel.  A call that is answered has written its request as a whole, and one
that fails has written the front of it at most (`Stage.wired_run`); so when nothing is done behind a
failed call, the wire holds the requests one behind the other, and only the last may be cut (`OnWire`).
-/

namespace Wwan

/-! ## Requests on the wire -/

/-- The bytes of a request: that of a transaction has a number. -/
def Exchange.WrittenAs (e : Exchange) (data : Bytes) : Prop :=
  ∃ number : Option UInt8, (number.isSome ↔ e.purpose = .transaction) ∧
    Request.encode ⟨e.command, number, e.body⟩ = .ok data

/-- Nothing of a request, or a part of it that it starts with. -/
def Exchange.CutTo (e : Exchange) (part : Bytes) : Prop :=
  part = [] ∨ ∃ data, e.WrittenAs data ∧ part <+: data

/-- What exchanges leave on the wire: their requests one behind the other, of which those of calls that
failed may be cut. -/
inductive Wired : List Exchange → Bytes → Prop
  | nil : Wired [] []
  | sent {e : Exchange} {data : Bytes} {rest : List Exchange} {bytes : Bytes}
      (written : e.WrittenAs data) (tail : Wired rest bytes) : Wired (e :: rest) (data ++ bytes)
  | cut {e : Exchange} {part : Bytes} {rest : List Exchange} {bytes : Bytes}
      (failed : ¬e.Answered) (cut : e.CutTo part) (tail : Wired rest bytes) :
      Wired (e :: rest) (part ++ bytes)

/-- What exchanges leave on the wire if nothing is sent behind a call that failed: all requests as a
whole, but that of a last call that failed may be cut. -/
inductive OnWire : List Exchange → Bytes → Prop
  | nil : OnWire [] []
  | sent {e : Exchange} {data : Bytes} {rest : List Exchange} {bytes : Bytes}
      (written : e.WrittenAs data) (tail : OnWire rest bytes) : OnWire (e :: rest) (data ++ bytes)
  | cut {e : Exchange} {part : Bytes} (failed : ¬e.Answered) (cut : e.CutTo part) : OnWire [e] part

theorem Wired.append {es es' : List Exchange} {bytes bytes' : Bytes} (h : Wired es bytes)
    (h' : Wired es' bytes') : Wired (es ++ es') (bytes ++ bytes') := by
  induction h with
  | nil => exact h'
  | sent written _ ih =>
    rw [List.append_assoc]
    exact .sent written ih
  | cut failed cut _ ih =>
    rw [List.append_assoc]
    exact .cut failed cut ih

/-- Where only the last call may have failed, only its request may be cut. -/
theorem Wired.onWire {es : List Exchange} {bytes : Bytes} (h : Wired es bytes)
    (hlast : ∀ before e after, es = before ++ e :: after → after ≠ [] → e.Answered) :
    OnWire es bytes := by
  induction h with
  | nil => exact .nil
  | sent written _ ih =>
    exact .sent written (ih fun before e after hes =>
      hlast (_ :: before) e after (congrArg (_ :: ·) hes))
  | @cut e part rest bytes failed cut tail ih =>
    obtain rfl : rest = [] := Decidable.byContradiction fun hne => failed (hlast [] e rest rfl hne)
    cases tail
    rw [List.append_nil]
    exact .cut failed cut

/-! ## What a call writes -/

/-- A call has a number if it is a transaction. -/
theorem Client.number_begin {H : Type} {p : Purpose} {command : UInt32} {timeout : Span}
    {c client : Client H} {k : Call} (h : c.begin p command timeout = (.ok k, client)) :
    k.ticket.number?.isSome ↔ p = .transaction := by
  rw [begin, enter.eq_def] at h
  by_cases hclosed : c.table.closed
  · rw [if_pos hclosed] at h
    cases h
  rw [if_neg hclosed] at h
  cases p with
  | answer =>
    cases h
    simp [Ticket.number?]
  | oneWay =>
    cases h
    simp [Ticket.number?]
  | transaction =>
    rcases hid : c.table.allocate with ⟨id | id, t⟩
    · simp [hid] at h
    · simp only [hid] at h
      cases h
      exact ⟨fun _ => rfl, fun _ => rfl⟩

namespace Line

variable {H : Type} {p : Purpose} {command : UInt32} {body : Bytes} {timeout : Span} {l l' : Line H}

/-- A call that can begin sends its request, under its number if it is a transaction. -/
theorem place_of_begin {client : Client H} {k : Call} {r : Except CallError Unit} {sink : Sink}
    (hbegin : l.client.begin p command timeout = (.ok k, client))
    (hsend : Outbox.send client.config.maxMessage ⟨command, k.ticket.number?, body⟩ l.sink = (r, sink)) :
    (l.place p command body timeout).1 = r.map (fun _ => k.token) ∧
      (l.place p command body timeout).2.sink = sink := by
  rw [place, hbegin]
  rcases hticket : k.ticket with _ | _ | id | _ <;>
    simp only [hticket, Ticket.number?] at hsend <;>
    simp only [hticket, hsend] <;>
    cases r <;> exact ⟨rfl, rfl⟩

/-- A call that is placed writes its request as a whole; one that cannot be placed writes the front of
it at most. -/
theorem content_place (p : Purpose) (command : UInt32) (body : Bytes) (timeout : Span) (l : Line H) :
    ∃ part, (l.place p command body timeout).2.sink.content = l.sink.content ++ part ∧
      match (l.place p command body timeout).1 with
      | .ok _ => ∀ r, Exchange.WrittenAs ⟨p, command, body, r⟩ part
      | .error _ => ∀ r, Exchange.CutTo ⟨p, command, body, r⟩ part := by
  rcases hbegin : l.client.begin p command timeout with ⟨e | k, client⟩
  · rw [place, hbegin]
    exact ⟨[], (List.append_nil _).symm, fun _ => .inl rfl⟩
  have hnumber := Client.number_begin hbegin
  rcases hsend : Outbox.send client.config.maxMessage ⟨command, k.ticket.number?, body⟩ l.sink
    with ⟨e | _, sink⟩
  · obtain ⟨hresult, hsink⟩ := place_of_begin hbegin hsend
    obtain ⟨part, hcontent, hpart⟩ := Outbox.of_send_eq_error hsend
    rw [hresult, hsink]
    refine ⟨part, hcontent, fun r => hpart.imp id ?_⟩
    rintro ⟨data, hdata, -, hfront⟩
    exact ⟨data, ⟨_, hnumber, hdata⟩, hfront⟩
  · obtain ⟨hresult, hsink⟩ := place_of_begin hbegin hsend
    obtain ⟨data, hdata, -, hcontent⟩ := Outbox.of_send_eq_ok hsend
    rw [hresult, hsink]
    exact ⟨data, hcontent, fun r => ⟨_, hnumber, hdata⟩⟩

/-! ## What else happens on a line -/

@[simp] theorem sink_receiveAll (data : Bytes) (l : Line H) : (l.receiveAll data).sink = l.sink := by
  fun_induction receiveAll data l with
  | case1 l => rfl
  | case2 l b bs ih => exact ih

@[simp] theorem sink_arrive (x : Supply) (l : Line H) : (l.arrive x).sink = l.sink := by
  rw [arrive.eq_def]
  split
  · rfl
  split
  · rfl
  · exact sink_receiveAll _ l
  · split <;> rfl

theorem sink_observe (timeout : Span) (l : Line H) : (l.observe timeout).2.sink = l.sink := by
  rw [observe]
  rcases l.client.observe timeout with ⟨e | k, client⟩ <;> rfl

end Line

namespace Station

theorem sink_handle (s : Station) : s.handle.line.sink = s.line.sink := by
  rw [handle, line_foldl_hear]

theorem sink_receive (supplies : List Supply) (s : Station) :
    (s.receive supplies).line.sink = s.line.sink := by
  have hline : ∀ l : Line NoticeId, (supplies.foldl (fun l x => l.arrive x) l).sink = l.sink := by
    intro l
    induction supplies generalizing l with
    | nil => rfl
    | cons x supplies ih => rw [List.foldl_cons, ih, Line.sink_arrive]
  rw [receive, sink_handle, hline]

/-- Waiting writes nothing. -/
theorem steady_sink (sink : Sink) : Steady fun s => s.line.sink = sink where
  receive hs supplies := (sink_receive supplies _).trans hs
  observe hs timeout := (Line.sink_observe timeout _).trans hs
  lapse hs _ := hs
  collect hs _ := hs
  confirmations hs _ := hs

end Station

/-! ## What a session writes -/

namespace Stage

/-- Everything that was written to the channel. -/
def wire (w : Stage) : Bytes :=
  w.station.line.sink.content

theorem wired_call (p : Purpose) (command : UInt32) (body : Bytes) (timeout : Span) (w : Stage) :
    ∃ bytes, (w.call p command body timeout).2.wire = w.wire ++ bytes ∧
      Wired [⟨p, command, body, (w.call p command body timeout).1⟩] bytes := by
  obtain ⟨part, hcontent, hpart⟩ := w.station.line.content_place p command body timeout
  refine ⟨part ++ [], ?_, ?_⟩
  · rw [List.append_nil, call]
    rcases hplace : w.station.line.place p command body timeout with ⟨e | token, line⟩ <;>
      rw [hplace] at hcontent
    · exact hcontent
    · -- what happens after the request was sent writes nothing
      have hsame := (Station.steady_sink line.sink).awaitAnswer (s := { w.station with line }) rfl token
      exact (congrArg Sink.content (hsame _)).trans hcontent
  · rw [call]
    rcases hplace : w.station.line.place p command body timeout with ⟨e | token, line⟩ <;>
      rw [hplace] at hpart
    · refine .cut ?_ (hpart _) .nil
      rintro ⟨reply, hreply⟩
      cases hreply
    · exact .sent (hpart _) .nil

theorem wired_perform (w : Stage) (a : Act) :
    ∃ bytes, (w.perform a).2.wire = w.wire ++ bytes ∧
      Wired (exchanges [⟨a, (w.perform a).1⟩]) bytes := by
  have hsteady := Station.steady_sink w.station.line.sink
  have hsilent {w' : Stage} (h : w'.station.line.sink = w.station.line.sink) :
      ∃ bytes, w'.wire = w.wire ++ bytes ∧ Wired [] bytes :=
    ⟨[], by rw [wire, h, List.append_nil, wire], .nil⟩
  cases a with
  | call p command body timeout => exact w.wired_call p command body timeout
  | listen => exact hsilent rfl
  | unlisten => exact hsilent rfl
  | confirmation timeout => exact hsilent (hsteady.awaitConfirmation rfl w.ahead)
  | attachAllowed timeout => exact hsilent (hsteady.awaitAllowed rfl timeout w.ahead)
  | pause length => exact hsilent (hsteady.pause rfl w.ahead)

/-- A session leaves its requests on the wire, of which those of calls that failed may be cut. -/
theorem wired_run {α : Type} (s : Session α) (w : Stage) :
    ∃ bytes, (w.run s).2.wire = w.wire ++ bytes ∧ Wired (exchanges (w.deeds s)) bytes := by
  induction s generalizing w with
  | pure a => exact ⟨[], (List.append_nil _).symm, .nil⟩
  | act a next ih =>
    obtain ⟨bytes, hwire, hwired⟩ := w.wired_perform a
    obtain ⟨bytes', hwire', hwired'⟩ := ih (w.perform a).1 (w.perform a).2
    refine ⟨bytes ++ bytes', ?_, ?_⟩
    · rw [run, hwire', hwire, List.append_assoc]
    · rw [deeds, ← List.singleton_append, exchanges_append]
      exact hwired.append hwired'

end Stage

end Wwan
