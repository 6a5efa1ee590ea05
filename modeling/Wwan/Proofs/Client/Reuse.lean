import Mathlib.Data.List.Iterate
import Mathlib.Data.List.Rotate
import Wwan.Proofs.Client.Plain
import Wwan.Proofs.Client.Transactions

/-!
# How late a number is given out again

The search for a number goes round all of them once, from the cursor on, and gives out the first that is free
(`Table.allocate_eq`).

A run makes many searches, and each goes on where the one before has ended, since nothing else moves the cursor
(`Run.searches_step`).  So all numbers that they come to, one search after the other, are one walk round the
circle (`Run.trail_spec`), and whoever walks from a number to itself passes all others
(`Table.visited_between`).

A transaction that timed out is not in the table any more, and it is the last that had its number; hence nothing
that still arrives for it meets an entry, until the number is given out again (`Run.TimedOut.free`,
`Run.ignores_of_free`).
-/

namespace Wwan

variable {H : Type}

/-! ## One search -/

namespace Table

/-- Whether no transaction in progress has a number. -/
def isFree (t : Table) (id : UInt8) : Bool :=
  (t.pending? id).isNone

/-- The numbers from the one behind the cursor on, once round. -/
def circle (cursor : UInt8) : List UInt8 :=
  numbers.rotate cursor.toNat

theorem circle_eq (cursor : UInt8) : circle cursor = List.iterate nextId (nextId cursor) 255 := by
  apply List.ext_getElem
  · rw [circle, List.length_rotate, length_numbers, List.length_iterate]
  · intro j hj hj'
    apply UInt8.toNat_inj.mp
    rw [List.length_iterate] at hj'
    rw [List.getElem_iterate, ← Function.iterate_succ_apply, toNat_iterate_nextId]
    simp only [circle, List.getElem_rotate, length_numbers]
    simp only [numbers, List.getElem_map, List.getElem_range, UInt8.toNat_ofNat']
    omega

/-- A search finds the first free one of the numbers that it tries. -/
theorem seek_eq (tries : Nat) (t : Table) : seek tries t
    = match (List.iterate nextId (nextId t.cursor) tries).find? t.isFree with
      | some id => (some id, { t with cursor := id })
      | none => (none, { t with cursor := nextId^[tries] t.cursor }) := by
  induction tries generalizing t with
  | zero => rfl
  | succ tries ih =>
    rw [seek, List.iterate]
    by_cases htaken : (t.pending? (nextId t.cursor)).isSome = true
    · have hnot : ¬t.isFree (nextId t.cursor) = true := by simpa [isFree] using Option.isSome_iff_ne_none.mp htaken
      rw [if_pos htaken, List.find?_cons_of_neg hnot, ih]
      rfl
    · have hfree : t.isFree (nextId t.cursor) = true := by simpa [isFree] using htaken
      rw [if_neg htaken, List.find?_cons_of_pos hfree]

/-- Once round is back at the cursor, unless no number was given out yet. -/
theorem iterate_nextId_circle (cursor : UInt8) : nextId^[255] cursor = if cursor = 0 then 255 else cursor := by
  apply UInt8.toNat_inj.mp
  have hlt : cursor.toNat < 256 := cursor.toNat_lt
  rw [toNat_iterate_nextId]
  by_cases hzero : cursor = 0
  · rw [if_pos hzero, hzero]
    rfl
  · have hne : cursor.toNat ≠ 0 := fun h => hzero (UInt8.toNat_inj.mp h)
    rw [if_neg hzero]
    omega

theorem allocate_eq (t : Table) : t.allocate
    = match (circle t.cursor).find? t.isFree with
      | some id => (some id, { t with cursor := id })
      | none => (none, { t with cursor := if t.cursor = 0 then 255 else t.cursor }) := by
  rw [allocate, seek_eq, circle_eq, iterate_nextId_circle]

/-- What a search for a number does. -/
structure FindsNext (t : Table) : Prop where
  /-- It finds the first number that is free, going round from the cursor on, -/
  first : t.allocate.1 = (circle t.cursor).find? t.isFree
  /-- and makes it the cursor. -/
  moved : ∀ id, t.allocate.1 = some id → t.allocate.2 = { t with cursor := id }
  /-- It finds none exactly when all numbers are in use, -/
  none_iff : t.allocate.1 = none ↔ ∀ id, id ≠ 0 → (t.pending? id).isSome = true
  /-- and leaves everything as it is then, but for a cursor that had not been set. -/
  unmoved : t.allocate.1 = none → t.allocate.2 = { t with cursor := if t.cursor = 0 then 255 else t.cursor }

theorem findsNext (t : Table) : t.FindsNext := by
  have hallocate := t.allocate_eq
  cases hfind : (circle t.cursor).find? t.isFree with
  | none =>
    rw [hfind] at hallocate
    refine ⟨?_, ?_, t.allocate_none, ?_⟩
    · rw [hallocate, hfind]
    · rw [hallocate]
      intro id h
      cases h
    · rw [hallocate]
      exact fun _ => rfl
  | some found =>
    rw [hfind] at hallocate
    refine ⟨?_, ?_, t.allocate_none, ?_⟩
    · rw [hallocate, hfind]
    · rw [hallocate]
      intro id h
      cases h
      rfl
    · rw [hallocate]
      intro h
      cases h

/-- The numbers that a search comes to, each with the entry that it finds there; it ends with the first that has
none. -/
def visits : Nat → Table → List (UInt8 × Option Pending)
  | 0, _ => []
  | tries + 1, t =>
    let id := nextId t.cursor
    (id, t.pending? id) :: if (t.pending? id).isSome then visits tries { t with cursor := id } else []

/-- The numbers, among those that searches came to, that were given out. -/
def given (vs : List (UInt8 × Option Pending)) : List UInt8 :=
  (vs.filter fun v => v.2.isNone).map Prod.fst

/-- What a search comes to: one number after the other, from the cursor on; the cursor goes along, and what is
given out is what the search finds. -/
theorem visits_spec (tries : Nat) (t : Table) :
    (visits tries t).map Prod.fst = List.iterate nextId (nextId t.cursor) (visits tries t).length ∧
      (seek tries t).2.cursor = nextId^[(visits tries t).length] t.cursor ∧
      given (visits tries t) = (seek tries t).1.toList ∧ ∀ v ∈ visits tries t, v.2 = t.pending? v.1 := by
  -- on the tries, as the search itself goes: a number in use is passed, a free one ends it
  induction tries generalizing t with
  | zero => exact ⟨rfl, rfl, rfl, by simp [visits]⟩
  | succ tries ih =>
    unfold visits seek
    by_cases htaken : (t.pending? (nextId t.cursor)).isSome = true
    · obtain ⟨hnumbers, hcursor, hgiven, hentries⟩ := ih { t with cursor := nextId t.cursor }
      simp only [if_pos htaken]
      refine ⟨?_, hcursor, ?_, ?_⟩
      · rw [List.map_cons, hnumbers]
        rfl
      · have hskip : (t.pending? (nextId t.cursor)).isNone = false := Option.isNone_eq_false_iff.mpr htaken
        rw [given, List.filter_cons_of_neg (by simp [hskip])]
        exact hgiven
      · intro v hv
        obtain rfl | hv := List.mem_cons.mp hv
        · rfl
        · exact hentries v hv
    · have hfree : t.pending? (nextId t.cursor) = none := Option.not_isSome_iff_eq_none.mp htaken
      simp only [hfree]
      refine ⟨rfl, rfl, rfl, ?_⟩
      intro v hv
      obtain rfl := List.mem_singleton.mp hv
      exact hfree.symm

end Table

/-! ## Going round -/

/-- What stands before an item of an iteration, the item, and what stands behind it. -/
theorem iterate_split {α : Type} {f : α → α} {a x : α} {n : Nat} {before rest : List α}
    (h : List.iterate f a n = before ++ x :: rest) : before = List.iterate f a before.length ∧
      x = f^[before.length] a ∧ rest = List.iterate f (f x) rest.length := by
  induction before generalizing a n with
  | nil =>
    cases n with
    | zero => cases h
    | succ n =>
      obtain ⟨hx, hrest⟩ := List.cons.inj h
      subst hx
      refine ⟨rfl, rfl, ?_⟩
      rw [← hrest, List.length_iterate]
  | cons b before ih =>
    cases n with
    | zero => cases h
    | succ n =>
      obtain ⟨hb, hbehind⟩ := List.cons.inj h
      obtain ⟨hbefore, hx, hrest⟩ := ih hbehind
      subst hb
      refine ⟨?_, hx, hrest⟩
      rw [List.length_cons, List.iterate, ← hbefore]

/-- Between two visits to one number, whoever goes round comes to all others. -/
theorem Table.visited_between {cursor id id' : UInt8} {n : Nat} {before middle rest : List UInt8}
    (h : List.iterate nextId (nextId cursor) n = before ++ id :: middle ++ id :: rest) (hzero : id' ≠ 0)
    (hne : id' ≠ id) : id' ∈ middle := by
  rw [List.append_assoc, List.cons_append] at h
  obtain ⟨-, hid, hbehind⟩ := iterate_split h
  obtain ⟨hmiddle, hagain, -⟩ := iterate_split hbehind.symm
  have hidzero : id ≠ 0 := by
    rw [hid, ← Function.iterate_succ_apply, Function.iterate_succ_apply']
    exact nextId_ne_zero _
  have hpos : id.toNat ≠ 0 := fun h => hidzero (UInt8.toNat_inj.mp h)
  have hlt : id.toNat < 256 := id.toNat_lt
  -- the way from the number to itself is as long as the circle, or longer
  have hlong : 254 ≤ middle.length := by
    have hround := congrArg UInt8.toNat hagain
    rw [← Function.iterate_succ_apply, toNat_iterate_nextId] at hround
    omega
  -- and on a way once round every number is met, the other one before the way is back
  obtain ⟨j, hj, hreached⟩ := exists_iterate_nextId hzero id
  have hbefore : j ≠ 254 := by
    rintro rfl
    rw [iterate_nextId_circle, if_neg hidzero] at hreached
    exact hne hreached.symm
  rw [hmiddle, List.mem_iterate]
  refine ⟨j, by omega, ?_⟩
  rw [← hreached, Function.iterate_succ_apply]

/-! ## All searches of a run -/

/-- The numbers that transactions were given, in the order in which they began. -/
def allocations : List Event → List UInt8 :=
  List.filterMap fun
    | .started _ ticket => ticket.number?
    | _ => none

theorem allocations_append (a b : List Event) : allocations (a ++ b) = allocations a ++ allocations b :=
  List.filterMap_append

namespace Run

/-- What a step comes to on its search for a number; it makes one if it begins a transaction while the writer is
free and the channel open. -/
def visits (r : Run H) : Action H → List (UInt8 × Option Pending)
  | .start .transaction _ _ _ =>
    if r.draft.isSome ∨ r.client.table.closed then [] else r.client.table.visits 255
  | _ => []

/-- What all searches of a run come to, one after the other. -/
def trail (r : Run H) : List (Action H) → List (UInt8 × Option Pending)
  | [] => []
  | a :: actions => r.visits a ++ (r.step a).trail actions

/-- What a search does: the cursor goes along, and what is given out is noted down. -/
structure Searches (r r' : Run H) (vs : List (UInt8 × Option Pending)) : Prop where
  numbers_eq : vs.map Prod.fst = List.iterate Table.nextId (Table.nextId r.client.table.cursor) vs.length
  cursor_eq : r'.client.table.cursor = Table.nextId^[vs.length] r.client.table.cursor
  given_eq : allocations r'.log = allocations r.log ++ Table.given vs
  entries : ∀ v ∈ vs, v.2 = r.client.table.pending? v.1

/-- A step that makes no search. -/
theorem searches_nothing {r r' : Run H} (hcursor : r'.client.table.cursor = r.client.table.cursor)
    (hlog : allocations r'.log = allocations r.log) : Searches r r' [] :=
  ⟨rfl, hcursor, hlog.trans (List.append_nil _).symm, by simp⟩

theorem Plain.searches {r r' : Run H} (h : Plain r r') : Searches r r' [] := by
  obtain ⟨events, hlog, hplain⟩ := h.log_eq
  refine searches_nothing h.cursor_eq ?_
  have hnone : allocations events = [] := by
    refine List.filterMap_eq_nil_iff.mpr fun e he => ?_
    cases e with
    | started token ticket => simpa [Event.isPlain] using hplain _ he
    | _ => rfl
  rw [hlog, allocations_append, hnone, List.append_nil]

/-- The beginning of a call makes a search if it is a transaction's. -/
theorem searches_start (p : Purpose) (command : UInt32) (body : Bytes) (timeout : Span) (r : Run H) :
    Searches r (r.start p command body timeout) (r.visits (.start p command body timeout)) := by
  unfold start
  -- while the writer is busy or when the channel has ended, no call gets as far as the search
  by_cases hdraft : r.draft.isSome = true
  · have hnone : r.visits (.start p command body timeout) = [] := by
      cases p <;> simp [visits, hdraft]
    rw [if_pos hdraft, hnone]
    exact searches_nothing rfl rfl
  rw [if_neg hdraft]
  by_cases hclosed : r.client.table.closed = true
  · have hnone : r.visits (.start p command body timeout) = [] := by
      cases p <;> simp [visits, hclosed]
    have hbegin : r.client.begin p command timeout = (.error .channelClosed, r.client) := by
      simp only [Client.begin, Client.enter.eq_def, if_pos hclosed]
    rw [hbegin, hnone]
    exact searches_nothing rfl ((allocations_append _ _).trans (List.append_nil _))
  unfold Client.begin Client.enter
  rw [if_neg hclosed]
  cases p with
  | answer => exact searches_nothing rfl ((allocations_append _ _).trans (List.append_nil _))
  | oneWay => exact searches_nothing rfl ((allocations_append _ _).trans (List.append_nil _))
  | transaction =>
    have hvisits : r.visits (.start .transaction command body timeout) = r.client.table.visits 255 := by
      simp [visits, hdraft, hclosed]
    -- found or not, the cursor is where the search has left it; only a number that was found is given out
    obtain ⟨hnumbers, hcursor, hgiven, hentries⟩ := Table.visits_spec 255 r.client.table
    rw [hvisits]
    unfold Table.allocate
    rcases hseek : Table.seek 255 r.client.table with ⟨_ | id, t⟩
    · rw [hseek] at hcursor hgiven
      refine ⟨hnumbers, hcursor, ?_, hentries⟩
      rw [hgiven]
      exact allocations_append _ _
    · rw [hseek] at hcursor hgiven
      refine ⟨hnumbers, hcursor, ?_, hentries⟩
      rw [hgiven]
      exact allocations_append _ _

theorem cursor_route (kind : Message.Kind) (t : Table) : (Client.route kind t).2.cursor = t.cursor := by
  cases kind with
  | response =>
    rw [Client.route, Table.answer]
    cases t.waiters <;> rfl
  | transaction id =>
    rw [Client.route, Table.advance]
    cases t.pending? id with
    | none => rfl
    | some p =>
      show (if p.acknowledged then _ else _ : Option Nat × Table).2.cursor = _
      cases p.acknowledged <;> rfl
  | notice => rfl

/-- Every step makes the search that it comes to. -/
theorem searches_step (r : Run H) (a : Action H) : Searches r (r.step a) (r.visits a) := by
  by_cases hplain : a.isPlain = true
  · have hnone : r.visits a = [] := by
      cases a with
      | start p command body timeout => cases hplain
      | _ => rfl
    rw [hnone]
    exact (r.plain_step hplain).searches
  · cases a with
    | start p command body timeout => exact searches_start p command body timeout r
    | dispatch m =>
      exact searches_nothing (cursor_route (m.classify r.client.config.threshold) r.client.table)
        ((allocations_append _ _).trans (List.append_nil _))
    | handle => exact searches_nothing (congrArg Table.cursor r.client.handleNext_frame.1) rfl
    | register command handler => exact searches_nothing rfl rfl
    | unregister command => exact searches_nothing rfl rfl
    | _ => exact absurd rfl hplain

/-- The searches of a run go on where the one before has ended. -/
theorem trail_spec (r : Run H) (actions : List (Action H)) :
    (r.trail actions).map Prod.fst
        = List.iterate Table.nextId (Table.nextId r.client.table.cursor) (r.trail actions).length ∧
      (actions.foldl step r).client.table.cursor
        = Table.nextId^[(r.trail actions).length] r.client.table.cursor ∧
      allocations (actions.foldl step r).log = allocations r.log ++ Table.given (r.trail actions) := by
  induction actions generalizing r with
  | nil => exact ⟨rfl, rfl, (List.append_nil _).symm⟩
  | cons a actions ih =>
    have hstep := searches_step r a
    obtain ⟨hnumbers, hcursor, hgiven⟩ := ih (r.step a)
    unfold trail
    rw [hstep.cursor_eq] at hnumbers hcursor
    refine ⟨?_, ?_, ?_⟩
    · have hbehind : ∀ n, Table.nextId (Table.nextId^[n] r.client.table.cursor)
          = Table.nextId^[n] (Table.nextId r.client.table.cursor) := fun n =>
        (Function.iterate_succ_apply' Table.nextId n _).symm.trans (Function.iterate_succ_apply Table.nextId n _)
      rw [List.map_append, hstep.numbers_eq, hnumbers, List.length_append, List.iterate_add, hbehind]
    · rw [List.foldl_cons, hcursor, List.length_append, Nat.add_comm, Function.iterate_add_apply]
    · rw [List.foldl_cons, hgiven, hstep.given_eq, Table.given, Table.given, Table.given, List.filter_append,
        List.map_append, List.append_assoc]

end Run

/-! ## Late replies -/

theorem Course.next_ne_ahead {c : Course} (h : c ≠ .ahead) (token : Nat) (e : Event) : c.next token e ≠ .ahead := by
  cases c with
  | ahead => exact absurd rfl h
  | finished id heard =>
    rw [next_finished]
    exact h
  | underway id heard =>
    intro hnext
    cases e with
    | arrived m kind entry receiver =>
      rw [next_arrived] at hnext
      split at hnext <;> cases hnext
    | withdrawn token' | unwritten token' =>
      rw [next] at hnext
      split at hnext <;> cases hnext
    | _ => cases hnext

/-- A transaction that has begun is not ahead any more. -/
theorem course_ne_ahead {token : Nat} {id : UInt8} {log : List Event}
    (h : .started token (.transaction id) ∈ log) : course token log ≠ .ahead := by
  induction log using List.reverseRecOn with
  | nil => cases h
  | append_singleton log e ih =>
    rw [course_append_singleton]
    by_cases hahead : course token log = .ahead
    · -- then it begins with the last event
      obtain h | h := List.mem_append.mp h
      · exact absurd hahead (ih h)
      · obtain rfl := List.mem_singleton.mp h
        rw [hahead, Course.next, if_pos rfl]
        intro hnext
        cases hnext
    · exact Course.next_ne_ahead hahead token e

namespace Run

/-- A number is given to a transaction when no other with this number is in progress. -/
theorem free_after (config : ClientConfig) (sink : Sink) (actions : List (Action H)) :
    Along (fun before e => ∀ token id, e = .started token (.transaction id) →
      ∀ other heard, course other before ≠ .underway id heard) (after config sink actions).log := by
  refine after_induction (P := fun r : Run H => Along _ r.log) (along_nil _) (fun past r' hmove h => ?_) actions
  cases hmove with
  | idle => exact h
  | @start k draft cursor hk =>
    refine along_append_singleton.mpr ⟨h, ?_⟩
    intro token id he other heard hcourse
    obtain ⟨-, hticket⟩ := Event.started.inj he
    have hfound := (tracked_after config sink past).pending?_eq (consistent_after config sink past) hcourse
    rw [hk.number_free id hticket] at hfound
    cases hfound
  | @unwritten token request sink' e =>
    show Along _ ((after config sink past).log ++ [.unwritten token, .returned token (.error e)])
    rw [List.append_cons]
    exact along_append_singleton.mpr ⟨along_append_singleton.mpr ⟨h, by simp⟩, by simp⟩
  | _ => exact along_append_singleton.mpr ⟨h, by simp⟩

/-- A transaction that timed out has released its number, which no other has been given since. -/
structure TimedOut (log : List Event) (token : Nat) (id : UInt8) : Prop where
  split : ∃ before rest, log = before ++ .started token (.transaction id) :: rest ∧ .withdrawn token ∈ rest ∧
    ∀ other, .started other (.transaction id) ∉ rest

/-- The number of a transaction that timed out is free until it is given out again. -/
theorem TimedOut.free {config : ClientConfig} {sink : Sink} {actions : List (Action H)} {token : Nat} {id : UInt8}
    (h : TimedOut (after config sink actions).log token id) :
    (after config sink actions).client.table.pending? id = none := by
  obtain ⟨before, rest, hlog, hwithdrawn, hnever⟩ := h.split
  have hfree := free_after config sink actions before _ rest hlog token id rfl
  have hconsistent := consistent_after config sink actions
  have hledger := ledger_after config sink actions
  have htracked := tracked_after config sink actions
  generalize after config sink actions = r at *
  rw [Table.pending?_eq_none_iff, List.mem_map]
  rintro ⟨p, hp, rfl⟩
  -- an entry with the number would be that of a transaction in progress; when did that begin?
  obtain ⟨heard, hcourse, -⟩ := (htracked.entry_iff p).mp hp
  have hstarted := started_of_underway hcourse
  rw [hlog, List.mem_append, List.mem_cons] at hstarted
  obtain hstarted | hstarted | hstarted := hstarted
  · -- it began earlier, and was over when the number was given out again
    rcases hthen : course p.token before with _ | ⟨id', heard'⟩ | ⟨id', heard'⟩
    · exact course_ne_ahead hstarted hthen
    · have hticket := ticket_eq_of_starts hledger.starts_nodup (hlog ▸ List.mem_append_left _ hstarted)
        (hlog ▸ List.mem_append_left _ (started_of_underway hthen))
      cases hticket
      exact hfree p.token heard' hthen
    · rw [hlog, course_append_of_finished hthen] at hcourse
      cases hcourse
  · -- it is the one that timed out, and has withdrawn
    obtain ⟨hsame, -⟩ := Event.started.inj hstarted
    obtain ⟨k, hk, htoken, hawaits⟩ := hconsistent.owner p.token (.transaction p.id) ⟨p, hp, rfl, rfl⟩
    have hgone : .withdrawn k.token ∈ r.log := by
      rw [htoken, hsame, hlog]
      exact List.mem_append_right _ (List.mem_cons_of_mem _ hwithdrawn)
    exact hawaits.unsettled ((hledger.account k hk).withdrawn_iff.mp hgone)
  · exact hnever _ hstarted

/-- A message that comes too late: it meets no entry and is handed to nobody; nothing is changed but for whoever
waits for the next message, whatever it is. -/
structure Ignores (r : Run H) (m : Message) : Prop where
  log_eq : (r.dispatch m).log = r.log ++ [.arrived m (m.classify r.client.config.threshold) none none]
  table_eq : (r.dispatch m).client.table = { r.client.table with observers := [] }
  call_eq : ∀ token, (r.client.call? token).map Call.ticket ≠ some .observation →
    (r.dispatch m).client.call? token = r.client.call? token
  told : ∀ token ∈ r.client.table.observers, (r.dispatch m).client.call? token
    = (r.client.call? token).map (Call.receive (m.summary r.client.config.threshold))

theorem ignores_of_free {r : Run H} (hc : r.client.Consistent) {id : UInt8}
    (hfree : r.client.table.pending? id = none) {m : Message}
    (hkind : m.classify r.client.config.threshold = .transaction id) : r.Ignores m := by
  have hroute : Client.route (m.classify r.client.config.threshold) r.client.table = (none, r.client.table) := by
    rw [hkind, Client.route, Table.advance, hfree]
  have hentry : r.client.table.entry? (m.classify r.client.config.threshold) = none := by
    rw [hkind, Table.entry?, hfree]
    rfl
  refine ⟨?_, ?_, ?_, ?_⟩
  · unfold dispatch
    dsimp only
    rw [hroute, hentry]
  · show (r.client.dispatch m).table = _
    rw [Client.table_dispatch, hroute]
  · intro token hticket
    show (r.client.dispatch m).call? token = _
    rw [Client.call?_dispatch]
    cases hcall : r.client.call? token with
    | none => rfl
    | some k =>
      obtain ⟨hk, rfl⟩ := Client.of_call?_eq_some hcall
      -- the message is routed to nobody, so that only one that observes is told
      have huntold : Client.isTold (m.classify r.client.config.threshold) r.client.table k = false := by
        rw [Client.isTold_eq_false_iff, hroute]
        refine ⟨by simp, fun hobserver => hticket ?_⟩
        rw [hcall, Option.map_some, hc.of_observer hk hobserver]
      rw [Option.map_some, huntold]
      rfl
  · intro token hobserver
    show (r.client.dispatch m).call? token = _
    rw [Client.call?_dispatch]
    cases hcall : r.client.call? token with
    | none => rfl
    | some k =>
      obtain ⟨-, rfl⟩ := Client.of_call?_eq_some hcall
      have htold : Client.isTold (m.classify r.client.config.threshold) r.client.table k = true := by
        rw [Client.isTold, List.contains_iff_mem.mpr hobserver, Bool.or_true]
      rw [Option.map_some, Option.map_some, htold]
      rfl

/-- How late the numbers of a run are given out again. -/
structure ReusesLate (config : ClientConfig) (sink : Sink) (actions : List (Action H)) : Prop where
  /-- The searches of a run go round the numbers, each from where the one before has ended. -/
  walk : ((fresh config sink : Run H).trail actions).map Prod.fst
    = List.iterate Table.nextId 1 ((fresh config sink : Run H).trail actions).length
  /-- Each number that they come to is noted with the entry that it had at that moment, -/
  entries : ∀ past a more, actions = past ++ a :: more → ∀ v ∈ (after config sink past).visits a,
    v.2 = (after config sink past).client.table.pending? v.1
  /-- and those that had none are the numbers that transactions were given. -/
  given_eq : allocations (after config sink actions).log = Table.given ((fresh config sink).trail actions)
  /-- Before a number is given out for the second time, each other one is given out or found in use. -/
  between : ∀ id before middle rest,
    (fresh config sink : Run H).trail actions = before ++ (id, none) :: middle ++ (id, none) :: rest →
    ∀ id', id' ≠ 0 → id' ≠ id → ∃ entry, (id', entry) ∈ middle
  /-- A search that finds nothing leaves the table as it is. -/
  exhausted : (after config sink actions).client.table.allocate.1 = none →
    (after config sink actions).client.table.allocate.2 = (after config sink actions).client.table
  /-- Until then a reply to a transaction that timed out meets nothing. -/
  late : ∀ token id, TimedOut (after config sink actions).log token id →
    (after config sink actions).client.table.pending? id = none ∧
    ∀ m, m.classify config.threshold = .transaction id → (after config sink actions).Ignores m

/-- As long as no number was given out, none is in use. -/
theorem pending?_of_allocations (config : ClientConfig) (sink : Sink) (actions : List (Action H))
    (hnone : allocations (after config sink actions).log = []) (id : UInt8) :
    (after config sink actions).client.table.pending? id = none := by
  rw [Table.pending?_eq_none_iff, List.mem_map]
  rintro ⟨p, hp, rfl⟩
  obtain ⟨heard, hcourse, -⟩ := ((tracked_after config sink actions).entry_iff p).mp hp
  have hgiven : p.id ∈ allocations (after config sink actions).log :=
    List.mem_filterMap.mpr ⟨_, started_of_underway hcourse, rfl⟩
  rw [hnone] at hgiven
  cases hgiven

/-- Numbers are given out again as late as possible: each search finds the first free number behind the one that
was given out last, in every table, and in every run it has gone once round before it finds a number again; so
what arrives meanwhile for a transaction that timed out meets no entry and changes no call, but for those that
wait for the next message. -/
theorem numbers_reused_late (config : ClientConfig) (sink : Sink) (actions : List (Action H)) :
    (∀ t : Table, t.FindsNext) ∧ ReusesLate config sink actions := by
  obtain ⟨hwalk, hcursor, hgiven⟩ := trail_spec (fresh config sink) actions
  have hfirst : Table.nextId (fresh config sink : Run H).client.table.cursor = 1 := rfl
  rw [hfirst] at hwalk
  refine ⟨Table.findsNext, hwalk, ?_, hgiven, ?_, ?_, ?_⟩
  · intro past a more _
    exact (searches_step (after config sink past) a).entries
  · intro id before middle rest htrail id' hzero hne
    rw [htrail, ← hfirst] at hwalk
    simp only [List.map_append, List.map_cons] at hwalk
    obtain ⟨v, hv, rfl⟩ := List.mem_map.mp (Table.visited_between hwalk.symm hzero hne)
    exact ⟨v.2, hv⟩
  · intro hnone
    rw [(Table.findsNext _).unmoved hnone]
    -- all numbers are in use, so that some have been given out and the cursor was set
    have hset : (after config sink actions).client.table.cursor ≠ 0 := by
      intro hzero
      have hlength : ((fresh config sink : Run H).trail actions).length = 0 := by
        cases hn : ((fresh config sink : Run H).trail actions).length with
        | zero => rfl
        | succ n =>
          have hafter : (after config sink actions).client.table.cursor = Table.nextId^[n + 1] 0 := by
            rw [← hn]
            exact hcursor
          rw [hafter, Function.iterate_succ_apply'] at hzero
          exact absurd hzero (Table.nextId_ne_zero _)
      have hempty : allocations (after config sink actions).log = [] := by
        rw [List.length_eq_zero_iff.mp hlength] at hgiven
        exact hgiven
      have htaken := (Table.findsNext _).none_iff.mp hnone 1 (by decide)
      rw [pending?_of_allocations config sink actions hempty] at htaken
      cases htaken
    rw [if_neg hset]
  · intro token id htimedOut
    have hfree := htimedOut.free
    refine ⟨hfree, fun m hkind => ?_⟩
    refine ignores_of_free (consistent_after config sink actions) hfree ?_
    rw [config_after]
    exact hkind

/-- All numbers are in use, though none was given out. -/
def fullTable : Table where
  pending := Table.numbers.map fun id => { id, token := id.toNat }

/-- A reply to a transaction that has timed out arrives while somebody waits for the next message. -/
def lateReply : List (Action Unit) :=
  [.start .transaction 48 [] ⟨0⟩, .write, .expire 1, .settle 1, .collect 1, .observe ⟨0⟩,
    .dispatch ⟨16, 16, 48, transactionWord 1, []⟩, .collect 2]

/-- A search that finds nothing may set the cursor, and a late reply ends the wait for the next message. -/
theorem search_sets_cursor_and_late_reply_is_told :
    (fullTable.cursor = 0 ∧ (∀ p ∈ fullTable.pending, p.id ≠ 0) ∧ fullTable.allocate.1 = none ∧
      fullTable.allocate.2 ≠ fullTable) ∧
    (after {} {} lateReply).log.filterMap Event.result?
      = [(some 1, .error (.timeout "transaction 1 (call 0x0030)" ⟨0⟩)),
        (some 2, .ok (.summary ⟨.transaction 1, 48, transactionWord 1, []⟩))] := by
  have hnone : fullTable.allocate.1 = none := by
    refine (Table.allocate_none fullTable).mpr fun id hid => ?_
    rw [Table.pending?_isSome_iff, fullTable, List.map_map]
    exact List.mem_map.mpr ⟨id, Table.mem_numbers.mpr hid, rfl⟩
  refine ⟨⟨rfl, ?_, hnone, ?_⟩, by decide +kernel⟩
  · intro p hp
    obtain ⟨id, hid, rfl⟩ := List.mem_map.mp hp
    exact Table.mem_numbers.mp hid
  · rw [(Table.findsNext fullTable).unmoved hnone]
    intro h
    have hcursor := congrArg Table.cursor h
    cases hcursor

end Run

end Wwan
