import Wwan.Proofs.Client.Noise
import Wwan.Proofs.Client.Notices

/-!
# What handlers have heard

What the handlers of a client were called with is written down and read by nobody, so a client goes on in
the same way if it is left out (`Run.step_behind`).  A line at which it is left out after every act is
therefore where a run is that never leaves it out (`Run.On.foldl_unheard`).
-/

namespace Wwan

variable {H : Type}

/-- Whether an action has to do with handlers. -/
def Action.isForHandlers : Action H → Bool
  | .handle | .register _ _ | .unregister _ => true
  | _ => false

namespace Client

/-- A client whose handlers were called with something else before. -/
def behind (heard : List (H × Message)) (c : Client H) : Client H :=
  { c with handled := heard ++ c.handled }

theorem handleNext_behind (heard : List (H × Message)) (c : Client H) :
    (c.behind heard).handleNext = c.handleNext.behind heard := by
  rcases hnotices : c.notices with _ | ⟨m, rest⟩
  · have hnone : (c.behind heard).notices = [] := hnotices
    simp only [handleNext, hnotices, hnone]
  · have hcons : (c.behind heard).notices = m :: rest := hnotices
    rw [handleNext_cons hcons, handleNext_cons hnotices]
    simp only [behind, List.append_assoc]
    rfl

/-- Handling all notices is to handle the oldest one, and then all that are left. -/
theorem handleAll_handleNext {c : Client H} {m : Message} {rest : List Message} (h : c.notices = m :: rest) :
    c.handleNext.handleAll = c.handleAll := by
  have hfirst : ({ c with notices := [] } : Client H).handle m = { c with
      notices := []
      handled := c.handled ++ ((c.handler? m.command).map fun handler => (handler, m)).toList } :=
    handleNext_cons (c := { c with notices := [m] }) rfl
  rw [handleNext_cons h, handleAll, handleAll, h, List.foldl_cons, hfirst]

end Client

namespace Run

variable {r r' : Run H}

/-- What a step that has nothing to do with handlers lets them hear of. -/
theorem hears_step (r : Run H) {a : Action H} (ha : a.isForHandlers = false) :
    Hears r (r.step a) (noticed r.client.config.threshold a.message?) := by
  cases a with
  | start p command body timeout => exact hears_start p command body timeout r
  | dispatch m => exact hears_dispatch m r
  | write => exact r.plain_write.hears
  | observe timeout => exact (r.plain_observe timeout).hears
  | expire token => exact (r.plain_expire token).hears
  | settle token => exact (r.plain_settle token).hears
  | collect token => exact (r.plain_collect token).hears
  | close => exact r.plain_close.hears
  | handle => cases ha
  | register command handler => cases ha
  | unregister command => cases ha

theorem ext_of_unhandled (h : r.unhandled = r'.unhandled) (hhandlers : r.client.handlers = r'.client.handlers)
    (hnotices : r.client.notices = r'.client.notices) (hhandled : r.client.handled = r'.client.handled) :
    r = r' := by
  obtain ⟨⟨config, table, calls, handlers, notices, handled⟩, sink, draft, log⟩ := r
  obtain ⟨⟨config', table', calls', handlers', notices', handled'⟩, sink', draft', log'⟩ := r'
  simp only [unhandled, Client.unhandled, Run.mk.injEq, Client.mk.injEq] at h
  obtain ⟨⟨rfl, rfl, rfl, -⟩, rfl, rfl, rfl⟩ := h
  obtain rfl := hhandlers
  obtain rfl := hnotices
  obtain rfl := hhandled
  rfl

/-- A run whose handlers were called with something else before. -/
def behind (heard : List (H × Message)) (r : Run H) : Run H :=
  { r with client := r.client.behind heard }

/-- No step looks at what the handlers were called with. -/
theorem step_behind (heard : List (H × Message)) (r : Run H) (a : Action H) :
    (r.behind heard).step a = (r.step a).behind heard := by
  by_cases ha : a.isForHandlers = true
  · cases a with
    | handle => exact congrArg (fun client => { r with client }) (r.client.handleNext_behind heard)
    | register command handler => rfl
    | unregister command => rfl
    | _ => cases ha
  · have hhears := r.hears_step (Bool.eq_false_iff.mpr ha)
    have hhears' := (r.behind heard).hears_step (Bool.eq_false_iff.mpr ha)
    refine ext_of_unhandled ?_ ?_ ?_ ?_
    · rw [unhandled_step]
      exact (unhandled_step r a).symm
    · exact hhears'.handlers_eq.trans hhears.handlers_eq.symm
    · exact hhears'.notices_eq.trans hhears.notices_eq.symm
    · exact hhears'.handled_eq.trans (congrArg (heard ++ ·) hhears.handled_eq.symm)

theorem foldl_behind (heard : List (H × Message)) (actions : List (Action H)) (r : Run H) :
    actions.foldl step (r.behind heard) = (actions.foldl step r).behind heard := by
  induction actions generalizing r with
  | nil => rfl
  | cons a actions ih => rw [List.foldl_cons, step_behind, ih, List.foldl_cons]

/-- A run without what its handlers were called with. -/
def unheard (r : Run H) : Run H :=
  { r with client := { r.client with handled := [] } }

theorem behind_unheard (r : Run H) : r.unheard.behind r.client.handled = r := by
  obtain ⟨⟨config, table, calls, handlers, notices, handled⟩, sink, draft, log⟩ := r
  simp [unheard, behind, Client.behind]

/-- Whether a call can begin does not depend on what the handlers were called with, -/
theorem fst_begin_unheard (p : Purpose) (command : UInt32) (timeout : Span) (r : Run H) :
    (r.client.begin p command timeout).1 = (r.unheard.client.begin p command timeout).1 := by
  have hsame : r.unheard.client.unhandled = r.client.unhandled := rfl
  have hbegin := congrArg Prod.fst (r.unheard.client.begin_unhandled p command timeout)
  rw [hsame, r.client.begin_unhandled] at hbegin
  exact hbegin

/-- nor whether the next message can be waited for. -/
theorem fst_observe_unheard (timeout : Span) (r : Run H) :
    (r.client.observe timeout).1 = (r.unheard.client.observe timeout).1 := by
  have hsame : r.unheard.client.unhandled = r.client.unhandled := rfl
  have hobserve := congrArg Prod.fst (r.unheard.client.observe_unhandled timeout)
  rw [hsame, r.client.observe_unhandled] at hobserve
  exact hobserve

/-- A run that goes on goes on in the same way without what its handlers were called with before. -/
theorem foldl_eq_behind (actions : List (Action H)) (r : Run H) :
    actions.foldl step r = (actions.foldl step r.unheard).behind r.client.handled := by
  rw [← foldl_behind, behind_unheard]

/-- What the handlers were called with is not in the record. -/
theorem log_foldl_unheard (actions : List (Action H)) (r : Run H) :
    (actions.foldl step r).log = (actions.foldl step r.unheard).log := by
  rw [foldl_eq_behind]
  rfl

/-- What a line leaves out, the run that is there has kept. -/
theorem On.foldl_unheard {l : Line H} {actions : List (Action H)} (h : (actions.foldl step r.unheard).On l) :
    (actions.foldl step r).unheard.On { l with client := { l.client with handled := [] } } ∧
      (actions.foldl step r).client.handled = r.client.handled ++ l.client.handled := by
  rw [foldl_eq_behind, ← h.client_eq]
  exact ⟨⟨rfl, h.sink_eq, h.idle⟩, rfl⟩

/-! ## What is received -/

/-- An action of the reader or of the handlers. -/
def serves : Action H → Bool
  | .dispatch _ | .close | .handle => true
  | _ => false

/-- A run gets to where a line is by what the reader and the handlers do. -/
def Receives (r : Run H) (l : Line H) : Prop :=
  ∃ actions : List (Action H), (∀ a ∈ actions, serves a = true) ∧ (actions.foldl step r).On l

variable {l l' : Line H}

theorem On.receives (h : r.On l) : r.Receives l :=
  ⟨[], by simp, h⟩

theorem Receives.trans (h : r.Receives l) (hnext : ∀ {r' : Run H}, r'.On l → r'.Receives l') : r.Receives l' := by
  obtain ⟨actions, hserves, hon⟩ := h
  obtain ⟨more, hserves', hon'⟩ := hnext hon
  refine ⟨actions ++ more, fun a ha => ?_, ?_⟩
  · obtain ha | ha := List.mem_append.mp ha
    · exact hserves a ha
    · exact hserves' a ha
  · rw [List.foldl_append]
    exact hon'

/-- All notices are handled one after the other. -/
theorem On.handleAll (h : r.On l) : r.Receives (l.mapClient Client.handleAll) := by
  generalize hnotices : l.client.notices = notices
  induction notices generalizing r l with
  | nil =>
    have hsame : l.mapClient Client.handleAll = l := by
      obtain ⟨⟨config, table, calls, handlers, notices, handled⟩, sink, inbox, ended⟩ := l
      obtain rfl : notices = [] := hnotices
      rfl
    rw [hsame]
    exact h.receives
  | cons m rest ih =>
    have hnext : (r.step .handle).On (l.mapClient Client.handleNext) :=
      ⟨congrArg Client.handleNext h.client_eq, h.sink_eq, h.idle⟩
    have hrest : (l.mapClient Client.handleNext).client.notices = rest := by
      show l.client.handleNext.notices = rest
      rw [Client.handleNext_cons hnotices]
    have hall : (l.mapClient Client.handleNext).mapClient Client.handleAll = l.mapClient Client.handleAll :=
      congrArg (fun client => { l with client }) (Client.handleAll_handleNext hnotices)
    have hfirst : r.Receives (l.mapClient Client.handleNext) := ⟨[.handle], by simp [serves], hnext⟩
    rw [← hall]
    exact hfirst.trans fun hon => ih hon hrest

theorem On.receiveAll (h : r.On l) (data : Bytes) : r.Receives (l.receiveAll data) := by
  fun_induction Line.receiveAll data l generalizing r with
  | case1 l => exact h.receives
  | case2 l b bs ih =>
    have hread : r.Receives (l.receive ((b :: bs).take Inbox.chunkSize)) := by
      refine ⟨_, ?_, h.receive _⟩
      simp [serves]
    exact hread.trans ih

/-- What the channel supplies is received step by step. -/
theorem On.arrive (h : r.On l) (x : Supply) : r.Receives (l.arrive x) := by
  have hfinish : r.Receives l.finish := ⟨[.close], by simp [serves], h.finish⟩
  rw [Line.arrive.eq_def]
  split
  · exact h.receives
  split
  · exact hfinish
  · exact h.receiveAll _
  · split
    · exact h.receives
    · exact hfinish

theorem On.arriveAll (h : r.On l) (supplies : List Supply) :
    r.Receives (supplies.foldl (fun l x => l.arrive x) l) := by
  induction supplies generalizing r l with
  | nil => exact h.receives
  | cons x supplies ih => exact (h.arrive x).trans ih

end Run

end Wwan
