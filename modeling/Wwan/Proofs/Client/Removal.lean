import Wwan.Proofs.Client.Observers
import Wwan.Proofs.Client.Renaming

/-!
# Runs from which the observers are removed

Observers take their tokens from the same counter as everybody else.  So when all that they do is removed
from a run, the calls that are left get other tokens, those of their order (`renumber`), and nothing else
of them changes (`Run.observers_only_observe`).
-/

namespace Wwan

variable {H : Type}

/-! ## Counting tokens -/

/-- How many of these tokens there are up to a number. -/
def rank (tokens : List Nat) : Nat → Nat
  | 0 => 0
  | n + 1 => if n + 1 ∈ tokens then rank tokens n + 1 else rank tokens n

/-- The place of a token among others; what is none of them comes behind them all. -/
def renumber (tokens : List Nat) (token : Nat) : Nat :=
  if token ∈ tokens then rank tokens token else tokens.foldr Nat.max 0 + 1 + token

variable {tokens : List Nat}

theorem rank_le (n : Nat) : rank tokens n ≤ n := by
  induction n with
  | zero => exact Nat.le_refl 0
  | succ n ih =>
    rw [rank]
    split <;> omega

theorem rank_mono {m n : Nat} (h : m ≤ n) : rank tokens m ≤ rank tokens n := by
  induction n with
  | zero =>
    obtain rfl : m = 0 := Nat.le_zero.mp h
    exact Nat.le_refl _
  | succ n ih =>
    obtain hle | rfl := Nat.le_or_eq_of_le_succ h
    · have hrank := ih hle
      rw [rank]
      split <;> omega
    · exact Nat.le_refl _

theorem rank_succ_of_mem {n : Nat} (h : n + 1 ∈ tokens) : rank tokens (n + 1) = rank tokens n + 1 := by
  rw [rank, if_pos h]

theorem rank_succ_of_not_mem {n : Nat} (h : n + 1 ∉ tokens) : rank tokens (n + 1) = rank tokens n := by
  rw [rank, if_neg h]

theorem rank_lt {m n : Nat} (hlt : m < n) (hmem : n ∈ tokens) : rank tokens m < rank tokens n := by
  obtain ⟨n, rfl⟩ := Nat.exists_eq_succ_of_ne_zero (Nat.ne_zero_of_lt hlt)
  have hle : rank tokens m ≤ rank tokens n := rank_mono (Nat.le_of_lt_succ hlt)
  rw [rank_succ_of_mem hmem]
  omega

theorem le_foldr_max {token : Nat} (h : token ∈ tokens) : token ≤ tokens.foldr Nat.max 0 := by
  induction tokens with
  | nil => cases h
  | cons t tokens ih =>
    rw [List.foldr_cons]
    obtain rfl | hmem := List.mem_cons.mp h
    · exact Nat.le_max_left _ _
    · exact (ih hmem).trans (Nat.le_max_right _ _)

/-- No two tokens have one place. -/
theorem renumber_injective : Function.Injective (renumber tokens) := by
  intro m n h
  have hbound : ∀ token ∈ tokens, rank tokens token < tokens.foldr Nat.max 0 + 1 :=
    fun token hmem => Nat.lt_succ_of_le ((rank_le token).trans (le_foldr_max hmem))
  rw [renumber, renumber] at h
  by_cases hm : m ∈ tokens <;> by_cases hn : n ∈ tokens
  · rw [if_pos hm, if_pos hn] at h
    obtain hlt | heq | hlt := Nat.lt_trichotomy m n
    · have := rank_lt hlt hn
      omega
    · exact heq
    · have := rank_lt hlt hm
      omega
  · rw [if_pos hm, if_neg hn] at h
    have := hbound m hm
    omega
  · rw [if_neg hm, if_pos hn] at h
    have := hbound n hn
    omega
  · rw [if_neg hm, if_neg hn] at h
    omega

/-- The names of calls when only these have tokens. -/
def Renaming.among (tokens : List Nat) : Renaming where
  token := renumber tokens
  injective := renumber_injective
  last := rank tokens

theorem Renaming.next_among {n : Nat} (h : n + 1 ∈ tokens) : (among tokens).Next n where
  token_eq := (if_pos h).trans (rank_succ_of_mem h)
  last_eq := rank_succ_of_mem h

/-! ## Results under other names -/

/-- A result under another name. -/
def renameResult (ν : Renaming) (result : Option Nat × Except CallError Reply) :
    Option Nat × Except CallError Reply :=
  (result.1.map ν.token, result.2)

theorem Event.result?_rename (ν : Renaming) (e : Event) :
    (e.rename ν).result? = e.result?.map (renameResult ν) := by
  cases e <;> rfl

namespace Run

variable {q r : Run H} {ν : Renaming} {a : Action H}

theorem observes_rename : (r.rename ν).observes (a.rename ν) = r.observes a := by
  have hcall (token : Nat) :
      (((r.rename ν).client.call? (ν.token token)).any fun k => k.ticket = .observation)
      = (r.client.call? token).any fun k => k.ticket = .observation := by
    rw [client_rename, Client.call?_rename]
    rcases r.client.call? token with _ | k <;> rfl
  cases a with
  | expire token => exact hcall token
  | settle token => exact hcall token
  | collect token => exact hcall token
  | _ => rfl

/-- A step returns the same under other names. -/
theorem outcome_rename (h : (r.rename ν).step (a.rename ν) = (r.step a).rename ν) :
    (r.rename ν).outcome (a.rename ν) = (r.outcome a).map (renameResult ν) := by
  rw [outcome, outcome, observes_rename, h]
  split
  · rfl
  · have hlog : ((r.step a).rename ν).log.drop (r.rename ν).log.length
        = ((r.step a).log.drop r.log.length).map (Event.rename ν) := by
      show ((r.step a).log.map (Event.rename ν)).drop (r.log.map (Event.rename ν)).length = _
      rw [List.length_map, List.map_drop]
    rw [hlog, List.filterMap_map, List.map_filterMap]
    congr 1
    funext e
    exact Event.result?_rename ν e

theorem unobserved_rename : (r.rename ν).unobserved = r.unobserved.rename ν := by
  have hcalls : (r.client.calls.map (Call.rename ν)).filter (fun k => k.ticket ≠ .observation)
      = (r.client.calls.filter fun k => k.ticket ≠ .observation).map (Call.rename ν) :=
    filter_map_of_iff r.client.calls fun _ => Iff.rfl
  exact congrArg (fun calls => { r.unobserved.rename ν with
    client := { r.unobserved.client.rename ν with calls } }) hcalls

/-! ## The step of an observer, and of anybody else -/

end Run

/-- The calls that have begun and are no observers, oldest first. -/
def placed (log : List Event) : List Nat :=
  log.filterMap fun
    | .started token ticket => if ticket = .observation then none else some token
    | _ => none

theorem mem_placed {log : List Event} {token : Nat} :
    token ∈ placed log ↔ ∃ ticket, .started token ticket ∈ log ∧ ticket ≠ .observation := by
  rw [placed, List.mem_filterMap]
  constructor
  · rintro ⟨e, he, htoken⟩
    cases e <;> try cases htoken
    next token' ticket =>
      obtain ⟨hticket, htoken⟩ := Option.ite_none_left_eq_some.mp htoken
      obtain rfl := Option.some_inj.mp htoken
      exact ⟨ticket, he, hticket⟩
  · rintro ⟨ticket, he, hticket⟩
    exact ⟨_, he, if_neg hticket⟩

/-- Whether an action is that of an observer, when these are the tokens of all others. -/
def Action.isObserver (tokens : List Nat) : Action H → Bool
  | .observe _ => true
  | .expire token | .settle token | .collect token => token ∉ tokens
  | _ => false

/-- The actions of all but the observers, by the names that their calls have without the observers. -/
def withoutObservers (tokens : List Nat) (actions : List (Action H)) : List (Action H) :=
  (actions.filter fun a => !a.isObserver tokens).map (Action.rename (.among tokens))

theorem withoutObservers_append_of_observer (actions : List (Action H)) {a : Action H}
    (h : a.isObserver tokens = true) :
    withoutObservers tokens (actions ++ [a]) = withoutObservers tokens actions := by
  rw [withoutObservers, List.filter_append, List.filter_cons_of_neg (by simp [h]), List.filter_nil,
    List.append_nil]
  rfl

theorem withoutObservers_append_of_other (actions : List (Action H)) {a : Action H}
    (h : a.isObserver tokens = false) :
    withoutObservers tokens (actions ++ [a])
      = withoutObservers tokens actions ++ [a.rename (.among tokens)] := by
  rw [withoutObservers, List.filter_append, List.filter_cons_of_pos (by simp [h]), List.filter_nil,
    List.map_append]
  rfl

/-- Whether these tokens are those of the calls that are no observers, among the calls of a record. -/
def Separates (tokens : List Nat) (log : List Event) : Prop :=
  ∀ token ticket, .started token ticket ∈ log → (token ∈ tokens ↔ ticket ≠ .observation)

namespace Run

variable {q r : Run H} {a : Action H}

/-- Nobody takes notice of the step of an observer. -/
theorem step_of_observer (hr : r.Sound) (htokens : Separates tokens (r.step a).log)
    (hobserver : a.isObserver tokens = true) :
    (r.step a).unobserved.rename (.among tokens) = r.unobserved.rename (.among tokens) ∧
      r.outcome a = [] := by
  have hmove := move_step r a
  have hold : Separates tokens r.log := fun token ticket hmem =>
    htokens token ticket (hmove.log_prefix.subset hmem)
  have habsent : ∀ token ∉ tokens, r.unobserved.client.call? token = none := by
    intro token hmem
    obtain ⟨k, hk, rfl, hticket, -⟩ | ⟨hnone, -⟩ := hr.consistent.call?_cases token
    · exact absurd ((hold k.token k.ticket (hr.ledger.account k hk).started).mpr hticket) hmem
    · exact hnone
  have hidle : r.unobserved.step a = r.unobserved →
      (r.step a).unobserved.rename (.among tokens) = r.unobserved.rename (.among tokens) ∧
        r.outcome a = [] := by
    intro hidle
    obtain ⟨hstep, houtcome⟩ := step_of_idle hr hidle
    exact ⟨congrArg (Run.rename (.among tokens)) hstep, houtcome⟩
  cases a with
  | observe timeout =>
    refine ⟨?_, rfl⟩
    show (r.observe timeout).unobserved.rename _ = _
    rw [unobserved_observe]
    by_cases hclosed : r.client.table.closed
    · rw [if_pos hclosed]
    · -- the token that is taken is none of these, so that the last one keeps its place
      rw [if_neg hclosed]
      have hlog : (r.step (.observe timeout)).log
          = r.log ++ [.started (r.client.table.lastToken + 1) .observation] := by
        simp only [step, observe, Client.observe, if_neg hclosed]
        rfl
      have hnew : r.client.table.lastToken + 1 ∉ tokens := by
        intro hmem
        exact (htokens _ _ (hlog ▸ List.mem_append_right _ (List.mem_singleton_self _))).mp hmem rfl
      exact congrArg (fun lastToken => { r.unobserved.rename (.among tokens) with
        client := { r.unobserved.client.rename (.among tokens) with
          table := { r.unobserved.client.table.rename (.among tokens) with lastToken } } })
        (rank_succ_of_not_mem hnew)
  | expire token => exact hidle (step_of_absent (habsent token (of_decide_eq_true hobserver))).1
  | settle token => exact hidle (step_of_absent (habsent token (of_decide_eq_true hobserver))).2.1
  | collect token => exact hidle (step_of_absent (habsent token (of_decide_eq_true hobserver))).2.2
  | _ => cases hobserver

/-- A call that begins and is no observer has the next of these tokens. -/
theorem next_of_enrolls (hr : r.Sound) (htokens : Separates tokens (r.step a).log)
    (hother : a.isObserver tokens = false) (h : r.unobserved.Enrolls a) :
    (Renaming.among tokens).Next r.unobserved.client.table.lastToken := by
  cases a with
  | start p command body timeout =>
    obtain ⟨hdraft, k, c, hbegin⟩ := h
    obtain ⟨e, cursor, hcase⟩ | ⟨k', cursor, hcase, htoken, -, -, hticket, -⟩ :=
      r.unobserved.client.begin_cases p command timeout
    · rw [hbegin] at hcase
      cases hcase
    · rw [hbegin] at hcase
      obtain ⟨rfl, -⟩ : k = k' ∧ c = _ := by simpa using hcase
      have hlog : (r.unobserved.step (.start p command body timeout)).log = [.started k.token k.ticket] := by
        simp only [step, start, if_neg hdraft, hbegin]
        rfl
      have hwhole := (followed hr.consistent hr.ledger (.start p command body timeout)).log_eq rfl
      rw [hlog] at hwhole
      have hmem : k.token ∈ tokens := by
        refine (htokens k.token k.ticket ?_).mpr hticket
        rw [hwhole]
        exact List.mem_append_right _ (List.mem_singleton_self _)
      rw [htoken] at hmem
      exact Renaming.next_among hmem
  | observe timeout => cases hother
  | _ => exact h.elim

/-- Everybody else takes the same step without the observers, under another name. -/
theorem step_of_other (hq : q.Sound) (hr : r.Sound) (htokens : Separates tokens (r.step a).log)
    (hother : a.isObserver tokens = false) (h : q.unobserved = r.unobserved.rename (.among tokens)) :
    (q.step (a.rename (.among tokens))).unobserved = (r.step a).unobserved.rename (.among tokens) ∧
      q.outcome (a.rename (.among tokens)) = (r.outcome a).map (renameResult (.among tokens)) := by
  obtain ⟨hqstep, hqoutcome⟩ := unobserved_step hq (a.rename (.among tokens))
  obtain ⟨hrstep, hroutcome⟩ := unobserved_step hr a
  have hrename := rename_step (next_of_enrolls hr htokens hother)
  constructor
  · rw [hqstep, h, hrename, unobserved_rename, ← hrstep]
  · rw [hqoutcome, h, outcome_rename hrename, ← hroutcome]

/-! ## Whole runs -/

/-- What calls return in the course of a run, but for those who wait for the next message. -/
def outcomes (r : Run H) : List (Action H) → List (Option Nat × Except CallError Reply)
  | [] => []
  | a :: actions => r.outcome a ++ (r.step a).outcomes actions

theorem outcomes_append_singleton (r : Run H) (actions : List (Action H)) (a : Action H) :
    r.outcomes (actions ++ [a]) = r.outcomes actions ++ (actions.foldl step r).outcome a := by
  induction actions generalizing r with
  | nil => exact List.append_nil _
  | cons b actions ih => rw [List.cons_append, outcomes, ih, outcomes, List.append_assoc, List.foldl_cons]

/-- The observers make no difference to what becomes of the others. -/
theorem after_withoutObservers (config : ClientConfig) (sink : Sink) {actions : List (Action H)}
    (htokens : Separates tokens (after config sink actions).log) :
    (after config sink (withoutObservers tokens actions)).unobserved
        = (after config sink actions).unobserved.rename (.among tokens) ∧
      (fresh config sink).outcomes (withoutObservers tokens actions)
        = ((fresh config sink).outcomes actions).map (renameResult (.among tokens)) := by
  -- on the last action, so that the run before it is one of which this is known
  induction actions using List.reverseRecOn with
  | nil => exact ⟨rfl, rfl⟩
  | append_singleton past a ih =>
    rw [after_append_singleton] at htokens ⊢
    have hr := sound_after config sink past
    have hmove := move_step (after config sink past) a
    obtain ⟨hrun, houtcomes⟩ := ih fun token ticket hmem =>
      htokens token ticket (hmove.log_prefix.subset hmem)
    rw [outcomes_append_singleton, List.map_append, ← houtcomes]
    by_cases hobserver : a.isObserver tokens = true
    · obtain ⟨hstep, houtcome⟩ := step_of_observer hr htokens hobserver
      have houtcome' : ((past.foldl step (fresh config sink)).outcome a).map
          (renameResult (.among tokens)) = [] := List.map_eq_nil_iff.mpr houtcome
      rw [withoutObservers_append_of_observer past hobserver, hstep, hrun, houtcome', List.append_nil]
      exact ⟨rfl, rfl⟩
    · have hother : a.isObserver tokens = false := Bool.not_eq_true _ ▸ hobserver
      obtain ⟨hstep, houtcome⟩ := step_of_other (sound_after config sink _) hr htokens hother hrun
      rw [withoutObservers_append_of_other past hother, after_append_singleton, outcomes_append_singleton]
      exact ⟨hstep, congrArg (_ ++ ·) houtcome⟩

/-- The tokens of the calls that are no observers tell them from the observers. -/
theorem Ledger.separates (h : r.Ledger) : Separates (placed r.log) r.log := by
  intro token ticket hmem
  rw [mem_placed]
  constructor
  · rintro ⟨ticket', hmem', hticket'⟩
    rwa [ticket_eq_of_starts h.starts_nodup hmem hmem']
  · intro hticket
    exact ⟨ticket, hmem, hticket⟩

/-- Those who wait for the next message only observe.  In every run, whoever returns a message returns the
kind, the command, the word and the body of the first that was dispatched after the wait had begun; when a
message is dispatched, all who wait then are told these of it (`Run.Tells`).  And in the same run without the
observers, where only the other calls have tokens, every call returns the same, the same is written, and the
handlers are called with the same. -/
theorem observers_only_observe (config : ClientConfig) (sink : Sink) (actions : List (Action H)) :
    let told (m : Message) : Summary :=
      { kind := m.classify config.threshold, command := m.command, word := m.word, body := m.body }
    (∀ token reply, .started token .observation ∈ (after config sink actions).log →
      .returned token (.ok reply) ∈ (after config sink actions).log →
      ∃ m, heard token (after config sink actions).log = some m ∧ reply = .summary (told m)) ∧
    (∀ past m future, actions = past ++ .dispatch m :: future →
      (after config sink past).Tells m (told m) (after config sink actions)) ∧
    (let tokens := placed (after config sink actions).log
      let others := withoutObservers tokens actions
      (fresh config sink).outcomes others
          = ((fresh config sink).outcomes actions).map (renameResult (.among tokens)) ∧
        (after config sink others).sink = (after config sink actions).sink ∧
        (after config sink others).client.handled = (after config sink actions).client.handled ∧
        (after config sink others).client.notices = (after config sink actions).client.notices) := by
  intro told
  refine ⟨fun token reply hstarted hreturned => ?_, ?_, ?_⟩
  · have hobserved := (observed_after config sink actions).returned token reply hstarted hreturned
    rwa [config_after] at hobserved
  · rintro past m future rfl
    exact tells_after config sink past m future
  · intro tokens others
    obtain ⟨hrun, houtcomes⟩ :=
      after_withoutObservers config sink (ledger_after config sink actions).separates
    have hsink : (after config sink others).unobserved.sink
        = (after config sink actions).unobserved.sink := by
      rw [hrun]
      rfl
    have hhandled : (after config sink others).unobserved.client.handled
        = (after config sink actions).unobserved.client.handled := by
      rw [hrun]
      rfl
    have hnotices : (after config sink others).unobserved.client.notices
        = (after config sink actions).unobserved.client.notices := by
      rw [hrun]
      rfl
    exact ⟨houtcomes, hsink, hhandled, hnotices⟩

/-- The second call of a run is the first one when nobody waits for the next message. -/
example :
    let actions : List (Action Unit) := [.observe ⟨0⟩, .start .answer 5 [] ⟨0⟩, .write,
      .dispatch ⟨17, 17, 5, syncWord, [7]⟩, .collect 1, .collect 2]
    (fresh {} {}).outcomes actions = [(some 2, .ok (.body [7]))] ∧
      (fresh {} {}).outcomes (withoutObservers [2] actions) = [(some 1, .ok (.body [7]))] := by
  decide +kernel

end Run

end Wwan
