import Wwan.Proofs.Message.Sending

/-!
# Requests that break off

A writer that fails in the middle of a request goes on with the next one.  Nothing on the sink tells where
the one breaks off and the other begins, so a reader takes the bytes that come next for the rest of the
first and is out of step from then on.  `Outbox.keepsStep_iff` says that this is the only way to get a
reader out of step, and that until then it reads the requests whose bytes are all there, in order and
nothing else.
-/

namespace Wwan

/-! ## Where a reader stops -/

/-- Whether somebody who reads a byte string unit after unit stops before these bytes at its end. -/
def Reaches (w t : Bytes) : Prop :=
  ∃ us : List Bytes, (∀ u ∈ us, IsUnit u) ∧ w = us.flatten ++ t

/-- What is between two places where a reader stops begins with a unit. -/
theorem Reaches.unit_between {w a t : Bytes} (hfirst : Reaches w (a ++ t)) (hsecond : Reaches w t)
    (hne : a ≠ []) : ∃ u rest, IsUnit u ∧ a = u ++ rest := by
  obtain ⟨us, hus, rfl⟩ := hfirst
  obtain ⟨vs, hvs, hbytes⟩ := hsecond
  have hunits := congrArg (fun w => (unitsOf w).1) hbytes
  simp only [unitsOf_flatten hus, unitsOf_flatten hvs] at hunits
  obtain ⟨more, rfl, -⟩ | ⟨more, rfl, -⟩ := List.append_eq_append_iff.mp hunits
  · rw [List.flatten_append, List.append_assoc, List.append_cancel_left_eq,
      List.append_cancel_right_eq] at hbytes
    rcases more with _ | ⟨u, more⟩
    · exact absurd hbytes hne
    · exact ⟨u, more.flatten, hvs u (by simp), hbytes⟩
  · -- the second place is not before the first
    have hlength := congrArg List.length hbytes
    simp only [List.flatten_append, List.length_append] at hlength
    have hpos := List.length_pos_of_ne_nil hne
    omega

theorem Message.extract_of_unfinished (limit : Nat) {w : Bytes} (h : Unfinished w) :
    extract limit w = .incomplete ∨ ∃ size, extract limit w = .tooLarge size := by
  by_cases hshort : w.length < 4
  · exact .inl (extract_of_short hshort)
  · rw [extract_eq (Nat.le_of_not_lt hshort), if_pos (h (Nat.le_of_not_lt hshort))]
    split
    · exact .inr ⟨_, rfl⟩
    · exact .inl rfl

namespace Inbox

variable {limit : Nat}

/-- An inbox that gets no more bytes stays as it is when nothing can be taken from it. -/
theorem receive_stays {w : Bytes}
    (h : Message.extract limit w = .incomplete ∨ ∃ size, Message.extract limit w = .tooLarge size) :
    ((Inbox.mk limit w).receive ⟨[], []⟩).2 = (⟨limit, w⟩, ⟨[], []⟩) := by
  obtain hincomplete | ⟨size, hlarge⟩ := h
  · rw [receive_of_incomplete hincomplete]
    rfl
  · rw [receive, next]
    simp only [hlarge]

/-- A call for the next message takes a unit from an inbox that gets no more bytes, or leaves it as it is. -/
theorem receive_dry (limit : Nat) (w : Bytes) : ∃ t, Reaches w t ∧
    ((Inbox.mk limit w).receive ⟨[], []⟩).2 = (⟨limit, t⟩, ⟨[], []⟩) := by
  have hhere : Reaches w w := ⟨[], by simp, rfl⟩
  by_cases hw : Unfinished w
  · exact ⟨w, hhere, receive_stays (Message.extract_of_unfinished limit hw)⟩
  · obtain ⟨u, x, hu, rfl⟩ := exists_unit_of_not_unfinished hw
    by_cases hlimit : u.length ≤ limit
    · refine ⟨x, ⟨[u], by simpa using hu, by simp⟩, ?_⟩
      rw [receive_unit hu hlimit]
    · refine ⟨u ++ x, hhere, receive_stays (.inr ⟨u.length, ?_⟩)⟩
      have hfour : 4 ≤ (u ++ x).length := by
        have hfour := hu.four_le
        rw [List.length_append]
        omega
      rw [Message.extract_eq hfour, List.take_append_of_le_length hu.four_le, hu.length_eq, if_pos (by omega)]

/-- Wherever calls for the next message leave an inbox, somebody who reads unit after unit stops there. -/
theorem reaches_receives (limit : Nat) (w : Bytes) (n : Nat) :
    Reaches w ((Inbox.mk limit w).receives n ⟨[], []⟩).2.1.buffer := by
  induction n generalizing w with
  | zero => exact ⟨[], by simp, rfl⟩
  | succ n ih =>
    obtain ⟨t, ⟨us, hus, rfl⟩, hreceive⟩ := receive_dry limit w
    obtain ⟨vs, hvs, hbytes⟩ := ih t
    have hsplit : (Inbox.mk limit (us.flatten ++ t)).receive ⟨[], []⟩ = (_, ⟨limit, t⟩, ⟨[], []⟩) :=
      Prod.ext rfl hreceive
    rw [receives_succ hsplit]
    refine ⟨us ++ vs, fun u hu => (List.mem_append.mp hu).elim (hus u) (hvs u), ?_⟩
    rw [List.flatten_append, List.append_assoc, ← hbytes]

/-- As many calls for the next message as there are units take these from an inbox. -/
theorem receives_units {us : List Bytes} (hunits : ∀ u ∈ us, IsUnit u)
    (hlimit : ∀ u ∈ us, u.length ≤ limit) (x : Bytes) (s : Source) :
    (Inbox.mk limit (us.flatten ++ x)).receives us.length s
      = (us.map Message.readUnit, ⟨limit, x⟩, s) := by
  induction us with
  | nil => rfl
  | cons u us ih =>
    have hreceive := receive_unit (hunits u List.mem_cons_self) (hlimit u List.mem_cons_self)
      (us.flatten ++ x) s
    have hrest := ih (fun v hv => hunits v (List.mem_cons_of_mem u hv))
      fun v hv => hlimit v (List.mem_cons_of_mem u hv)
    rw [List.flatten_cons, List.append_assoc, List.length_cons, receives_succ hreceive, hrest, List.map_cons]

end Inbox

/-! ## What breaks off -/

namespace Sending

variable {limit : Nat} {x : Sending} {xs : List Sending}

/-- Whether the sink took some bytes of the request, and not all. -/
def IsTorn (x : Sending) : Prop :=
  x.left ≠ [] ∧ ¬x.IsWhole

instance : DecidablePred IsTorn := fun x =>
  inferInstanceAs (Decidable (x.left ≠ [] ∧ ¬x.IsWhole))

/-- The bytes of a request that breaks off are the start of a unit that is not too large. -/
theorem Sound.of_isTorn (h : x.Sound limit) (htorn : x.IsTorn) : Unfinished x.left ∧
    (4 ≤ x.left.length → Bytes.toNatLE (x.left.take 4) + 4 ≤ limit) := by
  obtain ⟨hne, hpart⟩ := htorn
  obtain hnil | ⟨data, hencode, hlimit, hfront⟩ := h.front
  · exact absurd hnil hne
  have hunit := Request.isUnit_encode hencode
  have hlt : x.left.length < data.length := by
    refine Nat.lt_of_le_of_ne hfront.length_le fun heq => hpart ?_
    rw [IsWhole, hencode, hfront.eq_of_length heq]
  -- once the length is there, it is that of the whole request
  have hlength : 4 ≤ x.left.length → Bytes.toNatLE (x.left.take 4) + 4 = data.length := by
    intro hfour
    obtain ⟨rest, rfl⟩ := hfront
    rw [← hunit.length_eq, List.take_append_of_le_length hfour]
  refine ⟨fun hfour => ?_, fun hfour => ?_⟩
  · rw [hlength hfour]
    exact hlt
  · rw [hlength hfour]
    exact hlimit

/-- The requests whose bytes are all there. -/
def whole (xs : List Sending) : List Sending :=
  xs.filter (·.IsWhole)

theorem mem_whole : x ∈ whole xs ↔ x ∈ xs ∧ x.IsWhole := by
  rw [whole, List.mem_filter, decide_eq_true_iff]

theorem IsWhole.ne_nil (h : x.IsWhole) : x.left ≠ [] := by
  intro hnil
  have hfour := h.isUnit.four_le
  rw [hnil] at hfour
  cases hfour

/-- Whether nothing is left behind a request that breaks off. -/
def TornLast (xs : List Sending) : Prop :=
  xs.Pairwise fun x y => x.IsTorn → y.left = []

instance : DecidablePred TornLast := fun xs =>
  inferInstanceAs (Decidable (xs.Pairwise fun x y => x.IsTorn → y.left = []))

/-- If nothing is left behind a request that breaks off, the others are all there. -/
theorem TornLast.flatMap_left (h : TornLast xs) : ∃ t,
    xs.flatMap left = (whole xs).flatMap left ++ t ∧ (t = [] ∨ ∃ x ∈ xs, x.IsTorn ∧ t = x.left) := by
  induction xs with
  | nil => exact ⟨[], rfl, .inl rfl⟩
  | cons x xs ih =>
    obtain ⟨hlast, hrest⟩ := List.pairwise_cons.mp h
    by_cases htorn : x.IsTorn
    · -- nothing comes behind it
      have hnone : whole xs = [] := by
        refine List.eq_nil_iff_forall_not_mem.mpr fun y hy => ?_
        obtain ⟨hmem, hwhole⟩ := mem_whole.mp hy
        exact hwhole.ne_nil (hlast y hmem htorn)
      refine ⟨x.left, ?_, .inr ⟨x, List.mem_cons_self, htorn, rfl⟩⟩
      rw [whole, List.filter_cons_of_neg (by simpa using htorn.2), ← whole, hnone, List.flatMap_cons,
        List.flatMap_eq_nil_iff.mpr fun y hy => hlast y hy htorn, List.append_nil]
      rfl
    obtain ⟨t, ht, htail⟩ := ih hrest
    refine ⟨t, ?_, htail.imp_right fun ⟨y, hy, hpart⟩ => ⟨y, List.mem_cons_of_mem x hy, hpart⟩⟩
    rw [List.flatMap_cons, ht]
    by_cases hwhole : x.IsWhole
    · rw [whole, whole, List.filter_cons_of_pos (by simpa using hwhole), List.flatMap_cons, List.append_assoc]
    · have hnil : x.left = [] := by
        by_contra hne
        exact htorn ⟨hne, hwhole⟩
      rw [whole, whole, List.filter_cons_of_neg (by simpa using hwhole), hnil, List.nil_append]

/-! ## Readers -/

/-- Whether a reader of everything that was left comes to where each request starts: calls for the next
message leave it with the bytes of this request and of those behind it. -/
def KeepsStep (limit : Nat) (xs : List Sending) : Prop :=
  ∀ before x after, xs = before ++ x :: after → x.left ≠ [] →
    ∃ n, ((Inbox.mk limit (xs.flatMap left)).receives n ⟨[], []⟩).2.1.buffer = (x :: after).flatMap left

/-- If a request leaves anything, there is a first that does. -/
theorem exists_first {y : Sending} (hmem : y ∈ xs) (hne : y.left ≠ []) : ∃ skipped z after,
    xs = skipped ++ z :: after ∧ skipped.flatMap left = [] ∧ z.left ≠ [] := by
  have hsome : (xs.find? (·.left ≠ [])).isSome := by
    rw [List.find?_isSome]
    exact ⟨y, hmem, by simpa using hne⟩
  obtain ⟨z, hfind⟩ := Option.isSome_iff_exists.mp hsome
  obtain ⟨hz, skipped, after, hsplit, hskipped⟩ := List.find?_eq_some_iff_append.mp hfind
  refine ⟨skipped, z, after, hsplit, List.flatMap_eq_nil_iff.mpr fun v hv => ?_, by simpa using hz⟩
  simpa using hskipped v hv

/-- A reader who comes to where each request starts has met none that breaks off but the last one. -/
theorem KeepsStep.tornLast (hsound : ∀ x ∈ xs, x.Sound limit) (h : KeepsStep limit xs) : TornLast xs := by
  refine List.pairwise_iff_forall_sublist.mpr fun {x y} hsub htorn => ?_
  by_contra hy
  obtain ⟨front, back, rfl, hx, hyback⟩ := List.cons_sublist_iff.mp hsub
  obtain ⟨before, between, rfl⟩ := List.append_of_mem hx
  -- `z` is the first request behind `x` that leaves anything
  obtain ⟨skipped, z, after, hsplit, hblank, hz⟩ := exists_first
    (List.mem_append_right between (List.singleton_sublist.mp hyback)) hy
  have hxs : before ++ x :: between ++ back = before ++ x :: (skipped ++ z :: after) := by
    rw [List.append_assoc, List.cons_append, hsplit]
  rw [hxs] at h hsound
  obtain ⟨n, hn⟩ := h before x _ rfl htorn.1
  obtain ⟨k, hk⟩ := h (before ++ x :: skipped) z after (by simp) hz
  have hstart := Inbox.reaches_receives limit ((before ++ x :: (skipped ++ z :: after)).flatMap left) n
  have hnext := Inbox.reaches_receives limit ((before ++ x :: (skipped ++ z :: after)).flatMap left) k
  have hrest : (x :: (skipped ++ z :: after)).flatMap left = x.left ++ (z :: after).flatMap left := by
    rw [List.flatMap_cons, List.flatMap_append, hblank, List.nil_append]
  rw [hn, hrest] at hstart
  rw [hk] at hnext
  -- so the part of `x` that is left begins with a unit
  obtain ⟨u, rest, hu, hleft⟩ := hstart.unit_between hnext htorn.1
  have hunfinished := ((hsound x (by simp)).of_isTorn htorn).1
  rw [hleft] at hunfinished
  exact not_unfinished_unit hu rest hunfinished

theorem TornLast.keepsStep (hsound : ∀ x ∈ xs, x.Sound limit) (h : TornLast xs) : KeepsStep limit xs := by
  rintro before x after rfl hne
  have hbefore : TornLast before := (List.pairwise_append.mp h).1
  obtain ⟨t, hunits, htail⟩ := hbefore.flatMap_left
  -- `x` leaves something, so that none before it breaks off
  obtain rfl | ⟨y, hy, htorn, -⟩ := htail
  · have hisUnit : ∀ u ∈ (whole before).map left, IsUnit u := by
      intro u hu
      obtain ⟨y, hy, rfl⟩ := List.mem_map.mp hu
      exact (mem_whole.mp hy).2.isUnit
    have hlimit : ∀ u ∈ (whole before).map left, u.length ≤ limit := by
      intro u hu
      obtain ⟨y, hy, rfl⟩ := List.mem_map.mp hu
      exact (hsound y (List.mem_append_left _ (mem_whole.mp hy).1)).length_le
    have hflatten : before.flatMap left = ((whole before).map left).flatten := by
      rw [hunits, List.append_nil, List.flatMap_def]
    refine ⟨((whole before).map left).length, ?_⟩
    rw [List.flatMap_append, hflatten, Inbox.receives_units hisUnit hlimit]
  · exact absurd ((List.pairwise_append.mp h).2.2 y hy x List.mem_cons_self htorn) hne

/-- What reading gives of everything that was left, however it is cut: the requests whose bytes are all
there, in order, and nothing else; among these are all that were sent. -/
structure Transcribed (limit : Nat) (xs : List Sending) : Prop where
  sent : ∀ x ∈ xs, x.result = .ok () → x.IsWhole
  received : ∀ b items, (∀ data, Supply.bytes data ∈ items → data ≠ []) → faults items = [] →
    b ++ supplied items = xs.flatMap left →
    ((Inbox.mk limit b).receives ((whole xs).length + 1) ⟨[], items⟩).1
      = (whole xs).map (fun x => .ok x.request.received) ++ [.error .channelClosed]

theorem TornLast.transcribed (h : TornLast xs) (hsound : ∀ x ∈ xs, x.Sound limit) :
    Transcribed limit xs where
  sent x hx hsent := (hsound x hx).sent hsent
  received b items hitems hfaults hbytes := by
    obtain ⟨t, hunits, htail⟩ := h.flatMap_left
    have hrest : Unfinished t ∧ (4 ≤ t.length → Bytes.toNatLE (t.take 4) + 4 ≤ limit) := by
      obtain rfl | ⟨x, hx, htorn, rfl⟩ := htail
      · exact ⟨fun hfour => absurd hfour (by simp), by simp⟩
      · exact (hsound x hx).of_isTorn htorn
    have hwhole : ∀ x ∈ whole xs, x.IsWhole := fun x hx => (mem_whole.mp hx).2
    have hlimit : ∀ x ∈ whole xs, x.left.length ≤ limit := fun x hx =>
      (hsound x (mem_whole.mp hx).1).length_le
    rw [receives_whole hwhole hlimit hrest.1 hrest.2 hitems hfaults (hbytes.trans hunits)]

end Sending

/-- Whatever a sink does, a reader of what several requests left on it keeps step with them exactly when
nothing is left behind a request that breaks off.  Then it reads all that were sent, in order. -/
theorem Outbox.keepsStep_iff (limit : Nat) (requests : List Request) (s : Sink) :
    (sendAll limit requests s).2.content
      = s.content ++ (sendAll limit requests s).1.flatMap Sending.left ∧
    (Sending.KeepsStep limit (sendAll limit requests s).1 ↔ Sending.TornLast (sendAll limit requests s).1) ∧
    (Sending.TornLast (sendAll limit requests s).1 →
      Sending.Transcribed limit (sendAll limit requests s).1) := by
  have hsound : ∀ x ∈ (sendAll limit requests s).1, x.Sound limit := fun x hx => sound_of_mem_sendAll hx
  exact ⟨content_sendAll limit requests s, ⟨fun h => h.tornLast hsound, fun h => h.keepsStep hsound⟩,
    fun h => h.transcribed hsound⟩

/-- Two requests without a body. -/
def bareRequests : List Request :=
  [{ command := 16, body := [] }, { command := 17, body := [] }]

/-- The sink takes half of the first request and then fails, and takes all of the second one. -/
def halfThenWhole : List Sending :=
  (Outbox.sendAll 65536 bareRequests { writes := [.atMost 10, .fault ⟨.timedOut, "slow"⟩] }).1

/-- A request that was sent is not read: its bytes are taken for the rest of one that broke off. -/
theorem Outbox.torn_takes_next_along :
    halfThenWhole.map (·.result) = [.error (.fault ⟨.timedOut, "slow"⟩), .ok ()] ∧
      ((Inbox.mk 65536 (halfThenWhole.flatMap (·.left))).receives 2 ⟨[], []⟩).1
        = [.error (.malformed "header field is not a 4-byte integer"), .error .channelClosed] := by
  decide +kernel

/-- A request whose flush fails is there in whole, and does no harm. -/
example : (Outbox.sendAll 65536 bareRequests { flushes := [some ⟨.timedOut, "slow"⟩] }).1.map (·.result)
      = [.error (.fault ⟨.timedOut, "slow"⟩), .ok ()] ∧
    Sending.TornLast (Outbox.sendAll 65536 bareRequests { flushes := [some ⟨.timedOut, "slow"⟩] }).1 := by
  decide +kernel

end Wwan
