import Wwan.Message.Outbox

/-!
# What a sink has taken

A request that was sent is on the sink as a whole, behind everything that was there before
(`Outbox.of_send_eq_ok`), in however many writes it took.
-/

namespace Wwan

namespace Sink

theorem content_record (s : Sink) (data : Bytes) : (s.record data).content = s.content ++ data := by
  rw [record]
  by_cases h : data.isEmpty
  · rw [if_pos h, List.isEmpty_iff.mp h, List.append_nil]
  · rw [if_neg h, content, content, List.flatten_append, List.flatten_singleton]

/-- A write takes as many bytes as it tells. -/
theorem content_write {data : Bytes} {s s' : Sink} {n : Nat} (h : s.write data = (.ok n, s')) :
    s'.content = s.content ++ data.take n := by
  unfold write at h
  split at h
  · obtain ⟨rfl, rfl⟩ : data.length = n ∧ s.record data = s' := by simpa using h
    rw [content_record, List.take_length]
  · next k rest hwrites =>
    obtain ⟨rfl, rfl⟩ : min k data.length = n ∧
      Sink.record { s with writes := rest } (data.take k) = s' := by simpa using h
    rw [content_record, List.take_eq_take_min]
    rfl
  · cases h

theorem content_write_error {data : Bytes} {s s' : Sink} {f : Fault}
    (h : s.write data = (.error f, s')) : s'.content = s.content := by
  unfold write at h
  split at h
  · cases h
  · cases h
  · cases h
    rfl

theorem content_flush (s : Sink) : s.flush.2.content = s.content := by
  rw [flush]
  split <;> rfl

end Sink

namespace Outbox

theorem content_writeAll {data : Bytes} {s s' : Sink} (h : writeAll data s = (.ok (), s')) :
    s'.content = s.content ++ data := by
  fun_induction writeAll data s with
  | case1 s =>
    cases h
    rw [List.append_nil]
  | case2 s b bs s₁ hwrite => cases h
  -- some bytes are taken, and the others are written behind them
  | case3 s b bs n s₁ hwrite ih =>
    rw [ih h, Sink.content_write hwrite, List.append_assoc, List.take_succ_cons, List.cons_append,
      List.take_append_drop]
  -- an interrupted write takes nothing and is tried again
  | case4 s b bs f s₁ hwrite hkind ih => rw [ih h, Sink.content_write_error hwrite]
  | case5 s b bs f s₁ hwrite hkind => cases h
  | case6 s b bs f s₁ hwrite hkind => cases h

/-- A request that could not be written as a whole has left the front of it on the sink. -/
theorem content_writeAll_error {data : Bytes} {s s' : Sink} {e : CallError}
    (h : writeAll data s = (.error e, s')) :
    ∃ part, part <+: data ∧ s'.content = s.content ++ part := by
  fun_induction writeAll data s with
  | case1 s => cases h
  | case2 s b bs s₁ hwrite =>
    cases h
    exact ⟨[], List.nil_prefix, Sink.content_write hwrite⟩
  -- what is written behind the bytes that are taken is a front of the others
  | case3 s b bs n s₁ hwrite ih =>
    obtain ⟨part, hpart, hcontent⟩ := ih h
    refine ⟨(b :: bs).take (n + 1) ++ part, ?_, ?_⟩
    · obtain ⟨rest, hrest⟩ := hpart
      refine ⟨rest, ?_⟩
      rw [List.append_assoc, hrest]
      exact List.take_append_drop (n + 1) (b :: bs)
    · rw [hcontent, Sink.content_write hwrite, List.append_assoc]
  | case4 s b bs f s₁ hwrite hkind ih => exact Sink.content_write_error hwrite ▸ ih h
  | case5 s b bs f s₁ hwrite hkind =>
    cases h
    exact ⟨[], List.nil_prefix, by rw [Sink.content_write_error hwrite, List.append_nil]⟩
  | case6 s b bs f s₁ hwrite hkind =>
    cases h
    exact ⟨[], List.nil_prefix, by rw [Sink.content_write_error hwrite, List.append_nil]⟩

theorem content_flush {s s' : Sink} {r : Except CallError Unit} (h : flush s = (r, s')) :
    s'.content = s.content := by
  fun_induction flush s with
  | case1 s s₁ hflush =>
    cases h
    rw [← Sink.content_flush s, hflush]
  | case2 s f s₁ hflush hkind ih => rw [ih h, ← Sink.content_flush s, hflush]
  | case3 s f s₁ hflush hkind =>
    cases h
    rw [← Sink.content_flush s, hflush]

/-- A request that was sent is on the sink as a whole. -/
theorem of_send_eq_ok {limit : Nat} {r : Request} {s s' : Sink} (h : send limit r s = (.ok (), s')) :
    ∃ data, r.encode = .ok data ∧ data.length ≤ limit ∧ s'.content = s.content ++ data := by
  rw [send] at h
  rcases hencode : r.encode with e | data
  · rw [hencode] at h
    cases h
  · rw [hencode] at h
    simp only at h
    by_cases hlimit : limit < data.length
    · rw [if_pos hlimit] at h
      cases h
    · rw [if_neg hlimit] at h
      refine ⟨data, rfl, Nat.le_of_not_lt hlimit, ?_⟩
      rcases hwrite : writeAll data s with ⟨e | _, s₁⟩
      · rw [hwrite] at h
        cases h
      · rw [hwrite] at h
        rw [content_flush h, content_writeAll hwrite]

/-- A request that could not be sent has left the front of it on the sink, or nothing. -/
theorem of_send_eq_error {limit : Nat} {r : Request} {s s' : Sink} {e : CallError}
    (h : send limit r s = (.error e, s')) : ∃ part, s'.content = s.content ++ part ∧
      (part = [] ∨ ∃ data, r.encode = .ok data ∧ data.length ≤ limit ∧ part <+: data) := by
  rw [send] at h
  rcases hencode : r.encode with e | data
  · rw [hencode] at h
    cases h
    exact ⟨[], (List.append_nil _).symm, .inl rfl⟩
  · rw [hencode] at h
    simp only at h
    by_cases hlimit : limit < data.length
    · rw [if_pos hlimit] at h
      cases h
      exact ⟨[], (List.append_nil _).symm, .inl rfl⟩
    · rw [if_neg hlimit] at h
      rcases hwrite : writeAll data s with ⟨e | _, s₁⟩
      · rw [hwrite] at h
        cases h
        obtain ⟨part, hpart, hcontent⟩ := content_writeAll_error hwrite
        exact ⟨part, hcontent, .inr ⟨data, rfl, Nat.le_of_not_lt hlimit, hpart⟩⟩
      · rw [hwrite] at h
        refine ⟨data, ?_, .inr ⟨data, rfl, Nat.le_of_not_lt hlimit, List.prefix_rfl⟩⟩
        rw [content_flush h, content_writeAll hwrite]

end Outbox

end Wwan
