import Bmdwire.Analysis.RunLength

/-!
# The room that the run-length encoder takes

A run costs three words however long it is, and two words before that would cost less. So
what counts is the words written together with those counted and not written yet: an iteration
adds at most one to their number. The buffer, allocated with the size of the input, is therefore
large enough, whenever the run in progress is flushed.
-/

set_option autoImplicit false

namespace Bmdwire

namespace RleLoop

/-- What is written and what is counted, together, is no more than what is read. -/
def InRoom (s : RleLoop) : Prop := s.buf.length + s.c ≤ s.i

theorem start_inRoom : start.InRoom := Nat.le_refl 0

/-- A repetition is always passed over, since `len` is in bytes: the iteration either counts the
word or writes it, with the run before it. -/
theorem step_inRoom {len : ℕ} {s t : RleLoop} {word : Word} (hlen : s.i + 1 < len)
    (hs : s.InRoom) (ht : s.step len word = .ok t) : t.InRoom ∧ t.i = s.i + 1 := by
  unfold step at ht
  by_cases hword : word = rleHeader
  · rw [if_pos hword] at ht
    cases ht
  rw [if_neg hword] at ht
  dsimp only at ht
  unfold InRoom at hs
  by_cases hrepeat : s.i ≠ 0 ∧ s.before = word
  · rw [if_pos hrepeat, if_pos ⟨hrepeat, hlen⟩] at ht
    cases ht
    have hroom : s.buf.length + (s.c + 1) ≤ s.i + 1 := by omega
    exact ⟨hroom, rfl⟩
  · rw [if_neg hrepeat, if_neg fun h => hrepeat h.1] at ht
    cases ht
    have hflush := length_flushRun_le s.c s.before
    have hroom : (s.buf ++ flushRun s.c s.before ++ [word]).length ≤ s.i + 1 := by
      rw [List.length_append, List.length_append, List.length_singleton]
      omega
    exact ⟨hroom, rfl⟩

theorem foldlM_inRoom {len : ℕ} (ws : List Word) {s t : RleLoop}
    (hlen : 8 * (s.i + ws.length) ≤ len) (hs : s.InRoom) (ht : ws.foldlM (step len) s = .ok t) :
    t.InRoom ∧ t.i = s.i + ws.length := by
  induction ws generalizing s with
  | nil =>
    cases ht
    exact ⟨hs, rfl⟩
  | cons word ws ih =>
    rw [List.length_cons] at hlen ⊢
    rw [List.foldlM_cons] at ht
    cases hstep : s.step len word with
    | error e =>
      rw [hstep] at ht
      cases ht
    | ok u =>
      rw [hstep] at ht
      obtain ⟨hu, hi⟩ := step_inRoom (by omega) hs hstep
      obtain ⟨hroom, hcount⟩ := ih (by omega) hu ht
      exact ⟨hroom, by omega⟩

theorem InRoom.flushed {s : RleLoop} (h : s.InRoom) : s.flushed.length ≤ s.i := by
  have hflush := length_flushRun_le s.c s.before
  unfold InRoom at h
  rw [RleLoop.flushed, List.length_append]
  omega

/-- The loop of the encoder, iteration by iteration. -/
theorem encodeFrom_eq (len : ℕ) (ws : List Word) (s : RleLoop) :
    encodeFrom len ws s.i s.before s.c s.buf =
      (ws.foldlM (step len) s).map RleLoop.flushed := by
  induction ws generalizing s with
  | nil => rfl
  | cons word ws ih =>
    rw [List.foldlM_cons, encodeFrom, step]
    by_cases hword : word = rleHeader
    · rw [if_pos hword, if_pos hword]
      rfl
    · rw [if_neg hword, if_neg hword]
      dsimp only
      split
      · exact ih ⟨s.i + 1, word, _, s.buf⟩
      · exact ih ⟨s.i + 1, word, 0, _⟩

/-- A loop that comes to its end comes to each iteration. -/
theorem foldlM_take {len : ℕ} (ws : List Word) {s t : RleLoop}
    (ht : ws.foldlM (step len) s = .ok t) (k : ℕ) :
    ∃ u, (ws.take k).foldlM (step len) s = .ok u := by
  rw [← List.take_append_drop k ws, List.foldlM_append] at ht
  cases hu : (ws.take k).foldlM (step len) s with
  | error e =>
    rw [hu] at ht
    cases ht
  | ok u => exact ⟨u, rfl⟩

end RleLoop

/-- The bytes encoded are those of the loop's last state. -/
theorem rleEncode_eq {input : ByteString} {out : Bytes} (h : rleEncode input = .ok out) :
    ∃ t, (words input.data).foldlM (RleLoop.step input.data.length) .start = .ok t ∧
      out = t.flushed.flatten := by
  unfold rleEncode at h
  dsimp only at h
  split at h
  · cases h
  split at h
  · rename_i hzero
    rw [List.length_eq_zero_iff] at hzero
    cases h
    exact ⟨.start, by rw [hzero]; rfl, rfl⟩
  · have hloop := RleLoop.encodeFrom_eq input.data.length (words input.data) .start
    rw [RleLoop.start] at hloop
    rw [hloop] at h
    cases hrun : (words input.data).foldlM (RleLoop.step input.data.length) .start with
    | error e =>
      rw [RleLoop.start] at hrun
      rw [hrun] at h
      cases h
    | ok t =>
      rw [RleLoop.start] at hrun
      rw [hrun] at h
      cases h
      exact ⟨t, rfl, rfl⟩

theorem encodable_of_rleEncode {input : ByteString} {out : Bytes}
    (h : rleEncode input = .ok out) : Encodable input := by
  unfold rleEncode at h
  dsimp only at h
  split at h
  · cases h
  · rename_i hlength
    refine ⟨not_not.mp hlength, ?_⟩
    intro w hw hheader
    subst hheader
    split at h
    · rename_i hzero
      rw [List.length_eq_zero_iff] at hzero
      rw [hzero] at hw
      cases hw
    · rw [encodeFrom_reserved _ _ _ _ _ _ hw] at h
      cases h

/-- **The buffer is large enough**: after each iteration the words written are no more than the
words read, also when the run in progress is flushed there, and so the output is no longer than
the input. -/
theorem rleEncode_room (input : ByteString) (out : Bytes) (h : rleEncode input = .ok out) :
    (∀ k ≤ (words input.data).length, ∃ s,
      ((words input.data).take k).foldlM (RleLoop.step input.data.length) .start = .ok s ∧
        s.i = k ∧ s.buf.length + s.c ≤ k ∧ s.flushed.length ≤ k ∧
        (k = (words input.data).length → out = s.flushed.flatten)) ∧
      out.length ≤ input.data.length := by
  have hencodable := encodable_of_rleEncode h
  have hwords := length_words hencodable.1
  obtain ⟨t, ht, hout⟩ := rleEncode_eq h
  refine ⟨?_, ?_⟩
  · intro k hk
    obtain ⟨s, hs⟩ := RleLoop.foldlM_take _ ht k
    have htake : ((words input.data).take k).length = k := List.length_take_of_le hk
    have hlen : 8 * (RleLoop.start.i + ((words input.data).take k).length) ≤
        input.data.length := by
      have hzero : RleLoop.start.i = 0 := rfl
      rw [hzero, htake]
      omega
    obtain ⟨hroom, hi⟩ := RleLoop.foldlM_inRoom _ hlen RleLoop.start_inRoom hs
    have hi' : s.i = k := by
      rw [hi, htake, RleLoop.start, Nat.zero_add]
    refine ⟨s, hs, hi', ?_, ?_, ?_⟩
    · exact hi' ▸ hroom
    · exact hi' ▸ hroom.flushed
    · intro hlast
      subst hlast
      rw [List.take_length, ht] at hs
      cases hs
      exact hout
  · obtain ⟨out', hout', hshort, -⟩ := rleDecode_rleEncode hencodable
    rw [h] at hout'
    cases hout'
    exact hshort

/-- A word alone and one five times over: at no point is there more written than read. -/
theorem rleEncode_room_run : ∃ out,
    rleEncode ⟨List.replicate 8 1 ++ List.replicate 40 2, by decide⟩ = .ok out ∧
      out.length ≤ 48 := by
  have hok : (rleEncode ⟨List.replicate 8 1 ++ List.replicate 40 2, by decide⟩).isOk = true := by
    decide
  cases hrun : rleEncode ⟨List.replicate 8 1 ++ List.replicate 40 2, by decide⟩ with
  | error e =>
    rw [hrun] at hok
    cases hok
  | ok out => exact ⟨out, rfl, (rleEncode_room _ _ hrun).2⟩

end Bmdwire
