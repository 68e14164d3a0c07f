import Bmdwire.Program.Callers
import Bmdwire.Analysis.LaneNotices

/-!
# What a call notes of the lane's events

Hearing an event changes only what the handlers note (`hears_same`), and each note is of an
event of the kind it stands for (`hears_heard`, `hears_data`, `hears_error`). The decision
after the wait moves a call on without touching its task (`Moved`).
-/

set_option autoImplicit false

namespace Bmdwire

/-- The events raised are those in the new part of the log. -/
theorem Lane.mem_raised {s t : Lane} {new : List Act} (h : t.log = new ++ s.log) {n : Notice} :
    n ∈ s.raised t ↔ .notice n ∈ new := by
  have hnew : t.log.take (t.log.length - s.log.length) = new := by simp [h]
  rw [Lane.raised, hnew, List.mem_reverse, List.mem_filterMap]
  constructor
  · rintro ⟨a, ha, hn⟩
    cases a with
    | notice m =>
      obtain rfl := Option.some.inj hn
      exact ha
    | _ => cases hn
  · intro hn
    exact ⟨_, hn, rfl⟩

namespace Call

/-- Two states of a call that differ in what its handlers noted. -/
structure Same (c d : Call) : Prop where
  kind : d.kind = c.kind
  began : d.began = c.began
  phase : d.phase = c.phase

theorem Same.refl (c : Call) : c.Same c := ⟨rfl, rfl, rfl⟩

theorem Same.trans {c d e : Call} (h : c.Same d) (h' : d.Same e) : c.Same e where
  kind := h'.kind.trans h.kind
  began := h'.began.trans h.began
  phase := h'.phase.trans h.phase

theorem Same.isOpen {c d : Call} (h : c.Same d) : d.isOpen = c.isOpen := by
  rw [Call.isOpen, h.phase]
  rfl

theorem Same.task? {c d : Call} (h : c.Same d) : d.task? = c.task? := by
  rw [Call.task?, h.phase]
  rfl

theorem note_same (c : Call) (n : Notice) : c.Same (c.note n) := by
  unfold note
  split <;> first | exact .refl c | exact ⟨rfl, rfl, rfl⟩ | skip
  all_goals split <;> first | exact .refl c | exact ⟨rfl, rfl, rfl⟩

theorem hear_same (c : Call) (n : Notice) : c.Same (c.hear n) := by
  unfold hear
  split
  · exact note_same c n
  · exact .refl c

theorem hears_same (ns : List Notice) (c : Call) : c.Same (ns.foldl hear c) := by
  induction ns generalizing c with
  | nil => exact .refl c
  | cons n ns ih => exact (hear_same c n).trans (ih _)

theorem lose_same (c : Call) : c.Same c.lose := by
  unfold lose
  split
  · exact .refl c
  · split
    · exact ⟨rfl, rfl, rfl⟩
    · exact .refl c

/-- An upload does not hear of a lost session. -/
theorem lose_upload {c : Call} (h : c.kind.target.1 = .upload) : c.lose = c := by
  unfold lose
  split
  · rfl
  · rename_i hnot
    cases hkind : c.kind with
    | uploadMacroBytecode slot payload => exact absurd hkind (hnot slot payload)
    | _ =>
      rw [hkind] at h
      cases h

theorem hear_lost (c : Call) (n : Notice) : (c.hear n).lost = c.lost := by
  unfold hear
  split
  · unfold note
    split <;> first | rfl | split <;> rfl
  · rfl

theorem hears_lost (ns : List Notice) (c : Call) : (ns.foldl hear c).lost = c.lost := by
  induction ns generalizing c with
  | nil => rfl
  | cons n ns ih => exact (ih _).trans (hear_lost c n)

/-- A call hears of a success only by an event that names its target. -/
theorem hear_heard {c : Call} {n : Notice} (h : (c.hear n).heard = true) :
    c.heard = true ∨ c.isOpen = true ∧ ∃ id, n.success? = some (id, c.kind.target) := by
  unfold hear at h
  split at h
  · rename_i hopen
    unfold note at h
    split at h
    · rename_i slot id store slotIdx hkind
      split at h
      · rename_i htarget
        obtain ⟨rfl, rfl⟩ := htarget
        exact .inr ⟨hopen, id, by rw [hkind]; rfl⟩
      · exact .inl h
    · rename_i slot payload id store slotIdx hkind
      split at h
      · rename_i htarget
        obtain ⟨rfl, rfl⟩ := htarget
        exact .inr ⟨hopen, id, by rw [hkind]; rfl⟩
      · exact .inl h
    · exact .inl h
    · split at h <;> exact .inl h
    · exact .inl h
    · exact .inl h
  · exact .inl h

/-- A download takes its data from an event that names its store and slot. -/
theorem hear_data {c : Call} {n : Notice} {data : Bytes} (h : (c.hear n).data = some data) :
    c.data = some data ∨ c.isOpen = true ∧ ∃ id store index,
      c.kind = .downloadTransfer store index ∧ n = .downloadDone id store index data := by
  unfold hear at h
  split at h
  · rename_i hopen
    unfold note at h
    split at h
    · split at h <;> exact .inl h
    · split at h <;> exact .inl h
    · exact .inl h
    · rename_i store index id storeId slotIdx data' hkind
      split at h
      · rename_i htarget
        obtain ⟨rfl, rfl⟩ := htarget
        obtain rfl : data' = data := Option.some.inj h
        exact .inr ⟨hopen, id, _, _, hkind, rfl⟩
      · exact .inl h
    · exact .inl h
    · exact .inl h
  · exact .inl h

/-- A download never drops the data it has. -/
theorem hear_data_ne_none {c : Call} {n : Notice} (h : c.data ≠ none) :
    (c.hear n).data ≠ none := by
  unfold hear
  split
  · unfold note
    split <;> first | exact h | split <;> first | exact h | nofun
  · exact h

/-- A call takes its error from an FTDE that the lane raised for some task. -/
theorem hear_error {c : Call} {n : Notice} {e : ℕ × ℕ} (h : (c.hear n).error = some e) :
    c.error = some e ∨ c.isOpen = true ∧ c.kind.target.1 ≠ .clear ∧
      ∃ id, n = .fileTransferError id e.1 e.2 := by
  unfold hear at h
  split at h
  · rename_i hopen
    unfold note at h
    split at h
    · split at h <;> exact .inl h
    · split at h <;> exact .inl h
    · rename_i slot payload id transfer status hkind
      obtain rfl : (transfer, status) = e := Option.some.inj h
      exact .inr ⟨hopen, by rw [hkind]; nofun, id, rfl⟩
    · split at h <;> exact .inl h
    · rename_i store index id transfer status hkind
      obtain rfl : (transfer, status) = e := Option.some.inj h
      exact .inr ⟨hopen, by rw [hkind]; nofun, id, rfl⟩
    · exact .inl h
  · exact .inl h

variable {ns : List Notice} {c : Call}

theorem hears_heard (h : (ns.foldl hear c).heard = true) :
    c.heard = true ∨ c.isOpen = true ∧ ∃ n ∈ ns, ∃ id, n.success? = some (id, c.kind.target) := by
  induction ns generalizing c with
  | nil => exact .inl h
  | cons n ns ih =>
    have hsame := hear_same c n
    rcases ih h with hheard | ⟨hopen, m, hm, id, hid⟩
    · rcases hear_heard hheard with hheard | ⟨hopen, hid⟩
      · exact .inl hheard
      · exact .inr ⟨hopen, n, List.mem_cons_self .., hid⟩
    · rw [hsame.isOpen] at hopen
      rw [hsame.kind] at hid
      exact .inr ⟨hopen, m, List.mem_cons_of_mem _ hm, id, hid⟩

theorem hears_data {data : Bytes} (h : (ns.foldl hear c).data = some data) :
    c.data = some data ∨ c.isOpen = true ∧ ∃ id store index,
      c.kind = .downloadTransfer store index ∧ .downloadDone id store index data ∈ ns := by
  induction ns generalizing c with
  | nil => exact .inl h
  | cons n ns ih =>
    have hsame := hear_same c n
    rcases ih h with hdata | ⟨hopen, id, store, index, hkind, hmem⟩
    · rcases hear_data hdata with hdata | ⟨hopen, id, store, index, hkind, rfl⟩
      · exact .inl hdata
      · exact .inr ⟨hopen, id, store, index, hkind, List.mem_cons_self ..⟩
    · rw [hsame.isOpen] at hopen
      rw [hsame.kind] at hkind
      exact .inr ⟨hopen, id, store, index, hkind, List.mem_cons_of_mem _ hmem⟩

theorem hears_data_ne_none (h : c.data ≠ none) : (ns.foldl hear c).data ≠ none := by
  induction ns generalizing c with
  | nil => exact h
  | cons n ns ih => exact ih (hear_data_ne_none h)

theorem hears_error {e : ℕ × ℕ} (h : (ns.foldl hear c).error = some e) :
    c.error = some e ∨ c.isOpen = true ∧ c.kind.target.1 ≠ .clear ∧
      ∃ id, .fileTransferError id e.1 e.2 ∈ ns := by
  induction ns generalizing c with
  | nil => exact .inl h
  | cons n ns ih =>
    have hsame := hear_same c n
    rcases ih h with herror | ⟨hopen, hkind, id, hmem⟩
    · rcases hear_error herror with herror | ⟨hopen, hkind, id, rfl⟩
      · exact .inl herror
      · exact .inr ⟨hopen, hkind, id, List.mem_cons_self ..⟩
    · rw [hsame.isOpen] at hopen
      rw [hsame.kind] at hkind
      exact .inr ⟨hopen, hkind, id, List.mem_cons_of_mem _ hmem⟩

/-! ## The steps of a call -/

/-- The call has moved on, with its task if it had one. -/
structure Moved (c d : Call) : Prop where
  kind : d.kind = c.kind
  began : d.began = c.began
  task? : d.task? = c.task?
  isOpen : d.isOpen = true → c.isOpen = true

theorem finish_moved (r : CallResult) (c : Call) : c.Moved (c.finish r) := by
  unfold finish
  split
  · rename_i task htask
    exact ⟨rfl, rfl, htask.symm, nofun⟩
  · exact ⟨rfl, rfl, rfl, id⟩

theorem goOn_moved (c : Call) (h : c.isOpen = true) : c.Moved c.goOn := by
  unfold goOn
  split
  · rename_i task htask
    exact ⟨rfl, rfl, htask.symm, fun _ => h⟩
  · exact ⟨rfl, rfl, rfl, id⟩

theorem decide_moved (c : Call) (h : c.isOpen = true) : c.Moved c.decide := by
  unfold Call.decide
  split
  · split
    · exact finish_moved ..
    · split
      · exact finish_moved ..
      · exact goOn_moved c h
  · split
    · exact finish_moved ..
    · split <;> exact finish_moved ..
  · split
    · exact finish_moved ..
    · split
      · exact finish_moved ..
      · split
        · exact finish_moved ..
        · exact goOn_moved c h

theorem isOpen_of_isWaiting {c : Call} (h : c.isWaiting = true) : c.isOpen = true := by
  unfold isWaiting at h
  unfold isOpen
  split at h
  · rename_i heq
    rw [heq]
  · cases h

theorem isOpen_of_isCleaning {c : Call} (h : c.isCleaning = true) : c.isOpen = true := by
  unfold isCleaning at h
  unfold isOpen
  split at h
  · rename_i heq
    rw [heq]
  · cases h

theorem task?_of_isWaiting {c : Call} (h : c.isWaiting = true) : ∃ id, c.task? = some id := by
  unfold isWaiting at h
  unfold task?
  split at h
  · rename_i id heq
    exact ⟨id, by rw [heq]⟩
  · cases h

theorem task?_of_isCleaning {c : Call} (h : c.isCleaning = true) : ∃ id, c.task? = some id := by
  unfold isCleaning at h
  unfold task?
  split at h
  · rename_i id heq
    exact ⟨id, by rw [heq]⟩
  · cases h

theorem not_isCleaning_of_isWaiting {c : Call} (h : c.isWaiting = true) :
    c.isCleaning = false := by
  unfold isWaiting at h
  unfold isCleaning
  split at h
  · rename_i heq
    rw [heq]
  · cases h

end Call

end Bmdwire
