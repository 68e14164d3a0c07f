import Bmdwire.Library.Bounded
import Mathlib.Data.List.Dedup

/-!
# The most recent entries

The distinct entries of a list in the order of their last occurrences are its `List.dedup`, and
the most recent of them its end. A new entry leaves its old place, if it has one, and goes to the
end; what is kept of so many entries can be told from what was kept before (`recent_concat`).
-/

set_option autoImplicit false

namespace Library

variable {α : Type} [DecidableEq α]

/-- The `n` distinct entries that occurred last, the most recent at the end. -/
def recent (n : ℕ) (l : List α) : List α := l.dedup.rtake n

theorem recent_nodup (n : ℕ) (l : List α) : (recent n l).Nodup :=
  (List.drop_sublist _ _).nodup (List.nodup_dedup l)

theorem length_recent (n : ℕ) (l : List α) : (recent n l).length = min n l.dedup.length :=
  length_rtake n l.dedup

@[simp] theorem recent_nil (n : ℕ) : recent n ([] : List α) = [] := by
  simp [recent]

/-- Nothing is forgotten of what is kept. -/
theorem recent_recent (n : ℕ) (l : List α) : recent n (recent n l) = recent n l := by
  have hkept : (recent n l).length ≤ n := by
    rw [length_recent]
    omega
  have hdedup : (recent n l).dedup = recent n l := (recent_nodup n l).dedup
  unfold recent at hdedup ⊢
  rw [hdedup]
  exact rtake_of_length_le hkept

theorem erase_eq_filter_ne {l : List α} (h : l.Nodup) (a : α) :
    l.erase a = l.filter (· ≠ a) := by
  rw [h.erase_eq_filter a]
  apply List.filter_congr
  intro b _
  rw [Bool.eq_iff_iff, decide_eq_true_iff, bne_iff_ne]

/-- An entry counts at its last occurrence. -/
theorem dedup_append_eq (l m : List α) :
    (l ++ m).dedup = l.dedup.filter (fun a => a ∉ m) ++ m.dedup := by
  induction l with
  | nil => simp
  | cons a l ih =>
    rw [List.cons_append]
    by_cases hl : a ∈ l
    · rw [List.dedup_cons_of_mem (List.mem_append_left m hl), List.dedup_cons_of_mem hl, ih]
    · rw [List.dedup_cons_of_notMem hl]
      by_cases hm : a ∈ m
      · rw [List.dedup_cons_of_mem (List.mem_append_right l hm), ih,
          List.filter_cons_of_neg (by simpa using hm)]
      · have hlm : a ∉ l ++ m := by simp [hl, hm]
        rw [List.dedup_cons_of_notMem hlm, ih, List.filter_cons_of_pos (by simpa using hm),
          List.cons_append]

theorem dedup_concat (l : List α) (a : α) :
    (l ++ [a]).dedup = l.dedup.filter (· ≠ a) ++ [a] := by
  rw [dedup_append_eq]
  simp

omit [DecidableEq α] in
/-- The end of a list in two parts is that of the second, when it is long enough. -/
theorem rtake_append_of_le {n : ℕ} {l m : List α} (h : n ≤ m.length) :
    (l ++ m).rtake n = m.rtake n := by
  unfold List.rtake
  have hlong : l.length ≤ (l ++ m).length - n := by
    rw [List.length_append]
    omega
  rw [List.drop_append, List.drop_eq_nil_of_le hlong, List.nil_append, List.length_append]
  congr 1
  omega

omit [DecidableEq α] in
/-- Among distinct entries, one is within the last so many when fewer are behind it. -/
theorem mem_rtake_append_cons {n : ℕ} {l m : List α} {a : α} (h : (l ++ a :: m).Nodup) :
    a ∈ (l ++ a :: m).rtake n ↔ m.length < n := by
  constructor
  · intro hmem
    by_contra hle
    have hbehind : (l ++ a :: m).rtake n = m.rtake n := by
      rw [← List.singleton_append, ← List.append_assoc]
      exact rtake_append_of_le (by omega)
    rw [hbehind] at hmem
    have ham : a ∈ m := (List.drop_sublist _ _).subset hmem
    exact (List.nodup_cons.mp (List.nodup_append.mp h).2.1).1 ham
  · intro hlt
    unfold List.rtake
    have hcount : (l ++ a :: m).length - n ≤ l.length := by
      rw [List.length_append, List.length_cons]
      omega
    rw [List.drop_append_of_le_length hcount]
    exact List.mem_append_right _ List.mem_cons_self

/-- The most recent entries are those since whose last occurrence fewer others occurred. -/
theorem mem_recent_iff {n : ℕ} {l : List α} {a : α} :
    a ∈ recent n l ↔
      ∃ older newer, l = older ++ a :: newer ∧ a ∉ newer ∧ newer.dedup.length < n := by
  have hsplit : ∀ older newer, a ∉ newer → (older ++ a :: newer).dedup =
      older.dedup.filter (fun b => b ∉ a :: newer) ++ a :: newer.dedup := by
    intro older newer hnot
    rw [dedup_append_eq, List.dedup_cons_of_notMem hnot]
  constructor
  · intro hmem
    have hl : a ∈ l := List.dedup_subset l ((List.drop_sublist _ _).subset hmem)
    -- the last occurrence is the first one from the end
    obtain ⟨newer, older, hrev, hnot⟩ := List.eq_append_cons_of_mem (List.mem_reverse.mpr hl)
    have hl' : l = older.reverse ++ a :: newer.reverse := by
      rw [← List.reverse_reverse l, hrev]
      simp
    have hnot' : a ∉ newer.reverse := mt List.mem_reverse.mp hnot
    refine ⟨older.reverse, newer.reverse, hl', hnot', ?_⟩
    have hnodup := List.nodup_dedup l
    unfold recent at hmem
    rw [hl', hsplit _ _ hnot'] at hnodup hmem
    exact (mem_rtake_append_cons hnodup).mp hmem
  · rintro ⟨older, newer, rfl, hnot, hlt⟩
    unfold recent
    have hnodup := List.nodup_dedup (older ++ a :: newer)
    rw [hsplit older newer hnot] at hnodup ⊢
    exact (mem_rtake_append_cons hnodup).mpr hlt

omit [DecidableEq α] in
theorem rtake_of_length_le_succ {n : ℕ} {l : List α} (h : l.length ≤ n + 1) :
    l.rtake n = if n < l.length then l.tail else l := by
  unfold List.rtake
  split
  · rw [show l.length - n = 1 by omega, List.drop_one]
  · rw [show l.length - n = 0 by omega, List.drop_zero]

/-- What is kept after a new entry: it goes to the end, and if that makes one too many, the
oldest goes. -/
theorem recent_concat (n : ℕ) (l : List α) (a : α) :
    recent n (l ++ [a]) =
      if n < ((recent n l).filter (· ≠ a) ++ [a]).length then
        ((recent n l).filter (· ≠ a) ++ [a]).tail
      else (recent n l).filter (· ≠ a) ++ [a] := by
  have hkept : (recent n l).length ≤ n := by
    rw [length_recent]
    omega
  have hfilter : ((recent n l).filter (· ≠ a)).length ≤ n :=
    (List.length_filter_le _ _).trans hkept
  have hshort : ((recent n l).filter (· ≠ a) ++ [a]).length ≤ n + 1 := by
    rw [List.length_append, List.length_singleton]
    omega
  rw [← rtake_of_length_le_succ hshort, recent, dedup_concat]
  -- the entries before those kept do not matter: there are none, or enough are kept
  obtain ⟨before, hbefore⟩ : ∃ before, l.dedup = before ++ recent n l :=
    ⟨_, (List.take_append_drop (l.dedup.length - n) l.dedup).symm⟩
  rw [hbefore, List.filter_append, List.append_assoc]
  by_cases hall : l.dedup.length ≤ n
  · have hself : recent n l = l.dedup := rtake_of_length_le hall
    have hnil : before = [] := by
      have hlength := congrArg List.length hbefore
      rw [List.length_append, hself] at hlength
      exact List.eq_nil_of_length_eq_zero (by omega)
    rw [hnil, List.filter_nil, List.nil_append]
  · apply rtake_append_of_le
    have hfull : (recent n l).length = n := by
      rw [length_recent]
      omega
    have hone : (recent n l).length - 1 ≤ ((recent n l).erase a).length := by
      rw [List.length_erase]
      split
      · exact Nat.le_refl _
      · omega
    rw [List.length_append, List.length_singleton, ← erase_eq_filter_ne (recent_nodup n l)]
    omega

end Library
