import Bmdwire.Library.Recency
import Bmdwire.Program.SeenWindow

/-!
# What the window of numbers seen accepts

The dictionary is set and queue at once: its keys are in the order of their last appends, and a
number is in it exactly when it is one of the keys. So the window is the most recent part of all
that was appended.
-/

set_option autoImplicit false

namespace Bmdwire

open Library (recent recent_concat recent_nodup length_recent mem_recent_iff)

namespace SeenWindow

/-- Membership and order never disagree. -/
theorem contains_iff (w : SeenWindow) (seq : ℕ) : w.contains seq = true ↔ seq ∈ w.iter :=
  (w.seen.mem_keys seq).symm

theorem iter_deleteFirst (seen : Library.Dict ℕ Unit) :
    (deleteFirst seen).keys = seen.keys.tail := by
  have hnodup := seen.nodup
  unfold deleteFirst
  split
  · rename_i hnil
    rw [hnil]
    rfl
  · rename_i first rest hkeys
    rw [hkeys, List.nodup_cons] at hnodup
    show seen.keys.filter (· ≠ first) = _
    rw [hkeys, List.filter_cons_of_neg (by simp), List.tail_cons]
    apply List.filter_eq_self.mpr
    intro seq hseq
    simp only [ne_eq, decide_not, Bool.not_eq_eq_eq_not, Bool.not_true, decide_eq_false_iff_not]
    rintro rfl
    exact hnodup.1 hseq

/-- An append moves the number to the end, and lets the oldest go if that makes one too many. -/
theorem iter_append (w : SeenWindow) (seq : ℕ) :
    (w.append seq).iter =
      if w.maxlen < (w.iter.filter (· ≠ seq) ++ [seq]).length then
        (w.iter.filter (· ≠ seq) ++ [seq]).tail
      else w.iter.filter (· ≠ seq) ++ [seq] := by
  have hkeys : ((w.seen.erase seq).set seq ()).keys = w.iter.filter (· ≠ seq) ++ [seq] := by
    show (if seq ∈ w.iter.filter (· ≠ seq) then _ else _) = _
    rw [if_neg (by simp)]
    rfl
  unfold append
  dsimp only
  rw [hkeys]
  split
  · rw [iter, iter_deleteFirst, hkeys]
  · exact hkeys

/-- The class and the list of numbers that the transport's model keeps. -/
theorem iter_append_eq (w : SeenWindow) (seq : ℕ) :
    (w.append seq).iter = seenAppend w.maxlen seq w.iter := by
  have herase : w.iter.erase seq = w.iter.filter (· ≠ seq) :=
    Library.erase_eq_filter_ne w.seen.nodup seq
  rw [iter_append, seenAppend, herase]

/-- The window after some appends. -/
def after (m : ℕ) (appends : List ℕ) : SeenWindow := appends.foldl append (init m)

theorem maxlen_after (m : ℕ) (appends : List ℕ) : (after m appends).maxlen = m := by
  induction appends using List.reverseRecOn with
  | nil => rfl
  | append_singleton appends seq ih =>
    unfold after at ih ⊢
    rw [List.foldl_append]
    exact ih

theorem iter_after (m : ℕ) (appends : List ℕ) : (after m appends).iter = recent m appends := by
  induction appends using List.reverseRecOn with
  | nil =>
    rw [Library.recent_nil]
    rfl
  | append_singleton appends seq ih =>
    have hstep : after m (appends ++ [seq]) = (after m appends).append seq := by
      unfold after
      rw [List.foldl_append]
      rfl
    rw [hstep, iter_append, maxlen_after, ih, recent_concat]

end SeenWindow

/-- **The window accepts the most recent numbers**: those since whose last append fewer than `m`
other numbers were appended. They are the numbers it lists, each once and in the order of their
last appends, and there are `m` of them as soon as so many were appended. -/
theorem seenWindow_accepts (m : ℕ) (appends : List ℕ) :
    (∀ seq, (SeenWindow.after m appends).contains seq = true ↔
      ∃ older newer, appends = older ++ seq :: newer ∧ seq ∉ newer ∧ newer.dedup.length < m) ∧
    (∀ seq, (SeenWindow.after m appends).contains seq = true ↔
      seq ∈ (SeenWindow.after m appends).iter) ∧
    (SeenWindow.after m appends).iter = appends.dedup.rtake m ∧
    (SeenWindow.after m appends).iter.Nodup ∧
    (SeenWindow.after m appends).len = min m appends.dedup.length := by
  have hiter := SeenWindow.iter_after m appends
  have hcontains := SeenWindow.contains_iff (SeenWindow.after m appends)
  refine ⟨?_, hcontains, hiter, ?_, ?_⟩
  · intro seq
    rw [hcontains, hiter]
    exact mem_recent_iff
  · rw [hiter]
    exact recent_nodup m appends
  · rw [← length_recent, ← hiter]
    rfl

example : (SeenWindow.after 2 [5, 7, 5, 5, 9]).iter = [5, 9] := by decide

end Bmdwire
