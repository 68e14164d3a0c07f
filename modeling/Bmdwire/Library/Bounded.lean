import Mathlib.Data.List.DropRight

/-!
# Queues that keep the newest

A queue with a maximal length drops its oldest entry when a new one comes to a full queue. It
keeps the last so many of all its entries, `List.rtake`.
-/

set_option autoImplicit false

namespace Library

variable {α : Type}

theorem length_rtake (n : ℕ) (l : List α) : (l.rtake n).length = min n l.length := by
  unfold List.rtake
  rw [List.length_drop]
  omega

theorem rtake_of_length_le {n : ℕ} {l : List α} (h : l.length ≤ n) : l.rtake n = l := by
  unfold List.rtake
  rw [show l.length - n = 0 by omega, List.drop_zero]

/-- What is kept of what was kept is what is kept of all. -/
theorem rtake_append_rtake (n : ℕ) (l m : List α) :
    (l.rtake n ++ m).rtake n = (l ++ m).rtake n := by
  unfold List.rtake
  rw [List.length_append, List.length_drop, List.length_append, List.drop_append,
    List.drop_append, List.drop_drop, List.length_drop]
  congr 1
  · congr 1
    omega
  · congr 1
    omega

/-- A new entry. -/
theorem push_eq_rtake {n : ℕ} {l : List α} (hn : 0 < n) (hl : l.length ≤ n) (a : α) :
    (if l.length = n then l.tail else l) ++ [a] = (l ++ [a]).rtake n := by
  unfold List.rtake
  rw [List.length_append, List.length_singleton]
  split
  · rename_i hfull
    rw [hfull, Nat.add_sub_cancel_left, List.drop_append_of_le_length (by omega), List.drop_one]
  · rw [show l.length + 1 - n = 0 by omega, List.drop_zero]

end Library
