import Mathlib.Data.List.Basic
import Mathlib.Tactic.Common

/-!
# Reading from a stream in pieces

A stream hands over what its sender wrote in pieces of any size, and then is closed or falls
silent. A loop that reads until it has so many items gets the same from it, however it is cut.
-/

set_option autoImplicit false

namespace Library

variable {α : Type}

/-- A stream at its receiving end: what is still to come, whether the sender closes it after that,
and how many items beside the first are there at each of the next reads. -/
structure Stream (α : Type) where
  items : List α
  closes : Bool
  cuts : List ℕ
deriving DecidableEq, Repr

namespace Stream

/-- A read of at most `n` items: nothing once the stream is closed, and `none` is a time-out. -/
def recv (n : ℕ) (s : Stream α) : Option (List α × Stream α) :=
  match s.items with
  | [] => if s.closes then some ([], s) else none
  | items@(_ :: _) =>
    let size := min n (s.cuts.headD 0 + 1)
    some (items.take size, { s with items := items.drop size, cuts := s.cuts.tail })

/-- A read splits what is to come. -/
theorem recv_some {n : ℕ} {s s' : Stream α} {chunk : List α} (h : s.recv n = some (chunk, s')) :
    chunk ++ s'.items = s.items ∧ chunk.length ≤ n ∧ s'.closes = s.closes ∧
      (chunk = [] → n = 0 ∨ s.items = [] ∧ s.closes = true) := by
  unfold recv at h
  split at h
  · rename_i hnil
    split_ifs at h with hcloses
    obtain ⟨rfl, rfl⟩ := Prod.mk.inj (Option.some.inj h)
    exact ⟨by simp, by simp, rfl, fun _ => .inr ⟨hnil, hcloses⟩⟩
  · rename_i item more hitems
    obtain ⟨rfl, rfl⟩ := Prod.mk.inj (Option.some.inj h)
    refine ⟨?_, ?_, rfl, fun hnil => .inl ?_⟩
    · rw [hitems]
      exact List.take_append_drop _ _
    · rw [List.length_take]
      omega
    · rw [List.take_eq_nil_iff] at hnil
      rcases hnil with hsize | hnil
      · omega
      · cases hnil

theorem recv_none {n : ℕ} {s : Stream α} (h : s.recv n = none) :
    s.items = [] ∧ s.closes = false := by
  unfold recv at h
  split at h
  · rename_i hnil
    split_ifs at h with hcloses
    exact ⟨hnil, by simpa using hcloses⟩
  · cases h

/-- Read until there are `n` items, or the stream is closed; a time-out comes with how many there
were. -/
def readUpTo (n : ℕ) (buf : List α) (s : Stream α) : Except ℕ (List α × Stream α) :=
  if _ : buf.length < n then
    match s.recv (n - buf.length) with
    | none => .error buf.length
    | some ([], s') => .ok (buf, s')
    | some (item :: chunk, s') => readUpTo n (buf ++ item :: chunk) s'
  else .ok (buf, s)
termination_by n - buf.length
decreasing_by
  rw [List.length_append, List.length_cons]
  omega

/-- Whatever the pieces, the items are the first of those to come, and as many as asked for unless
the stream is closed before. -/
theorem readUpTo_spec (n : ℕ) (buf : List α) (s : Stream α) :
    (n ≤ buf.length + s.items.length ∨ s.closes = true →
      ∃ cuts, readUpTo n buf s = .ok (buf ++ s.items.take (n - buf.length),
        ⟨s.items.drop (n - buf.length), s.closes, cuts⟩)) ∧
    (¬ (n ≤ buf.length + s.items.length ∨ s.closes = true) →
      readUpTo n buf s = .error (buf.length + s.items.length)) := by
  induction buf, s using readUpTo.induct n with
  | case1 buf s hshort hread =>
    obtain ⟨hnil, hopen⟩ := recv_none hread
    have hstop : readUpTo n buf s = .error buf.length := by
      rw [readUpTo, dif_pos hshort]
      split <;> simp_all
    rw [hstop, hnil, hopen]
    constructor
    · rintro (hle | hcloses)
      · simp at hle
        omega
      · cases hcloses
    · intro _
      rfl
  | case2 buf s hshort s' hread =>
    obtain ⟨happend, -, hcloses, hnil⟩ := recv_some hread
    obtain hzero | ⟨hitems, hclosed⟩ := hnil rfl
    · omega
    have hstop : readUpTo n buf s = .ok (buf, s') := by
      rw [readUpTo, dif_pos hshort]
      split <;> simp_all
    rw [hstop]
    refine ⟨fun _ => ⟨s'.cuts, ?_⟩, fun hno => absurd (.inr hclosed) hno⟩
    rw [hitems, List.take_nil, List.append_nil, List.drop_nil, ← hcloses]
    rw [hitems, List.nil_append] at happend
    rw [← happend]
  | case3 buf s hshort item chunk s' hread ih =>
    obtain ⟨happend, hle, hcloses, -⟩ := recv_some hread
    have hgo : readUpTo n buf s = readUpTo n (buf ++ item :: chunk) s' := by
      conv_lhs => rw [readUpTo, dif_pos hshort]
      split <;> simp_all
    have hlength : (buf ++ item :: chunk).length + s'.items.length =
        buf.length + s.items.length := by
      rw [← happend]
      simp only [List.length_append]
      omega
    rw [hlength, hcloses] at ih
    rw [hgo]
    refine ⟨fun h => ?_, ih.2⟩
    obtain ⟨cuts, hread'⟩ := ih.1 h
    refine ⟨cuts, ?_⟩
    have hsplit :
        n - buf.length = (item :: chunk).length + (n - (buf ++ item :: chunk).length) := by
      rw [List.length_append]
      omega
    rw [hread', hsplit, ← happend, List.take_length_add_append, List.drop_length_add_append,
      List.append_assoc]
  | case4 buf s hlong =>
    have hstop : readUpTo n buf s = .ok (buf, s) := by
      rw [readUpTo, dif_neg hlong]
    have hzero : n - buf.length = 0 := by omega
    rw [hstop, hzero]
    refine ⟨fun _ => ⟨s.cuts, by simp⟩, fun hno => absurd (.inl ?_) hno⟩
    omega

end Stream

end Library
