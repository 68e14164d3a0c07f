import Mathlib.Data.List.Basic

/-!
# Writing into a buffer

Octets are written over those of a buffer at an offset. When the places of several writes do not
overlap, each is read back from its place (`slice_spliceAll`), and what no write covers stays as
it was (`getElem?_spliceAll`).
-/

set_option autoImplicit false

namespace Library

variable {α : Type}

/-- The buffer with `xs` written over it at the offset. -/
def splice (offset : ℕ) (xs buf : List α) : List α :=
  buf.take offset ++ xs ++ buf.drop (offset + xs.length)

/-- So many items from the offset on. -/
def slice (offset size : ℕ) (buf : List α) : List α := (buf.drop offset).take size

/-- The writes one after the other; each has its offset. -/
def spliceAll (writes : List (ℕ × List α)) (buf : List α) : List α :=
  writes.foldl (fun buf w => splice w.1 w.2 buf) buf

/-- The place is within a write. -/
def Covers (w : ℕ × List α) (i : ℕ) : Prop := w.1 ≤ i ∧ i < w.1 + w.2.length

/-- The two writes have no place in common. -/
def Apart (v w : ℕ × List α) : Prop := v.1 + v.2.length ≤ w.1 ∨ w.1 + w.2.length ≤ v.1

variable {offset : ℕ} {xs buf : List α}

theorem length_splice (h : offset + xs.length ≤ buf.length) :
    (splice offset xs buf).length = buf.length := by
  simp only [splice, List.length_append, List.length_take, List.length_drop]
  omega

theorem getElem?_splice (h : offset + xs.length ≤ buf.length) (i : ℕ) :
    (splice offset xs buf)[i]? =
      if offset ≤ i ∧ i < offset + xs.length then xs[i - offset]? else buf[i]? := by
  have htake : (buf.take offset).length = offset := by
    rw [List.length_take]
    omega
  rw [splice, List.append_assoc]
  by_cases hbefore : i < offset
  · rw [List.getElem?_append_left (by omega), List.getElem?_take_of_lt hbefore, if_neg (by omega)]
  · rw [List.getElem?_append_right (by omega), htake]
    by_cases hin : i < offset + xs.length
    · rw [List.getElem?_append_left (by omega), if_pos ⟨by omega, hin⟩]
    · rw [List.getElem?_append_right (by omega), List.getElem?_drop, if_neg (by omega)]
      congr 1
      omega

theorem getElem?_slice (place size i : ℕ) :
    (slice place size buf)[i]? = if i < size then buf[place + i]? else none := by
  rw [slice]
  by_cases hi : i < size
  · rw [if_pos hi, List.getElem?_take_of_lt hi, List.getElem?_drop]
  · rw [if_neg hi, List.getElem?_eq_none (by rw [List.length_take]; omega)]

/-- What is written is read back. -/
theorem slice_splice (h : offset + xs.length ≤ buf.length) :
    slice offset xs.length (splice offset xs buf) = xs := by
  refine List.ext_getElem? fun i => ?_
  rw [getElem?_slice, getElem?_splice h]
  by_cases hi : i < xs.length
  · rw [if_pos hi, if_pos (by omega), Nat.add_sub_cancel_left]
  · rw [if_neg hi, List.getElem?_eq_none (by omega)]

/-- A place apart from the write stays as it was. -/
theorem slice_splice_of_apart (h : offset + xs.length ≤ buf.length) {place size : ℕ}
    (hapart : place + size ≤ offset ∨ offset + xs.length ≤ place) :
    slice place size (splice offset xs buf) = slice place size buf := by
  refine List.ext_getElem? fun i => ?_
  rw [getElem?_slice, getElem?_slice, getElem?_splice h]
  by_cases hi : i < size
  · rw [if_pos hi, if_pos hi, if_neg (by omega)]
  · rw [if_neg hi, if_neg hi]

/-- Every write lies in the buffer. -/
def Fits (writes : List (ℕ × List α)) (size : ℕ) : Prop :=
  ∀ w ∈ writes, w.1 + w.2.length ≤ size

theorem Fits.tail {w : ℕ × List α} {writes : List (ℕ × List α)} {size : ℕ}
    (h : Fits (w :: writes) size) : Fits writes size := fun v hv =>
  h v (List.mem_cons_of_mem _ hv)

theorem length_spliceAll {writes : List (ℕ × List α)} (h : Fits writes buf.length) :
    (spliceAll writes buf).length = buf.length := by
  induction writes generalizing buf with
  | nil => rfl
  | cons w writes ih =>
    have hw := length_splice (h w (List.mem_cons_self ..))
    rw [spliceAll, List.foldl_cons]
    exact (ih (hw.symm ▸ h.tail)).trans hw

/-- A place that no write covers. -/
theorem getElem?_spliceAll {writes : List (ℕ × List α)} (h : Fits writes buf.length) {i : ℕ}
    (hi : ∀ w ∈ writes, ¬ Covers w i) : (spliceAll writes buf)[i]? = buf[i]? := by
  induction writes generalizing buf with
  | nil => rfl
  | cons w writes ih =>
    have hfirst := h w (List.mem_cons_self ..)
    have hrest := ih ((length_splice hfirst).symm ▸ h.tail) fun v hv =>
      hi v (List.mem_cons_of_mem _ hv)
    rw [spliceAll, List.foldl_cons]
    refine hrest.trans ?_
    rw [getElem?_splice hfirst]
    exact if_neg (hi w (List.mem_cons_self ..))

/-- A place that one write covers, and no later one. -/
theorem getElem?_spliceAll_covered {writes : List (ℕ × List α)} (h : Fits writes buf.length)
    (hapart : writes.Pairwise Apart) {w : ℕ × List α} (hw : w ∈ writes) {i : ℕ}
    (hi : Covers w i) : (spliceAll writes buf)[i]? = w.2[i - w.1]? := by
  induction writes generalizing buf with
  | nil => cases hw
  | cons v writes ih =>
    obtain ⟨hfirst, hlater⟩ := List.pairwise_cons.mp hapart
    have hfit := h v (List.mem_cons_self ..)
    have hrest := (length_splice hfit).symm ▸ h.tail
    rw [spliceAll, List.foldl_cons]
    obtain rfl | hw := List.mem_cons.mp hw
    · have huncovered : ∀ u ∈ writes, ¬ Covers u i := by
        intro u hu hcovers
        have := hfirst u hu
        simp only [Apart, Covers] at this hcovers hi
        omega
      refine (getElem?_spliceAll hrest huncovered).trans ?_
      rw [getElem?_splice hfit]
      exact if_pos hi
    · exact ih hrest hlater hw

/-- Each write is read back from its place. -/
theorem slice_spliceAll {writes : List (ℕ × List α)} (h : Fits writes buf.length)
    (hapart : writes.Pairwise Apart) {w : ℕ × List α} (hw : w ∈ writes) :
    slice w.1 w.2.length (spliceAll writes buf) = w.2 := by
  refine List.ext_getElem? fun i => ?_
  rw [getElem?_slice]
  by_cases hi : i < w.2.length
  · rw [if_pos hi, getElem?_spliceAll_covered h hapart hw ⟨by omega, by omega⟩,
      Nat.add_sub_cancel_left]
  · rw [if_neg hi, List.getElem?_eq_none (by omega)]

end Library
