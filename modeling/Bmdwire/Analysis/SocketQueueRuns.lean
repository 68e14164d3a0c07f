import Bmdwire.Program.SocketQueue

/-!
# Wake bytes and items

For each item in the queue there is one of three things: its byte, unread; a putter that has not
sent the byte yet; or a getter that has read it and not yet taken the item. That they are as many
as the items (`Counted`) is kept by every step, and so a byte is never without an item, and the
getter never waits for an item whose byte it has read.
-/

set_option autoImplicit false

namespace Bmdwire

open Library (Reach OkAlong)

namespace SocketQueue

variable {ι α : Type} [DecidableEq ι]

/-- Reached by steps that can be taken, in any order. -/
def Reachable (s : SocketQueue ι α) : Prop := Reach (· = init) take CanTake s

/-- One byte, putter or item to take for each item in the queue. -/
def Counted (s : SocketQueue ι α) : Prop :=
  s.items.length = s.bytes + s.putting.card + s.getter.left

/-- What was put has been returned, is in the getter's hands, or is queued. -/
def Ordered (s : SocketQueue ι α) : Prop := s.puts = s.returned ++ s.getter.got ++ s.items

theorem counted_take {s : SocketQueue ι α} {a : Step ι α} (h : s.Counted) (ha : s.CanTake a) :
    (s.take a).Counted := by
  unfold Counted at *
  cases a with
  | putItem p item =>
    simp only [take, List.length_append, List.length_singleton, Finset.card_insert_of_notMem ha]
    omega
  | putByte p =>
    have hcard := Finset.card_erase_add_one ha
    simp only [take]
    omega
  | getByte =>
    obtain ⟨hgetter, hbytes⟩ := ha
    simp only [take, hgetter, Getter.left] at h ⊢
    omega
  | getItem =>
    obtain ⟨hgetter, hitems⟩ := ha
    simp only [take, hgetter, Getter.left, List.length_tail] at h ⊢
    omega
  | waitingBytes marks =>
    obtain ⟨hgetter, -, hmarks, -⟩ := ha
    simp only [take, hgetter, Getter.left] at h ⊢
    omega
  | waitingNone => exact h
  | waitingItem =>
    obtain ⟨⟨left, got, hgetter⟩, hitems⟩ := ha
    simp only [take, hgetter, Getter.left, List.length_tail] at h ⊢
    omega
  | waitingReturn =>
    obtain ⟨got, hgetter⟩ := ha
    simp only [take, hgetter, Getter.left] at h ⊢
    exact h

theorem ordered_take {s : SocketQueue ι α} {a : Step ι α} (h : s.Ordered) (ha : s.CanTake a) :
    (s.take a).Ordered := by
  unfold Ordered at *
  cases a with
  | putItem p item => simp [take, h]
  | putByte p => exact h
  | getByte =>
    rw [ha.1] at h
    exact h
  | getItem =>
    obtain ⟨hgetter, hitems⟩ := ha
    obtain ⟨item, rest, hitems⟩ := List.exists_cons_of_ne_nil hitems
    simp [take, h, hgetter, hitems, Getter.got]
  | waitingBytes marks =>
    rw [ha.1] at h
    exact h
  | waitingNone => exact h
  | waitingItem =>
    obtain ⟨⟨left, got, hgetter⟩, hitems⟩ := ha
    obtain ⟨item, rest, hitems⟩ := List.exists_cons_of_ne_nil hitems
    simp [take, h, hgetter, hitems, Getter.got]
  | waitingReturn => simp [take, h, Getter.got]

theorem Reachable.counted {s : SocketQueue ι α} (h : s.Reachable) : s.Counted := by
  apply h.invariant
  · rintro s rfl
    rfl
  · exact fun s a _ hs ha => counted_take hs ha

theorem Reachable.ordered {s : SocketQueue ι α} (h : s.Reachable) : s.Ordered := by
  apply h.invariant
  · rintro s rfl
    rfl
  · exact fun s a _ hs ha => ordered_take hs ha

/-- The queue is not slept on: with no put and no call under way there is a byte for each item. -/
theorem Reachable.bytes_eq {s : SocketQueue ι α} (h : s.Reachable) (hputting : s.putting = ∅)
    (hgetter : s.getter = .outside) : s.bytes = s.items.length := by
  have hcount := h.counted
  rw [Counted, hputting, hgetter, Finset.card_empty, Getter.left] at hcount
  omega

/-- The items to take are there, and are taken one after the other. -/
theorem takes_left (left : ℕ) {s : SocketQueue ι α} {got : List α}
    (hgetter : s.getter = .getWaiting left got) (hleft : left ≤ s.items.length) :
    OkAlong take CanTake s (List.replicate left .waitingItem ++ [.waitingReturn]) ∧
      Library.run take s (List.replicate left .waitingItem ++ [.waitingReturn]) =
        { s with
          items := s.items.drop left, getter := .outside
          returned := s.returned ++ (got ++ s.items.take left) } := by
  induction left generalizing s got with
  | zero =>
    refine ⟨⟨⟨got, hgetter⟩, trivial⟩, ?_⟩
    simp [Library.run, take, hgetter, Getter.got]
  | succ left ih =>
    obtain ⟨item, rest, hitems⟩ := List.exists_cons_of_length_pos (show 0 < s.items.length by omega)
    have htaken : s.take .waitingItem =
        { s with items := rest, getter := .getWaiting left (got ++ [item]) } := by
      simp [take, hgetter, hitems]
    have hrest : left ≤ rest.length := by
      rw [hitems, List.length_cons] at hleft
      omega
    obtain ⟨hok, hrun⟩ := @ih (s.take .waitingItem) (got ++ [item]) (by rw [htaken])
      (by rw [htaken]; exact hrest)
    rw [List.replicate_succ, List.cons_append]
    refine ⟨⟨⟨⟨left, got, hgetter⟩, by simp [hitems]⟩, hok⟩, ?_⟩
    rw [Library.run, List.foldl_cons, ← Library.run, hrun, htaken]
    simp [hitems]

/-- A call of `get_waiting` that finds bytes comes to its end by itself. -/
theorem getWaiting_returns {s : SocketQueue ι α} (h : s.Reachable) (hgetter : s.getter = .outside)
    {marks : ℕ} (hpos : 0 < marks) (hbytes : marks ≤ s.bytes) (hsize : marks ≤ recvSize) :
    OkAlong take CanTake s (getWaiting marks) ∧
      Library.run take s (getWaiting marks) =
        { s with
          bytes := s.bytes - marks, items := s.items.drop marks
          returned := s.returned ++ s.items.take marks } := by
  have hcount := h.counted
  rw [Counted, hgetter, Getter.left] at hcount
  have hmarks : marks ≤ (s.take (.waitingBytes marks)).items.length := by
    simp only [take]
    omega
  obtain ⟨hok, hrun⟩ := takes_left marks (s := s.take (.waitingBytes marks)) rfl hmarks
  refine ⟨⟨⟨hgetter, hpos, hbytes, hsize⟩, hok⟩, ?_⟩
  rw [getWaiting, Library.run, List.foldl_cons, ← Library.run, hrun]
  simp [take, hgetter]

end SocketQueue

open SocketQueue

/-- **Bytes, items and their order**, whatever the interleaving: there are never more unread bytes
than items; a getter that has read bytes finds its items, so that a call of `get_waiting` comes to
its end by itself and returns the first items of the queue; and what was put has been returned or
is still there, in the order of the puts. -/
theorem socketQueue_keeps {ι α : Type} [DecidableEq ι] (s : SocketQueue ι α) (h : s.Reachable) :
    s.bytes ≤ s.items.length ∧
    (∀ left got, s.getter = .getWaiting (left + 1) got → s.CanTake .waitingItem) ∧
    (s.getter = .get → s.CanTake .getItem) ∧
    (∀ marks, s.getter = .outside → 0 < marks → marks ≤ s.bytes → marks ≤ recvSize →
      OkAlong take CanTake s (getWaiting marks) ∧
        (Library.run take s (getWaiting marks)).returned =
          s.returned ++ s.items.take marks) ∧
    s.puts = s.returned ++ s.getter.got ++ s.items := by
  have hcount := h.counted
  unfold Counted at hcount
  have hitems : 0 < s.getter.left → s.items ≠ [] := by
    intro hleft
    apply List.ne_nil_of_length_pos
    omega
  refine ⟨by omega, ?_, ?_, ?_, h.ordered⟩
  · intro left got hgetter
    refine ⟨⟨left, got, hgetter⟩, hitems ?_⟩
    rw [hgetter]
    exact Nat.succ_pos left
  · intro hgetter
    refine ⟨hgetter, hitems ?_⟩
    rw [hgetter]
    exact Nat.one_pos
  · intro marks hgetter hpos hbytes hsize
    obtain ⟨hok, hrun⟩ := getWaiting_returns h hgetter hpos hbytes hsize
    exact ⟨hok, by rw [hrun]⟩

/-- Two putters, the second overtaking the first between its item and its byte, and a
`get_waiting` between. -/
def overtaken : List (Step ℕ Char) :=
  [.putItem 0 'a', .putItem 1 'b', .putByte 1, .waitingBytes 1, .putByte 0]

theorem socketQueue_keeps_overtaken :
    (Library.run take init overtaken).puts = ['a', 'b'] ∧
      (Library.run take init overtaken).CanTake .waitingItem := by
  have hstart : Reachable (init : SocketQueue ℕ Char) := .start rfl
  have hreached : Reachable (Library.run take init overtaken) := by
    apply hstart.run
    refine ⟨?_, ?_, ?_, ?_, ?_, trivial⟩
    · simp [CanTake, init]
    · simp [CanTake, init, take]
    · simp [CanTake, init, take]
    · simp [CanTake, init, take, recvSize]
    · simp [CanTake, init, take]
  exact ⟨rfl, (socketQueue_keeps _ hreached).2.1 0 [] rfl⟩

end Bmdwire
