import Bmdwire.Program.LaneEvents
import Mathlib.Algebra.BigOperators.Group.List.Basic

/-!
# The queues of the transfer lane

What the lane's operations do to the queues and to the belief which locks are held, as
equations a proof can rewrite with, so that it need not unfold the operations again.
-/

set_option autoImplicit false

namespace Bmdwire

open Library (Dict)

namespace Lane

theorem queue_eq (s : Lane) (k : Store) : s.queue k = (s.transferQueue.get? k).getD [] := rfl

theorem held_eq (s : Lane) (k : Store) : s.held k = (s.locks.get? k).getD false := rfl

/-- A change in place keeps what it keeps of the object. -/
theorem modifyTask_keeps {β : Type} (g : TransferTask → β) {f : TransferTask → TransferTask}
    (hf : ∀ t, g (f t) = g t) (id j : TaskId) (s : Lane) :
    g ((s.modifyTask id f).tasks j) = g (s.tasks j) := by
  by_cases hj : j = id
  · subst hj
    simp [modifyTask, hf]
  · simp [modifyTask, hj]

/-- The object changed in place. -/
@[simp] theorem modifyTask_self (f : TransferTask → TransferTask) (id : TaskId) (s : Lane) :
    (s.modifyTask id f).tasks id = f (s.tasks id) := by
  simp [modifyTask]

/-! ## Queues under updates -/

/-- Every queued task sits in the queue of its own store. -/
def StoresMatch (s : Lane) : Prop :=
  ∀ k, ∀ id ∈ s.queue k, (s.tasks id).store = k

/-- The task is the next of its store. -/
def Front (s : Lane) (id : TaskId) : Prop := (s.queue (s.tasks id).store).head? = some id

/-- A store with a queued task is a key of `transfer_queue`. -/
theorem mem_keys_of_queue {s : Lane} {k : Store} (h : s.queue k ≠ []) :
    k ∈ s.transferQueue.keys := by
  rw [s.transferQueue.mem_keys]
  rw [queue_eq] at h
  cases hq : s.transferQueue.get? k with
  | none => exact absurd (by simp [hq]) h
  | some q => rfl

/-- A task is queued when it is in some store's queue. -/
theorem mem_queued {s : Lane} {id : TaskId} : id ∈ s.queued ↔ ∃ k, id ∈ s.queue k := by
  simp only [queued, List.mem_flatMap]
  constructor
  · rintro ⟨k, -, h⟩
    exact ⟨k, h⟩
  · rintro ⟨k, h⟩
    exact ⟨k, mem_keys_of_queue (List.ne_nil_of_mem h), h⟩

/-- The front task of its store is queued there. -/
theorem Front.mem {s : Lane} {id : TaskId} (h : s.Front id) : id ∈ s.queue (s.tasks id).store :=
  List.mem_of_mem_head? h

/-- The store of a front task has work. -/
theorem Front.queue_ne_nil {s : Lane} {id : TaskId} (h : s.Front id) :
    s.queue (s.tasks id).store ≠ [] :=
  List.ne_nil_of_mem h.mem

/-- What the preferred queue, or the first non-empty one, has at its head. -/
theorem nextFor_spec {s : Lane} {store : Store} {id : TaskId} (h : s.nextFor store = some id) :
    ∃ k, (s.queue k).head? = some id := by
  unfold nextFor at h
  cases hq : s.queue store with
  | cons head rest =>
    rw [hq] at h
    exact ⟨store, by rw [hq]; exact h⟩
  | nil =>
    rw [hq] at h
    obtain ⟨k, -, hk⟩ := List.exists_of_findSome?_eq_some h
    exact ⟨k, hk⟩

/-- The task the trigger picks is the front task of its own store. -/
theorem front_of_nextFor {s : Lane} {store : Store} {id : TaskId} (hs : s.StoresMatch)
    (h : s.nextFor store = some id) : s.Front id := by
  obtain ⟨k, hk⟩ := nextFor_spec h
  have hstore : (s.tasks id).store = k := hs k id (List.mem_of_mem_head? hk)
  rw [Front, hstore, hk]

/-- The trigger finds nothing to start exactly when every queue is empty. -/
theorem nextFor_eq_none_iff {s : Lane} {store : Store} :
    s.nextFor store = none ↔ ∀ k, s.queue k = [] := by
  unfold nextFor
  constructor
  · intro h k
    cases hq : s.queue store with
    | cons head rest => simp [hq] at h
    | nil =>
      rw [hq] at h
      by_contra hk
      have := List.findSome?_eq_none_iff.mp h k (mem_keys_of_queue hk)
      exact hk (List.head?_eq_none_iff.mp this)
  · intro h
    simp [h]

/-- The preferred queue comes first. -/
theorem nextFor_of_queue {s : Lane} {store : Store} {id : TaskId}
    (h : (s.queue store).head? = some id) : s.nextFor store = some id := by
  unfold nextFor
  cases hq : s.queue store with
  | nil => simp [hq] at h
  | cons head rest => simpa [hq] using h

/-- A queue after `transfer_queue[store]` was assigned. -/
theorem queue_set (s : Lane) (store k : Store) (q : List TaskId) :
    { s with transferQueue := s.transferQueue.set store q }.queue k =
      if k = store then q else s.queue k := by
  simp only [queue_eq, Dict.get?_set]
  split <;> rfl

/-- A belief after `locks[store]` was assigned. -/
theorem held_set (s : Lane) (store k : Store) (b : Bool) :
    { s with locks := s.locks.set store b }.held k = if k = store then b else s.held k := by
  simp only [held_eq, Dict.get?_set]
  split <;> rfl

/-- Popping a head takes that task off its store's queue and leaves the others. -/
theorem queue_popHead {s : Lane} {id : TaskId} (h : s.Front id) (k : Store) :
    (s.popHead id).queue k =
      if k = (s.tasks id).store then (s.queue k).tail else s.queue k := by
  have hhead : (s.queue (s.tasks id).store).head? = some id := h
  simp only [popHead, hhead, if_true]
  rw [queue_set]
  split
  · rename_i hk
    rw [hk]
  · rfl

/-- A pop leaves the stores where they were. -/
theorem keys_popHead {s : Lane} {id : TaskId} (h : s.Front id) :
    (s.popHead id).transferQueue.keys = s.transferQueue.keys := by
  have hhead : (s.queue (s.tasks id).store).head? = some id := h
  have hk : (s.tasks id).store ∈ s.transferQueue.keys := mem_keys_of_queue h.queue_ne_nil
  simp [popHead, hhead, Dict.set, hk]

/-- A pop takes exactly one task out of the lane. -/
theorem queued_popHead {s : Lane} {id : TaskId} (h : s.Front id) :
    (s.popHead id).queued.length + 1 = s.queued.length := by
  have hne := h.queue_ne_nil
  have hk : (s.tasks id).store ∈ s.transferQueue.keys := mem_keys_of_queue hne
  have hsum := fun (t : Lane) (ht : t.transferQueue.keys = s.transferQueue.keys) =>
    show t.queued.length = (s.transferQueue.keys.map fun k => (t.queue k).length).sum by
      rw [queued, List.length_flatMap, ht]
  rw [hsum _ (keys_popHead h), hsum s rfl, ← List.sum_map_erase _ hk, ← List.sum_map_erase _ hk]
  have hrest : ((s.transferQueue.keys.erase (s.tasks id).store).map
      fun k => ((s.popHead id).queue k).length) =
      (s.transferQueue.keys.erase (s.tasks id).store).map fun k => (s.queue k).length := by
    apply List.map_congr_left
    intro k hmem
    have hkne : k ≠ (s.tasks id).store := by
      rintro rfl
      exact s.transferQueue.nodup.not_mem_erase hmem
    rw [queue_popHead h, if_neg hkne]
  rw [hrest, queue_popHead h, if_pos rfl]
  have hlen : (s.queue (s.tasks id).store).tail.length + 1 =
      (s.queue (s.tasks id).store).length := by
    rw [List.length_tail]
    have := List.length_pos_iff.mpr hne
    omega
  omega

/-! ## The release at the end of a frame -/

/-- `_release_then_continue` up to the trigger it ends in. -/
def letGo (now : Time) (store : Store) (s : Lane) : Lane :=
  releaseThenContinueWith (fun _ s => s) now store true s

/-- A release that asks for the next request ends in the trigger. -/
theorem releaseThenContinueWith_eq (trigger : Store → Lane → Lane) (now : Time) (store : Store)
    (s : Lane) :
    releaseThenContinueWith trigger now store true s = trigger store (s.letGo now store) := by
  simp only [letGo, releaseThenContinueWith]
  split <;> simp

/-- A release without the next request ends in the trigger only when nothing was held. -/
theorem releaseThenContinueWith_false (trigger : Store → Lane → Lane) (now : Time) (store : Store)
    (s : Lane) :
    releaseThenContinueWith trigger now store false s =
      if store ≠ macroStore ∧ s.held store then s.letGo now store
      else trigger store (s.letGo now store) := by
  have hheld : { s with transfer := none }.held store = s.held store := rfl
  simp only [letGo, releaseThenContinueWith, hheld]
  split <;> simp

/-- A held lock is given back: the belief goes, the release is sent, the yield starts. -/
theorem letGo_of_held {now : Time} {store : Store} {s : Lane} (hm : store ≠ macroStore)
    (hh : s.held store = true) :
    s.letGo now store = { s with
      transfer := none
      locks := s.locks.set store false
      yielding := s.yielding.set store ⟨now, none⟩
      ownRelease := s.ownRelease.set store now
      log := .send now (.lock store false) :: s.log } := by
  have hheld : { s with transfer := none }.held store = s.held store := rfl
  simp only [letGo, releaseThenContinueWith, hheld]
  rw [if_pos ⟨hm, hh⟩]
  rfl

/-- With no lock to give back, only the transfer in flight is forgotten. -/
theorem letGo_of_not_held {now : Time} {store : Store} {s : Lane}
    (h : store = macroStore ∨ s.held store = false) :
    s.letGo now store = { s with transfer := none } := by
  have hheld : { s with transfer := none }.held store = s.held store := rfl
  simp only [letGo, releaseThenContinueWith, hheld]
  have hn : ¬ (store ≠ macroStore ∧ s.held store = true) := by
    rintro ⟨hm, hh⟩
    rcases h with h | h
    · exact hm h
    · simp [h] at hh
  rw [if_neg hn]

/-- The two ways a frame's release goes. -/
theorem letGo_cases (now : Time) (store : Store) (s : Lane) :
    (store ≠ macroStore ∧ s.held store = true ∧ s.letGo now store = { s with
      transfer := none
      locks := s.locks.set store false
      yielding := s.yielding.set store ⟨now, none⟩
      ownRelease := s.ownRelease.set store now
      log := .send now (.lock store false) :: s.log }) ∨
    ((store = macroStore ∨ s.held store = false) ∧
      s.letGo now store = { s with transfer := none }) := by
  by_cases hm : store = macroStore
  · exact .inr ⟨.inl hm, letGo_of_not_held (.inl hm)⟩
  · cases hh : s.held store with
    | true => exact .inl ⟨hm, rfl, letGo_of_held hm hh⟩
    | false => exact .inr ⟨.inr rfl, letGo_of_not_held (.inr hh)⟩

section LetGo

variable (now : Time) (store : Store) (s : Lane)

@[simp] theorem letGo_transfer : (s.letGo now store).transfer = none := by
  rcases letGo_cases now store s with ⟨-, -, h⟩ | ⟨-, h⟩ <;> rw [h]

@[simp] theorem letGo_transferQueue : (s.letGo now store).transferQueue = s.transferQueue := by
  rcases letGo_cases now store s with ⟨-, -, h⟩ | ⟨-, h⟩ <;> rw [h]

@[simp] theorem letGo_queue (k : Store) : (s.letGo now store).queue k = s.queue k := by
  rw [queue_eq, letGo_transferQueue, queue_eq]

@[simp] theorem letGo_tasks : (s.letGo now store).tasks = s.tasks := by
  rcases letGo_cases now store s with ⟨-, -, h⟩ | ⟨-, h⟩ <;> rw [h]

@[simp] theorem letGo_nextTask : (s.letGo now store).nextTask = s.nextTask := by
  rcases letGo_cases now store s with ⟨-, -, h⟩ | ⟨-, h⟩ <;> rw [h]

@[simp] theorem letGo_transferId : (s.letGo now store).transferId = s.transferId := by
  rcases letGo_cases now store s with ⟨-, -, h⟩ | ⟨-, h⟩ <;> rw [h]

@[simp] theorem letGo_transferRequested :
    (s.letGo now store).transferRequested = s.transferRequested := by
  rcases letGo_cases now store s with ⟨-, -, h⟩ | ⟨-, h⟩ <;> rw [h]

@[simp] theorem letGo_tryAgainDue : (s.letGo now store).tryAgainDue = s.tryAgainDue := by
  rcases letGo_cases now store s with ⟨-, -, h⟩ | ⟨-, h⟩ <;> rw [h]

@[simp] theorem letGo_draining : (s.letGo now store).draining = s.draining := by
  rcases letGo_cases now store s with ⟨-, -, h⟩ | ⟨-, h⟩ <;> rw [h]

@[simp] theorem letGo_foreignHeld : (s.letGo now store).foreignHeld = s.foreignHeld := by
  rcases letGo_cases now store s with ⟨-, -, h⟩ | ⟨-, h⟩ <;> rw [h]

@[simp] theorem letGo_lockRequested : (s.letGo now store).lockRequested = s.lockRequested := by
  rcases letGo_cases now store s with ⟨-, -, h⟩ | ⟨-, h⟩ <;> rw [h]

@[simp] theorem letGo_othersSeen : (s.letGo now store).othersSeen = s.othersSeen := by
  rcases letGo_cases now store s with ⟨-, -, h⟩ | ⟨-, h⟩ <;> rw [h]

@[simp] theorem letGo_clock : (s.letGo now store).clock = s.clock := by
  rcases letGo_cases now store s with ⟨-, -, h⟩ | ⟨-, h⟩ <;> rw [h]

/-- The log says no more than the release, if there was one. -/
theorem letGo_log : ∃ new, (s.letGo now store).log = new ++ s.log ∧
    ∀ a ∈ new, a = .send now (.lock store false) := by
  rcases letGo_cases now store s with ⟨-, -, h⟩ | ⟨-, h⟩
  · rw [h]
    exact ⟨[_], rfl, fun a ha => List.mem_singleton.mp ha⟩
  · rw [h]
    exact ⟨[], rfl, by simp⟩

/-- After a release the store is not held, and no other belief has changed. -/
theorem letGo_held (hm : store ≠ macroStore) (k : Store) :
    (s.letGo now store).held k = if k = store then false else s.held k := by
  rcases letGo_cases now store s with ⟨-, -, h⟩ | ⟨hn, h⟩
  · rw [h]
    exact held_set s store k false
  · rw [h]
    split
    · rename_i hk
      subst hk
      exact hn.resolve_left hm
    · rfl

/-- Letting go of a store never makes a belief. -/
theorem held_of_letGo_held {k : Store} (h : (s.letGo now store).held k = true) :
    s.held k = true := by
  rcases letGo_cases now store s with ⟨-, -, he⟩ | ⟨-, he⟩
  · rw [he] at h
    have := (held_set s store k false).symm.trans h
    by_cases hk : k = store
    · simp [hk] at this
    · simpa [hk] using this
  · rw [he] at h
    exact h

end LetGo

end Lane

end Bmdwire
