import Bmdwire.Interface.LaneMoves

/-!
# Well-formed lanes

What holds of the queues, the task in flight and the drain in every reachable state, and
that each opening and each move of the trigger keeps it.
-/

set_option autoImplicit false

namespace Bmdwire

open Library (Dict)

namespace Lane

/-- The queues hold tasks of their own store in the order of creation; the task in flight
is the front task of its store, no clear, under the current transfer id; a request is only
out for a task in flight; and a drain has the lane to itself. -/
structure Wf (s : Lane) : Prop where
  store : s.StoresMatch
  made : ∀ k, ∀ id ∈ s.queue k, id < s.nextTask
  ordered : ∀ k, (s.queue k).Pairwise (· < ·)
  inFlight : ∀ id, s.transfer = some id →
    s.Front id ∧ (s.tasks id).kind ≠ .clear ∧ (s.tasks id).tid = some s.transferId
  requested : s.transferRequested = true → s.transfer ≠ none
  draining : s.draining ≠ none → s.transfer = none ∧ s.tryAgainDue = none
  idRange : 1 ≤ s.transferId ∧ s.transferId ≤ 0xFFFF

/-- Two states with the same queues, tasks and transfer. -/
structure SameTransfers (s t : Lane) : Prop where
  transferQueue : t.transferQueue = s.transferQueue
  kind : ∀ id, (t.tasks id).kind = (s.tasks id).kind
  store : ∀ id, (t.tasks id).store = (s.tasks id).store
  tid : ∀ id, (t.tasks id).tid = (s.tasks id).tid
  nextTask : t.nextTask = s.nextTask
  transferId : t.transferId = s.transferId
  transfer : t.transfer = s.transfer
  transferRequested : t.transferRequested = s.transferRequested
  draining : t.draining = s.draining
  tryAgainDue : t.tryAgainDue = s.tryAgainDue

theorem SameTransfers.refl (s : Lane) : s.SameTransfers s :=
  ⟨rfl, fun _ => rfl, fun _ => rfl, fun _ => rfl, rfl, rfl, rfl, rfl, rfl, rfl⟩

theorem SameTransfers.trans {s t u : Lane} (h : s.SameTransfers t) (h' : t.SameTransfers u) :
    s.SameTransfers u where
  transferQueue := h'.transferQueue.trans h.transferQueue
  kind id := (h'.kind id).trans (h.kind id)
  store id := (h'.store id).trans (h.store id)
  tid id := (h'.tid id).trans (h.tid id)
  nextTask := h'.nextTask.trans h.nextTask
  transferId := h'.transferId.trans h.transferId
  transfer := h'.transfer.trans h.transfer
  transferRequested := h'.transferRequested.trans h.transferRequested
  draining := h'.draining.trans h.draining
  tryAgainDue := h'.tryAgainDue.trans h.tryAgainDue

theorem SameTransfers.queue {s t : Lane} (h : s.SameTransfers t) (k : Store) :
    t.queue k = s.queue k := by
  rw [queue_eq, h.transferQueue, queue_eq]

/-- The parts of equal cores. -/
theorem core_eq {t u : TransferTask} (h : t.core = u.core) :
    t.kind = u.kind ∧ t.store = u.store ∧ t.slot = u.slot ∧ t.tid = u.tid ∧
      t.tryAgain = u.tryAgain := by
  simpa [TransferTask.core] using h

theorem Quiet.sameTransfers {s t : Lane} (h : s.Quiet t) : s.SameTransfers t where
  transferQueue := h.transferQueue
  kind id := (core_eq (h.core id)).1
  store id := (core_eq (h.core id)).2.1
  tid id := (core_eq (h.core id)).2.2.2.1
  nextTask := h.nextTask
  transferId := h.transferId
  transfer := h.transfer
  transferRequested := h.transferRequested
  draining := h.draining
  tryAgainDue := h.tryAgainDue

/-- A loop over stores keeps what each turn keeps. -/
theorem sameTransfers_foldl {f : Lane → Store → Lane} (hf : ∀ (s : Lane) k, s.SameTransfers (f s k))
    (ks : List Store) (s : Lane) : s.SameTransfers (ks.foldl f s) := by
  induction ks generalizing s with
  | nil => exact .refl s
  | cons k ks ih => exact (hf s k).trans (ih (f s k))

/-- Well-formedness speaks of the queues, the tasks and the transfer only. -/
theorem Wf.same {s t : Lane} (h : s.Wf) (hst : s.SameTransfers t) : t.Wf where
  store := by
    intro k id hid
    rw [hst.queue] at hid
    rw [hst.store]
    exact h.store k id hid
  made := by
    intro k id hid
    rw [hst.queue] at hid
    rw [hst.nextTask]
    exact h.made k id hid
  ordered := by
    intro k
    rw [hst.queue]
    exact h.ordered k
  inFlight := by
    intro id hid
    rw [hst.transfer] at hid
    rw [Front, hst.queue, hst.store, hst.kind, hst.tid, hst.transferId]
    exact h.inFlight id hid
  requested := by
    rw [hst.transferRequested, hst.transfer]
    exact h.requested
  draining := by
    rw [hst.draining, hst.transfer, hst.tryAgainDue]
    exact h.draining
  idRange := by
    rw [hst.transferId]
    exact h.idRange

/-- A fresh lane is well-formed. -/
theorem wf_fresh {tid : ℕ} (h1 : 1 ≤ tid) (h2 : tid ≤ 0xFFFF) : (fresh tid).Wf where
  store k id hid := by simp [fresh, queue_eq] at hid
  made k id hid := by simp [fresh, queue_eq] at hid
  ordered k := by simp [fresh, queue_eq]
  inFlight id hid := by simp [fresh] at hid
  requested h := by simp [fresh] at h
  draining h := by simp [fresh] at h
  idRange := ⟨h1, h2⟩

/-! ## The operations that leave the transfers alone -/

theorem sameTransfers_cleanLocks (now : Time) (s : Lane) : s.SameTransfers (s.cleanLocks now) := by
  refine sameTransfers_foldl (fun t k => ?_) _ s
  split
  · constructor <;> intros <;> rfl
  · exact .refl t

/-- What LKST taken changes. -/
theorem lockTaken_eq (now : Time) (store : Store) (s : Lane) :
    ∃ foreignHeld othersSeen yielding ownRelease, s.lockTaken now store =
      { s with foreignHeld := foreignHeld, othersSeen := othersSeen, yielding := yielding,
               ownRelease := ownRelease } := by
  unfold lockTaken
  split
  · exact ⟨_, _, _, _, rfl⟩
  · exact ⟨_, _, _, _, rfl⟩

/-- What LKST free changes before the trigger. -/
theorem freed_eq (now : Time) (store : Store) (s : Lane) :
    ∃ yielding ownRelease, s.freed now store =
      { s with foreignHeld := s.foreignHeld.filter (· ≠ store), yielding := yielding,
               ownRelease := ownRelease, lockRequested := s.lockRequested.erase store } := by
  unfold freed announceFree
  dsimp only
  split
  · exact ⟨_, _, rfl⟩
  · split
    · exact ⟨_, _, rfl⟩
    · exact ⟨_, _, rfl⟩

theorem sameTransfers_lockTaken (now : Time) (store : Store) (s : Lane) :
    s.SameTransfers (s.lockTaken now store) := by
  obtain ⟨_, _, _, _, h⟩ := lockTaken_eq now store s
  rw [h]
  constructor <;> intros <;> rfl

theorem sameTransfers_freed (now : Time) (store : Store) (s : Lane) :
    s.SameTransfers (s.freed now store) := by
  obtain ⟨_, _, h⟩ := freed_eq now store s
  rw [h]
  constructor <;> intros <;> rfl

theorem sameTransfers_releaseLockNow (now : Time) (s : Lane) (k : Store) :
    s.SameTransfers (s.releaseLockNow now k) := by
  unfold releaseLockNow
  split
  · constructor <;> intros <;> rfl
  · exact .refl s

theorem sameTransfers_releaseLocksNow (now : Time) (s : Lane) :
    s.SameTransfers (s.releaseLocksNow now) := by
  unfold releaseLocksNow
  split
  · have h := sameTransfers_foldl (f := fun t k => t.releaseLockNow now k)
      (sameTransfers_releaseLockNow now) s.locks.keys s
    exact ⟨h.transferQueue, h.kind, h.store, h.tid, h.nextTask, h.transferId, h.transfer,
      h.transferRequested, h.draining, h.tryAgainDue⟩
  · exact .refl s

theorem sameTransfers_someoneAtWork (now : Time) (s : Lane) :
    s.SameTransfers (s.someoneAtWork now) := by
  constructor <;> intros <;> rfl

/-! ## Leaving a queue -/

/-- A task that left the head of its store's queue. -/
theorem Wf.pop {s t : Lane} (store : Store) (h : s.Wf)
    (hqueue : ∀ k, t.queue k = if k = store then (s.queue k).tail else s.queue k)
    (htasks : ∀ id, (t.tasks id).store = (s.tasks id).store)
    (hnext : t.nextTask = s.nextTask) (hid : t.transferId = s.transferId)
    (hnone : t.transfer = none) (hreq : t.transferRequested = false)
    (hdrain : t.draining ≠ none → t.tryAgainDue = none) : t.Wf where
  store := by
    intro k id hq
    rw [hqueue] at hq
    rw [htasks]
    split at hq
    · exact h.store k id (List.mem_of_mem_tail hq)
    · exact h.store k id hq
  made := by
    intro k id hq
    rw [hqueue] at hq
    rw [hnext]
    split at hq
    · exact h.made k id (List.mem_of_mem_tail hq)
    · exact h.made k id hq
  ordered := by
    intro k
    rw [hqueue]
    split
    · exact (h.ordered k).tail
    · exact h.ordered k
  inFlight := by
    intro id hid
    simp [hnone] at hid
  requested := by simp [hreq]
  draining hd := ⟨hnone, hdrain hd⟩
  idRange := by
    rw [hid]
    exact h.idRange

/-- The transfer in flight is forgotten, its task stays queued. -/
theorem Wf.forget {s t : Lane} (h : s.Wf) (hqueue : ∀ k, t.queue k = s.queue k)
    (htasks : ∀ id, (t.tasks id).store = (s.tasks id).store)
    (hnext : t.nextTask = s.nextTask) (hid : t.transferId = s.transferId)
    (hnone : t.transfer = none) (hreq : t.transferRequested = false)
    (hdrain : t.draining ≠ none → t.tryAgainDue = none) : t.Wf where
  store := by
    intro k id hq
    rw [hqueue] at hq
    rw [htasks]
    exact h.store k id hq
  made := by
    intro k id hq
    rw [hqueue] at hq
    rw [hnext]
    exact h.made k id hq
  ordered := by
    intro k
    rw [hqueue]
    exact h.ordered k
  inFlight := by
    intro id hid
    simp [hnone] at hid
  requested := by simp [hreq]
  draining hd := ⟨hnone, hdrain hd⟩
  idRange := by
    rw [hid]
    exact h.idRange

/-- The queues emptied, nothing in flight. -/
theorem Wf.empty {s t : Lane} (h : s.Wf) (hqueue : ∀ k, t.queue k = [])
    (hid : t.transferId = s.transferId) (hnone : t.transfer = none)
    (hreq : t.transferRequested = false) (hdrain : t.tryAgainDue = none) : t.Wf where
  store k id hq := by simp [hqueue] at hq
  made k id hq := by simp [hqueue] at hq
  ordered k := by simp [hqueue]
  inFlight id hid := by simp [hnone] at hid
  requested := by simp [hreq]
  draining _ := ⟨hnone, hdrain⟩
  idRange := by
    rw [hid]
    exact h.idRange

/-! ## The moves of the trigger -/

/-- The id of the next request: the current one repeated, or the one after it. -/
def nextTransferId (retry : Bool) (s : Lane) : ℕ :=
  if retry then s.transferId else s.transferId % 0xFFFF + 1

/-- Ids stay in 1 .. 0xFFFF, the wrap skipping 0. -/
theorem nextTransferId_range (retry : Bool) {s : Lane}
    (h : 1 ≤ s.transferId ∧ s.transferId ≤ 0xFFFF) :
    1 ≤ s.nextTransferId retry ∧ s.nextTransferId retry ≤ 0xFFFF := by
  unfold nextTransferId
  split
  · exact h
  · omega

/-- What a request changes, field by field. -/
structure Requested (now : Time) (retry : Bool) (id : TaskId) (s t : Lane) : Prop where
  locks : t.locks = s.locks
  lockRequested : t.lockRequested = s.lockRequested
  yielding : t.yielding = s.yielding
  foreignHeld : t.foreignHeld = s.foreignHeld
  ownRelease : t.ownRelease = s.ownRelease
  othersSeen : t.othersSeen = s.othersSeen
  lastGrant : t.lastGrant = s.lastGrant
  transferQueue : t.transferQueue = s.transferQueue
  transferId : t.transferId = s.nextTransferId retry
  transfer : t.transfer = some id
  transferRequested : t.transferRequested = true
  tryAgainDue : t.tryAgainDue = s.tryAgainDue
  draining : t.draining = s.draining
  nextTask : t.nextTask = s.nextTask
  wakeDue : t.wakeDue = s.wakeDue
  wakeups : t.wakeups = s.wakeups
  clock : t.clock = s.clock
  kind : ∀ j, (t.tasks j).kind = (s.tasks j).kind
  store : ∀ j, (t.tasks j).store = (s.tasks j).store
  slot : ∀ j, (t.tasks j).slot = (s.tasks j).slot
  tid : ∀ j, (t.tasks j).tid = if j = id then some (s.nextTransferId retry) else (s.tasks j).tid
  tryAgain : ∀ j, (t.tasks j).tryAgain = (s.tasks j).tryAgain
  log : ∃ new command, t.log = new ++ .send now command :: s.log ∧ (∀ a ∈ new, a.bulk = true) ∧
    command.request? =
      some (id, s.nextTransferId retry, (s.tasks id).store, (s.tasks id).slot)

/-- Sending a request adds its command to the log, and the metadata of an empty upload. -/
theorem sendRequest_spec (now : Time) (id : TaskId) (s : Lane) :
    ∃ new command tasks, s.sendRequest now id =
        { s with tasks := tasks, log := new ++ .send now command :: s.log } ∧
      (∀ j, (tasks j).core = (s.tasks j).core) ∧ (∀ a ∈ new, a.bulk = true) ∧
      command.request? =
        some (id, (s.tasks id).tid.getD 0, (s.tasks id).store, (s.tasks id).slot) := by
  by_cases hk : (s.tasks id).kind = .upload
  · simp only [sendRequest, hk]
    split
    · refine ⟨[_], _, _, rfl, ?_, ?_, rfl⟩
      · exact fun j => modifyTask_keeps TransferTask.core
          (f := fun t => { t with metadataSent := true }) (fun _ => rfl) id j _
      · simp [Act.bulk]
    · exact ⟨[], _, s.tasks, rfl, fun _ => rfl, by simp, rfl⟩
  · have hsend : s.sendRequest now id = s.send now
        (.downloadRequest id ((s.tasks id).tid.getD 0) (s.tasks id).store (s.tasks id).slot) := by
      cases hk' : (s.tasks id).kind with
      | upload => exact absurd hk' hk
      | download => simp only [sendRequest, hk']
      | clear => simp only [sendRequest, hk']
    rw [hsend]
    exact ⟨[], _, s.tasks, rfl, fun _ => rfl, by simp, rfl⟩

/-- The request of a transfer, field by field. -/
theorem requested_requestTransfer (now : Time) (retry : Bool) (id : TaskId) (s : Lane) :
    Requested now retry id s (s.requestTransfer now retry id) := by
  unfold requestTransfer
  dsimp only
  generalize hu : modifyTask id _ _ = u
  obtain ⟨new, command, tasks, heq, htasks, hnew, hcommand⟩ := sendRequest_spec now id u
  have hkeeps : ∀ {β : Type} (g : TransferTask → β), (∀ t : TransferTask, ∀ tid m o,
      g { t with tid := tid, metadataSent := m, offset := o } = g t) →
      ∀ j, g (u.tasks j) = g (s.tasks j) := by
    intro β g hg j
    rw [← hu]
    exact modifyTask_keeps g (fun t => hg t _ _ _) id j _
  have htid : ∀ j, (u.tasks j).tid =
      if j = id then some (s.nextTransferId retry) else (s.tasks j).tid := by
    intro j
    rw [← hu]
    by_cases hj : j = id
    · subst hj
      simp [nextTransferId]
    · simp [modifyTask, hj]
  have hstore := hkeeps (·.store) (fun _ _ _ _ => rfl)
  have hslot := hkeeps (·.slot) (fun _ _ _ _ => rfl)
  rw [heq]
  constructor
  case kind =>
    exact fun j => (core_eq (htasks j)).1.trans (hkeeps (·.kind) (fun _ _ _ _ => rfl) j)
  case store => exact fun j => (core_eq (htasks j)).2.1.trans (hstore j)
  case slot => exact fun j => (core_eq (htasks j)).2.2.1.trans (hslot j)
  case tid => exact fun j => (core_eq (htasks j)).2.2.2.1.trans (htid j)
  case tryAgain =>
    exact fun j =>
      (core_eq (htasks j)).2.2.2.2.trans (hkeeps (·.tryAgain) (fun _ _ _ _ => rfl) j)
  case log =>
    refine ⟨new, command, ?_, hnew, ?_⟩
    · rw [← hu]
      rfl
    · rw [hcommand, htid, if_pos rfl, hstore, hslot]
      rfl
  all_goals
    rw [← hu]
    rfl

/-- A request of a front task keeps the lane well-formed. -/
theorem Wf.request {now : Time} {retry : Bool} {id : TaskId} {s t : Lane} (h : s.Wf)
    (hdrain : s.draining = none) (hfront : s.Front id) (hkind : (s.tasks id).kind ≠ .clear)
    (hr : Requested now retry id s t) : t.Wf where
  store := by
    intro k j hj
    rw [queue_eq, hr.transferQueue] at hj
    rw [hr.store]
    exact h.store k j hj
  made := by
    intro k j hj
    rw [queue_eq, hr.transferQueue] at hj
    rw [hr.nextTask]
    exact h.made k j hj
  ordered := by
    intro k
    rw [queue_eq, hr.transferQueue]
    exact h.ordered k
  inFlight := by
    intro j hj
    rw [hr.transfer] at hj
    obtain rfl : id = j := Option.some.inj hj
    refine ⟨?_, ?_, ?_⟩
    · rw [Front, hr.store, queue_eq, hr.transferQueue]
      exact hfront
    · rw [hr.kind]
      exact hkind
    · rw [hr.tid, if_pos rfl, hr.transferId]
  requested _ := by simp [hr.transfer]
  draining hd := by
    rw [hr.draining] at hd
    exact absurd hdrain hd
  idRange := by
    rw [hr.transferId]
    exact nextTransferId_range _ h.idRange

/-- Every move of the trigger keeps the lane well-formed. -/
theorem wf_triggerMove {now : Time} {stale : Prop} (s t : Lane)
    (hm : TriggerMove now stale s t) (h : s.Wf) : t.Wf := by
  cases hm with
  | wake due => exact h.same (by constructor <;> intros <;> rfl)
  | fail => exact h.same (by constructor <;> intros <;> rfl)
  | pauseOver hd _ _ =>
    exact ⟨h.store, h.made, h.ordered, h.inFlight, h.requested,
      fun hn => absurd hd hn, h.idRange⟩
  | endYield _ _ => exact h.same (by constructor <;> intros <;> rfl)
  | clean _ _ => exact h.same (sameTransfers_cleanLocks now s)
  | askForLock _ _ _ _ _ _ => exact h.same (by constructor <;> intros <;> rfl)
  | @clear id hready hfront _ hreq _ =>
    refine h.pop (s.tasks id).store ?_ ?_ ?_ ?_ (by simp) ?_ ?_
    · intro k
      rw [letGo_queue]
      exact queue_popHead hfront k
    · intro j
      rw [letGo_tasks]
      rfl
    · rw [letGo_nextTask]
      rfl
    · rw [letGo_transferId]
      rfl
    · rw [letGo_transferRequested]
      exact hreq
    · intro hd
      rw [letGo_draining] at hd
      exact absurd hready.1 hd
  | request retry hready hfront _ _ hkind _ =>
    exact h.request hready.1 hfront hkind (requested_requestTransfer now retry _ s)

/-! ## The openings -/

/-- The queues once the task in flight has left at an FTDC. -/
theorem queue_dropCompleted (now : Time) (id : TaskId) (s : Lane) (k : Store) :
    (s.dropCompleted now id).queue k =
      if k = (s.tasks id).store then (s.queue k).tail else s.queue k := by
  refine (letGo_queue ..).trans ((queue_set s _ k _).trans ?_)
  split
  · rename_i hk
    rw [hk]
  · rfl

/-- The queues once the task in flight has failed. -/
theorem queue_dropFailed (now : Time) {id : TaskId} {s : Lane} (hfront : s.Front id) (k : Store) :
    (s.dropFailed now id).queue k =
      if k = (s.tasks id).store then (s.queue k).tail else s.queue k := by
  have hpop := queue_popHead (s := { s with tryAgainDue := none }) hfront k
  exact (letGo_queue ..).trans hpop

/-- The front task is queued once. -/
theorem Wf.not_mem_tail {s : Lane} (h : s.Wf) {id : TaskId} (hfront : s.Front id) :
    id ∉ (s.queue (s.tasks id).store).tail := by
  obtain ⟨rest, hrest⟩ := List.head?_eq_some_iff.mp hfront
  rw [hrest, List.tail_cons]
  intro hmem
  have hlt := h.ordered (s.tasks id).store
  rw [hrest] at hlt
  exact lt_irrefl id (List.rel_of_pairwise_cons hlt hmem)

/-- What is left of the queues once a front task has left holds the other tasks. -/
theorem Wf.mem_pop {s : Lane} (h : s.Wf) {id j : TaskId} (hfront : s.Front id) {k : Store}
    (hj : j ∈ if k = (s.tasks id).store then (s.queue k).tail else s.queue k) :
    j ∈ s.queue k ∧ j ≠ id := by
  split at hj
  · rename_i hk
    subst hk
    refine ⟨List.mem_of_mem_tail hj, ?_⟩
    rintro rfl
    exact h.not_mem_tail hfront hj
  · rename_i hk
    refine ⟨hj, ?_⟩
    rintro rfl
    exact hk (h.store k j hj).symm

/-- The task in flight leaves its queue at an FTDC. -/
theorem wf_dropCompleted {now : Time} {id : TaskId} {s : Lane} (h : s.Wf) :
    (s.dropCompleted now id).Wf := by
  refine h.pop (s.tasks id).store ?_ ?_ ?_ ?_ ?_ ?_ ?_
  · exact queue_dropCompleted now id s
  · simp [dropCompleted]
  · simp [dropCompleted]
  · simp [dropCompleted]
  · simp [dropCompleted]
  · simp [dropCompleted]
  · intro hd
    simp only [dropCompleted, letGo_draining, letGo_tryAgainDue] at hd ⊢
    exact (h.draining hd).2

/-- The task in flight leaves its queue when it fails. -/
theorem wf_dropFailed {now : Time} {id : TaskId} {s : Lane} (h : s.Wf) (hfront : s.Front id)
    (hreq : s.transferRequested = false) : (s.dropFailed now id).Wf := by
  refine h.pop (s.tasks id).store ?_ ?_ ?_ ?_ ?_ ?_ ?_
  · exact queue_dropFailed now hfront
  · simp [dropFailed, popHead]
  · simp [dropFailed, popHead]
  · simp [dropFailed, popHead]
  · simp [dropFailed]
  · simp [dropFailed, popHead, hreq]
  · simp [dropFailed, popHead]

/-- Counting a refusal changes no queue. -/
theorem sameTransfers_countTry (id : TaskId) (s : Lane) :
    SameTransfers { s with transferRequested := false } (s.countTry id) where
  transferQueue := rfl
  kind j := modifyTask_keeps (·.kind) (f := fun t => { t with tryAgain := t.tryAgain + 1 })
    (fun _ => rfl) id j _
  store j := modifyTask_keeps (·.store) (f := fun t => { t with tryAgain := t.tryAgain + 1 })
    (fun _ => rfl) id j _
  tid j := modifyTask_keeps (·.tid) (f := fun t => { t with tryAgain := t.tryAgain + 1 })
    (fun _ => rfl) id j _
  nextTask := rfl
  transferId := rfl
  transfer := rfl
  transferRequested := rfl
  draining := rfl
  tryAgainDue := rfl

/-- Counting a refusal leaves the front tasks in front. -/
theorem front_countTry {s : Lane} {id : TaskId} (h : s.Front id) : (s.countTry id).Front id := by
  have hst := sameTransfers_countTry id s
  rw [Front, hst.store, hst.queue]
  exact h

/-- A request answered is no longer out. -/
theorem Wf.unrequested {s : Lane} (h : s.Wf) : Wf { s with transferRequested := false } :=
  ⟨h.store, h.made, h.ordered, h.inFlight, by simp, h.draining, h.idRange⟩

theorem wf_countTry {id : TaskId} {s : Lane} (h : s.Wf) : (s.countTry id).Wf :=
  h.unrequested.same (sameTransfers_countTry id s)

/-- A queue after a task was created. -/
theorem queue_enqueue (task : TransferTask) (s : Lane) (k : Store) :
    (s.enqueue task).queue k = if k = task.store then s.queue k ++ [s.nextTask] else s.queue k := by
  have h := queue_set { s with
    tasks := Function.update s.tasks s.nextTask task, nextTask := s.nextTask + 1 } task.store k
    (s.queue task.store ++ [s.nextTask])
  refine Eq.trans h ?_
  split
  · rename_i hk
    rw [hk]
  · rfl

/-- The objects there were before a task was created. -/
theorem tasks_enqueue (task : TransferTask) (s : Lane) (id : TaskId) :
    (s.enqueue task).tasks id = if id = s.nextTask then task else s.tasks id := by
  simp [enqueue, Function.update_apply]

/-- A new task goes to the end of its store's queue. -/
theorem wf_enqueue {task : TransferTask} {s : Lane} (h : s.Wf) : (s.enqueue task).Wf where
  store := by
    intro k id hid
    rw [queue_enqueue] at hid
    rw [tasks_enqueue]
    by_cases hk : k = task.store
    · rw [if_pos hk, List.mem_append, List.mem_singleton] at hid
      rcases hid with hid | rfl
      · rw [if_neg (h.made k id hid).ne]
        exact h.store k id hid
      · rw [if_pos rfl, hk]
    · rw [if_neg hk] at hid
      rw [if_neg (h.made k id hid).ne]
      exact h.store k id hid
  made := by
    intro k id hid
    show id < s.nextTask + 1
    rw [queue_enqueue] at hid
    split at hid
    · rcases List.mem_append.mp hid with hid | hid
      · exact (h.made k id hid).trans (Nat.lt_succ_self _)
      · rw [List.mem_singleton.mp hid]
        exact Nat.lt_succ_self _
    · exact (h.made k id hid).trans (Nat.lt_succ_self _)
  ordered := by
    intro k
    rw [queue_enqueue]
    split
    · rw [List.pairwise_append]
      refine ⟨h.ordered k, List.pairwise_singleton _ _, ?_⟩
      intro a ha b hb
      rw [List.mem_singleton.mp hb]
      exact h.made k a ha
    · exact h.ordered k
  inFlight := by
    intro id hid
    obtain ⟨hfront, hkind, htid⟩ := h.inFlight id hid
    have hlt := h.made _ id hfront.mem
    have htask : (s.enqueue task).tasks id = s.tasks id := by
      rw [tasks_enqueue, if_neg hlt.ne]
    refine ⟨?_, by rw [htask]; exact hkind, by rw [htask]; exact htid⟩
    rw [Front, htask, queue_enqueue]
    split
    · rw [List.head?_append, hfront]
      rfl
    · exact hfront
  requested := h.requested
  draining := h.draining
  idRange := h.idRange

/-- The queues after `dequeue_clear`. -/
theorem queue_dequeueClear (id : TaskId) (s : Lane) (hs : s.StoresMatch) (k : Store) :
    (s.dequeueClear id).queue k = (s.queue k).filter (· ≠ id) := by
  unfold dequeueClear
  have hskip : ∀ k, id ∉ s.queue k → (s.queue k).filter (· ≠ id) = s.queue k := by
    intro k hk
    rw [List.filter_eq_self]
    intro a ha
    simp only [ne_eq, decide_not, Bool.not_eq_true', decide_eq_false_iff_not]
    rintro rfl
    exact hk ha
  dsimp only
  split
  · rw [queue_set]
    split
    · rename_i hk
      rw [hk]
    · rename_i hk
      rw [hskip k]
      intro hid
      exact hk (hs k id hid).symm
  · rename_i hmem
    rw [hskip k]
    intro hid
    exact hmem (by rw [hs k id hid]; exact hid)

/-- Everything else after `dequeue_clear`. -/
theorem dequeueClear_eq (id : TaskId) (s : Lane) :
    ∃ q, s.dequeueClear id = { s with transferQueue := q } := by
  unfold dequeueClear
  dsimp only
  split
  · exact ⟨_, rfl⟩
  · exact ⟨s.transferQueue, rfl⟩

/-- Taking a clear off its queue never touches the task in flight. -/
theorem wf_dequeueClear {id : TaskId} {s : Lane} (h : s.Wf) (hclear : (s.tasks id).kind = .clear) :
    (s.dequeueClear id).Wf := by
  have hqueue := queue_dequeueClear id s h.store
  obtain ⟨q, hq⟩ := dequeueClear_eq id s
  have hfields : (s.dequeueClear id).tasks = s.tasks ∧
      (s.dequeueClear id).nextTask = s.nextTask ∧ (s.dequeueClear id).transfer = s.transfer ∧
      (s.dequeueClear id).transferId = s.transferId ∧
      (s.dequeueClear id).transferRequested = s.transferRequested ∧
      (s.dequeueClear id).draining = s.draining ∧
      (s.dequeueClear id).tryAgainDue = s.tryAgainDue := by
    rw [hq]
    exact ⟨rfl, rfl, rfl, rfl, rfl, rfl, rfl⟩
  obtain ⟨htasks, hnext, htransfer, hid, hreq, hdrain, hdue⟩ := hfields
  constructor
  case store =>
    intro k j hj
    rw [hqueue] at hj
    rw [htasks]
    exact h.store k j (List.mem_of_mem_filter hj)
  case made =>
    intro k j hj
    rw [hqueue] at hj
    rw [hnext]
    exact h.made k j (List.mem_of_mem_filter hj)
  case ordered =>
    intro k
    rw [hqueue]
    exact (h.ordered k).filter _
  case inFlight =>
    intro j hj
    rw [htransfer] at hj
    obtain ⟨hfront, hkind, htid⟩ := h.inFlight j hj
    rw [Front, htasks, hqueue, hid]
    refine ⟨?_, hkind, htid⟩
    have hne : j ≠ id := by
      rintro rfl
      exact hkind hclear
    obtain ⟨rest, hrest⟩ := List.head?_eq_some_iff.mp hfront
    rw [hrest, List.filter_cons_of_pos (by simpa using hne)]
    rfl
  case requested =>
    rw [hreq, htransfer]
    exact h.requested
  case draining =>
    rw [hdrain, htransfer, hdue]
    exact h.draining
  case idRange =>
    rw [hid]
    exact h.idRange

theorem sameTransfers_abortLock (now : Time) (s : Lane) (k : Store) :
    s.SameTransfers (s.abortLock now k) := by
  unfold abortLock
  split
  · constructor <;> intros <;> rfl
  · exact .refl s

theorem sameTransfers_abortOtherLock (now : Time) (store : Store) (s : Lane) (k : Store) :
    s.SameTransfers (s.abortOtherLock now store k) := by
  unfold abortOtherLock
  split
  · constructor <;> intros <;> rfl
  · exact .refl s

/-- The lane an abort that leaves a drain starts to release locks in. -/
def drainBegun (now : Time) (s : Lane) : Lane :=
  { s.clearTransfers with
    draining := s.beginDrain now, lockRequested := .empty }.wakeAt (now + drainStall)

/-- The transfers after an abort: those of the emptied lane, and perhaps a drain. -/
theorem sameTransfers_abortTransfers (now : Time) (s : Lane) :
    (s.leavesDraining now = true ∧ (s.drainBegun now).SameTransfers (s.abortTransfers now)) ∨
      (s.leavesDraining now = false ∧ s.clearTransfers.SameTransfers (s.abortTransfers now)) := by
  unfold abortTransfers
  cases hl : s.leavesDraining now with
  | true =>
    refine .inl ⟨rfl, ?_⟩
    rw [if_pos rfl]
    exact sameTransfers_foldl (fun t k => sameTransfers_abortOtherLock now _ t k) _ _
  | false =>
    refine .inr ⟨rfl, ?_⟩
    rw [if_neg (by simp)]
    have h := sameTransfers_foldl (fun t k => sameTransfers_abortLock now t k)
      s.locks.keys { s.clearTransfers with lockRequested := .empty }
    exact ⟨h.transferQueue, h.kind, h.store, h.tid, h.nextTask, h.transferId, h.transfer,
      h.transferRequested, h.draining, h.tryAgainDue⟩

/-- An abort empties the queues and forgets the transfer. -/
theorem wf_abortTransfers {now : Time} {s : Lane} (h : s.Wf) : (s.abortTransfers now).Wf := by
  rcases sameTransfers_abortTransfers now s with ⟨-, hst⟩ | ⟨-, hst⟩
  · refine Wf.same ?_ hst
    exact h.empty (fun k => rfl) rfl rfl rfl rfl
  · refine Wf.same ?_ hst
    exact h.empty (fun k => rfl) rfl rfl rfl rfl

/-- A drain ends with its store's lock given back. -/
theorem wf_drainEnded (now : Time) {d : Drain} {s : Lane} (h : s.Wf) (hd : s.draining = some d)
    (wakeups : ℕ) :
    (letGo now d.store { s with wakeups := wakeups, draining := none }).Wf := by
  obtain ⟨htransfer, hdue⟩ := h.draining (by simp [hd])
  refine h.forget ?_ ?_ ?_ ?_ ?_ ?_ ?_
  · intro k
    rw [letGo_queue]
    rfl
  · simp
  · simp
  · simp
  · simp
  · rw [letGo_transferRequested]
    have := h.requested
    rw [htransfer] at this
    simpa using this
  · simp

/-- Every opening keeps the lane well-formed. -/
theorem wf_opening {now : Time} {s t : Lane} {e : LaneEvent} {closing : Option Notice}
    (ho : Opening now s e t closing) (h : s.Wf)
    (hclear : ∀ id, e = .dequeueClear id → (s.tasks id).kind = .clear) : t.Wf := by
  cases ho with
  | quiet _ hq => exact h.same hq.sameTransfers
  | granted store => exact h.same (by constructor <;> intros <;> rfl)
  | taken _ => exact h.same (sameTransfers_lockTaken now _ s)
  | freed _ => exact h.same (sameTransfers_freed now _ s)
  | drained data hd =>
    have hn := h.draining (by simp [hd])
    exact ⟨h.store, h.made, h.ordered, h.inFlight, h.requested, fun _ => hn, h.idRange⟩
  | drainFailed status hd => exact wf_drainEnded _ h hd s.wakeups
  | drainCompleted hd => exact wf_drainEnded _ h hd s.wakeups
  | @tryAgain id transfer ha hn =>
    have hc : (s.countTry id).Wf := wf_countTry h
    refine ⟨hc.store, hc.made, hc.ordered, hc.inFlight, hc.requested, ?_, hc.idRange⟩
    intro hd
    have := (h.draining hd).1
    simp [ha.inFlight] at this
  | triedOut ha hn =>
    exact wf_dropFailed (wf_countTry h) (front_countTry (h.inFlight _ ha.inFlight).1) rfl
  | lockLost ha => exact h.unrequested.same (by constructor <;> intros <;> rfl)
  | yielded ha =>
    refine h.forget ?_ ?_ ?_ ?_ ?_ ?_ ?_
    · intro k
      rw [letGo_queue]
      rfl
    · simp
    · simp
    · simp
    · simp
    · simp
    · intro hd
      simp only [letGo_draining, letGo_tryAgainDue] at hd ⊢
      exact (h.draining hd).2
  | failed ha h1 h5 h6 => exact wf_dropFailed h.unrequested (h.inFlight _ ha.inFlight).1 rfl
  | completed ha => exact wf_dropCompleted h
  | strangeCompletion hs => exact h.same (sameTransfers_someoneAtWork now s)
  | enqueue he => exact wf_enqueue h
  | dequeue id => exact wf_dequeueClear h (hclear id rfl)
  | abort => exact wf_abortTransfers h
  | fire hd hn => exact h.same (by constructor <;> intros <;> rfl)
  | poke => exact h.same (by constructor <;> intros <;> rfl)
  | woken hw hd => exact h.same (by constructor <;> intros <;> rfl)
  | drainOverdue hw hd ho => exact wf_drainEnded _ h hd _
  | reset => exact h.empty (fun k => rfl) rfl rfl rfl rfl
  | teardown => exact h.same (sameTransfers_releaseLocksNow now s)

/-- Raising the last event of a step changes nothing but the log. -/
theorem wf_close {s : Lane} (h : s.Wf) (closing : Option Notice) : (s.close closing).Wf := by
  cases closing with
  | none => exact h
  | some n => exact h.same (by constructor <;> intros <;> rfl)

/-- Logging an event changes no transfer. -/
theorem wf_receive {s : Lane} (h : s.Wf) (env : Env) (e : LaneEvent) : (s.receive env e).Wf :=
  h.same (by constructor <;> intros <;> rfl)

end Lane

end Bmdwire
